import PascalFrontEnd.Parse.Program
import PascalFrontEnd.Proofs.Grammar.Repetition
import PascalFrontEnd.Proofs.Session.Outcome

namespace PascalFrontEnd

namespace Rule

variable {σ α β : Type} [TokenStream σ]

def Yields (rule : Rule σ α) (reads : List Token → α → Prop) : Prop :=
  ∀ session value after, rule session = .ok value after →
    ∃ tokens, session.Passes tokens after ∧ reads tokens value

theorem mismatch_yields (expected : Kind) (reads : List Token → α → Prop) :
    (mismatch expected : Rule σ α).Yields reads := by
  intro session value after ran
  rw [mismatch_run] at ran
  cases ran

theorem repeatWhile_yields {admits : Kind → Bool} {rule : Rule σ α}
    {reads : List Token → α → Prop}
    (once : ∀ session value after, admits session.current.kind = true →
      rule session = .ok value after →
      ∃ tokens, session.Passes tokens after ∧ reads tokens value) (steps : Nat) :
    (repeatWhile admits rule steps).Yields (Repeated reads) := by
  induction steps with
  | zero =>
      intro session values after ran
      obtain ⟨rfl, rfl⟩ := pure_ok.mp ran
      exact ⟨[], .done _, .none⟩
  | succ steps ih =>
      intro session values after ran
      rw [repeatWhile, currentKind_bind] at ran
      by_cases admitted : admits session.current.kind = true
      · simp only [if_pos admitted, bind_ok, pure_ok] at ran
        rcases ran with ⟨first, middle, ranFirst, others, last, ranOthers, rfl, rfl⟩
        obtain ⟨tokens, passed, read⟩ := once session first middle admitted ranFirst
        obtain ⟨rest, passedRest, readRest⟩ := ih middle others last ranOthers
        exact ⟨tokens ++ rest, passed.trans passedRest, .more read readRest⟩
      · simp only [if_neg admitted, pure_ok] at ran
        rcases ran with ⟨rfl, rfl⟩
        exact ⟨[], .done _, .none⟩

end Rule

/-! ### Expressions -/

theorem Kind.plain_of_isAdditive {kind : Kind} (additive : kind.isAdditive = true) :
    Rule.Plain kind := by
  rcases eq_of_isAdditive additive with rfl | rfl <;> decide

theorem Kind.plain_of_isMultiplicative {kind : Kind}
    (multiplicative : kind.isMultiplicative = true) : Rule.Plain kind := by
  rcases eq_of_isMultiplicative multiplicative with rfl | rfl | rfl <;> decide

namespace Rule

variable {σ : Type} [TokenStream σ]

theorem literal_yields {kind : Kind} (plain : Plain kind) :
    (literal kind : Rule σ Tree).Yields fun tokens tree =>
      ∃ token, Single kind tokens token ∧ tree = .number token := by
  intro session tree after ran
  simp only [literal, bind_ok, pure_ok] at ran
  rcases ran with ⟨token, last, taken, rfl, rfl⟩
  obtain ⟨passed, here⟩ := take_passes plain taken
  exact ⟨[token], passed, token, ⟨rfl, here⟩, rfl⟩

theorem variableRef_yields : (variableRef : Rule σ Tree).Yields (Reads .factor) := by
  intro session tree after ran
  simp only [variableRef, bind_ok, pure_ok] at ran
  rcases ran with ⟨token, last, taken, rfl, rfl⟩
  obtain ⟨passed, here⟩ := take_passes ⟨by decide, by decide⟩ taken
  exact ⟨[token], passed, .reference here⟩

theorem parenthesised_yields {inner : Rule σ Tree}
    (inside : inner.Yields (Reads .expression)) {session after : Session σ} {tree : Tree}
    (here : session.current.kind = .openParen)
    (ran : parenthesised inner session = .ok tree after) :
    ∃ tokens, session.Passes tokens after ∧ Reads .factor tokens tree := by
  simp only [parenthesised, announceBracket_bind] at ran
  rw [bind_of_ok (skip_announced here)] at ran
  simp only [bind_ok, pure_ok] at ran
  rcases ran with ⟨value, middle, ranInner, _, last, closing, rfl, rfl⟩
  obtain ⟨tokens, passed, read⟩ := inside _ value middle ranInner
  obtain ⟨closing, passedLast, lastKind⟩ := skip_passes ⟨by decide, by decide⟩ closing
  refine ⟨session.current :: (tokens ++ [closing]), .token ?_ ?_ (passed.trans passedLast), ?_⟩
  · rw [here]; decide
  · rw [here]; decide
  · exact .parenthesised here read lastKind

theorem unsignedFactor_cases (inner : Rule σ Tree) (session : Session σ) :
    (session.current.kind = .integerLiteral ∧
      unsignedFactor inner session = literal .integerLiteral session) ∨
    (session.current.kind = .realLiteral ∧
      unsignedFactor inner session = literal .realLiteral session) ∨
    (session.current.kind = .openParen ∧
      unsignedFactor inner session = parenthesised inner session) ∨
    (session.current.kind ≠ .integerLiteral ∧ session.current.kind ≠ .realLiteral ∧
      session.current.kind ≠ .openParen ∧
      unsignedFactor inner session = variableRef session) := by
  simp only [unsignedFactor, currentKind_bind]
  cases session.current.kind <;> simp

theorem unsignedFactor_yields {inner : Rule σ Tree}
    (inside : inner.Yields (Reads .expression)) :
    (unsignedFactor inner).Yields (Reads .factor) := by
  intro session tree after ran
  rcases unsignedFactor_cases inner session with
    ⟨-, run⟩ | ⟨-, run⟩ | ⟨here, run⟩ | ⟨-, -, -, run⟩ <;> rw [run] at ran
  · rcases literal_yields ⟨by decide, by decide⟩ _ _ _ ran with
      ⟨_, passed, token, ⟨rfl, kind⟩, rfl⟩
    exact ⟨[token], passed, .integer kind⟩
  · rcases literal_yields ⟨by decide, by decide⟩ _ _ _ ran with
      ⟨_, passed, token, ⟨rfl, kind⟩, rfl⟩
    exact ⟨[token], passed, .real kind⟩
  · exact parenthesised_yields inside here ran
  · exact variableRef_yields _ _ _ ran

theorem take_yields {kind : Kind} (plain : Plain kind) :
    (take kind : Rule σ Token).Yields (Single kind) := by
  intro session token after ran
  obtain ⟨passed, here⟩ := take_passes plain ran
  exact ⟨[token], passed, rfl, here⟩

theorem factor_yields {inner : Rule σ Tree} (inside : inner.Yields (Reads .expression))
    (steps : Nat) : (factor inner steps).Yields (Reads .factor) := by
  intro session tree after ran
  simp only [factor, bind_ok, pure_ok] at ran
  rcases ran with ⟨signs, middle, ranSigns, operand, last, ranOperand, rfl, rfl⟩
  have once : (take .unarySign : Rule σ Token).Yields (Single .unarySign) :=
    take_yields ⟨by decide, by decide⟩
  rcases repeatWhile_yields (fun s v t _ => once s v t) steps _ _ _ ranSigns with
    ⟨tokens, passed, repeated⟩
  obtain ⟨rest, passedRest, read⟩ := unsignedFactor_yields inside _ _ _ ranOperand
  exact ⟨tokens ++ rest, passed.trans passedRest, .signs repeated read⟩

theorem operation_yields {joins : Kind → Bool} {operand : Rule σ Tree}
    {reads : List Token → Tree → Prop} (plain : ∀ kind, joins kind = true → Plain kind)
    (part : operand.Yields reads) {session after : Session σ} {value : Token × Tree}
    (admitted : joins session.current.kind = true)
    (ran : operation operand session = .ok value after) :
    ∃ tokens, session.Passes tokens after ∧ Operation joins reads tokens value := by
  simp only [operation, currentKind_bind, bind_ok, pure_ok] at ran
  rcases ran with ⟨op, middle, taken, right, last, ranRight, rfl, rfl⟩
  obtain ⟨passed, opKind⟩ := take_passes (plain _ admitted) taken
  obtain ⟨tokens, passedRest, read⟩ := part _ _ _ ranRight
  exact ⟨[op] ++ tokens, passed.trans passedRest, tokens, rfl, opKind ▸ admitted, read⟩

theorem chain_yields {joins : Kind → Bool} {operand : Rule σ Tree}
    {low high : List Token → Tree → Prop} (plain : ∀ kind, joins kind = true → Plain kind)
    (part : operand.Yields low) (single : ∀ tokens tree, low tokens tree → high tokens tree)
    (joined : ∀ left leftValue op right rightValue, high left leftValue →
      joins op.kind = true → low right rightValue →
      high (left ++ [op] ++ right) (.binOp leftValue op rightValue)) (steps : Nat) :
    (chain joins operand steps).Yields high := by
  intro session tree after ran
  simp only [chain, bind_ok, pure_ok] at ran
  rcases ran with ⟨first, middle, ranFirst, operations, last, ranRest, rfl, rfl⟩
  obtain ⟨tokens, passed, read⟩ := part _ _ _ ranFirst
  rcases repeatWhile_yields (fun _ _ _ => operation_yields plain part) steps _ _ _ ranRest with
    ⟨rest, passedRest, repeated⟩
  exact ⟨tokens ++ rest, passed.trans passedRest,
    repeated.foldl_binOp joined (single _ _ read)⟩

theorem term_yields {inner : Rule σ Tree} (inside : inner.Yields (Reads .expression))
    (steps : Nat) : (term inner steps).Yields (Reads .term) :=
  chain_yields (fun _ => Kind.plain_of_isMultiplicative) (factor_yields inside steps)
    (fun _ _ => .onlyFactor) (fun _ _ _ _ _ => .product) steps

theorem expression_yields (steps : Nat) :
    (expression steps : Rule σ Tree).Yields (Reads .expression) := by
  induction steps with
  | zero => exact mismatch_yields _ _
  | succ steps ih =>
      exact chain_yields (fun _ => Kind.plain_of_isAdditive) (term_yields ih steps)
        (fun _ _ => .onlyTerm) (fun _ _ _ _ _ => .sum) steps

end Rule

/-! ### Statements -/

namespace Rule

variable {σ α : Type} [TokenStream σ]

theorem skip_yields_led {kind : Kind} (plain : Plain kind) {rule : Rule σ α}
    {reads : List Token → α → Prop} (behind : rule.Yields reads) :
    (do skip kind; rule : Rule σ α).Yields (Led kind reads) := by
  intro session value after ran
  obtain ⟨_, middle, skipped, ranRest⟩ := bind_ok.mp ran
  obtain ⟨token, passed, here⟩ := skip_passes plain skipped
  obtain ⟨tokens, passedRest, read⟩ := behind _ _ _ ranRest
  exact ⟨[token] ++ tokens, passed.trans passedRest, token, tokens, rfl, here, read⟩

theorem assignment_yields (steps : Nat) :
    (assignment steps : Rule σ Tree).Yields (Reads .statement) := by
  intro session tree after ran
  simp only [assignment, bind_ok, pure_ok] at ran
  rcases ran with ⟨target, _, took, _, _, skipped, value, last, ranValue, rfl, rfl⟩
  obtain ⟨passedTarget, targetKind⟩ := take_passes ⟨by decide, by decide⟩ took
  obtain ⟨becomes, passedBecomes, becomesKind⟩ := skip_passes ⟨by decide, by decide⟩ skipped
  obtain ⟨tokens, passed, read⟩ := expression_yields steps _ _ _ ranValue
  exact ⟨_, passedTarget.trans (passedBecomes.trans passed),
    .assignment targetKind becomesKind read⟩

theorem statement_cases (compound : Rule σ (List Tree)) (steps : Nat)
    (session : Session σ) :
    (session.current.kind = .beginWord ∧
      statement compound steps session = (compound >>= fun body => pure (.compound body)) session) ∨
    (session.current.kind = .identifier ∧
      statement compound steps session = assignment steps session) ∨
    (session.current.kind ≠ .beginWord ∧ session.current.kind ≠ .identifier ∧
      statement compound steps session = .ok .noOp session) := by
  simp only [statement, currentKind_bind]
  cases session.current.kind <;> simp <;> rfl

theorem statement_yields {compound : Rule σ (List Tree)}
    (nested : compound.Yields (Reads .compound)) (steps : Nat) :
    (statement compound steps).Yields (Reads .statement) := by
  intro session tree after ran
  rcases statement_cases compound steps session with
    ⟨-, run⟩ | ⟨-, run⟩ | ⟨-, -, run⟩ <;> rw [run] at ran
  · simp only [bind_ok, pure_ok] at ran
    rcases ran with ⟨body, last, ranBody, rfl, rfl⟩
    obtain ⟨tokens, passed, read⟩ := nested _ _ _ ranBody
    exact ⟨tokens, passed, .nested read⟩
  · exact assignment_yields steps _ _ _ ran
  · cases ran
    exact ⟨[], .done _, .emptyStatement⟩

theorem statements_yields {one : Rule σ Tree} (single : one.Yields (Reads .statement))
    (steps : Nat) : (statements one steps).Yields (Reads .statements) := by
  induction steps with
  | zero =>
      intro session values after ran
      obtain ⟨rfl, rfl⟩ := pure_ok.mp ran
      exact ⟨[], .done _, .lastStatement .emptyStatement⟩
  | succ steps ih =>
      intro session values after ran
      simp only [statements, bind_ok, sees_bind] at ran
      rcases ran with ⟨first, _, ranFirst, others, middle, ranOthers, ran⟩
      obtain ⟨tokens, passed, read⟩ := single _ _ _ ranFirst
      have once : (do skip .semicolon; statements one steps : Rule σ (List Tree)).Yields
          (Led .semicolon (Reads .statements)) := skip_yields_led ⟨by decide, by decide⟩ ih
      rcases repeatWhile_yields (fun s v t _ => once s v t) steps _ _ _ ranOthers with
        ⟨rest, passedRest, repeated⟩
      by_cases missing : (middle.current.kind == Kind.identifier) = true
      · rw [if_pos missing, current_bind, fail_run] at ran
        cases ran
      · rw [if_neg missing, pure_ok] at ran
        rcases ran with ⟨rfl, rfl⟩
        exact ⟨tokens ++ rest, passed.trans passedRest,
          Reads.statements_repeated (.lastStatement read) repeated⟩

theorem compound_yields (steps : Nat) :
    (compound steps : Rule σ (List Tree)).Yields (Reads .compound) := by
  induction steps with
  | zero => exact mismatch_yields _ _
  | succ steps ih =>
      intro session body after ran
      simp only [compound, current_bind, note_bind, bind_ok, pure_ok] at ran
      rcases ran with ⟨_, _, opening, statements, _, ranBody, _, last, closing, rfl, rfl⟩
      obtain ⟨first, passedFirst, firstKind⟩ := skip_passes ⟨by decide, by decide⟩ opening
      rcases statements_yields (statement_yields ih steps) steps _ _ _ ranBody with
        ⟨tokens, passed, read⟩
      obtain ⟨last, passedLast, lastKind⟩ := skip_passes ⟨by decide, by decide⟩ closing
      exact ⟨_, .note _ (passedFirst.trans (passed.trans passedLast)),
        .compound firstKind read lastKind⟩

end Rule

/-! ### Declarations and programs -/

namespace Rule

variable {σ : Type} [TokenStream σ]

theorem identifierName_yields : (identifierName : Rule σ String).Yields Named := by
  intro session name after ran
  simp only [identifierName, bind_ok, pure_ok] at ran
  rcases ran with ⟨token, last, taken, rfl, rfl⟩
  obtain ⟨passed, kind⟩ := take_passes ⟨by decide, by decide⟩ taken
  exact ⟨[token], passed, token, ⟨rfl, kind⟩, rfl⟩

theorem variableList_yields (steps : Nat) :
    (variableList steps : Rule σ (List Tree)).Yields (Reads .variableList) := by
  intro session vars after ran
  simp only [variableList, bind_ok, pure_ok] at ran
  rcases ran with ⟨first, _, ranFirst, others, _, ranOthers, _, _, skipped, type, last, tookType,
    rfl, rfl⟩
  obtain ⟨tokens, passed, named⟩ := identifierName_yields _ _ _ ranFirst
  have once : (do skip .comma; identifierName : Rule σ String).Yields (Led .comma Named) :=
    skip_yields_led ⟨by decide, by decide⟩ identifierName_yields
  rcases repeatWhile_yields (fun s v t _ => once s v t) steps _ _ _ ranOthers with
    ⟨rest, passedRest, repeated⟩
  obtain ⟨colon, passedColon, colonKind⟩ := skip_passes ⟨by decide, by decide⟩ skipped
  obtain ⟨passedType, typeKind⟩ := take_passes ⟨by decide, by decide⟩ tookType
  exact ⟨_, (passed.trans passedRest).trans (passedColon.trans passedType),
    .variableList (.names_repeated named repeated) colonKind typeKind⟩

theorem variableGroup_yields (steps : Nat) :
    (variableGroup steps : Rule σ (List Tree)).Yields Group := by
  intro session vars after ran
  simp only [variableGroup, bind_ok, pure_ok] at ran
  rcases ran with ⟨declared, _, ranList, _, last, skipped, rfl, rfl⟩
  obtain ⟨tokens, passed, read⟩ := variableList_yields steps _ _ _ ranList
  obtain ⟨semicolon, passedLast, kind⟩ := skip_passes ⟨by decide, by decide⟩ skipped
  exact ⟨_, passed.trans passedLast, tokens, semicolon, rfl, kind, read⟩

theorem variableSection_yields (steps : Nat) :
    (variableSection steps : Rule σ (List Tree)).Yields Variables := by
  intro session vars after ran
  simp only [variableSection, sees_bind] at ran
  by_cases opened : (session.current.kind == Kind.varWord) = true
  · simp only [if_pos opened, bind_ok, pure_ok] at ran
    rcases ran with ⟨_, _, skipped, first, _, ranFirst, others, last, ranOthers, rfl, rfl⟩
    obtain ⟨word, passedWord, wordKind⟩ := skip_passes ⟨by decide, by decide⟩ skipped
    obtain ⟨tokens, passed, group⟩ := variableGroup_yields steps _ _ _ ranFirst
    rcases repeatWhile_yields (fun s v t _ => variableGroup_yields steps s v t) steps _ _ _
      ranOthers with ⟨rest, passedRest, repeated⟩
    exact ⟨word :: (tokens ++ rest), passedWord.trans (passed.trans passedRest),
      .inr ⟨word, _, rfl, wordKind, .groups_repeated group repeated⟩⟩
  · simp only [if_neg opened, pure_ok] at ran
    rcases ran with ⟨rfl, rfl⟩
    exact ⟨[], .done _, .inl ⟨rfl, rfl⟩⟩

theorem procedure_yields {block : Rule σ (List Tree × List Tree)}
    (inside : block.Yields (Reads .block)) : (procedure block).Yields Procedure := by
  intro session tree after ran
  simp only [procedure, bind_ok, pure_ok, current_bind, note_bind] at ran
  rcases ran with ⟨_, _, opening, name, _, ranName, _, _, skipped, ⟨declared, statements⟩, _,
    ranBlock, _, last, closing, rfl, rfl⟩
  obtain ⟨word, passedWord, wordKind⟩ := skip_passes ⟨by decide, by decide⟩ opening
  obtain ⟨_, passedName, token, ⟨rfl, nameKind⟩, rfl⟩ := identifierName_yields _ _ _ ranName
  rcases skip_passes ⟨by decide, by decide⟩ skipped with
    ⟨semicolon, passedSemicolon, semicolonKind⟩
  obtain ⟨tokens, passed, read⟩ := inside _ _ _ ranBlock
  obtain ⟨closing, passedLast, lastKind⟩ := skip_passes ⟨by decide, by decide⟩ closing
  refine ⟨_, passedWord.trans (passedName.trans (.note _
    (passedSemicolon.trans (passed.trans passedLast)))), ?_⟩
  exact ⟨word, token, semicolon, tokens, closing, declared, statements, by simp, wordKind,
    nameKind, semicolonKind, lastKind, read, rfl⟩

theorem declarations_yields {block : Rule σ (List Tree × List Tree)}
    (inside : block.Yields (Reads .block)) (steps : Nat) :
    (declarations block steps).Yields (Reads .declarations) := by
  intro session declared after ran
  simp only [declarations, current_bind, note_bind, bind_ok] at ran
  rcases ran with ⟨vars, _, ranVars, procedures, last, ranProcedures, ran⟩
  obtain ⟨tokens, passed, leading⟩ := variableSection_yields steps _ _ _ ranVars
  rcases repeatWhile_yields (fun s v t _ => procedure_yields inside s v t) steps _ _ _
    ranProcedures with ⟨rest, passedRest, repeated⟩
  have returned : orNoOp (vars ++ procedures) = declared ∧ last = after := by
    cases shape : vars ++ procedures <;> rw [shape] at ran <;> exact pure_ok.mp ran
  rcases returned with ⟨rfl, rfl⟩
  refine ⟨tokens ++ rest, .note _ (passed.trans passedRest), ?_⟩
  rcases leading with ⟨rfl, rfl⟩ | ⟨word, groups, rfl, wordKind, read⟩
  · exact .withoutVariables (.procedures_repeated repeated)
  · exact .withVariables wordKind read (.procedures_repeated repeated)

theorem block_yields (steps : Nat) :
    (block steps : Rule σ (List Tree × List Tree)).Yields (Reads .block) := by
  induction steps with
  | zero => exact mismatch_yields _ _
  | succ steps ih =>
      intro session value after ran
      simp only [block, bind_ok, pure_ok] at ran
      rcases ran with ⟨declared, _, ranDeclared, statements, last, ranCompound, rfl, rfl⟩
      obtain ⟨tokens, passed, read⟩ := declarations_yields ih steps _ _ _ ranDeclared
      obtain ⟨rest, passedRest, readRest⟩ := compound_yields (steps + 1) _ _ _ ranCompound
      exact ⟨tokens ++ rest, passed.trans passedRest, .block read readRest⟩

theorem headedProgram_yields (steps : Nat) :
    (headedProgram steps : Rule σ Tree).Yields Unended := by
  intro session tree after ran
  simp only [headedProgram, bind_ok, pure_ok, note_bind] at ran
  rcases ran with ⟨_, _, opening, name, _, ranName, _, _, skipped, ⟨declared, statements⟩, last,
    ranBlock, rfl, rfl⟩
  obtain ⟨word, passedWord, wordKind⟩ := skip_passes ⟨by decide, by decide⟩ opening
  obtain ⟨_, passedName, token, ⟨rfl, nameKind⟩, rfl⟩ := identifierName_yields _ _ _ ranName
  rcases skip_passes ⟨by decide, by decide⟩ skipped with
    ⟨semicolon, passedSemicolon, semicolonKind⟩
  obtain ⟨tokens, passed, read⟩ := block_yields steps _ _ _ ranBlock
  refine ⟨_, passedWord.trans (passedName.trans (.note _ (passedSemicolon.trans passed))), ?_⟩
  intro period periodKind
  exact .headed wordKind nameKind semicolonKind read periodKind

theorem headlessProgram_yields (steps : Nat) :
    (headlessProgram steps : Rule σ Tree).Yields Unended := by
  intro session tree after ran
  simp only [headlessProgram, bind_ok, pure_ok] at ran
  rcases ran with ⟨statements, last, ranCompound, rfl, rfl⟩
  obtain ⟨tokens, passed, read⟩ := compound_yields steps _ _ _ ranCompound
  exact ⟨tokens, passed, fun period periodKind => .headless read periodKind⟩

theorem headedOrHeadless_yields (steps : Nat) :
    (headedOrHeadless steps : Rule σ Tree).Yields Unended := by
  intro session tree after ran
  simp only [headedOrHeadless, sees_bind] at ran
  by_cases headed : (session.current.kind == Kind.programWord) = true
  · rw [if_pos headed] at ran
    exact headedProgram_yields steps _ _ _ ran
  · rw [if_neg headed] at ran
    exact headlessProgram_yields steps _ _ _ ran

theorem program_yields (steps : Nat) :
    (program steps : Rule σ Tree).Yields (Reads .program) := by
  intro session tree after ran
  simp only [program, bind_ok, pure_ok] at ran
  rcases ran with ⟨value, _, ranBody, _, last, skipped, rfl, rfl⟩
  obtain ⟨tokens, passed, unended⟩ := headedOrHeadless_yields steps _ _ _ ranBody
  obtain ⟨period, passedLast, periodKind⟩ := skip_passes ⟨by decide, by decide⟩ skipped
  exact ⟨tokens ++ [period], passed.trans passedLast, unended period periodKind⟩

end Rule

end PascalFrontEnd
