import PascalFrontEnd.Proofs.Run.Bookkeeping
import PascalFrontEnd.Proofs.Run.ErrorPlace
import PascalFrontEnd.Proofs.Tree.Sketch

/-!
For every sequence of kinds and of parses there is one plan of all results, to be filled
in with the tokens at the places it names.
-/

namespace PascalFrontEnd

/-- The result of a parse without the tokens in it. An error has no place of its
own: it is about the token at which the parse stops. -/
inductive Verdict where
  | parsed (sketch : Sketch)
  | unknownToken (expected : Kind)
  | unexpected (expected : Kind)
  | missingSeparator
  | trailing

namespace Verdict

def fill (stream : Nat → Token) (found : Token) : Verdict → Except ParseError Tree
  | parsed sketch => .ok (sketch.fill stream)
  | unknownToken expected => .error (.unknownToken found.raw expected found.line)
  | unexpected expected => .error (.unexpected expected found)
  | missingSeparator => .error (.missingSeparator found)
  | trailing => .error (.trailing found)

def ofError : ParseError → Verdict
  | .unknownToken _ expected _ => unknownToken expected
  | .unexpected expected _ => unexpected expected
  | .missingSeparator _ => missingSeparator
  | .trailing _ => trailing

theorem ofError_eq_of_alike {T : Token → Token → Prop} [Likeness T] {error other : ParseError}
    (alike : error.Alike T other) : ofError error = ofError other := by
  cases alike with
  | mismatch expected like =>
      unfold ParseError.ofMismatch
      rw [Likeness.kind_eq like]
      split <;> rfl
  | missingSeparator | trailing => rfl

theorem fill_ofError {error : ParseError} {expected : Kind} {found : Token}
    (blames : Blames error expected found) (stream : Nat → Token) :
    (ofError error).fill stream found = .error error := by
  cases blames with
  | mismatch =>
      unfold ParseError.ofMismatch
      split <;> rfl
  | missingSeparator | trailing => rfl

end Verdict

/-- A parse in a plan: what it comes to, how many tokens have been drawn after
it, and the brackets announced by then. -/
structure PlannedStep where
  verdict : Verdict
  pulls : Nat
  brackets : Array Nat

namespace PlannedStep

def fill (stream : Nat → Token) (step : PlannedStep) :
    Except ParseError Tree × Session.Sight :=
  let current := stream (step.pulls - 1)
  (step.verdict.fill stream current, ⟨current, step.pulls, step.brackets⟩)

end PlannedStep

theorem Mode.Reads.unique {mode : Mode} {tokens : List Token} {tree other : Tree}
    (read : mode.Reads tokens tree) (read' : mode.Reads tokens other) : tree = other := by
  have shown := Replay.shows_tokens tokens
  obtain ⟨_, parsed, -⟩ := Session.parse_of_reads shown read mode.stops_endOfInput
  obtain ⟨_, parsed', -⟩ := Session.parse_of_reads shown read' mode.stops_endOfInput
  rw [parsed, Prod.mk.injEq, Except.ok.injEq] at parsed'
  exact parsed'.1

theorem counterparts_congr (stream : Nat → Token) (place : Nat) {tokens others : List Token}
    (same : tokens.length = others.length) :
    counterparts stream place tokens = counterparts stream place others := by
  induction tokens generalizing place others with
  | nil => rw [List.length_eq_zero_iff.mp same.symm]
  | cons token tokens ih =>
      cases others with
      | nil => cases same
      | cons other others => rw [counterparts, counterparts, ih _ (Nat.succ.inj same)]

theorem counterparts_succ (stream : Nat → Token) (place : Nat) (tokens : List Token) :
    counterparts stream (place + 1) tokens =
      counterparts (fun at' => stream (at' + 1)) place tokens := by
  induction tokens generalizing place with
  | nil => rfl
  | cons token tokens ih => rw [counterparts, counterparts, ih]

namespace Replay

theorem kind_handed (tokens : List Token) (place : Nat) :
    ((ofTokens tokens).handed place).kind = (Token.kinds tokens).getD place .endOfInput := by
  rw [handed_eq_getD, Token.kinds, List.getD_eq_getElem?_getD, List.getD_eq_getElem?_getD,
    List.getElem?_map]
  show ((tokens[place]?).getD _).kind = _
  cases tokens[place]? <;> rfl

theorem kind_handed_eq {tokens others : List Token}
    (same : Token.kinds others = Token.kinds tokens) (place : Nat) :
    ((ofTokens others).handed place).kind = ((ofTokens tokens).handed place).kind := by
  rw [kind_handed, kind_handed, same]

theorem counterparts_handed (replay : Replay) :
    counterparts replay.handed 0 replay.rest = replay.rest := by
  rcases replay with ⟨rest, line⟩
  induction rest generalizing line with
  | nil => rfl
  | cons token rest ih =>
      rw [counterparts_cons_eq, counterparts_succ]
      exact ⟨rfl, ih token.line⟩

variable {tokens others consumed consumed' unread unread' : List Token}
  {session session' after : Session Replay}

theorem Books.counterparts_passed (books : Books tokens consumed unread session)
    {front : List Token} (passed : session.Passes front after) :
    counterparts (ofTokens tokens).handed consumed.length front = front := by
  obtain ⟨rest, later⟩ := books_of_passes (books.passed.trans passed)
  have whole : counterparts (ofTokens tokens).handed 0 tokens = tokens :=
    counterparts_handed (ofTokens tokens)
  generalize (ofTokens tokens).handed = stream at whole ⊢
  rw [later.split, counterparts_append_eq, counterparts_append_eq, Nat.zero_add] at whole
  exact whole.1.2

theorem Books.parse (books : Books tokens consumed unread session) (mode : Mode) :
    ∃ consumed unread, Books tokens consumed unread (session.parse mode).2 := by
  obtain ⟨front, passed⟩ := session.parse_passes mode
  exact ⟨_, books_of_passes (books.passed.trans passed)⟩

theorem Books.length_eq (books : Books tokens consumed unread session)
    (books' : Books others consumed' unread' session')
    (beside : session.SideBySide SameKind session') : consumed.length = consumed'.length := by
  have pulls := beside.pulls
  rw [books.pulls, books'.pulls] at pulls
  exact Nat.succ.inj pulls

/-- On any tokens of these kinds, a session that stands beside this one comes to
the verdict. -/
def Foresees (tokens : List Token) (session : Session Replay) (mode : Mode) (verdict : Verdict) :
    Prop :=
  ∀ {others consumed unread : List Token} {session' : Session Replay},
    Token.kinds others = Token.kinds tokens → Books others consumed unread session' →
    session.SideBySide SameKind session' →
    (session'.parse mode).1 =
      verdict.fill (ofTokens others).handed (session'.parse mode).2.current

/-- Errors say what was expected, and are about the token at which a parse stops. -/
theorem foresees_of_error {mode : Mode} {error : ParseError}
    (failed : session.parse mode = (.error error, after)) :
    Foresees tokens session mode (.ofError error) := by
  intro others consumed' unread' session' _ _ beside
  have alike := (beside.parse mode).1
  rw [failed] at alike
  cases failed' : session'.parse mode with
  | mk result' after' =>
      rw [failed'] at alike
      cases alike with
      | error alike =>
          obtain ⟨_, _, -, blames, -⟩ := Rule.inMode_blamed mode _ (Session.parse_error.mp failed')
          rw [Verdict.ofError_eq_of_alike alike]
          exact (Verdict.fill_ofError blames _).symm

/-- The tree is a sketch that is filled in with the tokens passed. -/
theorem Books.foresees_of_ok {mode : Mode} {tree : Tree}
    (books : Books tokens consumed unread session)
    (parsed : session.parse mode = (.ok tree, after)) :
    ∃ sketch, Foresees tokens session mode (.parsed sketch) := by
  obtain ⟨front, passed, read⟩ := Session.reads_of_parse parsed
  obtain ⟨sketch, fills⟩ := read.sketched (books.counterparts_passed passed)
  refine ⟨sketch, fun {others _ _ session'} same books' beside => ?_⟩
  obtain ⟨alike, besideAfter⟩ := beside.parse mode
  rw [parsed] at alike besideAfter
  cases parsed' : session'.parse mode with
  | mk result' after' =>
      rw [parsed'] at alike besideAfter
      cases alike with
      | @ok _ tree' alike =>
          obtain ⟨front', passed', read'⟩ := Session.reads_of_parse parsed'
          have asLong : front.length = front'.length := by
            have pulls := besideAfter.pulls
            rw [passed.pulls, passed'.pulls, beside.pulls] at pulls
            exact Nat.add_left_cancel pulls
          have there : counterparts (ofTokens others).handed consumed.length front = front' := by
            rw [counterparts_congr _ _ asLong, books.length_eq books' beside]
            exact books'.counterparts_passed passed'
          -- The sketch is read where the other session has read its own tree.
          have filled := fills _ (kind_handed_eq same)
          rw [there] at filled
          exact congrArg Except.ok (read'.unique filled)

theorem Books.exists_verdict (books : Books tokens consumed unread session) (mode : Mode) :
    ∃ verdict, Foresees tokens session mode verdict := by
  cases parsed : session.parse mode with
  | mk result after =>
      cases result with
      | error error => exact ⟨.ofError error, foresees_of_error parsed⟩
      | ok tree =>
          obtain ⟨sketch, foresees⟩ := books.foresees_of_ok parsed
          exact ⟨.parsed sketch, foresees⟩

theorem Books.exists_plan (books : Books tokens consumed unread session) (modes : List Mode) :
    ∃ steps : List PlannedStep, ∀ {others consumed' unread' session'},
      Token.kinds others = Token.kinds tokens → Books others consumed' unread' session' →
      session.SideBySide SameKind session' →
      session'.trace modes = steps.map (PlannedStep.fill (ofTokens others).handed) := by
  induction modes generalizing consumed unread session with
  | nil => exact ⟨[], fun _ _ _ => rfl⟩
  | cons mode modes ih =>
      obtain ⟨verdict, foresees⟩ := books.exists_verdict mode
      obtain ⟨consumedAfter, unreadAfter, booksAfter⟩ := books.parse mode
      obtain ⟨steps, goOn⟩ := ih booksAfter
      let after := (session.parse mode).2
      refine ⟨⟨verdict, after.pulls, after.brackets⟩ :: steps,
        fun {others _ _ session'} same books' beside => ?_⟩
      obtain ⟨-, besideAfter⟩ := beside.parse mode
      obtain ⟨_, _, booksAfter'⟩ := books'.parse mode
      have current : (session'.parse mode).2.current =
          (ofTokens others).handed (after.pulls - 1) := by
        rw [booksAfter'.current, besideAfter.pulls]
      have sight : (session'.parse mode).2.sight =
          ⟨(ofTokens others).handed (after.pulls - 1), after.pulls, after.brackets⟩ := by
        rw [Session.sight, current, besideAfter.pulls, besideAfter.brackets]
      rw [Session.trace_cons, foresees same books' beside, goOn same booksAfter' besideAfter,
        sight, current]
      rfl

theorem start_sideBySide {tokens others : List Token}
    (same : Token.kinds tokens = Token.kinds others) :
    (Session.start (ofTokens tokens)).SideBySide SameKind (Session.start (ofTokens others)) := by
  have alike : List.Forall₂ SameKind (tokens ++ [(ofTokens tokens).closing])
      (others ++ [(ofTokens others).closing]) :=
    List.rel_append (SameKind.of_kinds same) (.cons rfl .nil)
  exact ⟨rfl, rfl, tokens, _, rfl, shows_tokens tokens, (shows_tokens others).copies alike⟩

/-- The kinds of the tokens and the parses asked for fix a plan. On any list of
tokens of these kinds, whatever else the tokens hold, each parse succeeds or
fails by the plan, draws and announces by the plan, and gives the planned tree
with the tokens of the list at their places. -/
theorem trace_of_kinds (kinds : List Kind) (modes : List Mode) :
    ∃ steps : List PlannedStep, ∀ tokens, Token.kinds tokens = kinds →
      (Session.start (ofTokens tokens)).trace modes =
        steps.map (PlannedStep.fill (ofTokens tokens).handed) := by
  -- The plan is read off from one list of tokens of these kinds.
  have spells := Session.kinds_map_tokenOf kinds
  have begun : ∀ tokens, ∃ unread,
      Books tokens [] unread (Session.start (ofTokens tokens)) :=
    fun tokens => books_of_passes (.done _)
  obtain ⟨_, books⟩ := begun (kinds.map Session.tokenOf)
  obtain ⟨steps, goOn⟩ := books.exists_plan modes
  refine ⟨steps, fun tokens same => ?_⟩
  obtain ⟨_, books'⟩ := begun tokens
  have alike := same.trans spells.symm
  exact goOn alike books' (start_sideBySide alike.symm)

def declaringKinds : List Kind :=
  [.programWord, .identifier, .semicolon, .varWord, .identifier, .colon, .typeName, .semicolon,
    .beginWord, .endWord, .period]

def misfits (kinds : List Kind) : List Token :=
  kinds.map fun kind => ⟨kind, "", some (.integer 7), 3⟩

/-- A program is read, and then nothing is left to read. The tokens with names leave theirs
in the tree, the misfits leave none. -/
theorem trace_misfits_planned :
    let spelled := declaringKinds.map Session.tokenOf
    let ended (line : Nat) : Token := ⟨.endOfInput, "", none, line⟩
    Token.kinds (misfits declaringKinds) = declaringKinds ∧
    ∃ steps : List PlannedStep,
      (Session.start (ofTokens spelled)).trace [.wholeProgram, .loose] =
        steps.map (PlannedStep.fill (ofTokens spelled).handed) ∧
      (Session.start (ofTokens (misfits declaringKinds))).trace [.wholeProgram, .loose] =
        steps.map (PlannedStep.fill (ofTokens (misfits declaringKinds)).handed) ∧
      steps.map (PlannedStep.fill (ofTokens spelled).handed) =
        [(.ok (.program "Ident" [.varDecl "Ident" "TypeName"] [.noOp]), ⟨ended 1, 12, #[]⟩),
          (.error (.unexpected .beginWord (ended 1)), ⟨ended 1, 12, #[]⟩)] ∧
      steps.map (PlannedStep.fill (ofTokens (misfits declaringKinds)).handed) =
        [(.ok (.program "" [.varDecl "" ""] [.noOp]), ⟨ended 3, 12, #[]⟩),
          (.error (.unexpected .beginWord (ended 3)), ⟨ended 3, 12, #[]⟩)] := by
  intro spelled ended
  obtain ⟨steps, planned⟩ := trace_of_kinds declaringKinds [.wholeProgram, .loose]
  have plain := planned spelled rfl
  have misfitted := planned (misfits declaringKinds) rfl
  refine ⟨rfl, steps, plain, misfitted, plain.symm.trans ?_, misfitted.symm.trans ?_⟩
  · with_unfolding_all rfl
  · with_unfolding_all rfl

end Replay

end PascalFrontEnd
