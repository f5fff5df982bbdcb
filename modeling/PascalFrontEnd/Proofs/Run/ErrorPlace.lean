import PascalFrontEnd.Proofs.Parse.DemandRules
import PascalFrontEnd.Proofs.Run.CorrectPrefix

/-!
Which error it is depends on the kinds passed and on the kind of the token behind them,
the expected kind on the kinds passed alone.
-/

namespace PascalFrontEnd

def SameKind (token other : Token) : Prop :=
  token.kind = other.kind

instance : Likeness SameKind where
  refl _ := rfl
  kind_eq same := same

theorem SameKind.of_kinds {tokens others : List Token}
    (same : Token.kinds tokens = Token.kinds others) : List.Forall₂ SameKind tokens others := by
  unfold Token.kinds at same
  rw [← List.forall₂_eq_eq_eq, List.forall₂_map_left_iff, List.forall₂_map_right_iff] at same
  exact same

namespace ParseError

def expected? : ParseError → Option Kind
  | unknownToken _ expected _ | unexpected expected _ => some expected
  | missingSeparator _ | trailing _ => none

@[simp] theorem expected?_ofMismatch (expected : Kind) (found : Token) :
    (ofMismatch expected found).expected? = some expected := by
  unfold ofMismatch
  split <;> rfl

theorem Alike.expected?_eq {T : Token → Token → Prop} {error other : ParseError}
    (alike : error.Alike T other) : error.expected? = other.expected? := by
  cases alike with
  | mismatch expected => rw [expected?_ofMismatch, expected?_ofMismatch]
  | missingSeparator | trailing => rfl

theorem demanded_cases (expected : Kind) (found : Token) :
    ((expected = .endWord ∧ found.kind = .identifier) ∧
      demanded expected found = .missingSeparator found) ∨
    (¬ (expected = .endWord ∧ found.kind = .identifier) ∧ found.kind = .unknown ∧
      demanded expected found = .unknownToken found.raw expected found.line) ∨
    (¬ (expected = .endWord ∧ found.kind = .identifier) ∧ found.kind ≠ .unknown ∧
      demanded expected found = .unexpected expected found) := by
  unfold demanded ofMismatch
  split
  · rename_i missing
    exact .inl ⟨missing, rfl⟩
  · rename_i present
    split
    · exact .inr (.inl ⟨present, ‹_›, rfl⟩)
    · exact .inr (.inr ⟨present, ‹_›, rfl⟩)

end ParseError

theorem Blames.of_expected? {error : ParseError} {expected kind : Kind} {found : Token}
    (blames : Blames error expected found) (named : kind ∈ error.expected?) : kind = expected := by
  cases blames with
  | mismatch =>
      rw [ParseError.expected?_ofMismatch] at named
      exact (Option.some.inj named).symm
  | missingSeparator | trailing => cases named

namespace Mode

def MayGoOn (mode : Mode) (passed : List Token) (kind : Kind) : Prop :=
  ∃ rest, mode.Sentence (Token.kinds passed ++ kind :: rest)

def Complete (mode : Mode) (passed : List Token) : Prop :=
  mode = .wholeProgram ∧ (Ebnf.part .program).Matches (Token.kinds passed)

/-- An identifier stands where a list of statements could end. -/
def LacksSeparator (mode : Mode) (passed : List Token) (found : Token) : Prop :=
  found.kind = .identifier ∧ mode.MayGoOn passed .endWord

/-- Behind the tokens passed, the error is the one that the token found calls
for. No sentence goes on with that token, but one goes on with the expected kind. -/
structure Tells (mode : Mode) (passed : List Token) (found : Token) (error : ParseError) :
    Prop where
  trailing : error = .trailing found ↔ mode.Complete passed
  missing : ¬ mode.Complete passed →
    (error = .missingSeparator found ↔ mode.LacksSeparator passed found)
  unknown : ¬ mode.Complete passed → ¬ mode.LacksSeparator passed found →
    ((∃ expected, error = .unknownToken found.raw expected found.line) ↔ found.kind = .unknown)
  unexpected : ¬ mode.Complete passed → ¬ mode.LacksSeparator passed found →
    found.kind ≠ .unknown → ∃ expected, error = .unexpected expected found
  expected : ∀ kind ∈ error.expected?, mode.MayGoOn passed kind
  stuck : ¬ mode.MayGoOn passed found.kind

theorem Sentence.known {mode : Mode} {kinds : List Kind} (sentence : mode.Sentence kinds)
    {kind : Kind} (present : kind ∈ kinds) : kind ≠ .unknown := by
  rcases sentence.phrase with ⟨phrase, rfl, reads⟩
  rcases List.mem_append.mp present with inPhrase | behind
  · obtain ⟨tree, read⟩ := reads _ (Session.kinds_map_tokenOf phrase)
    exact (read.known (List.mem_map_of_mem inPhrase)).2
  · cases mode with
    | loose => cases behind
    | wholeProgram =>
        rw [List.mem_singleton.mp behind]
        exact Kind.noConfusion

theorem MayGoOn.known {mode : Mode} {passed : List Token} {kind : Kind}
    (goesOn : mode.MayGoOn passed kind) : kind ≠ .unknown := by
  rcases goesOn with ⟨rest, sentence⟩
  exact sentence.known (List.mem_append_right _ List.mem_cons_self)

end Mode

namespace Rule

variable {σ : Type} [TokenStream σ] {session after : Session σ} {error : ParseError}
  {tokens : List Token} {steps : Nat}

theorem phrase_expects (short : tokens.length < steps - 1)
    (ran : phrase steps session = .error error after) (passed : session.Passes tokens after) :
    ∃ expected, Blames error expected after.current ∧ Mode.loose.MayGoOn tokens expected := by
  rcases phrase_cases steps session with
    ⟨leads, run⟩ | ⟨leads, run⟩ | ⟨-, run⟩ | ⟨-, -, -, run⟩ <;> rw [run] at ran
  · obtain ⟨others, expected, passed', blames, rest, denoted⟩ :=
      (expression_follows steps session).error ran
    have proper : tokens ≠ [] :=
      expression_starts (Nat.le_refl _) leads tokens (by rw [ran]; exact passed) short
    rw [passed'.unique passed, List.append_assoc] at denoted
    exact ⟨expected, blames, rest, .inl ⟨denoted.matches, _,
      head_append (head_of_passes passed proper) _, leads⟩⟩
  · obtain ⟨others, expected, passed', blames, rest, denoted⟩ :=
      (program_follows steps session).error ran
    have proper : tokens ≠ [] :=
      (program_decided (Nat.le_refl _) session).starts leads tokens (by rw [ran]; exact passed)
        short
    rw [passed'.unique passed, List.append_assoc] at denoted
    exact ⟨expected, blames, rest, .inr (.inl ⟨denoted.matches, _,
      head_append (head_of_passes passed proper) _, leads⟩)⟩
  · have follows : Follows (.part .compoundStatement)
        (compound steps >>= fun body => pure (.compound body) : Rule σ Tree) session :=
      (compound_follows steps session).andThen fun body _ => .pure _
    obtain ⟨others, expected, passed', blames, rest, denoted⟩ := follows.error ran
    rw [passed'.unique passed, List.append_assoc] at denoted
    exact ⟨expected, blames, rest, .inr (.inr denoted.matches)⟩
  · rw [mismatch_run, EStateM.Result.error.injEq] at ran
    rcases ran with ⟨rfl, rfl⟩
    rw [passed.unique (.note _ (.done _))]
    have shortest : Derives .compound [.beginWord, .endWord] :=
      .compound (.lastStatement .emptyStatement)
    have denoted : (Ebnf.part .compoundStatement).Denotes [.beginWord, .endWord] := shortest
    exact ⟨.beginWord, .mismatch _ _, [.endWord], .inr (.inr denoted.matches)⟩

theorem inMode_expects (mode : Mode) (short : tokens.length < steps - 1)
    (ran : inMode mode steps session = .error error after) (passed : session.Passes tokens after) :
    ∃ expected, Blames error expected after.current ∧ mode.MayGoOn tokens expected := by
  cases mode with
  | loose =>
      have ran : loose steps session = .error error after := ran
      rw [loose, current_bind, note_bind] at ran
      rcases bind_error.mp ran with ranPhrase | ⟨tree, middle, _, ranEnd⟩
      · obtain ⟨others, _, passed', _⟩ := phrase_blamed steps ranPhrase
        have same := passed.unique (.note _ passed')
        rw [same] at short ⊢
        exact phrase_expects short ranPhrase passed'
      · cases ranEnd
  | wholeProgram =>
      rcases wholeProgram_error ran passed with
        ⟨ranProgram, passedProgram⟩ | ⟨tree, middle, ranProgram, passedProgram, -, rfl⟩
      · obtain ⟨others, expected, passed', blames, rest, denoted⟩ :=
          (program_follows steps _).error ranProgram
        rw [passedProgram.unique passed']
        refine ⟨expected, blames, rest ++ [.endOfInput], _, denoted.matches, ?_⟩
        simp
      · obtain ⟨front, passedFront, denoted⟩ := (program_follows steps _).ok ranProgram
        rw [passedProgram.unique passedFront]
        exact ⟨.endOfInput, .trailing _, [], _, denoted.matches, rfl⟩

end Rule

namespace Session

variable {σ : Type} [TokenStream σ] [LawfulTokenStream σ] {session after : Session σ}
  {mode : Mode} {error : ParseError} {tokens : List Token}

/-- A run that has steps enough is the one that the budget allows for. -/
theorem parse_of_inMode_error {steps : Nat}
    (ran : Rule.inMode mode steps session = .error error after)
    (passed : session.Passes tokens after) (short : tokens.length < steps - 1) :
    ∃ last, session.parse mode = (.error error, last) ∧ session.Passes tokens last := by
  have enough := passed.length_lt_budget
  have lockstep : Rule.Lockstep Eq (tokens.length + 1) (Tree.Alike Eq)
      (Rule.inMode mode steps : Rule σ Tree) (Rule.inMode mode session.budget : Rule σ Tree)
      session :=
    Rule.inMode_lockstep mode short (by omega) session
  have passedRun : session.Passes tokens (Rule.left (Rule.inMode mode steps session)) := by
    rw [ran]
    exact passed
  obtain ⟨alike, passed'⟩ := lockstep.same passedRun (Nat.lt_succ_self _) passedRun.shown
  rw [ran] at alike
  cases ran' : Rule.inMode mode session.budget session with
  | ok tree last =>
      rw [ran'] at alike
      cases alike
  | error error' last =>
      rw [ran'] at alike passed'
      cases alike with
      | error _ _ alike =>
          rw [← alike.eq] at ran'
          exact ⟨last, parse_error.mpr ran', passed'⟩

end Session

namespace Mode

def FailsAt (mode : Mode) (tokens : List Token) (found : Token) (error : ParseError) : Prop :=
  ∃ after, (Session.start (Replay.ofTokens (tokens ++ [found]))).parse mode = (.error error, after) ∧
    (Session.start (Replay.ofTokens (tokens ++ [found]))).Passes tokens after ∧
    after.current = found

def Wants (mode : Mode) (tokens : List Token) (expected : Kind) : Prop :=
  ∀ probe : Token, probe.kind.isQuiet = true → probe.kind ≠ expected →
    mode.FailsAt tokens probe (.demanded expected probe)

/-- What stands behind the token at which a parse fails makes no difference, and
neither does the stream. -/
theorem failsAt_of_error {σ : Type} [TokenStream σ] [LawfulTokenStream σ] {mode : Mode}
    {session after : Session σ} {tokens : List Token} {error : ParseError}
    (failed : session.parse mode = (.error error, after)) (passed : session.Passes tokens after) :
    mode.FailsAt tokens after.current error := by
  have shown := (Replay.shows_tokens (tokens ++ [after.current])).of_append
  obtain ⟨last, parsed, passedLast⟩ := Session.parse_same failed passed shown
  exact ⟨last, parsed, passedLast, (passedLast.shows shown).1⟩

variable {mode : Mode} {tokens others : List Token} {found found' : Token}
  {error error' : ParseError} {expected kind kind' : Kind}

theorem FailsAt.stuck (fails : mode.FailsAt tokens found error) :
    ¬ mode.MayGoOn tokens found.kind := by
  rcases fails with ⟨after, failed, passed, rfl⟩
  rintro ⟨rest, sentence⟩
  exact Session.no_sentence_of_error failed passed rest sentence

theorem FailsAt.mayGoOn (fails : mode.FailsAt tokens found error)
    (named : kind ∈ error.expected?) : mode.MayGoOn tokens kind := by
  rcases fails with ⟨after, failed, passed, -⟩
  have enough := passed.length_lt_budget
  obtain ⟨expected, blames, goesOn⟩ :=
    Rule.inMode_expects mode (by omega) (Session.parse_error.mp failed) passed
  rw [blames.of_expected? named]
  exact goesOn

/-- Behind a whole program the error is about the end of input, elsewhere a kind
has been demanded. -/
theorem FailsAt.demanded (fails : mode.FailsAt tokens found error) :
    (¬ mode.Complete tokens ∧ ∃ expected, error = .demanded expected found ∧
      mode.Wants tokens expected) ∨
    (mode.Complete tokens ∧ error = .trailing found) := by
  rcases fails with ⟨after, failed, passed, rfl⟩
  have enough := passed.length_lt_budget
  have ran := Session.parse_error.mp failed
  by_cases complete : mode.Complete tokens
  · refine .inr ⟨complete, ?_⟩
    rcases complete with ⟨rfl, matched⟩
    obtain ⟨tree, read⟩ := Derives.reads matched.denotes rfl
    exact Rule.wholeProgram_trailing read (by omega) ran passed
  · refine .inl ⟨complete, ?_⟩
    rcases Rule.inMode_demands mode (by omega) ran passed with
      ⟨expected, isDemanded, demands⟩ | ⟨whole, tree, read⟩
    · refine ⟨expected, isDemanded, fun probe quiet other => ?_⟩
      have shown := (Replay.shows_tokens (tokens ++ [probe])).of_append
      obtain ⟨middle, ranProbe, passedProbe⟩ := demands _ probe shown ⟨.inr quiet, other⟩
      obtain ⟨last, parsed, passedLast⟩ :=
        Session.parse_of_inMode_error ranProbe passedProbe (by omega)
      exact ⟨last, parsed, passedLast, (passedLast.shows shown).1⟩
    · have denoted : (Ebnf.part .program).Denotes (Token.kinds tokens) := read.derives
      exact absurd ⟨whole, denoted.matches⟩ complete

/-- A list of statements could end exactly where its end is wanted. -/
theorem Wants.endWord_iff (wants : mode.Wants tokens expected) :
    mode.MayGoOn tokens .endWord ↔ expected = .endWord := by
  constructor
  · intro goesOn
    by_contra other
    exact (wants (Session.tokenOf .endWord) rfl (Ne.symm other)).stuck goesOn
  · rintro rfl
    exact (wants (Session.tokenOf .unknown) rfl (by decide)).mayGoOn rfl

theorem FailsAt.tells (fails : mode.FailsAt tokens found error) : mode.Tells tokens found error := by
  have expected : ∀ kind ∈ error.expected?, mode.MayGoOn tokens kind :=
    fun _ named => fails.mayGoOn named
  have stuck := fails.stuck
  rcases fails.demanded with ⟨incomplete, kind, rfl, wants⟩ | ⟨complete, rfl⟩
  · have lacks : mode.LacksSeparator tokens found ↔
        kind = .endWord ∧ found.kind = .identifier := by
      unfold LacksSeparator
      rw [wants.endWord_iff, and_comm]
    rcases ParseError.demanded_cases kind found with
      ⟨missing, same⟩ | ⟨present, strange, same⟩ | ⟨present, known, same⟩ <;>
      rw [same] at expected ⊢
    · refine ⟨?_, ?_, ?_, ?_, expected, stuck⟩
      · simp [incomplete]
      · simp [lacks, missing]
      · exact fun _ enough => absurd (lacks.mpr missing) enough
      · exact fun _ enough => absurd (lacks.mpr missing) enough
    · refine ⟨?_, ?_, ?_, ?_, expected, stuck⟩
      · simp [incomplete]
      · simp [lacks, present]
      · simp [strange]
      · exact fun _ _ known => absurd strange known
    · refine ⟨?_, ?_, ?_, ?_, expected, stuck⟩
      · simp [incomplete]
      · simp [lacks, present]
      · simp [known]
      · exact fun _ _ _ => ⟨kind, rfl⟩
  · refine ⟨?_, ?_, ?_, ?_, expected, stuck⟩
    · simp [complete]
    · exact fun incomplete => absurd complete incomplete
    · exact fun incomplete => absurd complete incomplete
    · exact fun incomplete => absurd complete incomplete

theorem FailsAt.atUnknown (fails : mode.FailsAt tokens found error)
    (named : kind ∈ error.expected?) :
    mode.FailsAt tokens (Session.tokenOf .unknown)
      (.ofMismatch kind (Session.tokenOf .unknown)) := by
  have known := (fails.mayGoOn named).known
  rcases fails.demanded with ⟨-, expected, rfl, wants⟩ | ⟨-, rfl⟩
  · have same : kind = expected := by
      rcases ParseError.demanded_cases expected found with
        ⟨-, same⟩ | ⟨-, -, same⟩ | ⟨-, -, same⟩ <;> rw [same] at named <;> cases named <;> rfl
    rw [same] at known ⊢
    rw [← ParseError.demanded_of_isQuiet expected rfl]
    exact wants _ rfl known.symm
  · cases named

theorem FailsAt.expected?_unique (fails : mode.FailsAt tokens found error)
    (fails' : mode.FailsAt others found' error') (same : Token.kinds tokens = Token.kinds others)
    (named : kind ∈ error.expected?) (named' : kind' ∈ error'.expected?) : kind = kind' := by
  obtain ⟨after, failed, passed, here⟩ := fails.atUnknown named
  obtain ⟨after', failed', -, -⟩ := fails'.atUnknown named'
  have copied : (Session.start
      (Replay.ofTokens (others ++ [Session.tokenOf .unknown]))).Copies SameKind
      (tokens ++ [after.current]) := by
    rw [here]
    refine (Replay.shows_tokens _).of_append.copies ?_
    exact List.rel_append (SameKind.of_kinds same) (.cons rfl .nil)
  rw [show after = _ from (congrArg Prod.snd failed).symm] at passed copied
  obtain ⟨alike, -⟩ := Session.parse_lockstep passed copied
  rw [failed, failed'] at alike
  cases alike with
  | error alike =>
      have expected := alike.expected?_eq
      rw [ParseError.expected?_ofMismatch, ParseError.expected?_ofMismatch] at expected
      exact Option.some.inj expected

end Mode

namespace Replay

variable {mode : Mode} {error : ParseError} {tokens : List Token} {after : Session Replay}

/-- Whatever stands behind tokens of these kinds, no other kind is expected there. -/
def Settled (mode : Mode) (passed : List Token) (error : ParseError) : Prop :=
  ∀ tokens error' after passed',
    (Session.start (ofTokens tokens)).parse mode = (.error error', after) →
    (Session.start (ofTokens tokens)).Passes passed' after →
    Token.kinds passed' = Token.kinds passed →
    ∀ kind ∈ error.expected?, ∀ kind' ∈ error'.expected?, kind' = kind

/-- Where a parse of a list of tokens fails, the tokens it has passed and the
token behind them call for the error, and the expectation is settled by the
kinds passed. -/
theorem parse_error_tells
    (failed : (Session.start (ofTokens tokens)).parse mode = (.error error, after)) :
    ∃ passed unread, tokens = passed ++ unread ∧
      (Session.start (ofTokens tokens)).Passes passed after ∧
      after.Shows (unread ++ [(ofTokens tokens).closing]) ∧
      mode.Tells passed after.current error ∧ Settled mode passed error := by
  obtain ⟨passed, passes⟩ := (Session.start (ofTokens tokens)).parse_passes mode
  rw [failed] at passes
  obtain ⟨unread, shape, shown⟩ := passes.split_shown (shows_tokens tokens) rfl
  have fails := Mode.failsAt_of_error failed passes
  refine ⟨passed, unread, shape, passes, shown, fails.tells, ?_⟩
  intro others error' after' passed' failed' passes' same kind named kind' named'
  exact (Mode.failsAt_of_error failed' passes').expected?_unique fails same named' named

def unseparated : List Token :=
  [⟨.beginWord, "BEGIN", none, 1⟩, ⟨.identifier, "x", some (.name "x"), 1⟩,
    ⟨.becomes, ":=", none, 1⟩, ⟨.integerLiteral, "1", some (.integer 1), 1⟩,
    ⟨.identifier, "y", some (.name "y"), 2⟩, ⟨.becomes, ":=", none, 2⟩]

def afterUnseparated : Session Replay :=
  ((Session.start (ofTokens unseparated)).parse .wholeProgram).2

theorem parse_unseparated_tells :
    (Session.start (ofTokens unseparated)).parse .wholeProgram =
      (.error (.missingSeparator ⟨.identifier, "y", some (.name "y"), 2⟩), afterUnseparated) ∧
    ∃ passed unread, unseparated = passed ++ unread ∧
      (Session.start (ofTokens unseparated)).Passes passed afterUnseparated ∧
      afterUnseparated.Shows (unread ++ [(ofTokens unseparated).closing]) ∧
      Mode.wholeProgram.Tells passed afterUnseparated.current
        (.missingSeparator ⟨.identifier, "y", some (.name "y"), 2⟩) ∧
      Settled .wholeProgram passed (.missingSeparator ⟨.identifier, "y", some (.name "y"), 2⟩) :=
  ⟨rfl, parse_error_tells rfl⟩

end Replay

end PascalFrontEnd
