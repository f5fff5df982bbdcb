import PascalFrontEnd.Proofs.Run.LazyLexing

/-!
Failed parses included, a session has drawn one token more than it has consumed, and has
announced the parentheses among those it has consumed.
-/

namespace PascalFrontEnd

namespace Replay

def handed (replay : Replay) : Nat → Token
  | 0 => replay.next.1
  | calls + 1 => replay.next.2.handed calls

theorem handed_eq_getD (replay : Replay) (call : Nat) :
    replay.handed call = replay.rest.getD call replay.closing := by
  induction call generalizing replay with
  | zero => rcases replay with ⟨_ | ⟨token, rest⟩, line⟩ <;> rfl
  | succ call ih =>
      rw [handed, ih]
      rcases replay with ⟨_ | ⟨token, rest⟩, line⟩
      · rfl
      · rw [closing_cons]
        rfl

end Replay

theorem Mode.Reads.ne_nil {mode : Mode} {tokens : List Token} {tree : Tree}
    (read : mode.Reads tokens tree) : tokens ≠ [] := by
  cases mode with
  | wholeProgram => exact PascalFrontEnd.Reads.ne_nil read rfl
  | loose =>
      rcases read with ⟨read, -⟩ | ⟨read, -⟩ | ⟨body, read, -⟩ <;> exact read.ne_nil rfl

namespace Session

variable {σ : Type} [TokenStream σ]

def run (session : Session σ) : List Mode → Session σ
  | [] => session
  | mode :: modes => (session.parse mode).2.run modes

/-- The result of a parse that counts down from the given number of steps, and
what is seen after it. -/
def outcome (session : Session σ) (mode : Mode) (steps : Nat) :
    Except ParseError Tree × Sight :=
  match Rule.inMode mode steps session with
  | .ok tree after => (.ok tree, after.sight)
  | .error error after => (.error error, after.sight)

theorem parse_outcome (session : Session σ) (mode : Mode) :
    session.outcome mode session.budget =
      ((session.parse mode).1, (session.parse mode).2.sight) := by
  rw [outcome, parse_eq]
  cases Rule.inMode mode session.budget session <;> rfl

theorem run_passes (session : Session σ) (modes : List Mode) :
    ∃ tokens, session.Passes tokens (session.run modes) := by
  induction modes generalizing session with
  | nil => exact ⟨[], .done _⟩
  | cons mode modes ih =>
      obtain ⟨front, passed⟩ := session.parse_passes mode
      obtain ⟨back, passedBack⟩ := ih (session.parse mode).2
      exact ⟨front ++ back, passed.trans passedBack⟩

/-- The places of the parentheses among tokens, the first token being at place 1. -/
def parenPlaces (tokens : List Token) : List Nat :=
  ((tokens.zipIdx 1).filter fun entry => entry.1.kind = .openParen).map Prod.snd

theorem bracketsAt_eq (pulls : Nat) (tokens : List Token) :
    bracketsAt pulls tokens =
      ((tokens.zipIdx pulls).filter fun entry => entry.1.kind = .openParen).map Prod.snd := by
  induction tokens generalizing pulls with
  | nil => rfl
  | cons token tokens ih =>
      rw [bracketsAt, List.zipIdx_cons, ih]
      by_cases bracket : token.kind = .openParen
      · simp [bracket]
      · simp [bracket]

def Stuck (session : Session σ) : Prop :=
  session.current.kind = .endOfInput ∨ session.current.kind = .unknown

theorem Passes.nil_of_stuck {session after : Session σ} {tokens : List Token}
    (passed : session.Passes tokens after) (stuck : session.Stuck) : tokens = [] := by
  by_contra proper
  have first := Rule.head_of_passes passed proper
  obtain ⟨known, notEnd⟩ := passed.kind_ne _ (List.mem_of_mem_head? first)
  rcases stuck with ended | unknown
  · exact notEnd ended
  · exact known unknown

/-- What is seen of a session depends on where it has come from and what it has
passed on the way. -/
theorem Passes.sight_eq {session after last : Session σ} {tokens : List Token}
    (passed : session.Passes tokens after) (passed' : session.Passes tokens last) :
    after.sight = last.sight := by
  rcases passed.sameButJournal session.sameButJournal_refl passed' with
    ⟨current, -, pulls, brackets⟩
  rw [sight, sight, current, pulls, brackets]

theorem Stuck.parse {session : Session σ} (stuck : session.Stuck) (mode : Mode) :
    (∃ error, (session.parse mode).1 = .error error) ∧
      (session.parse mode).2.sight = session.sight := by
  obtain ⟨tokens, passed⟩ := session.parse_passes mode
  rcases passed.nil_of_stuck stuck with rfl
  refine ⟨?_, passed.sight_eq (.done session)⟩
  cases parsed : session.parse mode with
  | mk result after =>
      cases result with
      | error error => exact ⟨error, rfl⟩
      | ok tree =>
          -- A phrase is never empty, so that its first token would have been passed.
          obtain ⟨phrase, passes, read⟩ := reads_of_parse parsed
          exact absurd (passes.nil_of_stuck stuck) read.ne_nil

theorem Stuck.trace {session : Session σ} (stuck : session.Stuck) (modes : List Mode) :
    ∀ step ∈ session.trace modes, (∃ error, step.1 = .error error) ∧ step.2 = session.sight := by
  induction modes generalizing session with
  | nil => exact List.forall_mem_nil _
  | cons mode modes ih =>
      obtain ⟨failed, same⟩ := stuck.parse mode
      have current : (session.parse mode).2.current = session.current := congrArg Sight.current same
      have still : (session.parse mode).2.Stuck := by
        unfold Stuck
        rw [current]
        exact stuck
      rw [trace_cons, List.forall_mem_cons]
      refine ⟨⟨failed, same⟩, ?_⟩
      rw [← same]
      exact ih still

/-- Steps beyond the budget change nothing: the loops of the rules have ended by
themselves before. -/
theorem outcome_eq_of_le [LawfulTokenStream σ] (session : Session σ) (mode : Mode) {steps : Nat}
    (enough : session.budget ≤ steps) :
    session.outcome mode steps = session.outcome mode session.budget := by
  obtain ⟨tokens, passed⟩ := session.parse_passes mode
  rw [parse_left] at passed
  have short := passed.length_lt_budget
  have lockstep : Rule.Lockstep Eq (tokens.length + 1) (Tree.Alike Eq)
      (Rule.inMode mode session.budget : Rule σ Tree) (Rule.inMode mode steps : Rule σ Tree)
      session :=
    Rule.inMode_lockstep mode (by omega) (by omega) session
  obtain ⟨alike, passed'⟩ := lockstep.same passed (Nat.lt_succ_self _) passed.shown
  have sights := passed.sight_eq passed'
  unfold outcome
  generalize Rule.inMode mode session.budget session = result at alike sights ⊢
  generalize Rule.inMode mode steps session = result' at alike sights ⊢
  cases alike with
  | ok after after' alike =>
      have sights : after.sight = after'.sight := sights
      simp only [Tree.eq_of_alike alike, sights]
  | error after after' alike =>
      have sights : after.sight = after'.sight := sights
      simp only [alike.eq, sights]

end Session

namespace Replay

/-- The books of a session on a list of tokens, of which it has consumed a first
part. -/
structure Books (tokens consumed unread : List Token) (session : Session Replay) : Prop where
  split : tokens = consumed ++ unread
  passed : (Session.start (ofTokens tokens)).Passes consumed session
  pulls : session.pulls = consumed.length + 1
  /-- The current token is the one drawn last. -/
  current : session.current = (ofTokens tokens).handed (session.pulls - 1)
  known : ∀ token ∈ consumed, token.kind ≠ .endOfInput ∧ token.kind ≠ .unknown
  bounded : session.pulls ≤ tokens.length + 1
  brackets : session.brackets.toList = Session.parenPlaces consumed
  stuck : session.Stuck → ∀ modes, ∀ step ∈ session.trace modes,
    (∃ error, step.1 = .error error) ∧ step.2 = session.sight
  /-- However many steps it were given beyond its budget, a parse would end alike. -/
  ends : ∀ mode steps, session.budget ≤ steps →
    session.outcome mode steps = ((session.parse mode).1, (session.parse mode).2.sight)

/-- What has been passed since the start makes up the books. -/
theorem books_of_passes {tokens consumed : List Token} {session : Session Replay}
    (passed : (Session.start (ofTokens tokens)).Passes consumed session) :
    ∃ unread, Books tokens consumed unread session := by
  obtain ⟨unread, rfl, shown⟩ := passed.split_shown (shows_tokens tokens) rfl
  have pulls : session.pulls = consumed.length + 1 := by
    rw [passed.pulls]
    exact Nat.add_comm 1 _
  refine ⟨unread, rfl, passed, pulls, ?_, ?_, ?_, ?_, ?_, ?_⟩
  · rw [handed_eq_getD, pulls, Nat.add_sub_cancel]
    show session.current = (consumed ++ unread).getD consumed.length _
    cases unread with
    | nil =>
        rw [shown.1]
        simp
    | cons token unread =>
        rw [shown.1]
        simp
  · exact fun token present => (passed.kind_ne token present).symm
  · rw [pulls, List.length_append]
    omega
  · rw [passed.brackets, Session.bracketsAt_eq]
    rfl
  · exact fun stuck => stuck.trace
  · intro mode steps enough
    rw [session.outcome_eq_of_le mode enough, session.parse_outcome]

/-- After any sequence of parses of a list of tokens the books are in order. -/
theorem run_books (tokens : List Token) (modes : List Mode) :
    ∃ consumed unread, Books tokens consumed unread
      ((Session.start (ofTokens tokens)).run modes) := by
  obtain ⟨consumed, passed⟩ := (Session.start (ofTokens tokens)).run_passes modes
  exact ⟨consumed, books_of_passes passed⟩

/-- A parse that fails inside two parentheses leaves the session stuck there. -/
example :
    let nested : List Token :=
      [⟨.openParen, "(", none, 1⟩, ⟨.openParen, "(", none, 1⟩,
        ⟨.integerLiteral, "1", some (.integer 1), 1⟩, ⟨.unknown, "?", none, 2⟩]
    ((Session.start (ofTokens nested)).run [.loose, .wholeProgram, .loose]).sight =
      ⟨⟨.unknown, "?", none, 2⟩, 4, #[1, 2]⟩ := by
  rfl

end Replay

end PascalFrontEnd
