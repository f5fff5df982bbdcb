import PascalFrontEnd.Proofs.Parse.LockstepRules

namespace PascalFrontEnd

namespace Rule

variable {σ α : Type} [TokenStream σ] {session other after : Session σ}

/-- Outcomes with the same result, in sessions that differ in their journals only. -/
inductive SameOutcome : EStateM.Result ParseError (Session σ) α →
    EStateM.Result ParseError (Session σ) α → Prop where
  | ok {value : α} {after last : Session σ} :
      after.SameButJournal last → SameOutcome (.ok value after) (.ok value last)
  | error {error : ParseError} {after last : Session σ} :
      after.SameButJournal last → SameOutcome (.error error after) (.error error last)

/-- A rule in lockstep with itself takes no notice of what is noted. -/
theorem Lockstep.sameOutcome [LawfulTokenStream σ] {rule : Rule σ α} {A : α → α → Prop}
    {event : Event} (equal : ∀ {value value' : α}, A value value' → value = value')
    (lockstep : Lockstep Eq (session.budget - 1) A rule rule (session.note event))
    (event' : Event) : SameOutcome (rule (session.note event)) (rule (session.note event')) := by
  have same : (session.note event).SameButJournal (session.note event') :=
    (session.sameButJournal_note event).symm.trans (session.sameButJournal_note event')
  rcases lockstep.walks with ⟨tokens, passed⟩
  have short : tokens.length + 1 < session.budget := passed.length_lt_budget
  have shown := same.shows passed.shown
  rcases lockstep.same passed (by omega) shown with ⟨alike, passed'⟩
  have still := passed.sameButJournal same passed'
  generalize rule (session.note event) = outcome at alike still ⊢
  generalize rule (session.note event') = outcome' at alike still ⊢
  cases alike with
  | ok after last alike =>
      rw [equal alike]
      exact .ok still
  | error after last alike =>
      rw [alike.eq]
      exact .error still

theorem program_sameOutcome [LawfulTokenStream σ] (session : Session σ) (event event' : Event) :
    SameOutcome (program session.budget (session.note event))
      (program session.budget (session.note event')) :=
  (program_lockstep (Nat.le_refl _) (Nat.le_refl _) _).sameOutcome Tree.eq_of_alike event'

theorem compound_sameOutcome [LawfulTokenStream σ] (session : Session σ) (event event' : Event) :
    SameOutcome (compound session.budget (session.note event))
      (compound session.budget (session.note event')) := by
  have equal : ∀ {body body' : List Tree}, List.Forall₂ (Tree.Alike Eq) body body' →
      body = body' := by
    intro body body' alikes
    rw [← List.forall₂_eq_eq_eq]
    exact alikes.imp fun _ _ => Tree.eq_of_alike
  exact (compound_lockstep (Nat.le_refl _) (Nat.le_refl _) _).sameOutcome equal event'

theorem program_headless (steps : Nat) (session : Session σ)
    (headless : session.current.kind ≠ .programWord) :
    program steps session =
      (do let body ← compound steps; skip .period; return .block [.noOp] body : Rule σ Tree)
        session := by
  have elsewhere : ¬ (session.current.kind == Kind.programWord) = true := by simpa using headless
  rw [program, headedOrHeadless, bind_assoc, sees_bind, if_neg elsewhere, headlessProgram,
    bind_assoc]
  rfl

theorem compound_refuses (steps : Nat) (session : Session σ)
    (elsewhere : session.current.kind ≠ .beginWord) :
    ∃ after, compound steps session = .error (.ofMismatch .beginWord session.current) after ∧
      session.SameButJournal after := by
  cases steps with
  | zero => exact ⟨_, rfl, rfl, rfl, rfl, rfl⟩
  | succ steps =>
      have refused : take .beginWord (session.note (.entersCompound session.current.line)) =
          mismatch .beginWord (session.note (.entersCompound session.current.line)) :=
        take_of_other elsewhere
      rw [compound, current_bind, note_bind, skip_eq_bind, bind_assoc,
        bind_of_error (refused.trans (mismatch_run _))]
      exact ⟨_, rfl, rfl, rfl, rfl, rfl⟩

end Rule

namespace Session

variable {σ : Type} [TokenStream σ] {session other after : Session σ} {tree : Tree}
  {error : ParseError}

def ending (session : Session σ) (tree : Tree) : Except ParseError Tree :=
  if session.current.kind = .endOfInput then .ok tree else .error (.trailing session.current)

def pointed (session : Session σ) (tree : Tree) : Except ParseError Tree :=
  if session.current.kind = .period then session.pass.ending tree
  else .error (.ofMismatch .period session.current)

omit [TokenStream σ] in
theorem ending_ok {program : Tree} :
    session.ending program = .ok tree ↔
      program = tree ∧ session.current.kind = .endOfInput := by
  rw [ending]
  split
  · rename_i ended
    simp [ended]
  · rename_i proper
    simp [proper]

theorem pointed_ok {program : Tree} :
    session.pointed program = .ok tree ↔
      program = tree ∧ session.current.kind = .period ∧
        session.pass.current.kind = .endOfInput := by
  rw [pointed]
  split
  · rename_i here
    rw [ending_ok]
    simp [here]
  · rename_i elsewhere
    simp [elsewhere]

omit [TokenStream σ] in
theorem SameButJournal.ending_eq (same : session.SameButJournal other) (tree : Tree) :
    session.ending tree = other.ending tree := by
  rw [ending, ending, same.1]

theorem SameButJournal.pointed_eq (same : session.SameButJournal other) (tree : Tree) :
    session.pointed tree = other.pointed tree := by
  rw [pointed, pointed, same.1, same.pass.ending_eq]

theorem parse_loose_ok
    (ran : Rule.phrase session.budget (session.note (.startedFrom session.current)) =
      .ok tree after) :
    session.parse .loose = (.ok tree, after.note (.parsed tree.kindName)) := by
  rw [parse_ok, Rule.inMode, Rule.loose, Rule.current_bind, Rule.note_bind, Rule.bind_of_ok ran]
  rfl

theorem parse_loose_error
    (ran : Rule.phrase session.budget (session.note (.startedFrom session.current)) =
      .error error after) :
    session.parse .loose = (.error error, after) := by
  rw [parse_error, Rule.inMode, Rule.loose, Rule.current_bind, Rule.note_bind,
    Rule.bind_of_error ran]

theorem parse_wholeProgram_ok
    (ran : Rule.program session.budget (session.note .startedProgram) = .ok tree after) :
    (session.parse .wholeProgram).1 = after.ending tree := by
  rw [parse_eq, Rule.inMode, Rule.wholeProgram, Rule.note_bind, Rule.bind_of_ok ran,
    Rule.sees_bind, ending]
  by_cases ended : after.current.kind = .endOfInput
  · rw [if_pos ended, if_pos (beq_iff_eq.mpr ended)]
    rfl
  · rw [if_neg ended, if_neg (by simpa using ended)]
    rfl

theorem parse_wholeProgram_error
    (ran : Rule.program session.budget (session.note .startedProgram) = .error error after) :
    session.parse .wholeProgram = (.error error, after) := by
  rw [parse_error, Rule.inMode, Rule.wholeProgram, Rule.note_bind, Rule.bind_of_error ran]

theorem parse_wholeProgram_compound {body : List Tree}
    (headless : session.current.kind ≠ .programWord)
    (ran : Rule.compound session.budget (session.note .startedProgram) = .ok body after) :
    (session.parse .wholeProgram).1 = after.pointed (.block [.noOp] body) := by
  have program := Rule.program_headless session.budget (session.note .startedProgram) headless
  rw [Rule.bind_of_ok ran] at program
  by_cases here : after.current.kind = .period
  · have plain : after.current.kind ≠ .openParen := by
      rw [here]
      decide
    rw [Rule.bind_of_ok (Rule.skip_of_kind here (by decide))] at program
    rw [parse_wholeProgram_ok program, pointed, if_pos here, pass_of_ne_openParen plain]
  · have refused := (Rule.take_of_other here).trans (Rule.mismatch_run _)
    rw [Rule.skip_eq_bind, bind_assoc, Rule.bind_of_error refused] at program
    rw [parse_wholeProgram_error program, pointed, if_neg here]

structure RefusesWhole (session : Session σ) : Prop where
  error : (session.parse .wholeProgram).1 = .error (.ofMismatch .beginWord session.current)
  untouched : session.SameButJournal (session.parse .wholeProgram).2

theorem refusesWhole (headless : session.current.kind ≠ .programWord)
    (elsewhere : session.current.kind ≠ .beginWord) : session.RefusesWhole := by
  rcases Rule.compound_refuses session.budget (session.note .startedProgram) elsewhere with
    ⟨after, refused, same⟩
  have program := Rule.program_headless session.budget (session.note .startedProgram) headless
  rw [Rule.bind_of_error refused] at program
  have noted : session.SameButJournal after := same
  constructor
  · rw [parse_wholeProgram_error program]
    rfl
  · rw [parse_wholeProgram_error program]
    exact noted

variable [LawfulTokenStream σ]

/-- With a heading loose mode parses a program as well, and whole-program mode
sees what stands behind it. -/
theorem parse_headed (headed : session.current.kind = .programWord) :
    (∃ error, (session.parse .loose).1 = .error error ∧
      (session.parse .wholeProgram).1 = .error error) ∨
    (∃ tree, (session.parse .loose).1 = .ok tree ∧
      (session.parse .wholeProgram).1 = (session.parse .loose).2.ending tree) := by
  -- The rules of the two modes begin at sessions that differ by a note.
  have outcomes := Rule.program_sameOutcome session (.startedFrom session.current) .startedProgram
  have phrase : Rule.phrase session.budget (session.note (.startedFrom session.current)) =
      Rule.program session.budget (session.note (.startedFrom session.current)) := by
    rw [Rule.phrase, Rule.currentKind_bind, current_note, headed]
  generalize Rule.program session.budget (session.note (.startedFrom session.current)) = loose
    at outcomes phrase
  generalize whole : Rule.program session.budget (session.note .startedProgram) = outcome
    at outcomes
  cases outcomes with
  | error =>
      left
      rw [parse_loose_error phrase, parse_wholeProgram_error whole]
      exact ⟨_, rfl, rfl⟩
  | ok still =>
      right
      rw [parse_loose_ok phrase, parse_wholeProgram_ok whole]
      exact ⟨_, rfl, (still.ending_eq _).symm⟩

/-- Without a heading loose mode parses a compound statement, and whole-program mode
sees whether its period stands behind it. -/
theorem parse_headless (headless : session.current.kind = .beginWord) :
    (∃ error, (session.parse .loose).1 = .error error ∧
      (session.parse .wholeProgram).1 = .error error) ∨
    (∃ body, (session.parse .loose).1 = .ok (.compound body) ∧
      (session.parse .wholeProgram).1 = (session.parse .loose).2.pointed (.block [.noOp] body)) := by
  have elsewhere : session.current.kind ≠ .programWord := by
    rw [headless]
    decide
  have outcomes := Rule.compound_sameOutcome session (.startedFrom session.current) .startedProgram
  have phrase : Rule.phrase session.budget (session.note (.startedFrom session.current)) =
      (Rule.compound session.budget >>= fun body => pure (.compound body))
        (session.note (.startedFrom session.current)) := by
    rw [Rule.phrase, Rule.currentKind_bind, current_note, headless]
  generalize loose : Rule.compound session.budget
    (session.note (.startedFrom session.current)) = outcome at outcomes
  generalize whole : Rule.compound session.budget (session.note .startedProgram) = outcome'
    at outcomes
  cases outcomes with
  | error =>
      left
      rw [Rule.bind_of_error loose] at phrase
      have program := Rule.program_headless session.budget (session.note .startedProgram) elsewhere
      rw [Rule.bind_of_error whole] at program
      rw [parse_loose_error phrase, parse_wholeProgram_error program]
      exact ⟨_, rfl, rfl⟩
  | @ok body after last still =>
      right
      have noted : (after.note (.parsed (Tree.compound body).kindName)).SameButJournal last := still
      rw [Rule.bind_of_ok loose] at phrase
      rw [parse_loose_ok phrase, parse_wholeProgram_compound elsewhere whole]
      exact ⟨_, rfl, (noted.pointed_eq _).symm⟩

/-- Both modes on a program with a heading. A whole program is what loose mode
parses up to the end of input. -/
structure AgreeOnHeaded (session : Session σ) : Prop where
  ok_iff (tree : Tree) : (session.parse .wholeProgram).1 = .ok tree ↔
    (session.parse .loose).1 = .ok tree ∧ (session.parse .loose).2.current.kind = .endOfInput
  error {error : ParseError} : (session.parse .loose).1 = .error error →
    (session.parse .wholeProgram).1 = .error error
  trailing {tree : Tree} : (session.parse .loose).1 = .ok tree →
    (session.parse .loose).2.current.kind ≠ .endOfInput →
    (session.parse .wholeProgram).1 = .error (.trailing (session.parse .loose).2.current)

/-- Both modes on a compound statement. A whole program is one behind which loose
mode leaves a period and nothing else. -/
structure AgreeOnHeadless (session : Session Replay) : Prop where
  ok_iff (tree : Tree) : (session.parse .wholeProgram).1 = .ok tree ↔
    ∃ body, (session.parse .loose).1 = .ok (.compound body) ∧ tree = .block [.noOp] body ∧
      (session.parse .loose).2.current.kind = .period ∧ (session.parse .loose).2.stream.rest = []
  error {error : ParseError} : (session.parse .loose).1 = .error error →
    (session.parse .wholeProgram).1 = .error error

theorem agreeOnHeaded (headed : session.current.kind = .programWord) : session.AgreeOnHeaded := by
  rcases session.parse_headed headed with ⟨error, failed, whole⟩ | ⟨tree, parsed, whole⟩
  · refine ⟨?_, ?_, ?_⟩
    · intro tree
      rw [whole, failed]
      simp
    · intro error' failed'
      rw [whole, ← failed, failed']
    · intro tree parsed
      rw [failed] at parsed
      cases parsed
  · refine ⟨?_, ?_, ?_⟩
    · intro tree'
      rw [whole, parsed, ending_ok, Except.ok.injEq]
    · intro error failed
      rw [parsed] at failed
      cases failed
    · intro _ _ proper
      rw [whole, ending, if_neg proper]

end Session

namespace Replay

theorem next_ended_iff {replay : Replay}
    (noEnd : ∀ token ∈ replay.rest, token.kind ≠ .endOfInput) :
    replay.next.1.kind = .endOfInput ↔ replay.rest = [] := by
  rcases replay with ⟨rest, line⟩
  cases rest with
  | nil => exact ⟨fun _ => rfl, fun _ => rfl⟩
  | cons token rest =>
      constructor
      · intro ended
        exact absurd ended (noEnd token List.mem_cons_self)
      · intro empty
        cases empty

theorem agreeOnHeadless {session : Session Replay}
    (noEnd : ∀ token ∈ session.stream.rest, token.kind ≠ .endOfInput)
    (headless : session.current.kind = .beginWord) : session.AgreeOnHeadless := by
  rcases session.parse_headless headless with ⟨error, failed, whole⟩ | ⟨body, parsed, whole⟩
  · constructor
    · intro tree
      rw [whole, failed]
      simp
    · intro error' failed'
      rw [whole, ← failed, failed']
  · rcases session.parse_passes .loose with ⟨tokens, passed⟩
    have noEndBehind : ∀ token ∈ (session.parse .loose).2.stream.rest,
        token.kind ≠ .endOfInput := by
      intro token present
      rw [rest_of_passes passed] at present
      exact noEnd token (List.mem_of_mem_drop present)
    have ended := next_ended_iff noEndBehind
    constructor
    · intro tree
      rw [whole, parsed, Session.pointed_ok, pass_current, ended]
      constructor
      · intro closed
        rcases closed with ⟨same, period, nothing⟩
        exact ⟨body, rfl, same.symm, period, nothing⟩
      · intro closed
        rcases closed with ⟨body', same, shape, period, nothing⟩
        cases same
        exact ⟨shape.symm, period, nothing⟩
    · intro error failed
      rw [parsed] at failed
      cases failed

structure ModesAgree (tokens : List Token) : Prop where
  headed {head : Token} : head ∈ tokens.head? → head.kind = .programWord →
    (Session.start (ofTokens tokens)).AgreeOnHeaded
  headless {head : Token} : head ∈ tokens.head? → head.kind = .beginWord →
    (Session.start (ofTokens tokens)).AgreeOnHeadless
  otherwise : (∀ head ∈ tokens.head?, head.kind ≠ .programWord ∧ head.kind ≠ .beginWord) →
    (Session.start (ofTokens tokens)).RefusesWhole

/-- On every list of tokens the two modes agree where both apply. -/
theorem modes_agree {tokens : List Token} (noEnd : ∀ token ∈ tokens, token.kind ≠ .endOfInput) :
    ModesAgree tokens := by
  cases tokens with
  | nil =>
      refine ⟨?_, ?_, ?_⟩
      · intro head first
        cases first
      · intro head first
        cases first
      · intro _
        have current : (Session.start (ofTokens [])).current.kind = .endOfInput := rfl
        apply Session.refusesWhole
        · simp [current]
        · simp [current]
  | cons token rest =>
      have noEndBehind : ∀ other ∈ rest, other.kind ≠ .endOfInput := by
        intro other present
        exact noEnd other (List.mem_cons_of_mem _ present)
      refine ⟨?_, ?_, ?_⟩
      · intro head first headed
        cases first
        exact Session.agreeOnHeaded headed
      · intro head first headless
        cases first
        exact agreeOnHeadless noEndBehind headless
      · intro other
        rcases other token rfl with ⟨headless, elsewhere⟩
        exact Session.refusesWhole headless elsewhere

def endedTwice : List Token :=
  [⟨.programWord, "PROGRAM", none, 1⟩, ⟨.identifier, "p", some (.name "p"), 1⟩,
    ⟨.semicolon, ";", none, 1⟩, ⟨.beginWord, "BEGIN", none, 2⟩, ⟨.endWord, "END", none, 2⟩,
    ⟨.period, ".", none, 2⟩, ⟨.endWord, "END", none, 3⟩]

/-- Loose mode stops behind the period, whole-program mode fails there; without a
heading loose mode stops in front of the period that whole-program mode asks for. -/
theorem modes_agree_at_period :
    (∀ token ∈ endedTwice, token.kind ≠ .endOfInput) ∧
    ((Session.start (ofTokens endedTwice)).parse .loose).1 = .ok (.program "p" [.noOp] [.noOp]) ∧
    ((Session.start (ofTokens endedTwice)).parse .wholeProgram).1 =
      .error (.trailing ⟨.endWord, "END", none, 3⟩) ∧
    (∀ token ∈ shortestProgram, token.kind ≠ .endOfInput) ∧
    ((Session.start (ofTokens shortestProgram)).parse .loose).1 = .ok (.compound [.noOp]) ∧
    ((Session.start (ofTokens shortestProgram)).parse .wholeProgram).1 =
      .ok (.block [.noOp] [.noOp]) := by
  have noEnd : ∀ token ∈ endedTwice, token.kind ≠ .endOfInput := by decide
  have noEnd' : ∀ token ∈ shortestProgram, token.kind ≠ .endOfInput := by decide
  have headed := (modes_agree noEnd).headed rfl rfl
  have headless := (modes_agree noEnd').headless rfl rfl
  have parsed : ((Session.start (ofTokens endedTwice)).parse .loose).1 =
      .ok (.program "p" [.noOp] [.noOp]) := rfl
  have parsed' : ((Session.start (ofTokens shortestProgram)).parse .loose).1 =
      .ok (.compound [.noOp]) := rfl
  have proper : ((Session.start (ofTokens endedTwice)).parse .loose).2.current.kind ≠
      .endOfInput := by decide
  refine ⟨noEnd, parsed, headed.trailing parsed proper, noEnd', parsed', ?_⟩
  exact (headless.ok_iff _).mpr ⟨[.noOp], parsed', rfl, rfl, rfl⟩

end Replay

end PascalFrontEnd
