import PascalFrontEnd.Proofs.Grammar.Documented
import PascalFrontEnd.Proofs.Parse.Completeness
import PascalFrontEnd.Proofs.Session.Supply

namespace PascalFrontEnd

def Kind.leadsExpression : Kind → Bool
  | integerLiteral | realLiteral | openParen | unarySign => true
  | _ => false

namespace Mode

def Reads : Mode → List Token → Tree → Prop
  | wholeProgram, tokens, tree => PascalFrontEnd.Reads .program tokens tree
  | loose, tokens, tree =>
      (PascalFrontEnd.Reads .expression tokens tree ∧
        ∃ head ∈ tokens.head?, head.kind.leadsExpression = true) ∨
      (PascalFrontEnd.Reads .program tokens tree ∧
        ∃ head ∈ tokens.head?, head.kind = .programWord) ∨
      ∃ body, PascalFrontEnd.Reads .compound tokens body ∧ tree = .compound body

/-- The kinds that may follow a phrase of loose mode. Only an expression could
go on with an operator. -/
def EndsPhrase (tokens : List Token) (kind : Kind) : Prop :=
  (∃ head ∈ tokens.head?, head.kind.leadsExpression = true) → Rule.EndsExpression kind

def Stops : Mode → Kind → Prop
  | wholeProgram, kind => kind = .endOfInput
  | loose, kind => Rule.EndsExpression kind

end Mode

namespace Rule

variable {σ : Type} [TokenStream σ]

theorem phrase_cases (steps : Nat) (session : Session σ) :
    (session.current.kind.leadsExpression = true ∧
      phrase steps session = expression steps session) ∨
    (session.current.kind = .programWord ∧ phrase steps session = program steps session) ∨
    (session.current.kind = .beginWord ∧
      phrase steps session = (compound steps >>= fun body => pure (.compound body)) session) ∨
    (session.current.kind.leadsExpression = false ∧ session.current.kind ≠ .programWord ∧
      session.current.kind ≠ .beginWord ∧ phrase steps session = mismatch .beginWord session) := by
  simp only [phrase, currentKind_bind]
  cases session.current.kind <;> simp [Kind.leadsExpression]

theorem head_of_passes {session after : Session σ} {tokens : List Token}
    (passed : session.Passes tokens after) (proper : tokens ≠ []) :
    session.current ∈ tokens.head? := by
  induction passed with
  | done => exact absurd rfl proper
  | note event _ ih => exact ih proper
  | token => rfl

theorem phrase_yields (steps : Nat) : (phrase steps : Rule σ Tree).Yields Mode.loose.Reads := by
  intro session tree after ran
  rcases phrase_cases steps session with
    ⟨leads, run⟩ | ⟨leads, run⟩ | ⟨-, run⟩ | ⟨-, -, -, run⟩ <;> rw [run] at ran
  · obtain ⟨tokens, passed, read⟩ := expression_yields steps _ _ _ ran
    exact ⟨tokens, passed, .inl ⟨read, _, head_of_passes passed (read.ne_nil rfl), leads⟩⟩
  · obtain ⟨tokens, passed, read⟩ := program_yields steps _ _ _ ran
    exact ⟨tokens, passed, .inr (.inl ⟨read, _, head_of_passes passed (read.ne_nil rfl), leads⟩)⟩
  · simp only [bind_ok, pure_ok] at ran
    rcases ran with ⟨body, last, ranBody, rfl, rfl⟩
    obtain ⟨tokens, passed, read⟩ := compound_yields steps _ _ _ ranBody
    exact ⟨tokens, passed, .inr (.inr ⟨body, read, rfl⟩)⟩
  · rw [mismatch_run] at ran
    cases ran

theorem phrase_finishes (steps : Nat) {tokens : List Token} {tree : Tree}
    (read : Mode.loose.Reads tokens tree) (short : tokens.length < steps) :
    (phrase steps : Rule σ Tree).Finishes (Mode.EndsPhrase tokens) tokens tree := by
  intro session next shown stops
  have head : ∀ first ∈ tokens.head?, session.current = first := by
    intro first here
    cases tokens with
    | nil => cases here
    | cons token rest =>
        cases here
        exact shown.head
  rcases read with ⟨read, first, here, leads⟩ | ⟨read, first, here, leads⟩ | ⟨body, read, rfl⟩
  · have run : phrase steps session = expression steps session := by
      unfold phrase
      rw [currentKind_bind, head first here]
      cases kind : first.kind <;> rw [kind] at leads <;> first | rfl | cases leads
    rw [run]
    exact expression_finishes steps read short session next shown (stops ⟨first, here, leads⟩)
  · have run : phrase steps session = program steps session := by
      unfold phrase
      rw [currentKind_bind, head first here, leads]
    rw [run]
    exact program_finishes steps read short session next shown trivial
  · have run : phrase steps session = (compound steps >>= fun body => pure (.compound body)) session := by
      cases read with
      | compound kind _ _ =>
          unfold phrase
          rw [currentKind_bind, head _ rfl, kind]
    have whole : (compound steps >>= fun body => pure (.compound body) : Rule σ Tree).Finishes
        Anywhere tokens (.compound body) :=
      (compound_finishes steps read short).andThen (.pure _ _)
    rw [run]
    exact whole session next shown trivial

theorem loose_yields (steps : Nat) : (loose steps : Rule σ Tree).Yields Mode.loose.Reads := by
  intro session tree after ran
  simp only [loose, current_bind, note_bind, bind_ok, pure_ok] at ran
  rcases ran with ⟨value, middle, ranPhrase, rfl, rfl⟩
  obtain ⟨tokens, passed, read⟩ := phrase_yields steps _ _ _ ranPhrase
  refine ⟨tokens, ?_, read⟩
  have whole := Session.Passes.note _ (passed.trans (.note (.parsed value.kindName) (.done _)))
  rwa [List.append_nil] at whole

theorem loose_finishes (steps : Nat) {tokens : List Token} {tree : Tree}
    (read : Mode.loose.Reads tokens tree) (short : tokens.length < steps) :
    (loose steps : Rule σ Tree).Finishes (Mode.EndsPhrase tokens) tokens tree := by
  unfold loose
  refine .current fun _ => .note ?_
  exact (phrase_finishes steps read short).andThen (.note (.pure _ _))

theorem wholeProgram_yields (steps : Nat) :
    (wholeProgram steps : Rule σ Tree).Yields Mode.wholeProgram.Reads := by
  intro session tree after ran
  simp only [wholeProgram, note_bind, sees_bind, bind_ok] at ran
  rcases ran with ⟨value, middle, ranProgram, ran⟩
  obtain ⟨tokens, passed, read⟩ := program_yields steps _ _ _ ranProgram
  by_cases ended : (middle.current.kind == Kind.endOfInput) = true
  · simp only [if_pos ended, note_bind, pure_ok] at ran
    rcases ran with ⟨rfl, rfl⟩
    refine ⟨tokens, ?_, read⟩
    have whole := Session.Passes.note _ (passed.trans (.note (.parsed value.kindName) (.done _)))
    rwa [List.append_nil] at whole
  · rw [if_neg ended, current_bind, fail_run] at ran
    cases ran

theorem wholeProgram_ends {steps : Nat} {session after : Session σ} {tree : Tree}
    (ran : wholeProgram steps session = .ok tree after) :
    after.current.kind = .endOfInput := by
  simp only [wholeProgram, note_bind, sees_bind, bind_ok] at ran
  rcases ran with ⟨value, middle, _, ran⟩
  by_cases ended : (middle.current.kind == Kind.endOfInput) = true
  · simp only [if_pos ended, note_bind, pure_ok] at ran
    rcases ran with ⟨rfl, rfl⟩
    simpa using ended
  · rw [if_neg ended, current_bind, fail_run] at ran
    cases ran

theorem wholeProgram_finishes (steps : Nat) {tokens : List Token} {tree : Tree}
    (read : Reads .program tokens tree) (short : tokens.length < steps) :
    (wholeProgram steps : Rule σ Tree).Finishes (· = .endOfInput) tokens tree := by
  unfold wholeProgram
  refine .note (((program_finishes steps read short).weaken fun _ _ => trivial).andThen ?_)
  intro session next shown stops
  refine ⟨session.note (.parsed tree.kindName), ?_, .note _ (.done _)⟩
  rw [sees_bind, shown.head, stops]
  rfl

theorem inMode_yields (mode : Mode) (steps : Nat) :
    (inMode mode steps : Rule σ Tree).Yields mode.Reads := by
  cases mode with
  | loose => exact loose_yields steps
  | wholeProgram => exact wholeProgram_yields steps

theorem inMode_finishes (mode : Mode) (steps : Nat) {tokens : List Token} {tree : Tree}
    (read : mode.Reads tokens tree) (short : tokens.length < steps) :
    (inMode mode steps : Rule σ Tree).Finishes mode.Stops tokens tree := by
  cases mode with
  | loose => exact (loose_finishes steps read short).weaken fun _ stops _ => stops
  | wholeProgram => exact wholeProgram_finishes steps read short

end Rule

theorem Mode.Reads.known {mode : Mode} {tokens : List Token} {tree : Tree}
    (read : mode.Reads tokens tree) {token : Token} (present : token ∈ tokens) :
    token.kind ≠ .endOfInput ∧ token.kind ≠ .unknown := by
  cases mode with
  | wholeProgram => exact PascalFrontEnd.Reads.known read present
  | loose =>
      rcases read with ⟨read, _⟩ | ⟨read, _⟩ | ⟨body, read, _⟩ <;> exact read.known present

namespace Session

variable {σ : Type} [TokenStream σ] {session after : Session σ} {mode : Mode}

theorem parse_ok {tree : Tree} :
    session.parse mode = (.ok tree, after) ↔
      Rule.inMode mode session.budget session = .ok tree after := by
  unfold parse
  cases Rule.inMode mode session.budget session <;> simp

theorem parse_error {error : ParseError} :
    session.parse mode = (.error error, after) ↔
      Rule.inMode mode session.budget session = .error error after := by
  unfold parse
  cases Rule.inMode mode session.budget session <;> simp

/-- A parse that succeeds has passed what its mode reads as the tree. -/
theorem reads_of_parse {tree : Tree} (parsed : session.parse mode = (.ok tree, after)) :
    ∃ tokens, session.Passes tokens after ∧ mode.Reads tokens tree :=
  Rule.inMode_yields mode _ _ _ _ (parse_ok.mp parsed)

/-- A session that shows what its mode parses, and behind it a token at which
to stop, parses it and passes nothing else. -/
theorem parse_of_reads [LawfulTokenStream σ] {tokens : List Token} {next : Token} {tree : Tree}
    (shown : session.Shows (tokens ++ [next])) (read : mode.Reads tokens tree)
    (stops : mode.Stops next.kind) :
    ∃ after, session.parse mode = (.ok tree, after) ∧ session.Passes tokens after := by
  have short := shown.of_append.length_lt_budget fun _ present => (read.known present).1
  rcases Rule.inMode_finishes mode session.budget read (by omega) session next shown stops with
    ⟨after, ran, passed⟩
  exact ⟨after, parse_ok.mpr ran, passed⟩

end Session

namespace Replay

variable {tokens : List Token}

theorem whole_of_parse (noEnd : ∀ token ∈ tokens, token.kind ≠ .endOfInput) {tree : Tree}
    {after : Session Replay}
    (ran : (Session.start (ofTokens tokens)).parse .wholeProgram = (.ok tree, after)) :
    Reads .program tokens tree ∧ (Session.start (ofTokens tokens)).Passes tokens after ∧
      after.current.kind = .endOfInput := by
  have run := Session.parse_ok.mp ran
  have ended := Rule.wholeProgram_ends run
  obtain ⟨passed, passes, read⟩ := Rule.inMode_yields .wholeProgram _ _ _ _ run
  obtain ⟨rest, shape, shown⟩ := passes.split_shown (shows_tokens tokens) rfl
  have nothing : rest = [] := by
    cases rest with
    | nil => rfl
    | cons head rest =>
        have here : after.current = head := shown.1
        have present : head ∈ tokens := by simp [shape]
        exact absurd (here ▸ ended) (noEnd head present)
  rw [nothing, List.append_nil] at shape
  rw [← shape] at passes read
  exact ⟨read, passes, ended⟩

/-- In whole-program mode a list of tokens parses exactly if the documented
grammar derives its kinds, and a parse that succeeds has passed the list to its
end. -/
theorem parse_wholeProgram_iff (noEnd : ∀ token ∈ tokens, token.kind ≠ .endOfInput) :
    ((∃ tree after, (Session.start (ofTokens tokens)).parse .wholeProgram = (.ok tree, after)) ↔
      (Ebnf.part .program).Matches (Token.kinds tokens)) ∧
    ∀ tree after, (Session.start (ofTokens tokens)).parse .wholeProgram = (.ok tree, after) →
      (Session.start (ofTokens tokens)).Passes tokens after ∧
        after.current.kind = .endOfInput ∧ after.stream.rest = [] := by
  constructor
  · rw [matches_iff]
    constructor
    · rintro ⟨tree, after, ran⟩
      exact (whole_of_parse noEnd ran).1.derives
    · intro derived
      obtain ⟨tree, read⟩ := Derives.reads derived rfl
      have reads : Mode.wholeProgram.Reads tokens tree := read
      obtain ⟨after, ran, _⟩ := Session.parse_of_reads (shows_tokens tokens) reads rfl
      exact ⟨tree, after, ran⟩
  · intro tree after ran
    obtain ⟨-, passed, ended⟩ := whole_of_parse noEnd ran
    refine ⟨passed, ended, ?_⟩
    rw [rest_of_passes passed]
    cases tokens with
    | nil => rfl
    | cons token tokens => exact List.drop_eq_nil_of_le (Nat.le_succ _)

def shortestProgram : List Token :=
  [⟨.beginWord, "BEGIN", none, 1⟩, ⟨.endWord, "END", none, 1⟩, ⟨.period, ".", none, 1⟩]

theorem parse_shortestProgram_iff :
    (∀ token ∈ shortestProgram, token.kind ≠ .endOfInput) ∧
    (Ebnf.part .program).Matches [.beginWord, .endWord, .period] ∧
    ∃ after,
      (Session.start (ofTokens shortestProgram)).parse .wholeProgram =
        (.ok (.block [.noOp] [.noOp]), after) ∧
      (Session.start (ofTokens shortestProgram)).Passes shortestProgram after ∧
      after.current = ⟨.endOfInput, "", none, 1⟩ ∧ after.stream.rest = [] := by
  have noEnd : ∀ token ∈ shortestProgram, token.kind ≠ .endOfInput := by decide
  obtain ⟨recognised, consumed⟩ := parse_wholeProgram_iff noEnd
  obtain ⟨after, parsed, current⟩ : ∃ after,
      (Session.start (ofTokens shortestProgram)).parse .wholeProgram =
        (.ok (.block [.noOp] [.noOp]), after) ∧ after.current = ⟨.endOfInput, "", none, 1⟩ :=
    ⟨_, by with_unfolding_all rfl, by with_unfolding_all rfl⟩
  obtain ⟨passed, -, exhausted⟩ := consumed _ after parsed
  exact ⟨noEnd, recognised.mp ⟨_, after, parsed⟩, after, parsed, passed, current, exhausted⟩

end Replay

end PascalFrontEnd
