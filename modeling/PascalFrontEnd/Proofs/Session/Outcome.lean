import PascalFrontEnd.Proofs.Session.Passing

namespace PascalFrontEnd.Rule

variable {σ α β : Type} {session after : Session σ}

theorem current_bind (next : Token → Rule σ β) :
    (current >>= next) session = next session.current session := rfl

theorem currentKind_bind (next : Kind → Rule σ β) :
    (currentKind >>= next) session = next session.current.kind session := rfl

theorem sees_bind (kind : Kind) (next : Bool → Rule σ β) :
    (sees kind >>= next) session = next (session.current.kind == kind) session := rfl

theorem note_bind (event : Event) (next : Unit → Rule σ β) :
    (note event >>= next) session = next () (session.note event) := rfl

theorem bind_of_ok {rule : Rule σ α} {middle : Session σ} {value : α}
    (ran : rule session = .ok value middle) (next : α → Rule σ β) :
    (rule >>= next) session = next value middle := by
  show EStateM.bind rule next session = next value middle
  simp only [EStateM.bind, ran]

theorem bind_of_error {rule : Rule σ α} {middle : Session σ} {error : ParseError}
    (ran : rule session = .error error middle) (next : α → Rule σ β) :
    (rule >>= next) session = .error error middle := by
  show EStateM.bind rule next session = .error error middle
  simp only [EStateM.bind, ran]

theorem pure_ok {value result : α} :
    (pure value : Rule σ α) session = .ok result after ↔ value = result ∧ session = after := by
  show EStateM.Result.ok value session = .ok result after ↔ _
  rw [EStateM.Result.ok.injEq]

theorem pure_error {value : α} {error : ParseError} :
    ¬ (pure value : Rule σ α) session = .error error after := by
  intro ran
  cases ran

theorem bind_ok {rule : Rule σ α} {next : α → Rule σ β} {result : β} :
    (rule >>= next) session = .ok result after ↔
      ∃ value middle, rule session = .ok value middle ∧ next value middle = .ok result after := by
  constructor
  · intro ran
    cases first : rule session with
    | ok value middle =>
        rw [bind_of_ok first next] at ran
        exact ⟨value, middle, rfl, ran⟩
    | error error middle =>
        rw [bind_of_error first next] at ran
        cases ran
  · rintro ⟨value, middle, first, second⟩
    rw [bind_of_ok first next]
    exact second

theorem bind_error {rule : Rule σ α} {next : α → Rule σ β} {error : ParseError} :
    (rule >>= next) session = .error error after ↔
      rule session = .error error after ∨
      ∃ value middle, rule session = .ok value middle ∧
        next value middle = .error error after := by
  constructor
  · intro ran
    cases first : rule session with
    | ok value middle =>
        rw [bind_of_ok first next] at ran
        exact .inr ⟨value, middle, rfl, ran⟩
    | error error middle =>
        rw [bind_of_error first next] at ran
        cases ran
        exact .inl rfl
  · rintro (first | ⟨value, middle, first, second⟩)
    · exact bind_of_error first next
    · rw [bind_of_ok first next]
      exact second

theorem fail_run (error : ParseError) :
    (fail error : Rule σ α) session = .error error (session.note (.failed error)) := rfl

theorem mismatch_run (expected : Kind) :
    (mismatch expected : Rule σ α) session =
      .error (.ofMismatch expected session.current)
        (session.note (.failed (.ofMismatch expected session.current))) := rfl

variable [TokenStream σ]

theorem announceBracket_bind (next : Unit → Rule σ β) :
    (announceBracket >>= next) session = next () session.announceBracket := rfl

theorem skip_eq_bind (kind : Kind) :
    (skip kind : Rule σ Unit) = take kind >>= fun _ => pure () := by
  funext session
  show EStateM.map (Function.const _ ()) (take kind) session =
    EStateM.bind (take kind) (fun _ => pure ()) session
  unfold EStateM.map EStateM.bind
  cases take kind session <;> rfl

theorem take_of_kind {kind : Kind} (here : session.current.kind = kind)
    (known : kind ≠ .unknown) :
    take kind session = .ok session.current session.advance := by
  show (if session.current.kind = .unknown ∨ session.current.kind ≠ kind then
      mismatch kind else _ : Rule σ Token) session = _
  rw [if_neg]
  · rfl
  · rw [here]
    rintro (unknown | other)
    · exact known unknown
    · exact other rfl

theorem take_of_unknown {kind : Kind} (unknown : session.current.kind = .unknown) :
    take kind session = mismatch kind session := by
  show (if session.current.kind = .unknown ∨ session.current.kind ≠ kind then
      mismatch kind else _ : Rule σ Token) session = _
  rw [if_pos (.inl unknown)]

theorem take_of_other {kind : Kind} (other : session.current.kind ≠ kind) :
    take kind session = mismatch kind session := by
  show (if session.current.kind = .unknown ∨ session.current.kind ≠ kind then
      mismatch kind else _ : Rule σ Token) session = _
  rw [if_pos (.inr other)]

theorem take_cases (kind : Kind) (session : Session σ) :
    (session.current.kind = kind ∧ kind ≠ .unknown ∧
      take kind session = .ok session.current session.advance) ∨
    ((session.current.kind ≠ kind ∨ kind = .unknown) ∧
      take kind session = mismatch kind session) := by
  by_cases here : session.current.kind = kind
  · by_cases known : kind = .unknown
    · exact .inr ⟨.inr known, take_of_unknown (here.trans known)⟩
    · exact .inl ⟨here, known, take_of_kind here known⟩
  · exact .inr ⟨.inl here, take_of_other here⟩

/-- The kinds of the tokens that a rule takes by themselves: an opening
parenthesis is only ever taken after it is announced. -/
abbrev Plain (kind : Kind) : Prop :=
  kind ≠ .openParen ∧ kind ≠ .endOfInput

theorem take_passes {kind : Kind} {token : Token} (plain : Plain kind)
    (ran : take kind session = .ok token after) :
    session.Passes [token] after ∧ token.kind = kind := by
  rcases take_cases kind session with ⟨here, known, taken⟩ | ⟨-, failed⟩
  · rw [taken, EStateM.Result.ok.injEq] at ran
    rcases ran with ⟨rfl, rfl⟩
    refine ⟨.token (here ▸ known) (here ▸ plain.2) ?_, here⟩
    rw [Session.pass_of_ne_openParen (here ▸ plain.1)]
    exact .done _
  · rw [failed, mismatch_run] at ran
    cases ran

theorem skip_ok {kind : Kind} {value : Unit} :
    skip kind session = .ok value after ↔ ∃ token, take kind session = .ok token after := by
  simp only [skip_eq_bind, bind_ok, pure_ok]
  constructor
  · rintro ⟨token, _, taken, -, rfl⟩
    exact ⟨token, taken⟩
  · rintro ⟨token, taken⟩
    exact ⟨token, after, taken, trivial, rfl⟩

theorem skip_of_kind {kind : Kind} (here : session.current.kind = kind)
    (known : kind ≠ .unknown) : skip kind session = .ok () session.advance := by
  rw [skip_ok]
  exact ⟨_, take_of_kind here known⟩

theorem skip_announced (here : session.current.kind = .openParen) :
    skip .openParen session.announceBracket = .ok () session.pass := by
  have announced : session.announceBracket.current.kind = .openParen := here
  rw [skip_of_kind announced (by decide), Session.pass_of_openParen here]

theorem announced_run {follow : Rule σ β} (here : session.current.kind = .openParen) :
    (do announceBracket; skip .openParen; follow : Rule σ β) session = follow session.pass := by
  rw [announceBracket_bind, bind_of_ok (skip_announced here)]

theorem skip_passes {kind : Kind} {value : Unit} (plain : Plain kind)
    (ran : skip kind session = .ok value after) :
    ∃ token, session.Passes [token] after ∧ token.kind = kind := by
  obtain ⟨token, taken⟩ := skip_ok.mp ran
  exact ⟨token, take_passes plain taken⟩

theorem take_rejects {kind : Kind} {error : ParseError}
    (ran : take kind session = .error error after) :
    error = .ofMismatch kind session.current ∧ session.Passes [] after ∧
      after.current = session.current := by
  rcases take_cases kind session with ⟨-, -, taken⟩ | ⟨-, failed⟩
  · rw [taken] at ran
    cases ran
  · rw [failed, mismatch_run, EStateM.Result.error.injEq] at ran
    rcases ran with ⟨rfl, rfl⟩
    exact ⟨rfl, .note _ (.done _), rfl⟩

end PascalFrontEnd.Rule
