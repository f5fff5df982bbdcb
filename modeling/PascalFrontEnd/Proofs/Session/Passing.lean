import Mathlib.Logic.Function.Iterate
import PascalFrontEnd.Parse.Session

/-!
A rule never does more to a session than take notes and pass the current token. `Shows`
looks ahead along these moves, `Passes` looks back.
-/

namespace PascalFrontEnd

variable {σ : Type}

namespace Session

@[simp] theorem current_note (session : Session σ) (event : Event) :
    (session.note event).current = session.current := rfl

variable [TokenStream σ]

/-- Pass the current token; an opening parenthesis is announced first. -/
def pass (session : Session σ) : Session σ :=
  if session.current.kind = .openParen then session.announceBracket.advance
  else session.advance

def Shows : Session σ → List Token → Prop
  | _, [] => True
  | session, token :: tokens => session.current = token ∧ session.pass.Shows tokens

/-- Passing the listed tokens leads from one session to the other. Notes are
taken on the way; the end of input and unknown tokens are never passed. -/
inductive Passes : Session σ → List Token → Session σ → Prop where
  | done (session : Session σ) : Passes session [] session
  | note {session after : Session σ} {tokens : List Token} (event : Event) :
      Passes (session.note event) tokens after → Passes session tokens after
  | token {session after : Session σ} {tokens : List Token} :
      session.current.kind ≠ .unknown → session.current.kind ≠ .endOfInput →
      Passes session.pass tokens after →
      Passes session (session.current :: tokens) after

@[simp] theorem pulls_pass (session : Session σ) :
    session.pass.pulls = session.pulls + 1 := by
  unfold pass
  split <;> rfl

theorem pass_of_openParen {session : Session σ} (here : session.current.kind = .openParen) :
    session.pass = session.announceBracket.advance :=
  if_pos here

theorem pass_of_ne_openParen {session : Session σ}
    (elsewhere : session.current.kind ≠ .openParen) : session.pass = session.advance :=
  if_neg elsewhere

def SameButJournal (session other : Session σ) : Prop :=
  session.current = other.current ∧ session.stream = other.stream ∧
    session.pulls = other.pulls ∧ session.brackets = other.brackets

omit [TokenStream σ] in
theorem sameButJournal_refl (session : Session σ) : session.SameButJournal session :=
  ⟨rfl, rfl, rfl, rfl⟩

omit [TokenStream σ] in
theorem sameButJournal_note (session : Session σ) (event : Event) :
    session.SameButJournal (session.note event) :=
  ⟨rfl, rfl, rfl, rfl⟩

theorem SameButJournal.pass {session other : Session σ}
    (same : session.SameButJournal other) : session.pass.SameButJournal other.pass := by
  rcases session with ⟨current, stream, pulls, brackets, journal⟩
  rcases other with ⟨current', stream', pulls', brackets', journal'⟩
  rcases same with ⟨rfl, rfl, rfl, rfl⟩
  by_cases bracket : current.kind = .openParen
  · simp only [Session.pass, bracket, if_true]
    exact ⟨rfl, rfl, rfl, rfl⟩
  · simp only [Session.pass, bracket, if_false]
    exact ⟨rfl, rfl, rfl, rfl⟩

omit [TokenStream σ] in
theorem SameButJournal.symm {session other : Session σ} (same : session.SameButJournal other) :
    other.SameButJournal session := by
  rcases same with ⟨current, stream, pulls, brackets⟩
  exact ⟨current.symm, stream.symm, pulls.symm, brackets.symm⟩

omit [TokenStream σ] in
theorem SameButJournal.trans {session other third : Session σ}
    (first : session.SameButJournal other) (second : other.SameButJournal third) :
    session.SameButJournal third := by
  rcases first with ⟨current, stream, pulls, brackets⟩
  rcases second with ⟨current', stream', pulls', brackets'⟩
  exact ⟨current.trans current', stream.trans stream', pulls.trans pulls', brackets.trans brackets'⟩

theorem SameButJournal.passTimes {session other : Session σ}
    (same : session.SameButJournal other) (times : Nat) :
    (Session.pass^[times] session).SameButJournal (Session.pass^[times] other) := by
  induction times generalizing session other with
  | zero => exact same
  | succ times ih => exact ih same.pass

theorem SameButJournal.shows {session other : Session σ} {tokens : List Token}
    (same : session.SameButJournal other) (shown : session.Shows tokens) :
    other.Shows tokens := by
  induction tokens generalizing session other with
  | nil => trivial
  | cons token tokens ih =>
      refine ⟨?_, ih same.pass shown.2⟩
      rw [← same.1]
      exact shown.1

theorem Shows.note {session : Session σ} {tokens : List Token}
    (shown : session.Shows tokens) (event : Event) :
    (session.note event).Shows tokens :=
  (session.sameButJournal_note event).shows shown

theorem Shows.of_append {session : Session σ} {tokens rest : List Token}
    (shown : session.Shows (tokens ++ rest)) : session.Shows tokens := by
  induction tokens generalizing session with
  | nil => trivial
  | cons token tokens ih => exact ⟨shown.1, ih shown.2⟩

theorem Shows.begins {session : Session σ} {tokens : List Token} {last : Token}
    (shown : session.Shows (tokens ++ [last])) :
    ∃ rest, tokens ++ [last] = session.current :: rest := by
  cases tokens with
  | nil => exact ⟨[], by rw [shown.1, List.nil_append]⟩
  | cons token tokens => exact ⟨tokens ++ [last], by rw [shown.1, List.cons_append]⟩

theorem Passes.trans {session middle after : Session σ} {tokens more : List Token}
    (first : session.Passes tokens middle) (second : middle.Passes more after) :
    session.Passes (tokens ++ more) after := by
  induction first with
  | done => exact second
  | note event _ ih => exact .note event (ih second)
  | token known notEnd _ ih => exact .token known notEnd (ih second)

theorem Passes.pulls {session after : Session σ} {tokens : List Token}
    (passed : session.Passes tokens after) :
    after.pulls = session.pulls + tokens.length := by
  induction passed with
  | done => rfl
  | note event _ ih => exact ih
  | token _ _ _ ih =>
      rw [ih, pulls_pass, List.length_cons]
      omega

/-- But for the journal, passing as many tokens is all that has been done. -/
theorem Passes.passTimes {session after : Session σ} {tokens : List Token}
    (passed : session.Passes tokens after) :
    (Session.pass^[tokens.length] session).SameButJournal after := by
  induction passed with
  | done session => exact session.sameButJournal_refl
  | @note session after tokens event _ ih =>
      have noted := session.sameButJournal_note event
      exact (noted.passTimes tokens.length).trans ih
  | token _ _ _ ih => exact ih

theorem Passes.sameButJournal {session other after last : Session σ} {tokens : List Token}
    (passed : session.Passes tokens after) (same : session.SameButJournal other)
    (passed' : other.Passes tokens last) : after.SameButJournal last :=
  passed.passTimes.symm.trans ((same.passTimes tokens.length).trans passed'.passTimes)

theorem Passes.shows {session after : Session σ} {tokens rest : List Token}
    (passed : session.Passes tokens after) (shown : session.Shows (tokens ++ rest)) :
    after.Shows rest := by
  induction passed with
  | done => exact shown
  | note event _ ih => exact ih (shown.note event)
  | token _ _ _ ih => exact ih shown.2

theorem Passes.kind_ne {session after : Session σ} {tokens : List Token}
    (passed : session.Passes tokens after) :
    ∀ token ∈ tokens, token.kind ≠ .unknown ∧ token.kind ≠ .endOfInput := by
  induction passed with
  | done => intro token present; exact absurd present (List.not_mem_nil)
  | note event _ ih => exact ih
  | token known notEnd _ ih =>
      intro token present
      rcases List.mem_cons.mp present with rfl | present
      · exact ⟨known, notEnd⟩
      · exact ih token present

/-- What is passed is a first part of what is shown up to the end of input. -/
theorem Passes.split_shown {session after : Session σ} {tokens shown : List Token} {last : Token}
    (passed : session.Passes tokens after) (shows : session.Shows (shown ++ [last]))
    (ended : last.kind = .endOfInput) :
    ∃ rest, shown = tokens ++ rest ∧ after.Shows (rest ++ [last]) := by
  induction passed generalizing shown with
  | done => exact ⟨shown, rfl, shows⟩
  | note event _ ih => exact ih (shows.note event)
  | token _ notEnd _ ih =>
      cases shown with
      | nil =>
          rw [← shows.1] at ended
          exact absurd ended notEnd
      | cons head shown =>
          obtain ⟨rest, rfl, showsRest⟩ := ih shows.2
          rw [← shows.1]
          exact ⟨rest, rfl, showsRest⟩

end Session

end PascalFrontEnd
