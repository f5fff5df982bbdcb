import PascalFrontEnd.Proofs.Parse.Recognition
import PascalFrontEnd.Proofs.Session.Copying

/-!
What a rule does depends on nothing but the tokens it passes and the one it stops at.
The budgets of two runs may differ, as long as both exceed the number of tokens passed.
-/

namespace PascalFrontEnd

namespace Rule

variable {σ τ α β : Type}

def left : EStateM.Result ParseError (Session σ) α → Session σ
  | .ok _ session | .error _ session => session

inductive OutcomesAlike (T : Token → Token → Prop) (A : α → β → Prop) :
    EStateM.Result ParseError (Session σ) α → EStateM.Result ParseError (Session τ) β → Prop where
  | ok {value : α} {value' : β} (after : Session σ) (after' : Session τ) :
      A value value' → OutcomesAlike T A (.ok value after) (.ok value' after')
  | error {error error' : ParseError} (after : Session σ) (after' : Session τ) :
      error.Alike T error' → OutcomesAlike T A (.error error after) (.error error' after')

variable [TokenStream σ] [TokenStream τ]

def Walks (rule : Rule σ α) (session : Session σ) : Prop :=
  ∃ tokens, session.Passes tokens (left (rule session))

theorem Walks.bind {rule : Rule σ α} {follow : α → Rule σ β} {session : Session σ}
    (first : rule.Walks session)
    (rest : ∀ value middle, rule session = .ok value middle → (follow value).Walks middle) :
    (rule >>= follow).Walks session := by
  rcases first with ⟨front, passed⟩
  unfold Walks
  cases ran : rule session with
  | error error middle =>
      rw [ran] at passed
      rw [bind_of_error ran follow]
      exact ⟨front, passed⟩
  | ok value middle =>
      rw [ran] at passed
      obtain ⟨back, passedBack⟩ := rest value middle ran
      rw [bind_of_ok ran follow]
      exact ⟨front ++ back, passed.trans passedBack⟩

theorem Walks.current {follow : Token → Rule σ α} {session : Session σ}
    (walks : (follow session.current).Walks session) : (Rule.current >>= follow).Walks session :=
  walks

theorem Walks.note {event : Event} {follow : Unit → Rule σ α} {session : Session σ}
    (walks : (follow ()).Walks (session.note event)) :
    (Rule.note event >>= follow).Walks session := by
  rcases walks with ⟨tokens, passed⟩
  exact ⟨tokens, .note event passed⟩

theorem take_walks {kind : Kind} (plain : Plain kind) (session : Session σ) :
    (take kind).Walks session := by
  unfold Walks
  cases ran : take kind session with
  | ok token after => exact ⟨_, (take_passes plain ran).1⟩
  | error error after => exact ⟨_, (take_rejects ran).2.1⟩

theorem skip_walks {kind : Kind} (plain : Plain kind) (session : Session σ) :
    (skip kind).Walks session := by
  rw [skip_eq_bind]
  exact (take_walks plain session).bind fun _ _ _ => ⟨[], .done _⟩

def Moves (past : Nat) (rule : Rule σ α) (session : Session σ) : Prop :=
  ∀ value after, rule session = .ok value after → session.pulls + past ≤ after.pulls

theorem Walks.moves {rule : Rule σ α} {session : Session σ} (walks : rule.Walks session) :
    rule.Moves 0 session := by
  intro value after ran
  rcases walks with ⟨tokens, passed⟩
  rw [ran] at passed
  have pulls : after.pulls = session.pulls + tokens.length := passed.pulls
  omega

theorem Moves.bind {past : Nat} {rule : Rule σ α} {follow : α → Rule σ β} {session : Session σ}
    (first : rule.Moves past session) (rest : ∀ value middle, (follow value).Walks middle) :
    (rule >>= follow).Moves past session := by
  intro value after ran
  obtain ⟨value', middle, ranFirst, ranRest⟩ := bind_ok.mp ran
  have start := first value' middle ranFirst
  have go := (rest value' middle).moves value after ranRest
  omega

theorem take_moves (kind : Kind) (session : Session σ) : (take kind).Moves 1 session := by
  intro token after ran
  rcases take_cases kind session with ⟨-, -, taken⟩ | ⟨-, failed⟩
  · rw [taken] at ran
    cases ran
    exact Nat.le_refl _
  · rw [failed, mismatch_run] at ran
    cases ran

theorem skip_moves (kind : Kind) (session : Session σ) : (skip kind).Moves 1 session := by
  rw [skip_eq_bind]
  exact (take_moves kind session).bind fun _ _ => ⟨[], .done _⟩

/-- From the session on, the two rules are in lockstep for fewer tokens than
the limit. -/
structure Lockstep (T : Token → Token → Prop) (limit : Nat) (A : α → β → Prop)
    (rule : Rule σ α) (other : Rule τ β) (session : Session σ) : Prop where
  walks : rule.Walks session
  agrees {tokens : List Token} {session' : Session τ} :
    session.Passes tokens (left (rule session)) → tokens.length < limit →
    session'.Copies T (tokens ++ [(left (rule session)).current]) →
    OutcomesAlike T A (rule session) (other session') ∧
      session'.PassesLike T tokens (left (other session'))

variable {T : Token → Token → Prop} {limit : Nat} {A : α → α → Prop} {B : β → β → Prop}
  {session : Session σ}

theorem Lockstep.weaken {C : α → β → Prop} {rule : Rule σ α} {other : Rule τ β} {lower : Nat}
    (lockstep : Lockstep T limit C rule other session) (below : lower ≤ limit) :
    Lockstep T lower C rule other session where
  walks := lockstep.walks
  agrees passed short := lockstep.agrees passed (Nat.lt_of_lt_of_le short below)

theorem Lockstep.vacuous {C : α → β → Prop} {rule : Rule σ α} (other : Rule τ β)
    (walks : rule.Walks session) (none : limit = 0) :
    Lockstep T limit C rule other session where
  walks := walks
  agrees _ short := by omega

theorem Lockstep.same {C : α → β → Prop} {rule : Rule σ α} {other : Rule τ β}
    {session' : Session τ} {tokens : List Token}
    (lockstep : Lockstep Eq limit C rule other session)
    (passed : session.Passes tokens (left (rule session))) (short : tokens.length < limit)
    (shown : session'.Shows (tokens ++ [(left (rule session)).current])) :
    OutcomesAlike Eq C (rule session) (other session') ∧
      session'.Passes tokens (left (other session')) := by
  have copied := shown.copies (List.forall₂_same.mpr fun token _ => (rfl : token = token))
  obtain ⟨alike, others, same, passed'⟩ := lockstep.agrees passed short copied
  rw [List.forall₂_eq_eq_eq] at same
  exact ⟨alike, same ▸ passed'⟩

theorem Lockstep.still {C : α → β → Prop} {rule : Rule σ α} {other : Rule τ β}
    (still : session.Passes [] (left (rule session)))
    (stays : (left (rule session)).current = session.current)
    (agree : ∀ session' : Session τ, T session.current session'.current →
      OutcomesAlike T C (rule session) (other session') ∧
        session'.PassesLike T [] (left (other session'))) :
    Lockstep T limit C rule other session where
  walks := ⟨[], still⟩
  agrees passed _ copied := by
    rw [passed.unique still, stays] at copied
    rw [passed.unique still]
    exact agree _ copied.1

theorem Lockstep.pure {value value' : α} (alike : A value value') :
    Lockstep T limit A (Pure.pure value : Rule σ α) (Pure.pure value' : Rule τ α) session :=
  .still (.done _) rfl fun session' _ => ⟨.ok _ _ alike, .nil session'⟩

theorem Lockstep.fail {C : α → β → Prop} {error error' : Token → ParseError}
    (alike : ∀ token token', T token token' → (error token).Alike T (error' token')) :
    Lockstep T limit C (do Rule.fail (error (← current)) : Rule σ α)
      (do Rule.fail (error' (← current)) : Rule τ β) session :=
  .still (.note _ (.done _)) rfl
    fun _ like => ⟨.error _ _ (alike _ _ like), .note _ (.nil _)⟩

theorem Lockstep.mismatch {C : α → β → Prop} (expected : Kind) :
    Lockstep T limit C (Rule.mismatch expected : Rule σ α) (Rule.mismatch expected : Rule τ β)
      session :=
  .fail fun _ _ like => .mismatch expected like

/-- Behind a first rule, in the part of the limit that it leaves. -/
theorem Lockstep.bindPast (past : Nat) {first : Rule σ α} {first' : Rule τ α}
    {follow : α → Rule σ β} {follow' : α → Rule τ β} (refl : ∀ value, A value value)
    (lockstep : Lockstep T limit A first first' session)
    (moves : first.Moves past session)
    (rest : ∀ value value' middle, A value value' →
      Lockstep T (limit - past) B (follow value) (follow' value') middle) :
    Lockstep T limit B (first >>= follow) (first' >>= follow') session := by
  rcases lockstep with ⟨walks, agrees⟩
  refine ⟨walks.bind fun value middle _ => (rest value value middle (refl value)).walks, ?_⟩
  intro tokens session' passed short copied
  cases ran : first session with
  | error error middle =>
      rw [bind_of_error ran follow] at passed copied ⊢
      rw [ran] at agrees
      obtain ⟨alike, passed'⟩ := agrees passed short copied
      cases ran' : first' session' with
      | ok value' middle' =>
          rw [ran'] at alike
          cases alike
      | error error' middle' =>
          rw [ran'] at alike passed'
          rw [bind_of_error ran' follow']
          cases alike with
          | error _ _ alike => exact ⟨.error _ _ alike, passed'⟩
  | ok value middle =>
      rcases walks with ⟨front, passedFront⟩
      obtain ⟨back, passedBack⟩ := (rest value value middle (refl value)).walks
      rw [ran] at passedFront agrees
      rw [bind_of_ok ran follow] at passed copied ⊢
      rw [passed.unique (passedFront.trans passedBack)] at short copied ⊢
      rw [List.length_append] at short
      rw [List.append_assoc] at copied
      have moved := moves value middle ran
      rw [show middle.pulls = _ from passedFront.pulls] at moved
      -- The second rule begins where the first one stops.
      have stops : session'.Copies T (front ++ [middle.current]) := copied.upTo passedBack.shown
      obtain ⟨alike, passed'⟩ := agrees passedFront (by omega) stops
      cases ran' : first' session' with
      | error error' middle' =>
          rw [ran'] at alike
          cases alike
      | ok value' middle' =>
          rw [ran'] at alike passed'
          rw [bind_of_ok ran' follow']
          cases alike with
          | ok _ _ alike =>
              rcases (rest value value' middle alike).agrees passedBack (by omega)
                (copied.behind passed') with ⟨alike, passedRest⟩
              exact ⟨alike, passed'.trans passedRest⟩

theorem Lockstep.bind {first : Rule σ α} {first' : Rule τ α} {follow : α → Rule σ β}
    {follow' : α → Rule τ β} (refl : ∀ value, A value value)
    (lockstep : Lockstep T limit A first first' session)
    (rest : ∀ value value' middle, A value value' →
      Lockstep T limit B (follow value) (follow' value') middle) :
    Lockstep T limit B (first >>= follow) (first' >>= follow') session :=
  .bindPast 0 refl lockstep lockstep.walks.moves rest

theorem Lockstep.note {follow : Unit → Rule σ β} {follow' : Unit → Rule τ β}
    {event event' : Event}
    (rest : ∀ session, Lockstep T limit B (follow ()) (follow' ()) session) :
    Lockstep T limit B (Rule.note event >>= follow) (Rule.note event' >>= follow') session where
  walks := .note (rest _).walks
  agrees {tokens session'} passed short copied := by
    rw [note_bind] at passed copied ⊢
    rw [note_bind]
    obtain ⟨others, passed'⟩ := (rest (session.note event)).walks
    rw [← passed.unique (.note event passed')] at passed'
    obtain ⟨alike, passedLike⟩ := (rest _).agrees passed' short (copied.note event')
    exact ⟨alike, .note event' passedLike⟩

theorem Lockstep.current [Likeness T] {follow : Token → Rule σ β} {follow' : Token → Rule τ β}
    (rest : ∀ token, T session.current token →
      Lockstep T limit B (follow session.current) (follow' token) session) :
    Lockstep T limit B (Rule.current >>= follow) (Rule.current >>= follow') session where
  walks := (rest session.current (Likeness.refl _)).walks
  agrees passed short copied := by
    rw [current_bind] at passed copied ⊢
    rw [current_bind]
    exact (rest _ (copied.head passed)).agrees passed short copied

theorem Lockstep.currentKind [Likeness T] {follow : Kind → Rule σ β} {follow' : Kind → Rule τ β}
    (rest : Lockstep T limit B (follow session.current.kind) (follow' session.current.kind)
      session) :
    Lockstep T limit B (Rule.currentKind >>= follow) (Rule.currentKind >>= follow') session where
  walks := rest.walks
  agrees passed short copied := by
    rw [currentKind_bind] at passed copied ⊢
    rw [currentKind_bind, ← Likeness.kind_eq (copied.head passed)]
    exact rest.agrees passed short copied

theorem Lockstep.sees [Likeness T] {kind : Kind} {follow : Bool → Rule σ β}
    {follow' : Bool → Rule τ β}
    (rest : Lockstep T limit B (follow (session.current.kind == kind))
      (follow' (session.current.kind == kind)) session) :
    Lockstep T limit B (Rule.sees kind >>= follow) (Rule.sees kind >>= follow') session where
  walks := rest.walks
  agrees passed short copied := by
    rw [sees_bind] at passed copied ⊢
    rw [sees_bind, ← Likeness.kind_eq (copied.head passed)]
    exact rest.agrees passed short copied

theorem take_lockstep [Likeness T] {kind : Kind} (plain : Plain kind) :
    Lockstep T limit T (take kind : Rule σ Token) (take kind : Rule τ Token) session := by
  rcases take_cases kind session with ⟨here, known, ran⟩ | ⟨other, ran⟩
  · have passed := (take_passes plain ran).1
    constructor
    · unfold Walks
      rw [ran]
      exact ⟨_, passed⟩
    · intro tokens session' passes short copied
      rw [ran] at passes copied ⊢
      have head := copied.head passes
      have here' : session'.current.kind = kind := (Likeness.kind_eq head).symm.trans here
      have ran' := take_of_kind here' known
      rw [passes.unique passed, ran']
      exact ⟨.ok _ _ head, _, .cons head .nil, (take_passes plain ran').1⟩
  · have refused : ∀ session' : Session τ, T session.current session'.current →
        take kind session' = mismatch kind session' := by
      intro session' head
      rcases take_cases kind session' with ⟨here', known, _⟩ | ⟨_, ran'⟩
      · rcases other with other | unknown
        · exact absurd ((Likeness.kind_eq head).trans here') other
        · exact absurd unknown known
      · exact ran'
    refine .still ?_ ?_ ?_
    · rw [ran]
      exact .note _ (.done _)
    · rw [ran]
      rfl
    · intro session' head
      rw [ran, refused session' head]
      exact ⟨.error _ _ (.mismatch kind head), .note _ (.nil _)⟩

theorem Lockstep.taken [Likeness T] {kind : Kind} {follow : Token → Rule σ β}
    {follow' : Token → Rule τ β} (plain : Plain kind)
    (rest : ∀ token token' middle, T token token' →
      Lockstep T limit B (follow token) (follow' token') middle) :
    Lockstep T limit B (take kind >>= follow) (take kind >>= follow') session :=
  (take_lockstep plain).bind Likeness.refl rest

theorem skip_lockstep [Likeness T] {kind : Kind} (plain : Plain kind) :
    Lockstep T limit (fun _ _ => True) (skip kind : Rule σ Unit) (skip kind : Rule τ Unit)
      session := by
  rw [skip_eq_bind, skip_eq_bind]
  exact (take_lockstep plain).bind Likeness.refl fun _ _ _ _ => .pure trivial

theorem Lockstep.past [Likeness T] {kind : Kind} {follow : Unit → Rule σ β}
    {follow' : Unit → Rule τ β} (plain : Plain kind)
    (rest : ∀ middle, Lockstep T (limit - 1) B (follow ()) (follow' ()) middle) :
    Lockstep T limit B (skip kind >>= follow) (skip kind >>= follow') session :=
  .bindPast 1 (fun _ => trivial) (skip_lockstep plain) (skip_moves kind session)
    fun _ _ middle _ => rest middle

theorem Lockstep.announced [Likeness T] {follow : Rule σ β} {follow' : Rule τ β}
    (here : session.current.kind = .openParen)
    (rest : Lockstep T (limit - 1) B follow follow' session.pass) :
    Lockstep T limit B (do announceBracket; skip .openParen; follow : Rule σ β)
      (do announceBracket; skip .openParen; follow' : Rule τ β) session := by
  rcases rest with ⟨⟨back, passedBack⟩, agrees⟩
  have known : session.current.kind ≠ .unknown ∧ session.current.kind ≠ .endOfInput := by
    rw [here]
    exact ⟨by decide, by decide⟩
  have passedAll := Session.Passes.token known.1 known.2 passedBack
  constructor
  · unfold Walks
    rw [announced_run here]
    exact ⟨_, passedAll⟩
  · intro tokens session' passed short copied
    rw [announced_run here] at passed copied ⊢
    have head := copied.head passed
    have here' : session'.current.kind = .openParen := (Likeness.kind_eq head).symm.trans here
    rw [passed.unique passedAll] at short copied ⊢
    rw [List.length_cons] at short
    rw [announced_run here']
    obtain ⟨alike, others, like, passed'⟩ := agrees passedBack (by omega) copied.2
    refine ⟨alike, session'.current :: others, .cons head like, .token ?_ ?_ passed'⟩
    · rw [here']; decide
    · rw [here']; decide

theorem repeatWhile_walks {admits : Kind → Bool} {rule : Rule σ α}
    (once : ∀ session : Session σ, admits session.current.kind = true → rule.Walks session)
    (steps : Nat) (session : Session σ) : (repeatWhile admits rule steps).Walks session := by
  induction steps generalizing session with
  | zero => exact ⟨[], .done _⟩
  | succ steps ih =>
      unfold Walks
      rw [repeatWhile, currentKind_bind]
      by_cases admitted : admits session.current.kind = true
      · rw [if_pos admitted]
        exact (once session admitted).bind fun _ middle _ =>
          (ih middle).bind fun _ _ _ => ⟨[], .done _⟩
      · rw [if_neg admitted]
        exact ⟨[], .done _⟩

theorem repeatWhile_lockstep [Likeness T] {admits : Kind → Bool} {rule : Rule σ α}
    {other : Rule τ α} (refl : ∀ value, A value value)
    (once : ∀ session : Session σ, admits session.current.kind = true →
      Lockstep T limit A rule other session)
    (moves : ∀ session : Session σ, admits session.current.kind = true → rule.Moves 1 session)
    {steps steps' : Nat} (enough : limit ≤ steps) (enough' : limit ≤ steps')
    (session : Session σ) :
    Lockstep T limit (List.Forall₂ A) (repeatWhile admits rule steps)
      (repeatWhile admits other steps') session := by
  have walks := repeatWhile_walks fun session admitted => (once session admitted).walks
  induction steps generalizing limit steps' session with
  | zero => exact .vacuous _ (walks 0 session) (by omega)
  | succ steps ih =>
      cases steps' with
      | zero => exact .vacuous _ (walks (steps + 1) session) (by omega)
      | succ steps' =>
          rw [repeatWhile, repeatWhile]
          apply Lockstep.currentKind
          by_cases admitted : admits session.current.kind = true
          · rw [if_pos admitted, if_pos admitted]
            apply (once session admitted).bindPast 1 refl (moves session admitted)
            intro value value' middle alike
            refine (ih (fun session admitted => (once session admitted).weaken (by omega))
              (by omega) (by omega) middle).bind ?_ ?_
            · exact fun values => List.forall₂_same.mpr fun value _ => refl value
            · exact fun values values' _ rest => .pure (.cons alike rest)
          · rw [if_neg admitted, if_neg admitted]
            exact .pure .nil

end Rule

end PascalFrontEnd
