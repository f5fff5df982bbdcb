import PascalFrontEnd.Proofs.Session.Passing
import PascalFrontEnd.Proofs.Tree.Likeness

namespace PascalFrontEnd.Session

variable {σ τ : Type} [TokenStream σ] [TokenStream τ] {T : Token → Token → Prop}

/-- The tokens from the current one on are like the listed ones. -/
def Copies (T : Token → Token → Prop) : Session τ → List Token → Prop
  | _, [] => True
  | session, token :: tokens => T token session.current ∧ session.pass.Copies T tokens

def PassesLike (T : Token → Token → Prop) (session : Session τ) (tokens : List Token)
    (after : Session τ) : Prop :=
  ∃ passed, List.Forall₂ T tokens passed ∧ session.Passes passed after

theorem SameButJournal.copies {session other : Session τ} {tokens : List Token}
    (same : session.SameButJournal other) (copied : session.Copies T tokens) :
    other.Copies T tokens := by
  induction tokens generalizing session other with
  | nil => trivial
  | cons token tokens ih =>
      refine ⟨?_, ih same.pass copied.2⟩
      rw [← same.1]
      exact copied.1

theorem Copies.note {session : Session τ} {tokens : List Token}
    (copied : session.Copies T tokens) (event : Event) :
    (session.note event).Copies T tokens :=
  (session.sameButJournal_note event).copies copied

theorem Copies.of_append {session : Session τ} {tokens rest : List Token}
    (copied : session.Copies T (tokens ++ rest)) : session.Copies T tokens := by
  induction tokens generalizing session with
  | nil => trivial
  | cons token tokens ih => exact ⟨copied.1, ih copied.2⟩

theorem Copies.behind {session after : Session τ} {tokens rest : List Token}
    (copied : session.Copies T (tokens ++ rest)) (passed : session.PassesLike T tokens after) :
    after.Copies T rest := by
  rcases passed with ⟨others, alike, passed⟩
  induction passed generalizing tokens with
  | done =>
      cases alike
      exact copied
  | note event _ ih => exact ih (copied.note event) alike
  | token _ _ _ ih =>
      cases alike with
      | cons _ alike => exact ih copied.2 alike

theorem Shows.copies {session : Session τ} {tokens others : List Token}
    (shown : session.Shows others) (alike : List.Forall₂ T tokens others) :
    session.Copies T tokens := by
  induction alike generalizing session with
  | nil => trivial
  | cons like _ ih => exact ⟨shown.1 ▸ like, ih shown.2⟩

theorem PassesLike.nil (session : Session τ) : session.PassesLike T [] session :=
  ⟨[], .nil, .done session⟩

theorem PassesLike.note {session after : Session τ} {tokens : List Token} (event : Event)
    (passed : (session.note event).PassesLike T tokens after) :
    session.PassesLike T tokens after := by
  rcases passed with ⟨others, alike, passed⟩
  exact ⟨others, alike, .note event passed⟩

theorem PassesLike.trans {session middle after : Session τ} {tokens more : List Token}
    (first : session.PassesLike T tokens middle) (second : middle.PassesLike T more after) :
    session.PassesLike T (tokens ++ more) after := by
  rcases first with ⟨others, alike, passed⟩
  rcases second with ⟨others', alike', passed'⟩
  exact ⟨others ++ others', List.rel_append alike alike', passed.trans passed'⟩

theorem Copies.upTo {session : Session σ} {session' : Session τ} {front back : List Token}
    {last : Token} (copied : session'.Copies T (front ++ (back ++ [last])))
    (shown : session.Shows (back ++ [last])) : session'.Copies T (front ++ [session.current]) := by
  obtain ⟨rest, shape⟩ := shown.begins
  rw [shape, ← List.singleton_append, ← List.append_assoc] at copied
  exact copied.of_append

theorem Passes.shown {session after : Session σ} {tokens : List Token}
    (passed : session.Passes tokens after) : session.Shows (tokens ++ [after.current]) := by
  induction passed with
  | done => exact ⟨rfl, trivial⟩
  | @note session _ _ event _ ih => exact (session.sameButJournal_note event).symm.shows ih
  | token _ _ _ ih => exact ⟨rfl, ih⟩

theorem Copies.head {session after : Session σ} {session' : Session τ} {tokens : List Token}
    (copied : session'.Copies T (tokens ++ [after.current]))
    (passed : session.Passes tokens after) : T session.current session'.current := by
  obtain ⟨rest, shape⟩ := passed.shown.begins
  rw [shape] at copied
  exact copied.1

theorem Shows.eq_of_length {session : Session σ} {tokens others : List Token}
    (shown : session.Shows tokens) (shown' : session.Shows others)
    (same : tokens.length = others.length) : tokens = others := by
  induction tokens generalizing session others with
  | nil => exact (List.length_eq_zero_iff.mp same.symm).symm
  | cons token tokens ih =>
      cases others with
      | nil => cases same
      | cons other others =>
          rw [← shown.1, ← shown'.1, ih shown.2 shown'.2 (Nat.succ.inj same)]

theorem Passes.unique {session after : Session σ} {tokens others : List Token}
    (passed : session.Passes tokens after) (passed' : session.Passes others after) :
    tokens = others := by
  have same := passed.pulls
  rw [passed'.pulls] at same
  exact passed.shown.of_append.eq_of_length passed'.shown.of_append (by omega)

end PascalFrontEnd.Session
