import PascalFrontEnd.Proofs.Parse.LockstepRules

namespace PascalFrontEnd.Session

variable {σ τ : Type} [TokenStream σ] [TokenStream τ] {T : Token → Token → Prop}

def bracketsAt (pulls : Nat) : List Token → List Nat
  | [] => []
  | token :: tokens =>
      if token.kind = .openParen then pulls :: bracketsAt (pulls + 1) tokens
      else bracketsAt (pulls + 1) tokens

theorem Passes.brackets {session after : Session σ} {tokens : List Token}
    (passed : session.Passes tokens after) :
    after.brackets.toList = session.brackets.toList ++ bracketsAt session.pulls tokens := by
  induction passed with
  | done => simp [bracketsAt]
  | note event _ ih => exact ih
  | token _ _ _ ih =>
      rename_i session _ _ _ _ _
      rw [ih, pulls_pass]
      by_cases bracket : session.current.kind = .openParen
      · rw [pass_of_openParen bracket, bracketsAt, if_pos bracket]
        show (session.brackets.push session.pulls).toList ++ _ = _
        simp
      · rw [pass_of_ne_openParen bracket, bracketsAt, if_neg bracket]
        rfl

theorem bracketsAt_congr [Likeness T] {tokens others : List Token} (pulls : Nat)
    (alike : List.Forall₂ T tokens others) : bracketsAt pulls tokens = bracketsAt pulls others := by
  induction alike generalizing pulls with
  | nil => rfl
  | cons like _ ih => simp only [bracketsAt, Likeness.kind_eq like, ih]

/-- Two sessions that have drawn as many tokens, announced the same brackets,
and show like tokens up to the end of input. -/
structure SideBySide (T : Token → Token → Prop) (session : Session σ) (session' : Session τ) :
    Prop where
  pulls : session.pulls = session'.pulls
  brackets : session.brackets = session'.brackets
  shows : ∃ tokens last, last.kind = .endOfInput ∧ session.Shows (tokens ++ [last]) ∧
    session'.Copies T (tokens ++ [last])

theorem SideBySide.current {session : Session σ} {session' : Session τ}
    (beside : session.SideBySide T session') : T session.current session'.current := by
  rcases beside.shows with ⟨tokens, last, -, shown, copied⟩
  obtain ⟨rest, shape⟩ := shown.begins
  rw [shape] at copied
  exact copied.1

theorem SideBySide.parse [Likeness T] [LawfulTokenStream σ] [LawfulTokenStream τ]
    {session : Session σ} {session' : Session τ} (beside : session.SideBySide T session')
    (mode : Mode) :
    ResultsAlike T (session.parse mode).1 (session'.parse mode).1 ∧
      (session.parse mode).2.SideBySide T (session'.parse mode).2 := by
  rcases beside with ⟨pulls, brackets, tokens, last, ended, shown, copied⟩
  obtain ⟨front, passed⟩ := session.parse_passes mode
  obtain ⟨rest, rfl, shownRest⟩ := passed.split_shown shown ended
  rw [List.append_assoc] at copied
  have stops : session'.Copies T (front ++ [(session.parse mode).2.current]) :=
    copied.upTo shownRest
  obtain ⟨alike, others, like, passed'⟩ := parse_lockstep passed stops
  refine ⟨alike, ?_, ?_, rest, last, ended, shownRest, copied.behind ⟨others, like, passed'⟩⟩
  · rw [passed.pulls, passed'.pulls, pulls, like.length_eq]
  · apply Array.toList_inj.mp
    rw [passed.brackets, passed'.brackets, brackets, pulls, bracketsAt_congr _ like]

end PascalFrontEnd.Session
