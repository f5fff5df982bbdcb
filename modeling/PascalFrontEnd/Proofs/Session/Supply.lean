import PascalFrontEnd.Proofs.Session.Copying

namespace PascalFrontEnd

/-- The bound of a stream counts down to the end of input. -/
class LawfulTokenStream (σ : Type) [TokenStream σ] : Prop where
  bound_enterBracket (stream : σ) :
    TokenStream.bound (TokenStream.enterBracket stream) = TokenStream.bound stream
  bound_next (stream : σ) : (TokenStream.next stream).1.kind ≠ .endOfInput →
    TokenStream.bound (TokenStream.next stream).2 < TokenStream.bound stream

instance : LawfulTokenStream Lexer where
  bound_enterBracket _ := rfl
  bound_next := Lexer.next_shortens

instance : LawfulTokenStream Replay where
  bound_enterBracket _ := rfl
  bound_next stream notEnd := by
    rcases stream with ⟨rest, line⟩
    cases rest with
    | nil => exact absurd rfl notEnd
    | cons token rest => exact Nat.lt_succ_self _

namespace Session

variable {σ : Type} [TokenStream σ]

def supply (session : Session σ) : Nat :=
  if session.current.kind = .endOfInput then 0 else TokenStream.bound session.stream + 1

theorem supply_lt_budget (session : Session σ) : session.supply + 1 < session.budget := by
  unfold supply budget
  split <;> omega

variable [LawfulTokenStream σ]

theorem supply_pass {session : Session σ} (notEnd : session.current.kind ≠ .endOfInput) :
    session.pass.supply < session.supply := by
  unfold supply
  rw [if_neg notEnd]
  split
  · omega
  · rename_i more
    by_cases bracket : session.current.kind = .openParen
    · rw [pass_of_openParen bracket] at more ⊢
      have lower := LawfulTokenStream.bound_next (TokenStream.enterBracket session.stream) more
      rw [LawfulTokenStream.bound_enterBracket] at lower
      exact Nat.succ_lt_succ lower
    · rw [pass_of_ne_openParen bracket] at more ⊢
      exact Nat.succ_lt_succ (LawfulTokenStream.bound_next session.stream more)

theorem Passes.supply_le {session after : Session σ} {tokens : List Token}
    (passed : session.Passes tokens after) : after.supply ≤ session.supply := by
  induction passed with
  | done => exact Nat.le_refl _
  | note event _ ih => exact ih
  | token _ notEnd _ ih => exact Nat.le_trans ih (Nat.le_of_lt (supply_pass notEnd))

theorem Passes.length_le_supply {session after : Session σ} {tokens : List Token}
    (passed : session.Passes tokens after) : tokens.length ≤ session.supply := by
  induction passed with
  | done => exact Nat.zero_le _
  | note event _ ih => exact ih
  | token _ notEnd _ ih =>
      have lower := supply_pass notEnd
      rw [List.length_cons]
      omega

/-- No run passes as many tokens as its budget has steps. -/
theorem Passes.length_lt_budget {session after : Session σ} {tokens : List Token}
    (passed : session.Passes tokens after) : tokens.length + 1 < session.budget :=
  calc tokens.length + 1
      ≤ session.supply + 1 := Nat.succ_le_succ passed.length_le_supply
    _ < session.budget := session.supply_lt_budget

theorem Copies.length_le_supply {T : Token → Token → Prop} [Likeness T] {session : Session σ}
    {tokens : List Token} (copied : session.Copies T tokens)
    (noEnd : ∀ token ∈ tokens, token.kind ≠ .endOfInput) : tokens.length ≤ session.supply := by
  induction tokens generalizing session with
  | nil => exact Nat.zero_le _
  | cons token tokens ih =>
      have here : session.current.kind ≠ .endOfInput := by
        rw [← Likeness.kind_eq copied.1]
        exact noEnd token List.mem_cons_self
      have rest := ih copied.2 fun other present => noEnd other (List.mem_cons_of_mem _ present)
      have lower := supply_pass here
      rw [List.length_cons]
      omega

theorem Copies.length_lt_budget {T : Token → Token → Prop} [Likeness T] {session : Session σ}
    {tokens : List Token} (copied : session.Copies T tokens)
    (noEnd : ∀ token ∈ tokens, token.kind ≠ .endOfInput) :
    tokens.length + 1 < session.budget :=
  calc tokens.length + 1
      ≤ session.supply + 1 := Nat.succ_le_succ (copied.length_le_supply noEnd)
    _ < session.budget := session.supply_lt_budget

theorem Shows.length_lt_budget {session : Session σ} {tokens : List Token}
    (shown : session.Shows tokens) (noEnd : ∀ token ∈ tokens, token.kind ≠ .endOfInput) :
    tokens.length + 1 < session.budget :=
  (shown.copies (List.forall₂_same.mpr fun token _ => (rfl : token = token))).length_lt_budget
    noEnd

end Session

namespace Replay

def closing (replay : Replay) : Token :=
  .endOfInput ((replay.rest.getLast?.map Token.line).getD replay.line)

theorem closing_cons (token : Token) (rest : List Token) (line : Nat) :
    (Replay.mk (token :: rest) line).closing = (Replay.mk rest token.line).closing := by
  unfold closing
  cases rest with
  | nil => rfl
  | cons head tail => rw [List.getLast?_cons_cons]; rfl

theorem rest_next (replay : Replay) : replay.next.2.rest = replay.rest.drop 1 := by
  rcases replay with ⟨rest, line⟩
  cases rest <;> rfl

theorem pass_stream (session : Session Replay) : session.pass.stream = session.stream.next.2 := by
  unfold Session.pass
  split <;> rfl

theorem pass_current (session : Session Replay) :
    session.pass.current = session.stream.next.1 := by
  unfold Session.pass
  split <;> rfl

theorem shows_rest {session : Session Replay} {replay : Replay}
    (here : session.stream = replay) :
    session.Shows (session.current :: (replay.rest ++ [replay.closing])) := by
  rcases replay with ⟨rest, line⟩
  induction rest generalizing session line with
  | nil =>
      refine ⟨rfl, ?_, trivial⟩
      rw [pass_current, here]
      rfl
  | cons token rest ih =>
      have next : session.pass.stream = ⟨rest, token.line⟩ := by
        rw [pass_stream, here]
        rfl
      have head : session.pass.current = token := by
        rw [pass_current, here]
        rfl
      have shown := ih token.line next
      rw [head] at shown
      refine ⟨rfl, ?_⟩
      rw [closing_cons]
      exact shown

theorem shows_tokens (tokens : List Token) :
    (Session.start (ofTokens tokens)).Shows (tokens ++ [(ofTokens tokens).closing]) := by
  cases tokens with
  | nil => exact ⟨rfl, trivial⟩
  | cons token tokens =>
      rw [ofTokens, closing_cons]
      exact shows_rest rfl

theorem rest_of_passes {session after : Session Replay} {tokens : List Token}
    (passed : session.Passes tokens after) :
    after.stream.rest = session.stream.rest.drop tokens.length := by
  induction passed with
  | done => rfl
  | note event _ ih => exact ih
  | token _ _ _ ih =>
      rw [ih, pass_stream, rest_next, List.drop_drop, List.length_cons, Nat.add_comm]

end Replay

end PascalFrontEnd
