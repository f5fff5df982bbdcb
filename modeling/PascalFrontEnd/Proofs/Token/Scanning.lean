import PascalFrontEnd.Token.Lexer

namespace PascalFrontEnd.Lexer

variable {lexer : Lexer} {sort : Lexeme.Class} {length : Nat}

theorem scan_nil (ended : lexer.rest = []) :
    lexer.scan = (Token.endOfInput lexer.line, lexer) := by
  rw [scan]
  split
  · rfl
  · rename_i shape
    rw [ended] at shape
    cases shape

theorem scan_unknown {c : Char} {tail : List Char} (shape : lexer.rest = c :: tail)
    (none : Lexeme.first? lexer.rest = none) :
    lexer.scan = (⟨.unknown, String.singleton c, .none, lexer.line⟩, lexer.advance 1) := by
  rw [scan]
  split
  · rename_i ended
    rw [ended] at shape
    cases shape
  · rename_i head tail' shape'
    rw [shape, List.cons.injEq] at shape'
    rw [shape'.1]
    split
    · rfl
    · rename_i some
      rw [none] at some
      cases some

theorem rest_ne_nil (first : Lexeme.first? lexer.rest = some (sort, length)) :
    lexer.rest ≠ [] := by
  intro ended
  have pos := Lexeme.first?_pos first
  have le := Lexeme.first?_le first
  rw [ended, List.length_nil] at le
  omega

theorem scan_some (first : Lexeme.first? lexer.rest = some (sort, length)) :
    lexer.scan =
      match lexer.token? sort (lexer.rest.take length) with
      | none => (lexer.advance length).scan
      | some token => (token, lexer.advance length) := by
  rw [scan]
  split
  · rename_i ended
    exact absurd ended (rest_ne_nil first)
  · split
    · rename_i none
      rw [none] at first
      cases first
    · rename_i sort' length' some
      rw [some, Option.some.injEq, Prod.mk.injEq] at first
      rcases first with ⟨rfl, rfl⟩
      cases lexer.token? sort' (lexer.rest.take length') <;> rfl

theorem scan_gap (first : Lexeme.first? lexer.rest = some (.gap, length)) :
    lexer.scan = (lexer.advance length).scan :=
  scan_some first

theorem eq_gap_of_token? {text : List Char} (none : lexer.token? sort text = none) :
    sort = .gap := by
  cases sort with
  | gap => rfl
  | _ => cases none

theorem scan_token {token : Token} (first : Lexeme.first? lexer.rest = some (sort, length))
    (some : lexer.token? sort (lexer.rest.take length) = some token) :
    lexer.scan = (token, lexer.advance length) := by
  rw [scan_some first, some]

/-- Lexers that read the same text on the same line, and a sign the same way. -/
structure Agrees (lexer other : Lexer) : Prop where
  rest : lexer.rest = other.rest
  line : lexer.line = other.line
  sign : lexer.signIsUnary = other.signIsUnary

theorem Agrees.advance {other : Lexer} (agrees : lexer.Agrees other) (length : Nat) :
    (lexer.advance length).Agrees (other.advance length) := by
  rcases agrees with ⟨rest, line, sign⟩
  refine ⟨?_, ?_, sign⟩
  · show lexer.rest.drop length = other.rest.drop length
    rw [rest]
  · show lexer.line + _ = other.line + _
    rw [rest, line]

theorem Agrees.token? {other : Lexer} (agrees : lexer.Agrees other) (sort : Lexeme.Class)
    (text : List Char) : lexer.token? sort text = other.token? sort text := by
  cases sort <;> simp only [Lexer.token?, agrees.line, agrees.sign]

theorem Agrees.scan {lexer other : Lexer} (agrees : lexer.Agrees other) :
    lexer.scan.1 = other.scan.1 ∧ lexer.scan.2.rest = other.scan.2.rest ∧
      lexer.scan.2.line = other.scan.2.line := by
  induction size : lexer.rest.length using Nat.strongRecOn generalizing lexer other with
  | _ size ih =>
      have rest := agrees.rest
      cases shape : lexer.rest with
      | nil =>
          have shape' : other.rest = [] := rest ▸ shape
          rw [scan_nil shape, scan_nil shape']
          exact ⟨congrArg Token.endOfInput agrees.line, rest, agrees.line⟩
      | cons c tail =>
          cases first : Lexeme.first? lexer.rest with
          | none =>
              have advanced := agrees.advance 1
              have shape' : other.rest = c :: tail := rest ▸ shape
              have first' : Lexeme.first? other.rest = none := rest ▸ first
              rw [scan_unknown shape first, scan_unknown shape' first', agrees.line]
              exact ⟨rfl, advanced.rest, advanced.line⟩
          | some found =>
              rcases found with ⟨sort, length⟩
              have advanced := agrees.advance length
              have first' : Lexeme.first? other.rest = some (sort, length) := rest ▸ first
              rw [scan_some first, scan_some first', agrees.token?, rest]
              cases other.token? sort (other.rest.take length) with
              | some token => exact ⟨rfl, advanced.rest, advanced.line⟩
              | none =>
                  have pos := Lexeme.first?_pos first
                  have le := Lexeme.first?_le first
                  refine ih _ ?_ advanced rfl
                  rw [length_advance]
                  omega

theorem next_eq (lexer : Lexer) :
    lexer.next = (lexer.scan.1,
      ⟨lexer.scan.2.rest, lexer.scan.2.line, some lexer.scan.1.kind, false⟩) := rfl

theorem tokens_last (ended : lexer.next.1.kind = .endOfInput) : lexer.tokens = [lexer.next.1] := by
  rw [Lexer.tokens, dif_pos ended]

theorem tokens_cons (more : lexer.next.1.kind ≠ .endOfInput) :
    lexer.tokens = lexer.next.1 :: lexer.next.2.tokens := by
  rw [Lexer.tokens, dif_neg more]

theorem tokens_map {change : Lexer → Lexer} {relabel : Token → Token}
    (kind : ∀ token, (relabel token).kind = token.kind)
    (next : ∀ lexer, (change lexer).next = (relabel lexer.next.1, change lexer.next.2))
    (lexer : Lexer) : (change lexer).tokens = lexer.tokens.map relabel := by
  induction lexer using Lexer.tokens.induct with
  | case1 lexer ended =>
      have ended' : (change lexer).next.1.kind = .endOfInput := by
        rw [next, kind, ended]
      rw [tokens_last ended', tokens_last ended, next]
      rfl
  | case2 lexer more ih =>
      have more' : (change lexer).next.1.kind ≠ .endOfInput := by
        rw [next, kind]
        exact more
      rw [tokens_cons more', tokens_cons more, next, ih, List.map_cons]

theorem tokens_of_scan_eq {other : Lexer} (same : lexer.scan = other.scan) :
    lexer.tokens = other.tokens := by
  have next : lexer.next = other.next := by
    rw [next_eq, next_eq, same]
  rw [Lexer.tokens, Lexer.tokens.eq_def other, next]

/-- The token and the state behind it depend on what the lexers agree on. -/
theorem Agrees.next {other : Lexer} (agrees : lexer.Agrees other) : lexer.next = other.next := by
  rcases agrees.scan with ⟨token, rest, line⟩
  rw [next_eq, next_eq, token, rest, line]

theorem next_enterBracket (opens : lexer.previous = some .openParen) :
    lexer.enterBracket.next = lexer.next := by
  have agrees : lexer.enterBracket.Agrees lexer := by
    refine ⟨rfl, rfl, ?_⟩
    show (true || !lexer.previous.any Kind.endsOperand) =
      (lexer.bracketed || !lexer.previous.any Kind.endsOperand)
    rw [opens]
    cases lexer.bracketed <;> rfl
  exact agrees.next

theorem tokens_split (lexer : Lexer) :
    ∃ front last, lexer.tokens = front ++ [last] ∧ last.kind = .endOfInput ∧
      ∀ token ∈ front, token.kind ≠ .endOfInput := by
  fun_induction Lexer.tokens lexer with
  | case1 lexer ended => exact ⟨[], lexer.next.1, rfl, ended, by simp⟩
  | case2 lexer more ih =>
      rcases ih with ⟨front, last, shape, ended, noEnd⟩
      refine ⟨lexer.next.1 :: front, last, ?_, ended, ?_⟩
      · rw [shape, List.cons_append]
      · exact List.forall_mem_cons.mpr ⟨more, noEnd⟩

end PascalFrontEnd.Lexer
