import Mathlib.Data.List.Forall2
import PascalFrontEnd.Proofs.Token.Lexed

namespace PascalFrontEnd

/-- Blanks and closed comments, as many as there are. -/
inductive Gap : List Char → Prop where
  | none : Gap []
  | blank {c : Char} {gap : List Char} : isBlank c = true → Gap gap → Gap (c :: gap)
  | comment {inner gap : List Char} :
      '}' ∉ inner → Gap gap → Gap ('{' :: inner ++ '}' :: gap)

/-- The words one after another, a gap behind each. Between words the gap is
not empty. -/
inductive Spaced : List (List Char) → List Char → Prop where
  | none : Spaced [] []
  | word {word gap text : List Char} {words : List (List Char)} :
      Gap gap → (words ≠ [] → gap ≠ []) → Spaced words text →
      Spaced (word :: words) (word ++ gap ++ text)

/-- A text that holds the words in their order, with gaps between them and
possibly at either end. -/
def LaysOut (words : List (List Char)) (text : List Char) : Prop :=
  ∃ gap spaced, Gap gap ∧ Spaced words spaced ∧ text = gap ++ spaced

theorem exists_laysOut (words : List (List Char)) : ∃ text, LaysOut words text := by
  have spaced : ∃ text, Spaced words text := by
    induction words with
    | nil => exact ⟨[], .none⟩
    | cons word words ih =>
        rcases ih with ⟨text, spaced⟩
        exact ⟨_, .word (.blank (c := ' ') rfl .none) (fun _ => List.cons_ne_nil _ _) spaced⟩
  rcases spaced with ⟨text, spaced⟩
  exact ⟨text, [], text, .none, spaced, rfl⟩

theorem Gap.separated {gap more : List Char} (between : Gap gap) (proper : more ≠ [] → gap ≠ []) :
    Separated (gap ++ more) := by
  intro c leads
  cases between with
  | none =>
      cases more with
      | nil => cases leads
      | cons => exact absurd rfl (proper (List.cons_ne_nil _ _))
  | blank blank =>
      cases leads
      exact isSeparator_iff.mpr (.inl blank)
  | comment =>
      cases leads
      rfl

namespace Lexer

theorem advance_zero (lexer : Lexer) : lexer.advance 0 = lexer := by
  simp [advance]

theorem advance_advance (lexer : Lexer) (first second : Nat) :
    (lexer.advance first).advance second = lexer.advance (first + second) := by
  simp only [advance, List.drop_drop, List.take_add, List.count_append, Nat.add_assoc]

theorem scan_blank {lexer : Lexer} {c : Char} {tail : List Char} (here : lexer.rest = c :: tail)
    (blank : isBlank c = true) : lexer.scan = (lexer.advance 1).scan := by
  have shorter : (lexer.advance 1).rest = tail := by
    rw [advance, here]
    rfl
  have all : lexer.scan = ((lexer.advance 1).advance (Lexeme.run isBlank tail)).scan := by
    have first := Lexeme.first?_blank blank tail
    rw [← here] at first
    rw [advance_advance, scan_gap first, here]
    simp [Lexeme.run, blank, Nat.add_comm]
  rw [all]
  cases tail with
  | nil => exact congrArg scan (advance_zero _)
  | cons d tail =>
      by_cases more : isBlank d = true
      · have first := Lexeme.first?_blank more tail
        rw [← shorter] at first
        rw [scan_gap first, shorter]
      · have nothing : Lexeme.run isBlank (d :: tail) = 0 := by simp [Lexeme.run, more]
        rw [nothing, advance_zero]

theorem rest_advance {lexer : Lexer} {front more : List Char} {length : Nat}
    (here : lexer.rest = front ++ more) (size : length = front.length) :
    (lexer.advance length).rest = more := by
  show lexer.rest.drop length = more
  rw [here, size, List.drop_left]

end Lexer

theorem Lexeme.first?_comment {inner more : List Char} (closed : '}' ∉ inner) :
    first? ('{' :: inner ++ '}' :: more) = some (.gap, inner.length + 2) := by
  have run : run (· != '}') (inner ++ '}' :: more) = inner.length := by
    have within : ∀ c ∈ inner, (c != '}') = true := by
      intro c inside
      simp only [bne_iff_ne]
      rintro rfl
      exact closed inside
    rw [Lexeme.run, List.takeWhile_append_of_pos within, List.takeWhile_cons_of_neg (by decide),
      List.append_nil]
  rw [List.cons_append, first?_brace, run, if_pos]
  rw [List.length_append, List.length_cons]
  omega

theorem Gap.scan {gap more : List Char} (between : Gap gap) {lexer : Lexer}
    (here : lexer.rest = gap ++ more) : lexer.scan = (lexer.advance gap.length).scan := by
  induction between generalizing lexer with
  | none => rw [List.length_nil, Lexer.advance_zero]
  | @blank c gap blank _ ih =>
      have behind : (lexer.advance 1).rest = gap ++ more := by
        have front : lexer.rest = [c] ++ (gap ++ more) := here
        exact Lexer.rest_advance front rfl
      calc lexer.scan
          = (lexer.advance 1).scan := Lexer.scan_blank here blank
        _ = ((lexer.advance 1).advance gap.length).scan := ih behind
        _ = (lexer.advance (c :: gap).length).scan := by
            rw [Lexer.advance_advance, List.length_cons, Nat.add_comm]
  | @comment inner gap closed _ ih =>
      have front : lexer.rest = ('{' :: inner ++ ['}']) ++ (gap ++ more) := by
        rw [here]
        simp
      have size : inner.length + 2 = ('{' :: inner ++ ['}']).length := by simp
      have first : Lexeme.first? lexer.rest = some (.gap, inner.length + 2) := by
        rw [here, List.append_assoc]
        exact Lexeme.first?_comment closed
      have whole : ('{' :: inner ++ '}' :: gap).length = inner.length + 2 + gap.length := by
        simp only [List.length_append, List.length_cons]
        omega
      calc lexer.scan
          = (lexer.advance (inner.length + 2)).scan := Lexer.scan_gap first
        _ = ((lexer.advance (inner.length + 2)).advance gap.length).scan :=
            ih (Lexer.rest_advance front size)
        _ = (lexer.advance ('{' :: inner ++ '}' :: gap).length).scan := by
            rw [Lexer.advance_advance, whole]

/-- Behind a gap, the lexer hands out a token that it makes of what it reads. -/
theorem Token.Lexed.next {token : Token} (lexed : token.Lexed) {lexer : Lexer}
    {gap more : List Char} (between : Gap gap) (here : lexer.rest = gap ++ (token.text ++ more))
    (ends : Separated more) (unbracketed : lexer.bracketed = false)
    (fits : SignFits lexer.previous token.kind) :
    SameButLine token lexer.next.1 ∧ lexer.next.2.rest = more ∧
      lexer.next.2.previous = some token.kind ∧ lexer.next.2.bracketed = false := by
  have behind := Lexer.rest_advance here rfl
  obtain ⟨token', scanned, same⟩ := lexed.scan behind ends unbracketed fits
  rw [← between.scan here] at scanned
  rw [Lexer.next_eq, scanned]
  refine ⟨same, Lexer.rest_advance behind rfl, ?_, rfl⟩
  rw [Likeness.kind_eq same]

theorem Gap.tokens {lexer : Lexer} (last : Gap lexer.rest) :
    ∃ line, lexer.tokens = [Token.endOfInput line] := by
  have here : lexer.rest = lexer.rest ++ [] := (List.append_nil _).symm
  have ended : (lexer.advance lexer.rest.length).rest = [] := Lexer.rest_advance here rfl
  have next : lexer.next.1 = Token.endOfInput (lexer.advance lexer.rest.length).line := by
    rw [Lexer.next_eq, last.scan here, Lexer.scan_nil ended]
  have done : lexer.next.1.kind = .endOfInput := by
    rw [next]
    rfl
  refine ⟨(lexer.advance lexer.rest.length).line, ?_⟩
  rw [Lexer.tokens_last done, next]

/-- Tokens that the lexer makes, with signs that fit where they stand, are read
back from any layout of their texts. -/
theorem Spaced.tokens {tokens : List Token} {words : List (List Char)} {gap text : List Char}
    (spaced : Spaced words text) (ofWords : List.Forall₂ Token.IsOf tokens words)
    (leads : Gap gap) {lexer : Lexer} (here : lexer.rest = gap ++ text)
    (unbracketed : lexer.bracketed = false) (noEnd : ∀ token ∈ tokens, token.kind ≠ .endOfInput)
    (fit : SignsFit lexer.previous (tokens.map Token.kind)) (line : Nat) :
    List.Forall₂ SameButLine (tokens ++ [Token.endOfInput line]) lexer.tokens := by
  induction ofWords generalizing lexer gap text with
  | nil =>
      cases spaced
      rw [List.append_nil] at here
      obtain ⟨line', only⟩ := Gap.tokens (here ▸ leads)
      rw [only]
      exact .cons rfl .nil
  | @cons token word tokens words made _ ih =>
      rcases made with ⟨rfl, lexed⟩
      cases spaced with
      | @word _ gap' text' _ between proper spaced =>
          rw [List.append_assoc] at here
          -- Behind the last word there may be no gap, but then there is no text either.
          have ends : Separated (gap' ++ text') := by
            refine between.separated fun more => proper fun none => ?_
            rw [none] at spaced
            cases spaced
            exact more rfl
          rcases lexed.next leads here ends unbracketed fit.1 with
            ⟨same, behind, previous, unbracketed'⟩
          have more : lexer.next.1.kind ≠ .endOfInput := by
            rw [← Likeness.kind_eq same]
            exact noEnd token List.mem_cons_self
          rw [Lexer.tokens_cons more]
          refine .cons same (ih spaced between behind unbracketed' ?_ ?_)
          · exact fun other present => noEnd other (List.mem_cons_of_mem _ present)
          · rw [previous]
            exact fit.2

end PascalFrontEnd
