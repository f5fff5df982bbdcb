import PascalFrontEnd.Proofs.Token.Excerpt

namespace PascalFrontEnd.Lexeme

def IsDigits (text : List Char) : Prop :=
  text ≠ [] ∧ ∀ c ∈ text, c.isDigit = true

/-- The texts that a shape stands for. -/
def Shape.Matches : Shape → List Char → Prop
  | blanks, text => text ≠ [] ∧ ∀ c ∈ text, isBlank c = true
  | comment, text => ∃ inner, '}' ∉ inner ∧ text = '{' :: inner ++ ['}']
  | real, text => ∃ whole fraction,
      IsDigits whole ∧ IsDigits fraction ∧ text = whole ++ '.' :: fraction
  | integer, text => IsDigits text
  | word, text => IsWord text
  | symbol mark, text => text = mark

variable {text : List Char} {shape : Shape}

theorem run_of_all {property : Char → Bool} (all : ∀ c ∈ text, property c = true) :
    run property text = text.length := by
  rw [run, List.takeWhile_eq_self_iff.mpr all]

theorem run_eq_length_iff {property : Char → Bool} (proper : text ≠ []) :
    run property text = text.length ↔ text ≠ [] ∧ ∀ c ∈ text, property c = true := by
  constructor
  · intro whole
    exact ⟨proper, all_of_run whole⟩
  · intro all
    exact run_of_all all.2

theorem comment_matches_iff :
    Shape.comment.Matches text ↔ text ≠ [] ∧ Shape.comment.reach text = text.length := by
  constructor
  · intro matched
    rcases matched with ⟨inner, free, rfl⟩
    have inside : ∀ c ∈ inner, (c != '}') = true := by
      intro c member
      rw [bne_iff_ne]
      intro brace
      exact free (brace ▸ member)
    have size : run (· != '}') (inner ++ ['}']) = inner.length := by
      rw [run_append (by rfl), run_of_all inside]
    constructor
    · simp
    · rw [List.cons_append, reach_comment_of_closed] <;> simp [size]
  · intro taken
    rcases taken with ⟨proper, whole⟩
    have takes : Shape.comment.reach text ≠ 0 := by
      rw [whole]
      simpa using proper
    rcases closed_of_reach_comment takes with ⟨inner, rfl, closed⟩
    rcases take_run_succ closed with ⟨c, closes, front⟩
    rw [bne_eq_false_iff_eq] at closes
    subst closes
    rw [reach_comment_of_closed closed, List.length_cons] at whole
    rw [List.take_of_length_le (by omega)] at front
    have free : '}' ∉ inner.takeWhile (· != '}') := by
      intro member
      have other := List.mem_takeWhile_imp member
      simp at other
    exact ⟨_, free, by rw [List.cons_append, ← front]⟩

theorem real_matches_iff :
    Shape.real.Matches text ↔ text ≠ [] ∧ Shape.real.reach text = text.length := by
  constructor
  · intro matched
    rcases matched with ⟨whole, fraction, ⟨proper, digits⟩, ⟨proper', digits'⟩, rfl⟩
    constructor
    · simp
    · rw [reach_real_eq (run_of_all digits), run_of_all digits', if_neg]
      · simp only [List.length_append, List.length_cons]
        omega
      · simp [proper, proper']
  · intro taken
    rcases taken with ⟨proper, size⟩
    have takes : Shape.real.reach text ≠ 0 := by
      rw [size]
      simpa using proper
    rcases parts_of_reach_real takes with ⟨whole, fraction, rfl, digits⟩
    rw [reach_real_eq digits] at size takes
    split at takes
    · exact absurd rfl takes
    · rename_i parts
      rw [if_neg parts] at size
      have digits' : run Char.isDigit fraction = fraction.length := by
        simp only [List.length_append, List.length_cons] at size
        omega
      rw [not_or, digits'] at parts
      have proper : whole ≠ [] := by
        intro none
        exact parts.1 (by rw [none, List.length_nil])
      have proper' : fraction ≠ [] := by
        intro none
        exact parts.2 (by rw [none, List.length_nil])
      exact ⟨whole, fraction, ⟨proper, all_of_run digits⟩, ⟨proper', all_of_run digits'⟩, rfl⟩

theorem word_matches_iff :
    Shape.word.Matches text ↔ text ≠ [] ∧ Shape.word.reach text = text.length := by
  constructor
  · intro matched
    rcases matched with ⟨head, rest, rfl, starts, parts⟩
    simp [Shape.reach, starts, run_of_all parts]
  · intro taken
    rcases taken with ⟨proper, whole⟩
    cases text with
    | nil => exact absurd rfl proper
    | cons head rest =>
        rw [Shape.reach] at whole
        split at whole
        · rename_i starts
          exact ⟨head, rest, rfl, starts, all_of_run (Nat.succ.inj whole)⟩
        · simp at whole

theorem Shape.matches_iff (proper : text ≠ []) :
    shape.Matches text ↔ shape.reach text = text.length := by
  cases shape with
  | blanks => exact (run_eq_length_iff proper).symm
  | comment => exact comment_matches_iff.trans (and_iff_right proper)
  | real => exact real_matches_iff.trans (and_iff_right proper)
  | integer => exact (run_eq_length_iff proper).symm
  | word => exact word_matches_iff.trans (and_iff_right proper)
  | symbol mark =>
      constructor
      · intro matched
        rw [Matches] at matched
        rw [matched, reach, if_pos (List.isPrefixOf_iff_prefix.mpr (List.prefix_refl mark))]
      · intro whole
        have taken := take_reach_symbol whole (List.length_pos_iff.mpr proper)
        rwa [List.take_length] at taken

theorem Shape.matches_take (takes : shape.reach text ≠ 0) :
    shape.Matches (text.take (shape.reach text)) := by
  have size : (text.take (shape.reach text)).length = shape.reach text :=
    List.length_take_of_le (shape.reach_le text)
  have proper : text.take (shape.reach text) ≠ [] := by
    rw [← List.length_pos_iff, size]
    exact Nat.pos_of_ne_zero takes
  rw [Shape.matches_iff proper, size]
  exact reach_take shape text

/-- No front of a text that is in the set of a shape is longer than what the shape
takes. -/
theorem Shape.length_le_reach {front : List Char} (begins : front <+: text)
    (matched : shape.Matches front) : front.length ≤ shape.reach text := by
  by_cases nothing : front = []
  · rw [nothing]
    exact Nat.zero_le _
  · rcases begins with ⟨behind, rfl⟩
    rw [← (Shape.matches_iff nothing).mp matched]
    exact reach_le_append shape front behind

end PascalFrontEnd.Lexeme
