import PascalFrontEnd.Token.Lexer

namespace PascalFrontEnd

def isSeparator (c : Char) : Bool :=
  isBlank c || c == '{'

section

variable {c : Char}

theorem isDigit_iff : c.isDigit = true ↔ 48 ≤ c.toNat ∧ c.toNat ≤ 57 := by
  simp [Char.isDigit, UInt32.le_iff_toNat_le]

theorem isAlpha_iff :
    c.isAlpha = true ↔ (65 ≤ c.toNat ∧ c.toNat ≤ 90) ∨ (97 ≤ c.toNat ∧ c.toNat ≤ 122) := by
  have parts : c.isAlpha =
      (decide (65 ≤ c.val ∧ c.val ≤ 90) || decide (97 ≤ c.val) && decide (c.val ≤ 122)) := rfl
  simp [parts, UInt32.le_iff_toNat_le]

theorem isBlank_iff : isBlank c = true ↔
    (9 ≤ c.toNat ∧ c.toNat ≤ 13) ∨ c.toNat = 32 ∨ c.toNat = 133 ∨ c.toNat = 160 ∨
      c.toNat = 5760 ∨ (8192 ≤ c.toNat ∧ c.toNat ≤ 8202) ∨ c.toNat = 8232 ∨ c.toNat = 8233 ∨
      c.toNat = 8239 ∨ c.toNat = 8287 ∨ c.toNat = 12288 := by
  simp [isBlank, or_assoc]

theorem isSeparator_iff : isSeparator c = true ↔ isBlank c = true ∨ c = '{' := by
  simp [isSeparator]

theorem not_isDigit_of_isSeparator (separates : isSeparator c = true) : c.isDigit = false := by
  rcases isSeparator_iff.mp separates with blank | rfl
  · rw [← Bool.not_eq_true, isDigit_iff]
    rw [isBlank_iff] at blank
    omega
  · rfl

theorem not_isWordPart_of_isSeparator (separates : isSeparator c = true) :
    isWordPart c = false := by
  have noDigit := not_isDigit_of_isSeparator separates
  rcases isSeparator_iff.mp separates with blank | rfl
  · have noLetter : c.isAlpha = false := by
      rw [← Bool.not_eq_true, isAlpha_iff]
      rw [isBlank_iff] at blank
      omega
    have noScore : (c == '_') = false := by
      rw [beq_eq_false_iff_ne]
      rintro rfl
      revert blank
      decide
    rw [isWordPart, isWordStart, noLetter, noScore, noDigit]
    rfl
  · rfl

end

namespace Lexeme

variable {c : Char} {text rest : List Char}

theorem run_append {property : Char → Bool} (stops : property c = false) :
    run property (text ++ c :: rest) = run property text := by
  induction text with
  | nil => simp [run, stops]
  | cons head text ih =>
      unfold run at *
      rw [List.cons_append, List.takeWhile_cons, List.takeWhile_cons]
      split
      · rw [List.length_cons, List.length_cons, ih]
      · rfl

theorem isPrefixOf_append {mark : List Char} (absent : c ∉ mark) :
    mark.isPrefixOf (text ++ c :: rest) = mark.isPrefixOf text := by
  induction mark generalizing text with
  | nil => rw [List.isPrefixOf, List.isPrefixOf]
  | cons head mark ih =>
      rw [List.mem_cons, not_or] at absent
      cases text with
      | nil =>
          have other : (head == c) = false := beq_eq_false_iff_ne.mpr (Ne.symm absent.1)
          simp [List.isPrefixOf, other]
      | cons first text =>
          rw [List.cons_append, List.isPrefixOf, List.isPrefixOf, ih absent.2]

theorem reach_real_append (separates : isSeparator c = true) :
    Shape.real.reach (text ++ c :: rest) = Shape.real.reach text := by
  have noDigit := not_isDigit_of_isSeparator separates
  have noDot : c ≠ '.' := by
    rintro rfl
    revert separates
    decide
  have short := run_le Char.isDigit text
  simp only [Shape.reach, run_append noDigit, List.drop_append_of_le_length short]
  cases text.drop (run Char.isDigit text) with
  | nil =>
      rw [List.nil_append]
      split
      · rename_i dot
        exact absurd (List.cons.inj dot).1 noDot
      · rfl
  | cons head more =>
      rw [List.cons_append]
      by_cases dot : head = '.'
      · subst dot
        simp only [run_append noDigit]
      · split
        · rename_i shape
          exact absurd (List.cons.inj shape).1 dot
        · split
          · rename_i shape
            exact absurd (List.cons.inj shape).1 dot
          · rfl

theorem reach_word_append (separates : isSeparator c = true) :
    Shape.word.reach (text ++ c :: rest) = Shape.word.reach text := by
  have noPart := not_isWordPart_of_isSeparator separates
  cases text with
  | nil =>
      have noStart : isWordStart c = false := by
        rw [isWordPart, Bool.or_eq_false_iff] at noPart
        exact noPart.1
      simp [Shape.reach, noStart]
  | cons head text => simp only [List.cons_append, Shape.reach, run_append noPart]

theorem table_symbols : ∀ entry ∈ table, ∀ mark, entry.1 = .symbol mark →
    ∀ c ∈ mark, isSeparator c = false := by
  intro entry present mark shape c inside
  have free : mark.all (fun c => !isSeparator c) = true := by
    simp only [table, List.mem_cons, List.not_mem_nil, or_false] at present
    rcases present with rfl | rfl | rfl | rfl | rfl | rfl | rfl | rfl | rfl | rfl | rfl | rfl |
      rfl | rfl | rfl | rfl <;> cases shape <;> rfl
  simpa using List.all_eq_true.mp free c inside

theorem first?_congr {other : List Char}
    (reaches : ∀ entry ∈ table, entry.1.reach other = entry.1.reach text) :
    first? other = first? text := by
  unfold first?
  generalize table = entries at reaches
  induction entries with
  | nil => rfl
  | cons entry entries ih =>
      have here : entry.1.reach other = entry.1.reach text := reaches entry List.mem_cons_self
      have behind := ih fun entry present => reaches entry (List.mem_cons_of_mem _ present)
      rcases entry with ⟨shape, sort⟩
      simp only [List.findSome?_cons, here, behind]

/-- The first lexeme of a text that begins with no gap ends before a separator. -/
theorem first?_append {head : Char} (begins : isSeparator head = false)
    (separates : isSeparator c = true) :
    first? (head :: text ++ c :: rest) = first? (head :: text) := by
  have noBlank : isBlank head = false ∧ head ≠ '{' := by
    simpa [isSeparator] using begins
  apply first?_congr
  rintro ⟨shape, sort⟩ present
  cases shape with
  | blanks => simp [Shape.reach, run, noBlank.1]
  | comment => simp [Shape.reach, noBlank.2]
  | real => exact reach_real_append separates
  | integer => exact run_append (not_isDigit_of_isSeparator separates)
  | word => exact reach_word_append separates
  | symbol mark =>
      have absent : c ∉ mark := by
        intro inside
        rw [table_symbols _ present mark rfl c inside] at separates
        cases separates
      simp only [Shape.reach, isPrefixOf_append absent]

end Lexeme

end PascalFrontEnd
