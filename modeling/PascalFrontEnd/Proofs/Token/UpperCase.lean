import PascalFrontEnd.Proofs.Token.Excerpt

namespace PascalFrontEnd

section

variable {c d : Char}

theorem toUpper_cases (c : Char) :
    c.toUpper = c ∨ (97 ≤ c.toNat ∧ c.toNat ≤ 122 ∧ c.toUpper.toNat + 32 = c.toNat) := by
  unfold Char.toUpper
  split
  · rename_i lower
    rw [UInt32.le_iff_toNat_le, UInt32.le_iff_toNat_le] at lower
    have bounds : 97 ≤ c.toNat ∧ c.toNat ≤ 122 := lower
    have code : (c.val + ('A'.val - 'a'.val)).toNat = (c.toNat + 4294967264) % 4294967296 :=
      UInt32.toNat_add c.val ('A'.val - 'a'.val)
    refine .inr ⟨bounds.1, bounds.2, ?_⟩
    show (c.val + ('A'.val - 'a'.val)).toNat + 32 = c.toNat
    omega
  · exact .inl rfl

theorem toUpper_toUpper (c : Char) : c.toUpper.toUpper = c.toUpper := by
  rcases toUpper_cases c with same | ⟨low, high, code⟩
  · rw [same, same]
  · rcases toUpper_cases c.toUpper with same | ⟨low', -, -⟩
    · exact same
    · omega

/-- What is no letter is in upper case as it stands, and nothing else is so. -/
theorem toUpper_eq_iff (noLetter : d.isAlpha = false) : c.toUpper = d ↔ c = d := by
  rw [← Bool.not_eq_true, isAlpha_iff] at noLetter
  constructor
  · rintro rfl
    rcases toUpper_cases c with same | ⟨low, high, code⟩
    · exact same.symm
    · omega
  · rintro rfl
    rcases toUpper_cases c with same | ⟨low, high, code⟩
    · exact same
    · omega

theorem isAlpha_toUpper (c : Char) : c.toUpper.isAlpha = c.isAlpha := by
  rcases toUpper_cases c with same | ⟨low, high, code⟩
  · rw [same]
  · rw [Bool.eq_iff_iff, isAlpha_iff, isAlpha_iff]
    omega

theorem isDigit_toUpper (c : Char) : c.toUpper.isDigit = c.isDigit := by
  rcases toUpper_cases c with same | ⟨low, high, code⟩
  · rw [same]
  · rw [Bool.eq_iff_iff, isDigit_iff, isDigit_iff]
    omega

theorem not_isAlpha_of_isDigit (digit : c.isDigit = true) : c.isAlpha = false := by
  rw [isDigit_iff] at digit
  rw [← Bool.not_eq_true, isAlpha_iff]
  omega

theorem isBlank_toUpper (c : Char) : isBlank c.toUpper = isBlank c := by
  rcases toUpper_cases c with same | ⟨low, high, code⟩
  · rw [same]
  · rw [Bool.eq_iff_iff, isBlank_iff, isBlank_iff]
    omega

theorem beq_toUpper (noLetter : d.isAlpha = false) (c : Char) : (c.toUpper == d) = (c == d) := by
  rw [Bool.eq_iff_iff, beq_iff_eq, beq_iff_eq]
  exact toUpper_eq_iff noLetter

theorem isWordStart_toUpper (c : Char) : isWordStart c.toUpper = isWordStart c := by
  rw [isWordStart, isWordStart, isAlpha_toUpper, beq_toUpper (by decide)]

theorem isWordPart_toUpper (c : Char) : isWordPart c.toUpper = isWordPart c := by
  rw [isWordPart, isWordPart, isWordStart_toUpper, isDigit_toUpper]

end

namespace Keyword

theorem upperCase_upperCase (text : List Char) : upperCase (upperCase text) = upperCase text := by
  have same : Char.toUpper ∘ Char.toUpper = Char.toUpper := funext toUpper_toUpper
  rw [upperCase, upperCase, List.map_map, same]

theorem upperCase_of_noLetters {text : List Char} (noLetters : ∀ c ∈ text, c.isAlpha = false) :
    upperCase text = text := by
  have same : ∀ c ∈ text, c.toUpper = id c :=
    fun c inside => (toUpper_eq_iff (noLetters c inside)).mpr rfl
  rw [upperCase, List.map_congr_left same, List.map_id]

theorem kind?_upperCase (text : List Char) : kind? (upperCase text) = kind? text := by
  rw [kind?, kind?, upperCase_upperCase]

theorem count_upperCase (text : List Char) : (upperCase text).count '\n' = text.count '\n' := by
  have same : (· == '\n') ∘ Char.toUpper = (· == '\n') := funext (beq_toUpper (by decide))
  rw [List.count_eq_countP, List.count_eq_countP, upperCase, List.countP_map, same]

end Keyword

namespace Lexeme

open Keyword

variable {text : List Char}

theorem run_upperCase {property : Char → Bool} (blind : ∀ c, property c.toUpper = property c)
    (text : List Char) : run property (upperCase text) = run property text := by
  simp [run, upperCase, List.takeWhile_map, Function.comp_def, blind]

theorem isPrefixOf_upperCase {mark : List Char} (noLetters : ∀ c ∈ mark, c.isAlpha = false)
    (text : List Char) : mark.isPrefixOf (upperCase text) = mark.isPrefixOf text := by
  induction mark generalizing text with
  | nil => rw [List.isPrefixOf, List.isPrefixOf]
  | cons head mark ih =>
      rw [List.forall_mem_cons] at noLetters
      cases text with
      | nil => rfl
      | cons c text =>
          have here : (head == c.toUpper) = (head == c) := by
            rw [Bool.beq_comm, beq_toUpper noLetters.1, Bool.beq_comm]
          have behind := ih noLetters.2 text
          show (head == c.toUpper && mark.isPrefixOf (upperCase text)) = _
          rw [here, behind, List.isPrefixOf]

theorem reach_real_upperCase (text : List Char) :
    Shape.real.reach (upperCase text) = Shape.real.reach text := by
  have behind : (upperCase text).drop (run Char.isDigit text) =
      upperCase (text.drop (run Char.isDigit text)) := List.map_drop.symm
  simp only [Shape.reach, run_upperCase isDigit_toUpper, behind]
  cases text.drop (run Char.isDigit text) with
  | nil => rfl
  | cons head more =>
      by_cases dot : head = '.'
      · subst dot
        have upper : upperCase ('.' :: more) = '.' :: upperCase more := rfl
        simp only [upper, run_upperCase isDigit_toUpper]
      · have noDot : head.toUpper ≠ '.' := by
          rw [Ne, toUpper_eq_iff (by decide)]
          exact dot
        simp [upperCase, dot, noDot]

theorem reach_comment_upperCase (text : List Char) :
    Shape.comment.reach (upperCase text) = Shape.comment.reach text := by
  cases text with
  | nil => rfl
  | cons head inner =>
      by_cases brace : head = '{'
      · subst brace
        have within : run (· != '}') (upperCase inner) = run (· != '}') inner := by
          apply run_upperCase
          intro c
          rw [bne, bne, beq_toUpper (by decide)]
        have upper : upperCase ('{' :: inner) = '{' :: upperCase inner := rfl
        have size : (upperCase inner).length = inner.length := List.length_map _
        simp only [upper, Shape.reach, within, size]
      · have noBrace : head.toUpper ≠ '{' := by
          rw [Ne, toUpper_eq_iff (by decide)]
          exact brace
        simp [upperCase, Shape.reach, brace, noBrace]

theorem noLetters_of_table {mark : List Char} {sort : Class}
    (listed : (Shape.symbol mark, sort) ∈ table) : ∀ c ∈ mark, c.isAlpha = false := by
  have free : mark.all (fun c => !c.isAlpha) = true := by
    simp only [table, List.mem_cons, List.not_mem_nil, Prod.mk.injEq, Shape.symbol.injEq,
      reduceCtorEq, false_and, false_or, or_false] at listed
    rcases listed with ⟨rfl, -⟩ | ⟨rfl, -⟩ | ⟨rfl, -⟩ | ⟨rfl, -⟩ | ⟨rfl, -⟩ | ⟨rfl, -⟩ | ⟨rfl, -⟩ |
      ⟨rfl, -⟩ | ⟨rfl, -⟩ | ⟨rfl, -⟩ | ⟨rfl, -⟩ <;> rfl
  intro c inside
  simpa using List.all_eq_true.mp free c inside

/-- A lexeme is as long in upper case, and of the same class. -/
theorem first?_upperCase (text : List Char) : first? (upperCase text) = first? text := by
  apply first?_congr
  rintro ⟨shape, sort⟩ listed
  cases shape with
  | blanks => exact run_upperCase isBlank_toUpper text
  | integer => exact run_upperCase isDigit_toUpper text
  | comment => exact reach_comment_upperCase text
  | real => exact reach_real_upperCase text
  | word =>
      cases text with
      | nil => rfl
      | cons head text =>
          show (if isWordStart head.toUpper = true then
            run isWordPart (upperCase text) + 1 else 0) = _
          rw [isWordStart_toUpper, run_upperCase isWordPart_toUpper, Shape.reach]
  | symbol mark =>
      simp only [Shape.reach, isPrefixOf_upperCase (noLetters_of_table listed)]

theorem noLetters_of_first? {sort : Class} {length : Nat}
    (first : first? text = some (sort, length)) (number : sort = .real ∨ sort = .integer) :
    ∀ c ∈ text.take length, c.isAlpha = false := by
  have ofDigits : ∀ digits : List Char, ∀ c ∈ digits.take (run Char.isDigit digits),
      c.isAlpha = false :=
    fun digits c inside => not_isAlpha_of_isDigit (all_take_run Char.isDigit digits c inside)
  obtain ⟨shape, listed, rfl, pos⟩ := reach_of_first? first
  rcases number with rfl | rfl
  · have real : shape = .real := by
      simpa [table] using listed
    subst real
    obtain ⟨whole, fraction, rfl, digits⟩ := parts_of_reach_real (Nat.ne_of_gt pos)
    rw [take_reach_real digits (Nat.ne_of_gt pos), List.forall_mem_append, List.forall_mem_cons]
    refine ⟨?_, rfl, ofDigits fraction⟩
    have all := ofDigits whole
    rw [digits, List.take_length] at all
    exact all
  · have integer : shape = .integer := by
      simpa [table] using listed
    subst integer
    exact ofDigits text

end Lexeme

end PascalFrontEnd
