import PascalFrontEnd.Proofs.Token.Payload

namespace PascalFrontEnd.Lexeme

variable {text more : List Char} {sort : Class} {length : Nat}

theorem run_le_append (property : Char → Bool) (text more : List Char) :
    run property text ≤ run property (text ++ more) := by
  induction text with
  | nil => exact Nat.zero_le _
  | cons head text ih =>
      unfold run at *
      rw [List.cons_append, List.takeWhile_cons, List.takeWhile_cons]
      split
      · exact Nat.succ_le_succ ih
      · exact Nat.le_refl _

theorem run_append_of_lt {property : Char → Bool} (ends : run property text < text.length) :
    run property (text ++ more) = run property text := by
  induction text with
  | nil => cases ends
  | cons head text ih =>
      unfold run at *
      rw [List.cons_append, List.takeWhile_cons, List.takeWhile_cons]
      split
      · rename_i goesOn
        rw [List.takeWhile_cons_of_pos goesOn] at ends
        rw [List.length_cons, List.length_cons, ih (Nat.lt_of_succ_lt_succ ends)]
      · rfl

theorem run_take_run (property : Char → Bool) (text : List Char) :
    run property (text.take (run property text)) = run property text := by
  rw [take_run]
  unfold run
  rw [List.takeWhile_idem]

theorem all_of_run {property : Char → Bool} (whole : run property text = text.length) :
    ∀ c ∈ text, property c = true := by
  have taken := all_take_run property text
  rwa [whole, List.take_length] at taken

theorem reach_real_eq {whole fraction : List Char}
    (digits : run Char.isDigit whole = whole.length) :
    Shape.real.reach (whole ++ '.' :: fraction) =
      if whole.length = 0 ∨ run Char.isDigit fraction = 0 then 0
      else whole.length + 1 + run Char.isDigit fraction := by
  have front : run Char.isDigit (whole ++ '.' :: fraction) = whole.length := by
    rw [run_append (by rfl), digits]
  simp only [Shape.reach, front, List.drop_left]

theorem take_reach_real {whole fraction : List Char}
    (digits : run Char.isDigit whole = whole.length)
    (takes : Shape.real.reach (whole ++ '.' :: fraction) ≠ 0) :
    (whole ++ '.' :: fraction).take (Shape.real.reach (whole ++ '.' :: fraction)) =
      whole ++ '.' :: fraction.take (run Char.isDigit fraction) := by
  rw [reach_real_eq digits] at takes ⊢
  split at takes
  · exact absurd rfl takes
  · rename_i proper
    rw [if_neg proper, Nat.add_assoc, List.take_length_add_append, Nat.add_comm 1,
      List.take_succ_cons]

theorem parts_of_reach_real (takes : Shape.real.reach text ≠ 0) :
    ∃ whole fraction, text = whole ++ '.' :: fraction ∧
      run Char.isDigit whole = whole.length := by
  rw [Shape.reach] at takes
  split at takes
  · rename_i fraction point
    refine ⟨text.take (run Char.isDigit text), fraction, ?_, ?_⟩
    · rw [← point, List.take_append_drop]
    · rw [run_take_run, List.length_take_of_le (run_le _ _)]
  · exact absurd rfl takes

theorem reach_comment_of_closed (closed : run (· != '}') text < text.length) :
    Shape.comment.reach ('{' :: text) = run (· != '}') text + 2 :=
  if_pos closed

theorem closed_of_reach_comment (takes : Shape.comment.reach text ≠ 0) :
    ∃ inner, text = '{' :: inner ∧ run (· != '}') inner < inner.length := by
  cases text with
  | nil => exact absurd rfl takes
  | cons head inner =>
      by_cases brace : head = '{'
      · subst brace
        refine ⟨inner, rfl, ?_⟩
        by_contra unclosed
        exact takes (if_neg unclosed)
      · exact absurd (by simp [Shape.reach, brace]) takes

theorem reach_le_append (shape : Shape) (text more : List Char) :
    shape.reach text ≤ shape.reach (text ++ more) := by
  by_cases nothing : shape.reach text = 0
  · rw [nothing]
    exact Nat.zero_le _
  cases shape with
  | blanks => exact run_le_append isBlank text more
  | integer => exact run_le_append Char.isDigit text more
  | comment =>
      obtain ⟨inner, rfl, closed⟩ := closed_of_reach_comment nothing
      have longer : run (· != '}') (inner ++ more) < (inner ++ more).length := by
        rw [run_append_of_lt closed, List.length_append]
        omega
      rw [List.cons_append, reach_comment_of_closed closed, reach_comment_of_closed longer,
        run_append_of_lt closed]
  | real =>
      obtain ⟨whole, fraction, rfl, digits⟩ := parts_of_reach_real nothing
      have further := run_le_append Char.isDigit fraction more
      rw [List.append_assoc, List.cons_append]
      rw [reach_real_eq digits] at nothing ⊢
      split at nothing
      · exact absurd rfl nothing
      · rename_i proper
        rw [if_neg proper, reach_real_eq digits, if_neg (by omega)]
        exact Nat.add_le_add_left further _
  | word =>
      cases text with
      | nil => exact Nat.zero_le _
      | cons head text =>
          rw [List.cons_append, Shape.reach, Shape.reach]
          split
          · exact Nat.succ_le_succ (run_le_append isWordPart text more)
          · exact Nat.le_refl _
  | symbol mark =>
      rw [Shape.reach] at nothing ⊢
      split at nothing
      · rename_i begins
        rw [Shape.reach, if_pos begins, if_pos]
        rw [List.isPrefixOf_iff_prefix] at begins ⊢
        exact begins.trans (List.prefix_append text more)
      · exact absurd rfl nothing

theorem reach_take (shape : Shape) (text : List Char) :
    shape.reach (text.take (shape.reach text)) = shape.reach text := by
  by_cases nothing : shape.reach text = 0
  · rw [nothing, List.take_zero]
    exact Nat.le_zero.mp (shape.reach_le [])
  cases shape with
  | blanks => exact run_take_run isBlank text
  | integer => exact run_take_run Char.isDigit text
  | comment =>
      obtain ⟨inner, rfl, closed⟩ := closed_of_reach_comment nothing
      obtain ⟨c, closes, taken⟩ := take_run_succ closed
      rw [bne_eq_false_iff_eq] at closes
      subst closes
      have size : run (· != '}') (inner.takeWhile (· != '}') ++ ['}']) = run (· != '}') inner := by
        rw [run_append (by rfl), ← take_run, run_take_run]
      rw [reach_comment_of_closed closed, List.take_succ_cons, taken, reach_comment_of_closed, size]
      rw [size, List.length_append]
      exact Nat.lt_succ_self _
  | real =>
      obtain ⟨whole, fraction, rfl, digits⟩ := parts_of_reach_real nothing
      rw [take_reach_real digits nothing, reach_real_eq digits, reach_real_eq digits, run_take_run]
  | word =>
      cases text with
      | nil => exact absurd rfl nothing
      | cons head text =>
          rw [Shape.reach] at nothing ⊢
          split at nothing
          · rename_i starts
            rw [if_pos starts, List.take_succ_cons, Shape.reach, if_pos starts, run_take_run]
          · exact absurd rfl nothing
  | symbol mark =>
      have taken := take_reach_symbol rfl (Nat.pos_of_ne_zero nothing)
      rw [Shape.reach] at nothing
      split at nothing
      · rename_i begins
        rw [taken, Shape.reach, Shape.reach, if_pos begins, if_pos]
        exact List.isPrefixOf_iff_prefix.mpr (List.prefix_refl mark)
      · exact absurd rfl nothing

theorem first?_eq_none_of_append (none : first? (text ++ more) = none) : first? text = .none := by
  simp only [first?, List.findSome?_eq_none_iff, ite_eq_left_iff, reduceCtorEq, imp_false,
    not_not] at none ⊢
  intro entry listed
  have further := reach_le_append entry.1 text more
  rw [none entry listed] at further
  exact Nat.le_zero.mp further

/-- The lexeme at the front of a text is the whole of the excerpt that it is. -/
theorem first?_take (first : first? text = some (sort, length)) :
    first? (text.take length) = some (sort, length) := by
  have front : text.take length ++ text.drop length = text := List.take_append_drop length text
  unfold first? at *
  generalize table = entries at first ⊢
  induction entries with
  | nil => cases first
  | cons entry entries ih =>
      rcases entry with ⟨shape, sort'⟩
      by_cases nothing : shape.reach text = 0
      · have further := reach_le_append shape (text.take length) (text.drop length)
        rw [front, nothing] at further
        simp only [List.findSome?_cons, nothing, Nat.le_zero.mp further, if_true] at first ⊢
        exact ih first
      · simp only [List.findSome?_cons, nothing, if_false, Option.some.injEq, Prod.mk.injEq]
          at first
        rcases first with ⟨rfl, rfl⟩
        simp only [List.findSome?_cons, reach_take, nothing, if_false]

end PascalFrontEnd.Lexeme
