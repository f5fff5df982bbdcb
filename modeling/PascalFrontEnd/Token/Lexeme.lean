import PascalFrontEnd.Token.Kind
import PascalFrontEnd.Text.Blank

namespace PascalFrontEnd.Lexeme

inductive Shape where
  | blanks
  | comment
  | real
  | integer
  | word
  | symbol (text : List Char)
  deriving DecidableEq, Repr

/-- What a lexeme is read as. A sign names the kind it has between operands. -/
inductive Class where
  | gap
  | real
  | integer
  | word
  | sign (binary : Kind)
  | fixed (kind : Kind)
  deriving DecidableEq, Repr

def run (property : Char → Bool) (text : List Char) : Nat :=
  (text.takeWhile property).length

/-- How many characters at the front of the text the shape takes, as many as it
can; zero where the shape does not begin the text. -/
def Shape.reach : Shape → List Char → Nat
  | blanks, text => run isBlank text
  | comment, '{' :: text =>
      let inner := run (· != '}') text
      if inner < text.length then inner + 2 else 0
  | comment, _ => 0
  | real, text =>
      let whole := run Char.isDigit text
      match text.drop whole with
      | '.' :: more =>
          let fraction := run Char.isDigit more
          if whole = 0 ∨ fraction = 0 then 0 else whole + 1 + fraction
      | _ => 0
  | integer, text => run Char.isDigit text
  | word, c :: text => if isWordStart c then run isWordPart text + 1 else 0
  | word, [] => 0
  | symbol mark, text => if mark.isPrefixOf text then mark.length else 0

theorem run_le (property : Char → Bool) (text : List Char) :
    run property text ≤ text.length :=
  (text.takeWhile_prefix property).length_le

theorem Shape.reach_le (shape : Shape) (text : List Char) :
    shape.reach text ≤ text.length := by
  fun_cases Shape.reach shape text
  case case1 => exact run_le _ _
  case case2 => simp only [List.length_cons]; omega
  case case6 more fraction whole hdrop _ =>
    have hmore := congrArg List.length hdrop
    have hfraction := run_le Char.isDigit more
    simp only [List.length_drop, List.length_cons] at hmore
    omega
  case case8 => exact run_le _ _
  case case9 c text _ =>
    have := run_le isWordPart text
    simp only [List.length_cons]
    omega
  case case12 hmark => exact (List.isPrefixOf_iff_prefix.mp hmark).length_le
  all_goals exact Nat.zero_le _

/-- The shapes in the order in which they are tried, each with its class. -/
def table : List (Shape × Class) :=
  [(.blanks, .gap),
    (.comment, .gap),
    (.real, .real),
    (.integer, .integer),
    (.word, .word),
    (.symbol [':', '='], .fixed .becomes),
    (.symbol [':'], .fixed .colon),
    (.symbol ['+'], .sign .plus),
    (.symbol ['-'], .sign .minus),
    (.symbol ['*'], .fixed .times),
    (.symbol ['/'], .fixed .realDivision),
    (.symbol ['('], .fixed .openParen),
    (.symbol [')'], .fixed .closeParen),
    (.symbol [';'], .fixed .semicolon),
    (.symbol [','], .fixed .comma),
    (.symbol ['.'], .fixed .period)]

/-- The class and the length of the lexeme at the front of the text: those of
the first shape in the table that takes any character. -/
def first? (text : List Char) : Option (Class × Nat) :=
  table.findSome? fun (shape, sort) =>
    if shape.reach text = 0 then none else some (sort, shape.reach text)

theorem reach_of_first? {text : List Char} {sort : Class} {length : Nat}
    (h : first? text = some (sort, length)) :
    ∃ shape, (shape, sort) ∈ table ∧ shape.reach text = length ∧ 0 < length := by
  obtain ⟨⟨shape, sort'⟩, hmem, h⟩ := List.exists_of_findSome?_eq_some h
  simp only [Option.ite_none_left_eq_some, Option.some.injEq, Prod.mk.injEq] at h
  obtain ⟨hreach, rfl, rfl⟩ := h
  exact ⟨shape, hmem, rfl, Nat.pos_of_ne_zero hreach⟩

theorem first?_pos {text : List Char} {sort : Class} {length : Nat}
    (h : first? text = some (sort, length)) : 0 < length :=
  have ⟨_, _, _, pos⟩ := reach_of_first? h
  pos

theorem first?_le {text : List Char} {sort : Class} {length : Nat}
    (h : first? text = some (sort, length)) : length ≤ text.length :=
  have ⟨shape, _, hreach, _⟩ := reach_of_first? h
  hreach ▸ shape.reach_le text

end PascalFrontEnd.Lexeme
