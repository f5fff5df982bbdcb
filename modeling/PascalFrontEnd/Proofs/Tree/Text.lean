import PascalFrontEnd.Tree.Render

namespace PascalFrontEnd

namespace Tree

def renderAll (trees : List Tree) : String :=
  (Printer.empty.writeAll trees).output

def renderBehind : List Tree → String
  | [] => ""
  | trees => separator ++ renderAll trees

def blockBody (declarations statements : String) : String :=
  declarations ++ ("]" ++ (separator ++ ("Compound([" ++ (statements ++ "]))"))))

def opening : Tree → String
  | number _ => "Number("
  | varRef _ => "Variable("
  | unaryOp _ _ => "UnaryOp("
  | binOp _ _ _ => "BinOp("
  | assign _ _ => "Assign(Variable("
  | compound _ => "Compound(["
  | noOp => emptyStatement
  | varDecl _ _ => "VarDecl("
  | block _ _ => "Block(["
  | procedure _ _ _ => "Procedure("
  | program _ _ _ => "Program("

def body : Tree → String
  | number token => token.raw ++ ")"
  | varRef token => token.name ++ ")"
  | unaryOp op operand => op.raw ++ (separator ++ (operand.render ++ ")"))
  | binOp left op right =>
      op.raw ++ (separator ++ (left.render ++ (separator ++ (right.render ++ ")"))))
  | assign target value => target.name ++ (")" ++ (separator ++ (value.render ++ ")")))
  | compound statements => renderAll statements ++ "])"
  | noOp => ""
  | varDecl name typeName => name ++ (separator ++ (typeName ++ ")"))
  | block declarations statements => blockBody (renderAll declarations) (renderAll statements)
  | procedure name declarations statements | program name declarations statements =>
      name ++ (separator ++ ("Block([" ++
        (blockBody (renderAll declarations) (renderAll statements) ++ ")")))

end Tree

namespace Printer

theorem output_put (printer : Printer) (text : String) :
    (printer.put text).output = printer.output ++ text := rfl

theorem output_empty : empty.output = "" := rfl

theorem output_putBlock {declarations statements : Printer → Printer} {declared body : String}
    (first : ∀ printer : Printer, (declarations printer).output = printer.output ++ declared)
    (second : ∀ printer : Printer, (statements printer).output = printer.output ++ body)
    (printer : Printer) : (printer.putBlock declarations statements).output =
      printer.output ++ ("Block([" ++ Tree.blockBody declared body) := by
  simp only [putBlock, Tree.blockBody, output_put, first, second, String.append_assoc]

mutual

theorem output_write (printer : Printer) : ∀ tree : Tree,
    (printer.write tree).output = printer.output ++ tree.render
  | .number _ | .varRef _ | .noOp | .varDecl _ _ => by
      simp only [Tree.render, write, output_put, output_empty, String.empty_append]
  | .unaryOp op operand => by
      rw [Tree.render]
      simp only [write, output_put, output_write _ operand, output_empty, String.empty_append,
        String.append_assoc]
  | .binOp left op right => by
      rw [Tree.render]
      simp only [write, output_put, output_write _ left, output_write _ right, output_empty,
        String.empty_append, String.append_assoc]
  | .assign target value => by
      rw [Tree.render]
      simp only [write, output_put, output_write _ value, output_empty, String.empty_append,
        String.append_assoc]
  | .compound statements => by
      rw [Tree.render]
      simp only [write, output_put, output_writeAll _ statements, output_empty, String.empty_append,
        String.append_assoc]
  | .block declarations statements => by
      have block := output_putBlock (output_writeAll · declarations) (output_writeAll · statements)
      rw [Tree.render]
      simp only [write, block, output_empty, String.empty_append]
  | .procedure name declarations statements | .program name declarations statements => by
      have block := output_putBlock (output_writeAll · declarations) (output_writeAll · statements)
      rw [Tree.render]
      simp only [write, output_put, block, output_empty, String.empty_append, String.append_assoc]

theorem output_writeAll (printer : Printer) : ∀ trees : List Tree,
    (printer.writeAll trees).output = printer.output ++ Tree.renderAll trees
  | [] => String.append_empty.symm
  | [tree] => by
      rw [Tree.renderAll, writeAll, writeAll, output_write _ tree, output_write _ tree, output_empty,
        String.empty_append]
  | tree :: next :: trees => by
      rw [Tree.renderAll, writeAll, writeAll, output_writeAll _ (next :: trees),
        output_writeAll _ (next :: trees)]
      simp only [output_put, output_write _ tree, output_empty, String.empty_append,
        String.append_assoc]

end

end Printer

namespace Tree

theorem renderAll_cons (tree : Tree) (trees : List Tree) :
    renderAll (tree :: trees) = tree.render ++ renderBehind trees := by
  cases trees with
  | nil => exact String.append_empty.symm
  | cons next trees =>
      rw [renderAll, Printer.writeAll, Printer.output_writeAll, Printer.output_put,
        Printer.output_write, Printer.output_empty, String.empty_append, String.append_assoc]
      rfl

theorem render_eq (tree : Tree) : tree.render = tree.opening ++ tree.body := by
  have block := fun declarations statements => Printer.output_putBlock
    (Printer.output_writeAll · declarations) (Printer.output_writeAll · statements)
  rw [render]
  cases tree <;> simp only [Printer.write, Printer.output_put, Printer.output_empty,
    Printer.output_write, Printer.output_writeAll, block, opening, body, String.empty_append,
    String.append_empty, String.append_assoc]

def openings : List String :=
  ["Number(", "Variable(", "UnaryOp(", "BinOp(", "Assign(Variable(", "Compound([", "NoOp",
    "VarDecl(", "Block([", "Procedure(", "Program("]

theorem opening_mem (tree : Tree) : tree.opening ∈ openings := by
  cases tree <;> simp [opening, openings, emptyStatement]

/-- No opening begins with another one. -/
theorem openings_separate : ∀ first ∈ openings, ∀ second ∈ openings,
    first.toList <+: second.toList → first = second := by decide

theorem openings_ne_bracket : ∀ first ∈ openings, ∃ head ∈ first.toList.head?, head ≠ ']' := by
  simp [openings]

variable {tree other : Tree} {rest rest' : List Char}

/-- Texts that agree from their beginnings on open with the same sort of tree. -/
theorem body_of_same (same : tree.render.toList ++ rest = other.render.toList ++ rest') :
    tree.opening = other.opening ∧ tree.body.toList ++ rest = other.body.toList ++ rest' := by
  rw [render_eq, render_eq other, String.toList_append, String.toList_append, List.append_assoc,
    List.append_assoc] at same
  have opened : tree.opening = other.opening := by
    rcases List.prefix_or_prefix_of_prefix (List.prefix_append _ _)
      (same ▸ List.prefix_append _ _) with second | first
    · exact (openings_separate _ other.opening_mem _ tree.opening_mem second).symm
    · exact openings_separate _ tree.opening_mem _ other.opening_mem first
  rw [opened] at same
  exact ⟨opened, List.append_cancel_left same⟩

theorem render_ne_bracket (tree : Tree) : tree.render.toList ++ rest ≠ ']' :: rest' := by
  obtain ⟨head, first, other⟩ := openings_ne_bracket _ tree.opening_mem
  rw [render_eq, String.toList_append]
  cases shape : tree.opening.toList with
  | nil =>
      rw [shape] at first
      cases first
  | cons head' tail =>
      rw [shape] at first
      cases first
      intro same
      exact other (List.cons.inj same).1

end Tree

end PascalFrontEnd
