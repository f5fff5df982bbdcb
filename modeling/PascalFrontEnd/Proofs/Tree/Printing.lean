import PascalFrontEnd.Proofs.Tree.Text

namespace PascalFrontEnd

namespace Tree

def bracketed (texts : List String) : String :=
  "[" ++ ", ".intercalate texts ++ "]"

/-- A text for every tree, composed of those of its parts. The target of an assignment,
the compound statement of a block and the block of a procedure or a program are parts
like all others. -/
structure Composes (text : Tree → String) : Prop where
  number (token : Token) : text (number token) = "Number(" ++ token.raw ++ ")"
  varRef (token : Token) : text (varRef token) = "Variable(" ++ token.name ++ ")"
  unaryOp (op : Token) (operand : Tree) : text (unaryOp op operand) =
    "UnaryOp(" ++ op.raw ++ ", " ++ text operand ++ ")"
  binOp (left : Tree) (op : Token) (right : Tree) : text (binOp left op right) =
    "BinOp(" ++ op.raw ++ ", " ++ text left ++ ", " ++ text right ++ ")"
  assign (target : Token) (value : Tree) : text (assign target value) =
    "Assign(" ++ text (.varRef target) ++ ", " ++ text value ++ ")"
  compound (statements : List Tree) : text (compound statements) =
    "Compound(" ++ bracketed (statements.map text) ++ ")"
  noOp : text noOp = "NoOp"
  varDecl (name typeName : String) : text (varDecl name typeName) =
    "VarDecl(" ++ name ++ ", " ++ typeName ++ ")"
  block (declarations statements : List Tree) : text (block declarations statements) =
    "Block(" ++ bracketed (declarations.map text) ++ ", " ++ text (.compound statements) ++ ")"
  procedure (name : String) (declarations statements : List Tree) :
    text (procedure name declarations statements) =
      "Procedure(" ++ name ++ ", " ++ text (.block declarations statements) ++ ")"
  program (name : String) (declarations statements : List Tree) :
    text (program name declarations statements) =
      "Program(" ++ name ++ ", " ++ text (.block declarations statements) ++ ")"

theorem renderAll_eq (trees : List Tree) :
    renderAll trees = ", ".intercalate (trees.map render) := by
  induction trees with
  | nil => rfl
  | cons tree trees ih =>
      rw [renderAll_cons]
      cases trees with
      | nil => rw [List.map_singleton, String.intercalate_singleton, renderBehind, String.append_empty]
      | cons next trees =>
          rw [List.map_cons, List.map_cons] at *
          rw [renderBehind, ih, String.intercalate_cons_cons, String.append_assoc, separator]
          exact List.cons_ne_nil next trees

theorem render_compound (statements : List Tree) :
    render (compound statements) = "Compound(" ++ bracketed (statements.map render) ++ ")" := by
  have opened : "Compound([" = "Compound(" ++ "[" := rfl
  have closed : "])" = "]" ++ ")" := rfl
  rw [render_eq, opening, body, bracketed, renderAll_eq, opened, closed]
  simp only [String.append_assoc]

theorem render_block (declarations statements : List Tree) :
    render (block declarations statements) =
      "Block(" ++ bracketed (declarations.map render) ++ ", " ++
        render (compound statements) ++ ")" := by
  have opened : "Block([" = "Block(" ++ "[" := rfl
  have inner : "Compound([" = "Compound(" ++ "[" := rfl
  have closed : "]))" = "]" ++ (")" ++ ")") := rfl
  rw [render_compound, render_eq, opening, body, blockBody, bracketed, bracketed, renderAll_eq,
    renderAll_eq, opened, inner, closed, separator]
  simp only [String.append_assoc]

theorem composes_render : Composes render where
  number token := render_eq (number token)
  varRef token := by rw [render_eq, opening, body, String.append_assoc]
  unaryOp op operand := by
    rw [render_eq, opening, body, separator]
    simp only [String.append_assoc]
  binOp left op right := by
    rw [render_eq, opening, body, separator]
    simp only [String.append_assoc]
  assign target value := by
    have opened : "Assign(Variable(" = "Assign(" ++ "Variable(" := rfl
    rw [render_eq, render_eq (varRef target), opening, body, opening, body, separator, opened]
    simp only [String.append_assoc]
  compound := render_compound
  noOp := rfl
  varDecl name typeName := by
    rw [render_eq, opening, body, separator]
    simp only [String.append_assoc]
  block := render_block
  procedure name declarations statements := by
    rw [render_eq (block _ _), render_eq, opening, body, opening, body, separator]
    simp only [String.append_assoc]
  program name declarations statements := by
    rw [render_eq (block _ _), render_eq, opening, body, opening, body, separator]
    simp only [String.append_assoc]

theorem render_typedChild {tree child : Tree} (typed : tree.typedChild? = some child) :
    ∃ front back, tree.render = front ++ child.render ++ back := by
  cases tree with
  | assign target value =>
      cases typed
      refine ⟨"Assign(", ", " ++ value.render ++ ")", ?_⟩
      rw [composes_render.assign]
      simp only [String.append_assoc]
  | block declarations statements =>
      cases typed
      exact ⟨_, _, composes_render.block declarations statements⟩
  | procedure name declarations statements =>
      cases typed
      exact ⟨_, _, composes_render.procedure name declarations statements⟩
  | program name declarations statements =>
      cases typed
      exact ⟨_, _, composes_render.program name declarations statements⟩
  | number | varRef | unaryOp | binOp | compound | noOp | varDecl => cases typed

variable {text : Tree → String}

theorem Composes.block_eq (composes : Composes text) {declarations statements : List Tree}
    (declared : declarations.map text = declarations.map render)
    (stated : statements.map text = statements.map render) :
    text (.block declarations statements) = render (.block declarations statements) := by
  rw [composes.block, composes_render.block, composes.compound, composes_render.compound, declared,
    stated]

mutual

/-- The text of a tree is settled by the rules of composition. -/
theorem Composes.eq_render (composes : Composes text) : ∀ tree : Tree, text tree = tree.render
  | .number token => by rw [composes.number, composes_render.number]
  | .varRef token => by rw [composes.varRef, composes_render.varRef]
  | .unaryOp op operand => by
      rw [composes.unaryOp, composes_render.unaryOp, composes.eq_render operand]
  | .binOp left op right => by
      rw [composes.binOp, composes_render.binOp, composes.eq_render left, composes.eq_render right]
  | .assign target value => by
      rw [composes.assign, composes_render.assign, composes.varRef, composes_render.varRef,
        composes.eq_render value]
  | .compound statements => by
      rw [composes.compound, composes_render.compound, composes.map_eq statements]
  | .noOp => by rw [composes.noOp, composes_render.noOp]
  | .varDecl name typeName => by rw [composes.varDecl, composes_render.varDecl]
  | .block declarations statements =>
      composes.block_eq (composes.map_eq declarations) (composes.map_eq statements)
  | .procedure name declarations statements => by
      rw [composes.procedure, composes_render.procedure,
        composes.block_eq (composes.map_eq declarations) (composes.map_eq statements)]
  | .program name declarations statements => by
      rw [composes.program, composes_render.program,
        composes.block_eq (composes.map_eq declarations) (composes.map_eq statements)]

theorem Composes.map_eq (composes : Composes text) : ∀ trees : List Tree,
    trees.map text = trees.map render
  | [] => rfl
  | tree :: trees => by
      rw [List.map_cons, List.map_cons, composes.eq_render tree, composes.map_eq trees]

end

theorem composes_iff : Composes text ↔ text = render := by
  constructor
  · intro composes
    exact funext composes.eq_render
  · rintro rfl
    exact composes_render

end Tree

namespace Printer

/-- What each visit gives back and the printer after it, one visit after another. -/
def visits (printer : Printer) : List Tree → List (Int32 × Printer)
  | [] => []
  | tree :: trees => printer.visit tree :: (printer.visit tree).2.visits trees

theorem visit_eq (printer : Printer) (tree : Tree) :
    printer.visit tree = (0, ⟨printer.output ++ tree.render⟩) := by
  rw [visit, ← output_write]
  rfl

/-- Every visit of a sequence, and what is written then: what was written before it,
the texts of the trees visited so far and that of the tree. -/
theorem visits_getElem? (printer : Printer) (trees : List Tree) (k : Nat) :
    (printer.visits trees)[k]? = trees[k]?.map fun tree =>
      (0, ⟨printer.output ++ String.join ((trees.take k).map Tree.render) ++ tree.render⟩) := by
  induction trees generalizing printer k with
  | nil => rfl
  | cons tree trees ih =>
      rw [visits, visit_eq]
      cases k with
      | zero =>
          rw [List.take_zero, List.map_nil, String.join_nil, String.append_empty]
          rfl
      | succ k =>
          rw [List.getElem?_cons_succ, List.getElem?_cons_succ, ih, List.take_succ_cons,
            List.map_cons, String.join_cons]
          simp only [String.append_assoc]

end Printer

/-- Of trees that a printer visits one after another, every one is visited with success
and has its text added to what is written already. That text is the one composed of
the texts of the parts of the tree; a typed child is visited like any tree, for its
part of the text. A printer is given up for what it has written. -/
theorem printer_homomorphic :
    (∀ (printer : Printer) (trees : List Tree) (k : Nat),
      (printer.visits trees)[k]? = trees[k]?.map fun tree =>
        (0, ⟨printer.output ++ String.join ((trees.take k).map Tree.render) ++ tree.render⟩)) ∧
    (∀ text : Tree → String, Tree.Composes text ↔ text = Tree.render) ∧
    (∀ (printer : Printer) (tree child : Tree), tree.typedChild? = some child →
      printer.visit child = (0, ⟨printer.output ++ child.render⟩) ∧
      ∃ front back, tree.render = front ++ child.render ++ back) ∧
    ∀ printer : Printer, printer.finish = printer.output ∧
      ∀ tree, (Printer.empty.visit tree).2.finish = tree.render := by
  refine ⟨Printer.visits_getElem?, ?_, ?_, ?_⟩
  · intro text
    exact Tree.composes_iff
  · intro printer tree child typed
    exact ⟨printer.visit_eq child, Tree.render_typedChild typed⟩
  · intro printer
    exact ⟨rfl, fun tree => rfl⟩

def nestedProgram : Tree :=
  .program "p" [.procedure "q" [] [.noOp]] [.noOp]

/-- The same printer visits the program and then the block in it. -/
theorem printer_nestedProgram :
    nestedProgram.typedChild? = some (.block [.procedure "q" [] [.noOp]] [.noOp]) ∧
    (Printer.empty.visit nestedProgram).2.visit (.block [.procedure "q" [] [.noOp]] [.noOp]) =
      (0, ⟨"Program(p, Block([Procedure(q, Block([], Compound([NoOp])))], Compound([NoOp])))" ++
        "Block([Procedure(q, Block([], Compound([NoOp])))], Compound([NoOp]))"⟩) ∧
    ∃ front back, nestedProgram.render = front ++
      "Block([Procedure(q, Block([], Compound([NoOp])))], Compound([NoOp]))" ++ back := by
  obtain ⟨-, -, typed, -⟩ := printer_homomorphic
  have child : nestedProgram.typedChild? = some (.block [.procedure "q" [] [.noOp]] [.noOp]) := rfl
  have text : Tree.render (.block [.procedure "q" [] [.noOp]] [.noOp]) =
      "Block([Procedure(q, Block([], Compound([NoOp])))], Compound([NoOp]))" := by decide
  obtain ⟨visited, inside⟩ := typed (Printer.empty.visit nestedProgram).2 _ _ child
  rw [text] at visited inside
  exact ⟨child, visited, inside⟩

end PascalFrontEnd
