import PascalFrontEnd.Proofs.Run.AnyCase
import PascalFrontEnd.Proofs.Run.Conservation
import PascalFrontEnd.Proofs.Tree.Legible

namespace PascalFrontEnd

theorem legible_of_parseSource {source : String} {mode : Mode} {tree : Tree}
    (parsed : parseSource source mode = .ok tree) : tree.Legible where
  sound := sound_of_parseSource parsed
  lexed {token} here := by
    obtain ⟨present, known, notEnd⟩ := Session.mentioned_of_parseSource parsed here
    obtain ⟨maker, length, made⟩ := Lexer.made_of_mem_tokens present
    exact made.lexed known notEnd

/-- Sources that are parsed, in whatever modes, to trees of the same text have the
same tree but for the lines of its tokens. -/
theorem render_injective {source other : String} {mode mode' : Mode} {tree tree' : Tree}
    (parsed : parseSource source mode = .ok tree) (parsed' : parseSource other mode' = .ok tree')
    (same : tree.render = tree'.render) : tree.unlined = tree'.unlined := by
  have legible := legible_of_parseSource parsed
  have legible' := legible_of_parseSource parsed'
  have texts : tree.render.toList ++ [] = tree'.render.toList ++ [] := by rw [same]
  obtain ⟨alike, -⟩ := Tree.alike_of_same legible legible' texts
  exact alike.unlined_eq

def negatedOne (line line' : Nat) : Tree :=
  .block [.noOp]
    [.assign ⟨.identifier, "x", some (.name "x"), line⟩
      (.unaryOp ⟨.unarySign, "-", none, line'⟩
        (.number ⟨.integerLiteral, "1", some (.integer 1), line'⟩))]

theorem render_negatedOne_injective :
    parseSource "BEGIN x := -1 END." .wholeProgram = .ok (negatedOne 1 1) ∧
      parseSource "begin\n x :=\n - 1 end ." .wholeProgram = .ok (negatedOne 2 3) ∧
      (negatedOne 1 1).render = (negatedOne 2 3).render ∧
      (negatedOne 1 1).unlined = (negatedOne 2 3).unlined := by
  have parsed : parseSource "BEGIN x := -1 END." .wholeProgram = .ok (negatedOne 1 1) := by
    with_unfolding_all rfl
  have parsed' : parseSource "begin\n x :=\n - 1 end ." .wholeProgram = .ok (negatedOne 2 3) := by
    with_unfolding_all rfl
  have same : (negatedOne 1 1).render = (negatedOne 2 3).render := rfl
  exact ⟨parsed, parsed', same, render_injective parsed parsed' same⟩

end PascalFrontEnd
