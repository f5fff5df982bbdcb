import PascalFrontEnd.Proofs.Number.Nearest
import PascalFrontEnd.Proofs.Run.Conservation
import PascalFrontEnd.Proofs.Token.Numbers
import PascalFrontEnd.Proofs.Tree.Sameness

namespace PascalFrontEnd

theorem Lexer.Makes.holdsNaN {lexer : Lexer} {token : Token} {length : Nat}
    (made : lexer.Makes token length) : token.holdsNaN = false := by
  cases made.carries with
  | nothing none => rw [Token.holdsNaN, none, Option.any_none]
  | name named =>
      rw [Token.holdsNaN, named]
      rfl
  | @real whole fraction real =>
      rw [Token.holdsNaN, real, Option.any_some, Value.isNaN, Decimal.toBinary64,
        Binary64.isNaN_nearest]
  | integer first shape =>
      rw [shape, Lexer.integerToken]
      cases Decimal.toInteger? (lexer.rest.take length) <;> rfl

theorem freeOfNaN_of_parseSource {source : String} {mode : Mode} {tree : Tree}
    (parsed : parseSource source mode = .ok tree) : FreeOfNaN tree.mentions := by
  intro token here
  have present := (Session.mentioned_of_parseSource parsed here).1
  obtain ⟨maker, length, made⟩ := Lexer.made_of_mem_tokens present
  exact made.holdsNaN

/-- Sameness of trees is symmetric and transitive, and a tree is the same as itself
unless a token in it holds a NaN. Trees that are the same are printed and counted
alike and are of one sort. Parsing a source again gives the same tree. -/
theorem sameness_laws :
    (∀ tree other : Tree, tree.same other = other.same tree) ∧
    (∀ tree other third : Tree, tree.same other = true → other.same third = true →
      tree.same third = true) ∧
    (∀ tree : Tree, tree.same tree = true ↔
      ∀ token, Mention.token token ∈ tree.mentions → token.holdsNaN = false) ∧
    (∀ tree other : Tree, tree.same other = true →
      tree.render = other.render ∧ tree.tally = other.tally ∧ tree.kindName = other.kindName) ∧
    ∀ (source : String) (mode : Mode) (tree other : Tree), parseSource source mode = .ok tree →
      parseSource source mode = .ok other →
      tree.same other = true ∧ tree.same tree = true ∧ other.same other = true := by
  refine ⟨?_, ?_, ?_, ?_, ?_⟩
  · intro tree other
    exact Bool.eq_iff_iff.mpr ⟨Tree.same_symm, Tree.same_symm⟩
  · intro tree other third
    exact Tree.same_trans
  · intro tree
    exact Tree.same_self_iff
  · intro tree other same
    obtain ⟨equal, -, -⟩ := (Tree.same_iff _ _).mp same
    refine ⟨?_, ?_, ?_⟩
    · rw [← Tree.render_map Tree.prints_canonical tree, equal,
        Tree.render_map Tree.prints_canonical]
    · rw [← Tree.tally_map Token.canonical tree, equal, Tree.tally_map]
    · rw [← Tree.kindName_map Token.canonical tree, equal, Tree.kindName_map]
  · intro source mode tree other parsed parsed'
    -- The second parse gives the same tree; that it equals itself is for want of a NaN.
    have one : tree = other := by
      rw [parsed, Except.ok.injEq] at parsed'
      exact parsed'
    have same : tree.same tree = true := Tree.same_self_iff.mpr (freeOfNaN_of_parseSource parsed)
    rw [← one]
    exact ⟨same, same, same⟩

/-- A NaN that stands for a literal. -/
example :
    let tree := Tree.number ⟨.realLiteral, "nan", some (.real ⟨0x7ff8000000000000⟩), 1⟩
    tree.same tree = false := by
  decide

/-- A zero of the given bits. -/
def zeroOf (bits : UInt64) : Tree :=
  .number ⟨.realLiteral, "0.0", some (.real ⟨bits⟩), 1⟩

/-- The two zeros are the same in both orders, and each is the same as itself by way
of the other. -/
theorem signedZeros_sameness :
    (zeroOf 0).same (zeroOf 0x8000000000000000) = true ∧
    (zeroOf 0x8000000000000000).same (zeroOf 0) = true ∧ (zeroOf 0).same (zeroOf 0) = true ∧
    ((zeroOf 0).render = (zeroOf 0x8000000000000000).render ∧
      (zeroOf 0).tally = (zeroOf 0x8000000000000000).tally ∧
      (zeroOf 0).kindName = (zeroOf 0x8000000000000000).kindName) ∧
    ∃ tree, parseSource "-1" .loose = .ok tree ∧ tree.same tree = true := by
  obtain ⟨symmetric, transitive, -, alike, again⟩ := sameness_laws
  have same : (zeroOf 0).same (zeroOf 0x8000000000000000) = true := by decide
  have same' : (zeroOf 0x8000000000000000).same (zeroOf 0) = true := by
    rw [symmetric]
    exact same
  have parsed : parseSource "-1" .loose =
      .ok (.unaryOp ⟨.unarySign, "-", none, 1⟩
        (.number ⟨.integerLiteral, "1", some (.integer 1), 1⟩)) := by
    with_unfolding_all rfl
  exact ⟨same, same', transitive _ _ _ same same', alike _ _ same, _, parsed,
    (again _ _ _ _ parsed parsed).1⟩

end PascalFrontEnd
