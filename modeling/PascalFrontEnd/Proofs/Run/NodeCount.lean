import PascalFrontEnd.Proofs.Parse.Recognition
import PascalFrontEnd.Proofs.Tree.Counting
import PascalFrontEnd.Proofs.Tree.Regular

namespace PascalFrontEnd

theorem Reads.not_isExpression {tokens : List Token} {tree : Tree}
    (read : Reads .program tokens tree) : ¬ tree.IsExpression := by
  cases read with
  | headed => exact not_false
  | headless => exact not_false

theorem Mode.Reads.measures {mode : Mode} {tokens : List Token} {tree : Tree}
    (read : mode.Reads tokens tree) (expression : tree.IsExpression) : tree.Measures tokens := by
  cases mode with
  | wholeProgram => exact absurd expression (PascalFrontEnd.Reads.not_isExpression read)
  | loose =>
      rcases read with ⟨read, -⟩ | ⟨read, -⟩ | ⟨body, read, rfl⟩
      · exact read.measured
      · exact absurd expression read.not_isExpression
      · exact absurd expression not_false

theorem Session.measures_of_passes {σ : Type} [TokenStream σ] {session after : Session σ}
    {mode : Mode} {tree : Tree} {tokens : List Token}
    (parsed : session.parse mode = (.ok tree, after)) (expression : tree.IsExpression)
    (passed : session.Passes tokens after) : tree.Measures tokens := by
  obtain ⟨others, passed', read⟩ := Session.reads_of_parse parsed
  rw [passed.unique passed']
  exact read.measures expression

namespace Tree

theorem tally_of_lt {tree : Tree} (fits : tree.walk.length < 2 ^ 31) :
    ∃ count, tree.tally = some count ∧ count.toInt = tree.walk.length :=
  ⟨_, (tally_eq 0 tree).trans (word?_of_lt fits), Int32.toInt_ofNat_of_lt fits⟩

theorem tally_of_le {tree : Tree} (beyond : 2 ^ 31 ≤ tree.walk.length) : tree.tally = none :=
  (tally_eq 0 tree).trans (word?_of_le beyond)

/-- The walk goes once through every node, and the tally is its length, or nothing
where that is no word. The tree of an expression has as many nodes as tokens were
consumed for it, less two for each opening parenthesis. -/
theorem tally_counts :
    (∀ (depth : Nat) (tree : Tree), tree.walkAt depth =
      (depth, tree) :: tree.parts.flatMap (·.walkAt (depth + 1))) ∧
    (∀ tree : Tree, tree.walk.length < 2 ^ 31 →
      ∃ count, tree.tally = some count ∧ count.toInt = tree.walk.length) ∧
    (∀ tree : Tree, 2 ^ 31 ≤ tree.walk.length → tree.tally = none) ∧
    ∀ {σ : Type} [TokenStream σ] {session after : Session σ} {mode : Mode} {tree : Tree},
      session.parse mode = (.ok tree, after) → tree.IsExpression →
      (∃ tokens, session.Passes tokens after) ∧
      ∀ tokens, session.Passes tokens after →
        tree.walk.length = tokens.length - 2 * Token.openings tokens ∧
        2 * Token.openings tokens ≤ tokens.length ∧
        (tree.walk.length < 2 ^ 31 → ∃ count, tree.tally = some count ∧
          count.toInt = tokens.length - 2 * Token.openings tokens) := by
  refine ⟨walkAt_eq, fun _ => tally_of_lt, fun _ => tally_of_le, ?_⟩
  intro σ _ session after mode tree parsed expression
  obtain ⟨consumed, passed, -⟩ := Session.reads_of_parse parsed
  refine ⟨⟨consumed, passed⟩, fun tokens passed => ?_⟩
  -- The equation holds without subtraction, which leaves the rest to arithmetic.
  have measures : tree.walk.length + 2 * Token.openings tokens = tokens.length :=
    Session.measures_of_passes parsed expression passed 0
  refine ⟨by omega, by omega, fun fits => ?_⟩
  obtain ⟨count, tallied, exactly⟩ := tally_of_lt fits
  refine ⟨count, tallied, ?_⟩
  rw [exactly]
  omega

def doubled : Tree :=
  .binOp
    (.unaryOp ⟨.unarySign, "-", none, 1⟩
      (.binOp (.number ⟨.integerLiteral, "1", some (.integer 1), 1⟩) ⟨.plus, "+", none, 1⟩
        (.varRef ⟨.identifier, "x", some (.name "x"), 1⟩)))
    ⟨.times, "*", none, 1⟩ (.number ⟨.integerLiteral, "2", some (.integer 2), 1⟩)

def idle (count : Nat) : Tree :=
  .compound (List.replicate count .noOp)

theorem length_walk_idle (count : Nat) : (idle count).walk.length = count + 1 := by
  have statements : (walkAllAt 1 (List.replicate count noOp)).length = count := by
    induction count with
    | zero => rfl
    | succ count ih =>
        rw [List.replicate_succ, walkAllAt, List.length_append, ih, Nat.add_comm]
        rfl
  rw [walk, idle, walkAt, List.length_cons, statements]

/-- Six nodes, from eight tokens with one pair of parentheses; and a tree with too
many nodes. -/
theorem tally_doubled :
    doubled.tally = some 6 ∧ (idle (2 ^ 31)).tally = none ∧
    ∃ after tokens, (Session.start (Lexer.ofSource "-(1 + x) * 2")).parse .loose =
        (.ok doubled, after) ∧
      (Session.start (Lexer.ofSource "-(1 + x) * 2")).Passes tokens after ∧
      doubled.walk.length = tokens.length - 2 * Token.openings tokens := by
  obtain ⟨-, within, beyond, consumed⟩ := tally_counts
  obtain ⟨count, tallied, exactly⟩ := within doubled (by decide)
  obtain ⟨after, parsed⟩ : ∃ after,
      (Session.start (Lexer.ofSource "-(1 + x) * 2")).parse .loose = (.ok doubled, after) :=
    ⟨_, by with_unfolding_all rfl⟩
  have expression : doubled.IsExpression := trivial
  obtain ⟨⟨tokens, passed⟩, measured⟩ := consumed parsed expression
  have many : 2 ^ 31 ≤ (idle (2 ^ 31)).walk.length := by
    rw [length_walk_idle]
    exact Nat.le_succ _
  have six : count = 6 := Int32.toInt_inj.mp exactly
  rw [six] at tallied
  exact ⟨tallied, beyond _ many, after, tokens, parsed, passed, (measured tokens passed).1⟩

end Tree

end PascalFrontEnd
