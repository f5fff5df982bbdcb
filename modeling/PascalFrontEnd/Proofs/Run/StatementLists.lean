import PascalFrontEnd.Proofs.Grammar.Compounds
import PascalFrontEnd.Proofs.Parse.FlatStatements
import PascalFrontEnd.Proofs.Parse.Recognition

namespace PascalFrontEnd

theorem Mode.Reads.compounds {mode : Mode} {tokens : List Token} {tree : Tree}
    (read : mode.Reads tokens tree) : Compounds (Tree.bodies tree.walk) tokens := by
  cases mode with
  | wholeProgram =>
      have visited := PascalFrontEnd.Reads.visited read
      exact visited 0
  | loose =>
      rcases read with ⟨read, -⟩ | ⟨read, -⟩ | ⟨body, read, rfl⟩
      · exact read.visited 0
      · exact read.visited 0
      · exact read.visited 1

namespace Session

variable (σ : Type) [TokenStream σ] [LawfulTokenStream σ]

/-- With as many steps as a session has tokens, the rule of lists of statements
comes to what one loop over the statements comes to: the same list or error, in
the same session. Broken off behind its first round, its own loop comes to the
same. In a tree that is parsed, every compound has the statements between its
BEGIN and its END, one more than it has semicolons of its own. -/
theorem statements_flat :
    (∀ (session : Session σ) (inner steps rounds : Nat), session.supply < steps →
      session.supply ≤ rounds →
      Rule.statements (Rule.statement (Rule.compound inner) inner) steps session =
        Rule.flatStatements (Rule.statement (Rule.compound inner) inner) rounds session) ∧
    (∀ (session : Session σ) (inner steps limit : Nat), session.supply ≤ steps → 0 < limit →
      Rule.statements (Rule.statement (Rule.compound inner) inner) (steps + 1) session =
        Rule.statementsWithin limit (Rule.statement (Rule.compound inner) inner) steps session) ∧
    ∀ (session : Session σ) (mode : Mode) (tree : Tree) (after : Session σ),
      session.parse mode = (.ok tree, after) →
      (∃ tokens, session.Passes tokens after) ∧
        ∀ tokens, session.Passes tokens after → Compounds (Tree.bodies tree.walk) tokens := by
  have yields : ∀ inner : Nat, (Rule.statement (Rule.compound inner) inner : Rule σ Tree).Yields
      (Reads .statement) :=
    fun inner => Rule.statement_yields (Rule.compound_yields inner) inner
  refine ⟨?_, ?_, ?_⟩
  · intro session inner steps rounds enough enough'
    exact Rule.statements_eq_flat (yields inner) enough enough'
  · intro session inner steps limit enough once
    rw [Rule.statements_eq_flat (yields inner) (Nat.lt_succ_of_le enough) enough,
      Rule.statementsWithin_eq_flat (yields inner) enough enough fun _ => once]
  · intro session mode tree after parsed
    obtain ⟨tokens, passed, read⟩ := reads_of_parse parsed
    refine ⟨⟨tokens, passed⟩, fun others passed' => ?_⟩
    rw [passed'.unique passed]
    exact read.compounds

/-- `; BEGIN a := 1; END END`, which is what a BEGIN may stand in front of. -/
def nestedList : List Token :=
  [⟨.semicolon, ";", none, 1⟩, ⟨.beginWord, "BEGIN", none, 1⟩,
    ⟨.identifier, "a", some (.name "A"), 1⟩, ⟨.becomes, ":=", none, 1⟩,
    ⟨.integerLiteral, "1", some (.integer 1), 1⟩, ⟨.semicolon, ";", none, 1⟩,
    ⟨.endWord, "END", none, 1⟩, ⟨.endWord, "END", none, 1⟩]

def nestedCompound : List Token :=
  ⟨.beginWord, "BEGIN", none, 1⟩ :: nestedList

def nestedTree : Tree :=
  .compound [.noOp, .compound
    [.assign ⟨.identifier, "a", some (.name "A"), 1⟩
      (.number ⟨.integerLiteral, "1", some (.integer 1), 1⟩), .noOp]]

theorem statements_nested_flat :
    (start (Replay.ofTokens nestedList)).supply < 9 ∧
    Rule.statements (Rule.statement (Rule.compound 9) 9) 9 (start (Replay.ofTokens nestedList)) =
      Rule.flatStatements (Rule.statement (Rule.compound 9) 9) 8
        (start (Replay.ofTokens nestedList)) ∧
    Rule.statements (Rule.statement (Rule.compound 9) 9) 9 (start (Replay.ofTokens nestedList)) =
      Rule.statementsWithin 1 (Rule.statement (Rule.compound 9) 9) 8
        (start (Replay.ofTokens nestedList)) ∧
    ∃ after,
      (start (Replay.ofTokens nestedCompound)).parse .loose = (.ok nestedTree, after) ∧
      (∃ tokens, (start (Replay.ofTokens nestedCompound)).Passes tokens after) ∧
      ∀ tokens, (start (Replay.ofTokens nestedCompound)).Passes tokens after →
        Compounds (Tree.bodies nestedTree.walk) tokens := by
  obtain ⟨flat, once, compounds⟩ := statements_flat Replay
  obtain ⟨after, parsed⟩ : ∃ after,
      (start (Replay.ofTokens nestedCompound)).parse .loose = (.ok nestedTree, after) :=
    ⟨_, rfl⟩
  have enough : (start (Replay.ofTokens nestedList)).supply ≤ 8 := by decide
  exact ⟨Nat.lt_succ_of_le enough, flat _ 9 9 8 (Nat.lt_succ_of_le enough) enough,
    once _ 9 8 1 enough (by decide), after, parsed, compounds _ _ _ _ parsed⟩

end Session

end PascalFrontEnd
