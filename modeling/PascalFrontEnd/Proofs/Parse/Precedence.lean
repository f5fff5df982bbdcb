import PascalFrontEnd.Proofs.Grammar.Weakest
import PascalFrontEnd.Proofs.Parse.Soundness
import PascalFrontEnd.Proofs.Session.Copying

namespace PascalFrontEnd.Rule

variable {σ : Type} [TokenStream σ] {session after : Session σ} {steps : Nat} {tree : Tree}

/-- Whatever the stream, the rule of expressions passes tokens, and what it
returns is the tree that is found in them from the weakest operator down. -/
theorem expression_weakestFirst (ran : expression steps session = .ok tree after) :
    (∃ tokens, session.Passes tokens after) ∧
      ∀ tokens, session.Passes tokens after → weakestFirst tokens = some tree := by
  obtain ⟨tokens, passed, read⟩ := expression_yields steps _ _ _ ran
  refine ⟨⟨tokens, passed⟩, fun others passed' => ?_⟩
  rw [passed'.unique passed]
  exact read.foundByWeakest

def mixedLevels : List Token :=
  [⟨.integerLiteral, "7", some (.integer 7), 1⟩, ⟨.minus, "-", none, 1⟩,
    ⟨.unarySign, "-", none, 1⟩, ⟨.openParen, "(", none, 1⟩,
    ⟨.identifier, "x", some (.name "x"), 1⟩, ⟨.plus, "+", none, 1⟩,
    ⟨.integerLiteral, "1", some (.integer 1), 1⟩, ⟨.closeParen, ")", none, 1⟩,
    ⟨.times, "*", none, 1⟩, ⟨.integerLiteral, "2", some (.integer 2), 1⟩,
    ⟨.minus, "-", none, 1⟩, ⟨.identifier, "y", some (.name "y"), 1⟩,
    ⟨.realDivision, "/", none, 1⟩, ⟨.integerLiteral, "3", some (.integer 3), 1⟩]

def mixedTree : Tree :=
  .binOp
    (.binOp (.number ⟨.integerLiteral, "7", some (.integer 7), 1⟩) ⟨.minus, "-", none, 1⟩
      (.binOp
        (.unaryOp ⟨.unarySign, "-", none, 1⟩
          (.binOp (.varRef ⟨.identifier, "x", some (.name "x"), 1⟩) ⟨.plus, "+", none, 1⟩
            (.number ⟨.integerLiteral, "1", some (.integer 1), 1⟩)))
        ⟨.times, "*", none, 1⟩ (.number ⟨.integerLiteral, "2", some (.integer 2), 1⟩)))
    ⟨.minus, "-", none, 1⟩
    (.binOp (.varRef ⟨.identifier, "y", some (.name "y"), 1⟩) ⟨.realDivision, "/", none, 1⟩
      (.number ⟨.integerLiteral, "3", some (.integer 3), 1⟩))

theorem expression_mixedLevels :
    ∃ after, expression 20 (Session.start (Replay.ofTokens mixedLevels)) = .ok mixedTree after ∧
      (∃ tokens, (Session.start (Replay.ofTokens mixedLevels)).Passes tokens after) ∧
      ∀ tokens, (Session.start (Replay.ofTokens mixedLevels)).Passes tokens after →
        weakestFirst tokens = some mixedTree := by
  obtain ⟨after, ran⟩ :
      ∃ after, expression 20 (Session.start (Replay.ofTokens mixedLevels)) = .ok mixedTree after :=
    ⟨_, rfl⟩
  exact ⟨after, ran, expression_weakestFirst ran⟩

end PascalFrontEnd.Rule
