import PascalFrontEnd.Proofs.Run.LikeSources
import PascalFrontEnd.Proofs.Run.ParsedTree
import PascalFrontEnd.Proofs.Tree.Folded

namespace PascalFrontEnd

theorem sound_of_parseSource {source : String} {mode : Mode} {tree : Tree}
    (parsed : parseSource source mode = .ok tree) : tree.Sound := by
  obtain ⟨after, outcome⟩ := parse_of_parseSource parsed
  obtain ⟨tokens, passed, read⟩ := Session.reads_of_parse outcome
  obtain ⟨-, regular⟩ := read.regular passed.genuine
  exact ⟨0, fun visit here => (regular visit here).1⟩

def ParseError.folded (error : ParseError) : ParseError :=
  error.map Token.folded

theorem ParseError.Alike.folded_eq {error other : ParseError}
    (alike : error.Alike SameButCase other) : error.folded = other.folded := by
  refine alike.map_eq id fun {token other} same => ?_
  have folded : token.folded = other.folded := same
  have raw : token.folded.raw = other.folded.raw := congrArg Token.raw folded
  have line : token.folded.line = other.folded.line := congrArg Token.line folded
  rw [Token.folded_bare, Token.folded_bare]
  exact congrArg₂ (fun raw line => (⟨.unknown, raw, none, line⟩ : Token)) raw line

def foldedResult (result : Except ParseError Tree) : Except ParseError Tree :=
  (result.map Tree.folded).mapError ParseError.folded

theorem foldedResult_eq_of_alike {source other : String} {mode : Mode}
    (alike : ResultsAlike SameButCase (parseSource source mode) (parseSource other mode)) :
    foldedResult (parseSource source mode) = foldedResult (parseSource other mode) := by
  generalize parsed : parseSource source mode = result at alike ⊢
  generalize parsed' : parseSource other mode = result' at alike ⊢
  cases alike with
  | ok alike =>
      have same := Tree.folded_eq_of_alike (sound_of_parseSource parsed)
        (sound_of_parseSource parsed') alike
      exact congrArg Except.ok same
  | error alike => exact congrArg Except.error alike.folded_eq

/-- Sources that are equal in upper case have tokens and results that are. -/
theorem parseSource_foldCase {source other : String} (same : foldCase source = foldCase other) :
    (tokenize source).map Token.folded = (tokenize other).map Token.folded ∧
      ∀ mode, foldedResult (parseSource source mode) = foldedResult (parseSource other mode) := by
  have tokens : (tokenize source).map Token.folded = (tokenize other).map Token.folded := by
    rw [← tokenize_foldCase, ← tokenize_foldCase, same]
  have alike : List.Forall₂ SameButCase (tokenize source) (tokenize other) :=
    map_eq_map_iff.mp tokens
  exact ⟨tokens, fun mode => foldedResult_eq_of_alike (parseSource_alike alike mode)⟩

theorem parseSource_mixedCase_folded :
    let source := "Program Half; Var x: Real; bEgin x := X dIv 2 END."
    let other := "PROGRAM half; VAR X: REAL; BEGIN x := x DIV 2 end."
    let name : Token := ⟨.identifier, "X", some (.name "X"), 1⟩
    let half : Tree := .program "HALF" [.varDecl "X" "REAL"]
      [.assign name (.binOp (.varRef name) ⟨.integerDivision, "DIV", none, 1⟩
        (.number ⟨.integerLiteral, "2", some (.integer 2), 1⟩))]
    foldCase source = foldCase other ∧
      (tokenize source).map Token.folded = (tokenize other).map Token.folded ∧
      (∀ mode, foldedResult (parseSource source mode) = foldedResult (parseSource other mode)) ∧
      foldedResult (parseSource source .wholeProgram) = .ok half := by
  intro source other name half
  have same : foldCase "Program Half; Var x: Real; bEgin x := X dIv 2 END." =
      foldCase "PROGRAM half; VAR X: REAL; BEGIN x := x DIV 2 end." := by decide
  have parsed : parseSource "PROGRAM half; VAR X: REAL; BEGIN x := x DIV 2 end." .wholeProgram =
      .ok (.program "half" [.varDecl "X" "REAL"]
        [.assign ⟨.identifier, "x", some (.name "x"), 1⟩
          (.binOp (.varRef ⟨.identifier, "x", some (.name "x"), 1⟩)
            ⟨.integerDivision, "DIV", none, 1⟩
            (.number ⟨.integerLiteral, "2", some (.integer 2), 1⟩))]) := by
    with_unfolding_all rfl
  obtain ⟨tokens, results⟩ := parseSource_foldCase same
  refine ⟨same, tokens, results, ?_⟩
  rw [show foldedResult (parseSource source .wholeProgram) = _ from results _, parsed]
  rfl

end PascalFrontEnd
