import PascalFrontEnd.Proofs.Grammar.Signs
import PascalFrontEnd.Proofs.Run.LazyLexing
import PascalFrontEnd.Proofs.Token.Layout
import PascalFrontEnd.Proofs.Tree.Writing

namespace PascalFrontEnd

/-- The text writes the tree as a whole program, in any layout. -/
def Tree.WrittenAs (tree : Tree) (text : String) : Prop :=
  ∃ words, Writes .program tree words ∧ LaysOut words text.toList

/-- The tokens a tree is read from are read back from any layout of it. -/
theorem Tree.WrittenAs.tokenize {tree : Tree} {text : String} (written : tree.WrittenAs text)
    (formed : WellFormed .program tree) :
    ∃ tokens, Reads .program tokens tree ∧ ∀ line,
      List.Forall₂ SameButLine (tokens ++ [Token.endOfInput line]) (tokenize text) := by
  rcases written with ⟨words, written, gap, spaced, leads, between, shape⟩
  obtain ⟨tokens, ofWords, read⟩ := written.reads formed
  have fit : SignsFit none (tokens.map Token.kind) := read.derives.fitsAs.plain rfl none
  refine ⟨tokens, read, fun line => ?_⟩
  exact between.tokens ofWords leads shape rfl (fun token present => (read.known present).1) fit line

/-- Parsing undoes writing, up to the lines of tokens. -/
theorem parseSource_written {tree : Tree} (formed : WellFormed .program tree) :
    (∃ text, tree.WrittenAs text) ∧ ∀ text, tree.WrittenAs text →
      ∃ tree', parseSource text .wholeProgram = .ok tree' ∧ tree'.unlined = tree.unlined := by
  constructor
  · rcases formed.writes with ⟨words, written⟩
    obtain ⟨text, laidOut⟩ := exists_laysOut words
    refine ⟨String.ofList text, words, written, ?_⟩
    rw [String.toList_ofList]
    exact laidOut
  · intro text written
    obtain ⟨tokens, read, alike⟩ := written.tokenize formed
    have shown := Replay.shows_tokens tokens
    have copied : (Session.start (Lexer.ofSource text)).Copies SameButLine
        (tokens ++ [(Replay.ofTokens tokens).closing]) :=
      (Session.start_shows (Lexer.ofSource text)).copies (alike _)
    have beside : (Session.start (Replay.ofTokens tokens)).SideBySide SameButLine
        (Session.start (Lexer.ofSource text)) :=
      ⟨rfl, rfl, tokens, _, rfl, shown, copied⟩
    have reads : Mode.wholeProgram.Reads tokens tree := read
    obtain ⟨after, ran, -⟩ := Session.parse_of_reads shown reads rfl
    have results := (beside.parse .wholeProgram).1
    rw [ran] at results
    generalize parsed : ((Session.start (Lexer.ofSource text)).parse .wholeProgram).1 = result
      at results
    cases results with
    | ok same => exact ⟨_, parsed, same.unlined_eq.symm⟩

def negatedSum : Tree :=
  let target : Token := ⟨.identifier, "x", some (.name "x"), 1⟩
  let sum : Tree :=
    .binOp (.number ⟨.integerLiteral, "1", some (.integer 1), 1⟩) ⟨.plus, "+", none, 1⟩
      (.varRef target)
  .program "p" [.varDecl "x" "INTEGER"] [.assign target (.unaryOp ⟨.unarySign, "-", none, 1⟩ sum)]

theorem parseSource_negatedSum_written :
    WellFormed .program negatedSum ∧
    (∃ text, negatedSum.WrittenAs text) ∧ ∀ text, negatedSum.WrittenAs text →
      ∃ tree', parseSource text .wholeProgram = .ok tree' ∧
        tree'.unlined = negatedSum.unlined := by
  have name : ∀ c : Char, isWordStart c = true →
      Keyword.kind? (String.singleton c).toList = none → IsName (String.singleton c) :=
    fun c starts free => ⟨⟨c, [], by simp, starts, List.forall_mem_nil _⟩, free⟩
  have target : (⟨.identifier, "x", some (.name "x"), 1⟩ : Token).Lexed :=
    ⟨Lexer.ofSource "", .word, by decide, by decide⟩
  have one : (⟨.integerLiteral, "1", some (.integer 1), 1⟩ : Token).Lexed :=
    ⟨Lexer.ofSource "", .integer, by decide, by decide⟩
  have minus : (⟨.unarySign, "-", none, 1⟩ : Token).Lexed :=
    ⟨Lexer.ofSource "", .sign .minus, by decide, by decide⟩
  have plus : (⟨.plus, "+", none, 1⟩ : Token).Lexed :=
    ⟨⟨[], 1, some .identifier, false⟩, .sign .plus, by decide, by decide⟩
  have value : WellFormed .expression (.unaryOp ⟨.unarySign, "-", none, 1⟩ _) :=
    .signed minus rfl (.binary plus (.inl rfl) (.number one (.inl rfl)) (.reference target rfl))
  have formed : WellFormed .program negatedSum :=
    .headed (name 'p' rfl rfl)
      (.block (.withVariables (.lastVariable (name 'x' rfl rfl) (.inl rfl)) .noProcedure)
        (.compound (.lastStatement (.assignment target rfl value))))
  exact ⟨formed, parseSource_written formed⟩

end PascalFrontEnd
