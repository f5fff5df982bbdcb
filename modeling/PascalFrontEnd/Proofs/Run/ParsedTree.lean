import PascalFrontEnd.Proofs.Run.LazyLexing
import PascalFrontEnd.Proofs.Parse.Recognition
import PascalFrontEnd.Proofs.Tree.Regular

namespace PascalFrontEnd

/-- The sorts of trees that a mode yields. A program without a heading is a
block that declares nothing. -/
def Mode.IsRoot : Mode → Tree → Prop
  | wholeProgram, tree =>
      tree.isProgram ∨ ∃ statements, tree = .block [.noOp] statements
  | loose, tree =>
      tree.isProgram ∨ (∃ statements, tree = .compound statements) ∨ tree.IsExpression

theorem Reads.isProgram {tokens : List Token} {tree : Tree} {head : Token}
    (read : Reads .program tokens tree) (first : head ∈ tokens.head?)
    (heads : head.kind = .programWord) : tree.isProgram := by
  cases read with
  | headed => rfl
  | headless body =>
      cases body with
      | compound begins =>
          cases first
          rw [begins] at heads
          cases heads

/-- A tree that a mode reads from genuine tokens is one that the mode allows,
regular throughout. -/
theorem Mode.Reads.regular {mode : Mode} {tokens : List Token} {tree : Tree}
    (read : mode.Reads tokens tree) (genuine : ∀ token ∈ tokens, token.Genuine) :
    mode.IsRoot tree ∧
      ∀ visit ∈ tree.walk, visit.2.Regular ∧ (visit.2.isProgram → visit.1 = 0) := by
  cases mode with
  | wholeProgram =>
      obtain ⟨root, rooted⟩ := PascalFrontEnd.Reads.formed read genuine
      exact ⟨root, rooted.walk⟩
  | loose =>
      rcases read with ⟨read, -⟩ | ⟨read, head, first, heads⟩ | ⟨body, read, rfl⟩
      · obtain ⟨expression, inner⟩ := read.formed genuine
        exact ⟨.inr (.inr expression), inner.walk⟩
      · obtain ⟨-, rooted⟩ := read.formed genuine
        exact ⟨.inl (read.isProgram first heads), rooted.walk⟩
      · exact ⟨.inr (.inl ⟨body, rfl⟩), (inner_compound (read.formed genuine)).walk⟩

theorem parse_of_parseSource {source : String} {mode : Mode} {tree : Tree}
    (parsed : parseSource source mode = .ok tree) :
    ∃ after, (Session.start (Lexer.ofSource source)).parse mode = (.ok tree, after) :=
  ⟨_, Prod.ext parsed rfl⟩

theorem Session.Passes.mem_tokens {lexer : Lexer} {tokens : List Token} {after : Session Lexer}
    (passed : (Session.start lexer).Passes tokens after) {token : Token}
    (present : token ∈ tokens) : token ∈ lexer.tokens := by
  obtain ⟨behind, split⟩ := passed.tokens_eq
  rw [split]
  exact List.mem_append_left _ present

theorem Session.Passes.genuine {lexer : Lexer} {tokens : List Token} {after : Session Lexer}
    (passed : (Session.start lexer).Passes tokens after) : ∀ token ∈ tokens, token.Genuine :=
  fun _ present => lexer.genuine_of_mem_tokens (passed.mem_tokens present)

/-- Every tree that is parsed from a text is well formed. -/
theorem parseSource_regular {source : String} {mode : Mode} {tree : Tree}
    (parsed : parseSource source mode = .ok tree) :
    mode.IsRoot tree ∧
      ∀ visit ∈ tree.walk, visit.2.Regular ∧ (visit.2.isProgram → visit.1 = 0) := by
  cases outcome : (Session.start (Lexer.ofSource source)).parse mode with
  | mk result after =>
      have result_eq : result = .ok tree := by
        rw [parseSource, outcome] at parsed
        exact parsed
      subst result_eq
      obtain ⟨tokens, passed, read⟩ := Rule.inMode_yields mode _ _ _ _ (Session.parse_ok.mp outcome)
      exact read.regular passed.genuine

def halving : Tree :=
  .program "half" [.varDecl "x" "REAL", .procedure "idle" [.noOp] [.noOp]]
    [.assign ⟨.identifier, "x", some (.name "x"), 2⟩
      (.binOp
        (.unaryOp ⟨.unarySign, "-", none, 2⟩ (.varRef ⟨.identifier, "y", some (.name "y"), 2⟩))
        ⟨.integerDivision, "div", none, 2⟩
        (.number ⟨.integerLiteral, "2", some (.integer 2), 2⟩))]

theorem parseSource_halving_regular :
    parseSource "PROGRAM half; VAR x: Real; PROCEDURE idle; BEGIN END;\nBEGIN x := -y div 2 END."
        .wholeProgram = .ok halving ∧
      Mode.wholeProgram.IsRoot halving ∧
      ∀ visit ∈ halving.walk, visit.2.Regular ∧ (visit.2.isProgram → visit.1 = 0) := by
  have parsed : parseSource
      "PROGRAM half; VAR x: Real; PROCEDURE idle; BEGIN END;\nBEGIN x := -y div 2 END."
      .wholeProgram = .ok halving := by with_unfolding_all rfl
  exact ⟨parsed, parseSource_regular parsed⟩

end PascalFrontEnd
