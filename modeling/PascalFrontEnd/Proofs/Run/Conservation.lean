import PascalFrontEnd.Proofs.Run.ParsedTree
import PascalFrontEnd.Proofs.Tree.Mentions

namespace PascalFrontEnd

theorem Mode.Reads.mentions {mode : Mode} {tokens : List Token} {tree : Tree}
    (read : mode.Reads tokens tree) : Mentions tree.mentions tokens := by
  cases mode with
  | wholeProgram => exact PascalFrontEnd.Reads.mentioned read
  | loose =>
      rcases read with ⟨read, -⟩ | ⟨read, -⟩ | ⟨body, read, rfl⟩
      · exact read.mentioned
      · exact read.mentioned
      · exact read.mentioned

namespace Session

variable {σ : Type} [TokenStream σ] {session after : Session σ} {mode : Mode} {tree : Tree}

/-- Whatever the stream, a parse that succeeds has consumed tokens, and what its
tree mentions are the names, literals, signs and operators among them. -/
theorem parse_mentions (parsed : session.parse mode = (.ok tree, after)) :
    (∃ tokens, session.Passes tokens after) ∧
      ∀ tokens, session.Passes tokens after → Mentions tree.mentions tokens := by
  obtain ⟨tokens, passed, read⟩ := reads_of_parse parsed
  refine ⟨⟨tokens, passed⟩, fun others passed' => ?_⟩
  rw [passed'.unique passed]
  exact read.mentions

theorem mentioned_of_parseSource {source : String} {token : Token}
    (parsed : parseSource source mode = .ok tree) (here : Mention.token token ∈ tree.mentions) :
    token ∈ tokenize source ∧ token.kind ≠ .unknown ∧ token.kind ≠ .endOfInput := by
  obtain ⟨after, outcome⟩ := parse_of_parseSource parsed
  obtain ⟨tokens, passed, read⟩ := reads_of_parse outcome
  obtain ⟨stored, present, behind, told⟩ := read.mentions.mem here
  have same : token = stored := told
  rw [same]
  exact ⟨passed.mem_tokens present, passed.kind_ne stored present⟩

def negation : List Token :=
  [⟨.programWord, "PROGRAM", none, 1⟩, ⟨.identifier, "p", some (.name "P"), 1⟩,
    ⟨.semicolon, ";", none, 1⟩, ⟨.varWord, "VAR", none, 2⟩,
    ⟨.identifier, "a", some (.name "A"), 2⟩, ⟨.comma, ",", none, 2⟩,
    ⟨.identifier, "b", some (.name "B"), 2⟩, ⟨.colon, ":", none, 2⟩,
    ⟨.typeName, "REAL", some (.name "REAL"), 2⟩, ⟨.semicolon, ";", none, 2⟩,
    ⟨.procedureWord, "PROCEDURE", none, 3⟩, ⟨.identifier, "q", some (.name "Q"), 3⟩,
    ⟨.semicolon, ";", none, 3⟩, ⟨.beginWord, "BEGIN", none, 3⟩, ⟨.endWord, "END", none, 3⟩,
    ⟨.semicolon, ";", none, 3⟩, ⟨.beginWord, "BEGIN", none, 4⟩,
    ⟨.identifier, "a", some (.name "A"), 4⟩, ⟨.becomes, ":=", none, 4⟩,
    ⟨.unarySign, "-", none, 4⟩, ⟨.identifier, "b", some (.name "B"), 4⟩,
    ⟨.endWord, "END", none, 4⟩, ⟨.period, ".", none, 4⟩]

def negationTree : Tree :=
  .program "P"
    [.varDecl "A" "REAL", .varDecl "B" "REAL", .procedure "Q" [.noOp] [.noOp]]
    [.assign ⟨.identifier, "a", some (.name "A"), 4⟩
      (.unaryOp ⟨.unarySign, "-", none, 4⟩ (.varRef ⟨.identifier, "b", some (.name "B"), 4⟩))]

theorem parse_negation_mentions :
    ∃ after, (start (Replay.ofTokens negation)).parse .wholeProgram = (.ok negationTree, after) ∧
      (∃ tokens, (start (Replay.ofTokens negation)).Passes tokens after) ∧
      ∀ tokens, (start (Replay.ofTokens negation)).Passes tokens after →
        Mentions negationTree.mentions tokens := by
  obtain ⟨after, parsed⟩ : ∃ after,
      (start (Replay.ofTokens negation)).parse .wholeProgram = (.ok negationTree, after) :=
    ⟨_, rfl⟩
  exact ⟨after, parsed, parse_mentions parsed⟩

end Session

end PascalFrontEnd
