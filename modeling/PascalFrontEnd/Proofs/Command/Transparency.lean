import PascalFrontEnd.Command.Report
import PascalFrontEnd.Proofs.Run.NodeCount

namespace PascalFrontEnd

/-- The input gives the text itself, or names a source file with the text in it. -/
def Input.Supplies (opened : String → Except AccessError Entry) (source : String) : Input → Prop
  | .inline given => given = source
  | .file path => Source.hasExtension path = true ∧ opened path = .ok (.file source.toUTF8)

namespace Input

variable {opened : String → Except AccessError Entry} {source : String} {input : Input}

theorem Supplies.text_eq (supplied : input.Supplies opened source) :
    input.text (m := Id) opened = .ok source := by
  cases input with
  | inline given => exact congrArg Except.ok supplied
  | file path =>
      obtain ⟨accepted, found⟩ := supplied
      have decoded : String.fromUTF8? source.toUTF8 = some source := dif_pos source.isValidUTF8
      show Source.readExisting path (opened path) = _
      simp only [found, Source.readExisting, Source.read, accepted, Source.content, decoded,
        if_true]

end Input

def flushRight (width : Nat) (text : String) : String :=
  String.ofList (text.toList.leftpad width ' ')

def flushLeft (width : Nat) (text : String) : String :=
  String.ofList (text.toList.rightpad width ' ')

def terminated (text : String) : String :=
  text ++ "\n"

def Token.row (token : Token) : String :=
  terminated ("  " ++ flushRight 4 (toString token.line) ++ "  " ++
    flushLeft 16 token.kind.label ++ " " ++ token.raw)

/-- More nodes than a word has room for are shown as none. -/
def Tree.nodesShown (tree : Tree) : Nat :=
  if tree.walk.length < 2 ^ 31 then tree.walk.length else 0

inductive Block where
  | sourceSize
  | tokenList
  | lexing
  | parsing
  | syntaxTree
  | statistics
  | success
  deriving DecidableEq, Repr

namespace Block

def inOrder : List Block :=
  [sourceSize, tokenList, lexing, parsing, syntaxTree, statistics, success]

def sizeText (source : String) : String :=
  terminated ("Read " ++ toString source.utf8ByteSize ++ " bytes of source")

def listText (source : String) : String :=
  terminated "\n Tokens:" ++ String.join ((tokenize source).map Token.row)

def lexingText (clock : Phase → Nat → String) (source : String) : String :=
  terminated ("Lexical analysis completed in " ++ clock .lexing 0) ++
    terminated ("  Generated " ++ toString (tokenize source).length ++ " tokens")

def parsingText (clock : Phase → Nat → String) : String :=
  terminated ("Parsing completed in " ++ clock .parsing 0)

def treeText (tree : Tree) : String :=
  terminated "\n Abstract Syntax Tree:" ++ terminated tree.render

def statisticsText (clock : Phase → Nat → String) (source : String) (tree : Tree) : String :=
  terminated "\n Parse Statistics:" ++
    terminated ("  Lexical Analysis   " ++ clock .lexing 8) ++
    terminated ("  Parsing            " ++ clock .parsing 8) ++
    terminated ("  Total Time         " ++ clock .whole 8) ++
    terminated ("  Tokens             " ++ flushRight 8 (toString (tokenize source).length)) ++
    terminated ("  AST Nodes          " ++ flushRight 8 (toString tree.nodesShown))

/-- What stands in a block. From the parsing on there has to be a tree. -/
def text (clock : Phase → Nat → String) (source : String) :
    Except ParseError Tree → Block → String
  | _, sourceSize => sizeText source
  | _, tokenList => listText source
  | _, lexing => lexingText clock source
  | .error _, _ => ""
  | .ok _, parsing => parsingText clock
  | .ok tree, syntaxTree => treeText tree
  | .ok tree, statistics => statisticsText clock source tree
  | .ok _, success => terminated "Parse successful!"

def isOn (options : Options) : Block → Bool
  | sourceSize | lexing | parsing | success => options.verbose
  | tokenList => options.listTokens
  | syntaxTree => options.showTree
  | statistics => options.timing

def printed (clock : Phase → Nat → String) (options : Options) (source : String)
    (result : Except ParseError Tree) (block : Block) : String :=
  if block.isOn options then block.text clock source result else ""

def switch (options : Options) (on : Bool) : Block → Options
  | sourceSize | lexing | parsing | success => { options with verbose := on }
  | tokenList => { options with listTokens := on }
  | syntaxTree => { options with showTree := on }
  | statistics => { options with timing := on }

/-- The blocks that have a flag of their own. -/
def optional : List Block :=
  [tokenList, syntaxTree, statistics]

variable {block other : Block} {options : Options}

theorem switch_keeps (options : Options) (listed : block ∈ optional) (on : Bool) :
    (block.switch options on).input = options.input ∧
      (block.switch options on).mode = options.mode ∧
      (block.switch options on).verbose = options.verbose := by
  cases block with
  | tokenList | syntaxTree | statistics => exact ⟨rfl, rfl, rfl⟩
  | sourceSize | lexing | parsing | success => exact absurd listed (by decide)

theorem isOn_switch_self (on : Bool) : block.isOn (block.switch options on) = on := by
  cases block <;> rfl

theorem isOn_switch_of_ne (listed : block ∈ optional) (differ : other ≠ block) (on : Bool) :
    other.isOn (block.switch options on) = other.isOn options := by
  cases block with
  | tokenList | syntaxTree | statistics =>
      cases other <;> first | rfl | exact absurd rfl differ
  | sourceSize | lexing | parsing | success => exact absurd listed (by decide)

variable (clock : Phase → Nat → String) (source : String) (result : Except ParseError Tree)

theorem map_printed_switch {blocks : List Block} (listed : block ∈ optional)
    (others : block ∉ blocks) (on : Bool) :
    blocks.map (printed clock (block.switch options on) source result) =
      blocks.map (printed clock options source result) := by
  apply List.map_congr_left
  intro other present
  have differ : other ≠ block := fun same => others (same ▸ present)
  rw [printed, printed, isOn_switch_of_ne listed differ]

theorem mem_inOrder (block : Block) : block ∈ inOrder := by
  cases block <;> decide

theorem nodup_inOrder : inOrder.Nodup := by
  decide

/-- What stands in front of a block and behind it does not hang on the flag for it. -/
theorem join_printed_switch (options : Options) (listed : block ∈ optional) :
    ∃ front back, ∀ on,
      String.join (inOrder.map (printed clock (block.switch options on) source result)) =
        front ++ (if on then block.text clock source result else "") ++ back := by
  obtain ⟨before, behind, whole⟩ := List.append_of_mem (mem_inOrder block)
  have single : block ∉ before ++ behind := by
    have distinct := nodup_inOrder
    rw [whole, List.perm_middle.nodup_iff] at distinct
    exact (List.nodup_cons.mp distinct).1
  rw [List.mem_append, not_or] at single
  refine ⟨String.join (before.map (printed clock options source result)),
    String.join (behind.map (printed clock options source result)), fun on => ?_⟩
  rw [whole, List.map_append, List.map_cons, String.join_append, String.join_cons,
    map_printed_switch clock source result listed single.1,
    map_printed_switch clock source result listed single.2, printed, isOn_switch_self,
    String.append_assoc]

end Block

namespace Report

variable {clock : Phase → Nat → String}

theorem pushn_blanks (text : String) (count : Nat) :
    text.pushn ' ' count = text ++ String.ofList (List.replicate count ' ') := by
  induction count with
  | zero => exact String.append_empty.symm
  | succ count ih =>
      have pushed : text.pushn ' ' (count + 1) = (text.pushn ' ' count).push ' ' := rfl
      rw [pushed, ih, ← String.append_singleton, String.append_assoc, List.replicate_succ',
        String.ofList_append]
      rfl

theorem padLeft_eq (width : Nat) (text : String) : padLeft width text = flushRight width text := by
  rw [padLeft, pushn_blanks, String.empty_append, flushRight, List.leftpad, String.ofList_append,
    String.ofList_toList, String.length_toList]

theorem padRight_eq (width : Nat) (text : String) : padRight width text = flushLeft width text := by
  rw [padRight, pushn_blanks, String.empty_append, flushLeft, List.rightpad, String.ofList_append,
    String.ofList_toList, String.length_toList]

theorem join_append (pieces others : List Piece) :
    Piece.join clock (pieces ++ others) = Piece.join clock pieces ++ Piece.join clock others := by
  rw [Piece.join, List.map_append, String.join_append]
  rfl

theorem join_only (condition : Bool) (pieces : List Piece) :
    Piece.join clock (only condition pieces) =
      if condition then Piece.join clock pieces else "" := by
  cases condition <;> rfl

theorem join_line (text : String) : Piece.join clock (line text) = terminated text := by
  simp [Piece.join, line, Piece.shown, terminated]

theorem join_timedLine (label : String) (phase : Phase) (width : Nat) :
    Piece.join clock (timedLine label phase width) = terminated (label ++ clock phase width) := by
  simp [Piece.join, timedLine, Piece.shown, terminated, String.append_assoc]

theorem join_lines (tokens : List Token) :
    Piece.join clock (tokens.flatMap fun token => line (tokenLine token)) =
      String.join (tokens.map Token.row) := by
  induction tokens with
  | nil => rfl
  | cons token tokens ih =>
      rw [List.flatMap_cons, join_append, join_line, ih, List.map_cons, String.join_cons,
        tokenLine, padLeft_eq, padRight_eq]
      rfl

theorem nodeCount_eq (tree : Tree) : nodeCount tree = tree.nodesShown := by
  unfold nodeCount Tree.nodesShown
  split
  · next fits =>
      obtain ⟨count, tallied, exactly⟩ := Tree.tally_of_lt fits
      rw [tallied, Option.map_some, Option.getD_some, exactly, Int.toNat_natCast]
  · next beyond =>
      rw [Tree.tally_of_le (Nat.not_lt.mp beyond)]
      rfl

variable (clock) (options : Options) (source : String) (tree : Tree)

theorem join_sourceSize : Piece.join clock (sourceSize source) = Block.sizeText source := by
  rw [sourceSize, join_line]
  rfl

theorem join_tokenList :
    Piece.join clock (tokenList (tokenize source)) = Block.listText source := by
  rw [tokenList, join_append, join_line, join_lines, Block.listText]

theorem join_lexingSummary :
    Piece.join clock (lexingSummary (tokenize source).length) = Block.lexingText clock source := by
  rw [lexingSummary, join_append, join_line, join_timedLine]
  rfl

theorem join_treeText : Piece.join clock (treeText tree) = Block.treeText tree := by
  rw [treeText, join_append, join_line, join_line, Block.treeText]

theorem join_statistics :
    Piece.join clock (statistics (tokenize source).length (nodeCount tree)) =
      Block.statisticsText clock source tree := by
  rw [statistics, nodeCount_eq, padLeft_eq, padLeft_eq, Block.statisticsText]
  simp only [join_append, join_line, join_timedLine]

theorem join_beforeParsing (result : Except ParseError Tree) :
    Piece.join clock (beforeParsing options source (tokenize source)) =
      String.join ([.sourceSize, .tokenList, .lexing].map
        (Block.printed clock options source result)) := by
  rw [beforeParsing, join_append, join_append, join_only, join_only, join_only, join_sourceSize,
    join_tokenList, join_lexingSummary]
  simp only [List.map_cons, List.map_nil, String.join_cons, String.join_nil, String.append_empty,
    String.append_assoc]
  cases result <;> rfl

theorem join_afterParsing :
    Piece.join clock (afterParsing options (tokenize source) tree) =
      String.join ([.parsing, .syntaxTree, .statistics, .success].map
        (Block.printed clock options source (.ok tree))) := by
  rw [afterParsing, join_append, join_append, join_append, join_only, join_only, join_only,
    join_only, parsingSummary, join_timedLine, join_treeText, join_statistics, join_line]
  simp only [List.map_cons, List.map_nil, String.join_cons, String.join_nil, String.append_empty,
    String.append_assoc]
  rfl

variable (options : Options) (source : String)

theorem ofSource_eq :
    ofSource options source =
      { exitCode := if (parseSource source options.mode).isOk then 0 else 1
        output := beforeParsing options source (tokenize source) ++
          match parseSource source options.mode with
          | .ok tree => afterParsing options (tokenize source) tree
          | .error _ => []
        events := (tokenize source).map .scanned ++
          ((Session.start (Lexer.ofSource source)).parse options.mode).2.journal.toList
        error := match parseSource source options.mode with
          | .ok _ => none
          | .error error => some (.parse error) } := by
  unfold ofSource parseSource
  generalize (Session.start (Lexer.ofSource source)).parse options.mode = parsed
  obtain ⟨result, session⟩ := parsed
  cases result with
  | ok tree => rfl
  | error error => simp [Except.isOk, Except.toBool]

theorem join_unparsed (error : ParseError) :
    String.join ([.parsing, .syntaxTree, .statistics, .success].map
      (Block.printed clock options source (.error error))) = "" := by
  simp [Block.printed, Block.text]

theorem join_ofSource :
    Piece.join clock (ofSource options source).output =
      String.join (Block.inOrder.map
        (Block.printed clock options source (parseSource source options.mode))) := by
  have parts : Block.inOrder = [.sourceSize, .tokenList, .lexing] ++
      [.parsing, .syntaxTree, .statistics, .success] := rfl
  rw [ofSource_eq, join_append, parts, List.map_append, String.join_append,
    join_beforeParsing clock options source (parseSource source options.mode)]
  cases parseSource source options.mode with
  | ok tree => rw [join_afterParsing]
  | error error =>
      rw [join_unparsed]
      rfl

theorem errorOutput_of_error {outcome : Outcome} {failure : Failure}
    (failed : outcome.error = some failure) (limit : Option Level) (stamp : String) :
    ∃ log, errorOutput outcome limit stamp =
      log ++ ("Error: " ++ failure.message ++ " (" ++ failure.name ++ ")\n") := by
  unfold errorOutput
  rw [failed]
  exact ⟨_, rfl⟩

end Report

/-- What is seen of a run with some options, where opening a path finds what `opened`
tells. -/
def Options.transcript (opened : String → Except AccessError Entry)
    (clock : Phase → Nat → String) (setting : Option String) (stamp : String)
    (options : Options) : Transcript :=
  Report.transcript options (Report.ofInput options (options.input.text (m := Id) opened)) clock
    setting stamp

namespace Options

variable {opened : String → Except AccessError Entry} {options : Options} {source : String}

theorem transcript_eq (supplied : options.input.Supplies opened source)
    (clock : Phase → Nat → String) (setting : Option String) (stamp : String) :
    options.transcript opened clock setting stamp =
      Report.transcript options (Report.ofSource options source) clock setting stamp := by
  rw [transcript, supplied.text_eq]
  rfl

theorem transcript_switch (supplied : options.input.Supplies opened source)
    (clock : Phase → Nat → String) (setting : Option String) (stamp : String) {block : Block}
    (listed : block ∈ Block.optional) (on : Bool) :
    (block.switch options on).transcript opened clock setting stamp =
      { options.transcript opened clock setting stamp with
        stdout := String.join (Block.inOrder.map (Block.printed clock (block.switch options on)
          source (parseSource source options.mode))) } := by
  obtain ⟨input, mode, verbose⟩ := Block.switch_keeps options listed on
  rw [transcript_eq supplied, transcript_eq (input ▸ supplied), Report.transcript,
    Report.join_ofSource, mode]
  simp only [Report.transcript, Report.ofSource_eq, Report.level, Report.errorOutput, mode, verbose]

end Options

variable {opened : String → Except AccessError Entry} {options : Options} {source : String}

/-- The command adds nothing to a parse of the text that it is supplied with. Its exit
code and its error are those of the parse, and its output consists of blocks. The way in
which the text is supplied makes no difference, and the flag for a block makes none but for
the block. -/
theorem command_transparent (supplied : options.input.Supplies opened source)
    (clock : Phase → Nat → String) (setting : Option String) (stamp : String) :
    let result := parseSource source options.mode
    let seen := options.transcript opened clock setting stamp
    seen.exitCode = (if result.isOk then 0 else 1) ∧
    seen.stdout =
      String.join (Block.inOrder.map (Block.printed clock options source result)) ∧
    (∀ error, result = .error error → ∃ log,
      seen.stderr = log ++ ("Error: " ++ error.message ++ " (" ++ error.name ++ ")\n")) ∧
    (∀ opened (input : Input), input.Supplies opened source →
      Options.transcript opened clock setting stamp { options with input := input } = seen) ∧
    ∀ block ∈ Block.optional, ∃ front back, ∀ on,
      (block.switch options on).transcript opened clock setting stamp =
        { seen with
          stdout := front ++ (if on then block.text clock source result else "") ++ back } := by
  intro result seen
  have seen_eq : seen =
      Report.transcript options (Report.ofSource options source) clock setting stamp :=
    Options.transcript_eq supplied clock setting stamp
  refine ⟨?_, ?_, ?_, ?_, ?_⟩
  · rw [seen_eq, Report.transcript, Report.ofSource_eq]
  · rw [seen_eq, Report.transcript, Report.join_ofSource]
  · intro error failed
    have ends : (Report.ofSource options source).error = some (.parse error) := by
      have failed : parseSource source options.mode = .error error := failed
      rw [Report.ofSource_eq, failed]
    rw [seen_eq]
    exact Report.errorOutput_of_error ends _ stamp
  · intro others input supplied'
    rw [seen_eq]
    exact Options.transcript_eq supplied' clock setting stamp
  · intro block listed
    obtain ⟨front, back, stands⟩ := Block.join_printed_switch clock source result options listed
    refine ⟨front, back, fun on => ?_⟩
    rw [Options.transcript_switch supplied clock setting stamp listed on, stands on]

/-- A program without a period, in a file and listed: it fails after its tokens have been
printed, and there are no statistics even when they are asked for. -/
theorem command_transparent_unfinished :
    let folder := Folder.ofEntries [] [("a.pas", "BEGIN END".toUTF8)]
    let options : Options := ⟨.file "a.pas", .wholeProgram, false, true, false, false⟩
    let clock : Phase → Nat → String := fun _ _ => "0.000s"
    let seen := options.transcript folder.find clock none "now"
    options.input.Supplies folder.find "BEGIN END" ∧
    seen.exitCode = 1 ∧
    seen.stdout =
      "\n Tokens:\n     1  Begin            BEGIN\n     1  End              END\n" ++
        "     1  Eof              \n" ∧
    (∃ log, seen.stderr = log ++
      "Error: Invalid syntax at line 1: expected ., found 'end of input' (SyntaxError)\n") ∧
    Options.transcript folder.find clock none "now" { options with input := .inline "BEGIN END" } =
      seen ∧
    Options.transcript folder.find clock none "now" { options with timing := true } = seen := by
  intro folder options clock seen
  let failure : ParseError := .unexpected .period ⟨.endOfInput, "", none, 1⟩
  have supplied : options.input.Supplies folder.find "BEGIN END" :=
    ⟨by decide, by with_unfolding_all rfl⟩
  have failed : parseSource "BEGIN END" .wholeProgram = .error failure := by
    with_unfolding_all rfl
  have tokens : tokenize "BEGIN END" =
      [⟨.beginWord, "BEGIN", none, 1⟩, ⟨.endWord, "END", none, 1⟩, ⟨.endOfInput, "", none, 1⟩] := by
    with_unfolding_all rfl
  have rows : Block.listText "BEGIN END" =
      "\n Tokens:\n     1  Begin            BEGIN\n     1  End              END\n" ++
        "     1  Eof              \n" := by
    rw [Block.listText, tokens]
    decide
  have told : "Error: " ++ failure.message ++ " (" ++ failure.name ++ ")\n" =
      "Error: Invalid syntax at line 1: expected ., found 'end of input' (SyntaxError)\n" := by
    decide
  obtain ⟨exitCode, stdout, stderr, anyway, switched⟩ :=
    command_transparent supplied clock none "now"
  have result : parseSource "BEGIN END" options.mode = .error failure := failed
  rw [result] at exitCode stdout switched
  refine ⟨supplied, exitCode, ?_, ?_, anyway _ _ rfl, ?_⟩
  · rw [show seen.stdout = _ from stdout, ← rows]
    simp [Block.inOrder, Block.printed, Block.isOn, Block.text, options]
  · obtain ⟨log, ends⟩ := stderr _ failed
    rw [told] at ends
    exact ⟨log, ends⟩
  · obtain ⟨front, back, shown⟩ := switched .statistics (by decide)
    exact (shown true).trans (shown false).symm

end PascalFrontEnd
