import PascalFrontEnd.Proofs.Token.Context
import PascalFrontEnd.Proofs.Token.Coverage
import PascalFrontEnd.Proofs.Token.Relayout

namespace PascalFrontEnd

def Token.lowered (lines : Nat) (token : Token) : Token :=
  { token with line := token.line + lines }

namespace Lexeme

variable {c : Char} {tail more : List Char}

/-- A lexeme that begins with no separator is not changed by a text that does. -/
theorem first?_followed (begins : isSeparator c = false) (ends : Separated more) :
    first? (c :: tail ++ more) = first? (c :: tail) := by
  cases more with
  | nil => rw [List.append_nil]
  | cons d more => exact first?_append begins (ends d rfl)

theorem first?_none_followed (none : first? (c :: tail) = none) (ends : Separated more)
    (unclosed : c = '{' → '}' ∉ more) : first? (c :: tail ++ more) = .none := by
  by_cases separates : isSeparator c = true
  · rcases isSeparator_iff.mp separates with blank | brace
    · rw [first?_blank blank] at none
      cases none
    · subst brace
      have free : '}' ∉ tail ++ more := by
        rw [List.mem_append, not_or]
        exact ⟨closeless_of_brace none, unclosed rfl⟩
      exact brace_of_closeless free
  · rw [first?_followed (Bool.not_eq_true _ ▸ separates) ends, none]

end Lexeme

namespace Lexer

variable {lexer other : Lexer} {more : List Char}

def followedBy (lexer : Lexer) (more : List Char) : Lexer :=
  { lexer with rest := lexer.rest ++ more }

theorem advance_followedBy {length : Nat} (short : length ≤ lexer.rest.length) :
    (lexer.followedBy more).advance length = (lexer.advance length).followedBy more := by
  simp [advance, followedBy, List.drop_append_of_le_length short, List.take_append_of_le_length short]

/-- A token is scanned as if its text ended where the separator stands. -/
theorem scan_followedBy (lexer : Lexer) (proper : lexer.scan.1.kind ≠ .endOfInput)
    (ends : Separated more) (unclosed : lexer.scan.1.IsOpenBrace → '}' ∉ more) :
    (lexer.followedBy more).scan = (lexer.scan.1, lexer.scan.2.followedBy more) := by
  fun_induction scan lexer with
  | case1 => exact absurd rfl proper
  | case2 lexer c tail shape none =>
      have shape' : (lexer.followedBy more).rest = c :: (tail ++ more) := by
        rw [followedBy, shape, List.cons_append]
      have none' : Lexeme.first? (lexer.followedBy more).rest = .none := by
        rw [shape] at none
        rw [shape']
        -- Only an open brace looks past the separator, for the brace that closes it.
        apply Lexeme.first?_none_followed none ends
        intro brace
        subst brace
        exact unclosed ⟨rfl, String.toList_singleton '{'⟩
      rw [scan_unknown shape' none', advance_followedBy (by simp [shape])]
      rfl
  | case3 lexer c tail shape sort length first isGap ih =>
      have short := Lexeme.first?_le first
      rcases eq_gap_of_token? isGap with rfl
      have here : (lexer.followedBy more).rest =
          lexer.rest.take length ++ (lexer.rest.drop length ++ more) := by
        rw [← List.append_assoc, List.take_append_drop]
        rfl
      rw [(Lexeme.gap_of_first? first).scan here, List.length_take_of_le short,
        advance_followedBy short]
      exact ih proper unclosed
  | case4 lexer c tail shape sort length first token made =>
      have short := Lexeme.first?_le first
      have noGap : sort ≠ .gap := by
        intro gap
        subst gap
        cases made
      rcases Lexeme.begins_of_first? first noGap with ⟨head, rest, shape', begins⟩
      have first' : Lexeme.first? (lexer.followedBy more).rest = some (sort, length) := by
        rw [followedBy, shape', Lexeme.first?_followed begins ends, ← shape', first]
      have made' : (lexer.followedBy more).token? sort
          ((lexer.followedBy more).rest.take length) = some token := by
        rw [followedBy, List.take_append_of_le_length short]
        exact made
      rw [scan_token first' made', advance_followedBy short]

theorem next_followedBy (lexer : Lexer) (proper : lexer.next.1.kind ≠ .endOfInput)
    (ends : Separated more) (unclosed : lexer.next.1.IsOpenBrace → '}' ∉ more) :
    (lexer.followedBy more).next = (lexer.next.1, lexer.next.2.followedBy more) := by
  rw [next_eq, lexer.scan_followedBy proper ends unclosed]
  rfl

def finished (lexer : Lexer) (more : List Char) : Lexer :=
  ⟨more, lexer.line + lexer.rest.count '\n',
    (lexer.tokens.dropLast.getLast?.map Token.kind).or lexer.previous, false⟩

theorem finished_of_ended (ended : lexer.next.1.kind = .endOfInput) :
    lexer.finished more =
      ⟨more, lexer.line + lexer.rest.count '\n', lexer.previous, false⟩ := by
  have only := Lexer.tokens_last ended
  simp [finished, only]

theorem finished_next (proper : lexer.next.1.kind ≠ .endOfInput) :
    lexer.next.2.finished more = lexer.finished more := by
  have split := Lexer.tokens_cons proper
  have previous : lexer.next.2.previous = some lexer.next.1.kind := rfl
  have last : (lexer.tokens.dropLast.getLast?.map Token.kind).or lexer.previous =
      (lexer.next.2.tokens.dropLast.getLast?.map Token.kind).or lexer.next.2.previous := by
    rw [split, List.dropLast_cons_of_ne_nil lexer.next.2.tokens_ne_nil, previous,
      List.getLast?_cons]
    cases lexer.next.2.tokens.dropLast.getLast? <;> rfl
  rw [finished, finished, last, lexer.lines_next]

/-- The tokens of a text with a separated text behind it: its own, and those of the
other text read from where it ends. -/
theorem tokens_followedBy (lexer : Lexer) (unbracketed : lexer.bracketed = false)
    (ends : Separated more) (unclosed : (∃ token ∈ lexer.tokens, token.IsOpenBrace) → '}' ∉ more) :
    (lexer.followedBy more).tokens = lexer.tokens.dropLast ++ (lexer.finished more).tokens := by
  induction lexer using Lexer.tokens.induct with
  | case1 lexer ended =>
      -- What is left of the first text is a gap, which the other text is read behind.
      rcases lexer.exists_handsOut with ⟨gap, hands⟩
      have between : Gap lexer.rest := by
        rw [(hands.rest_of_ended ended).2]
        exact hands.between
      have only := Lexer.tokens_last ended
      have behind : (lexer.followedBy more).advance lexer.rest.length = lexer.finished more := by
        rw [finished_of_ended ended]
        simp [advance, followedBy, unbracketed]
      have here : (lexer.followedBy more).rest = lexer.rest ++ more := rfl
      rw [tokens_of_scan_eq (between.scan here), behind, only]
      rfl
  | case2 lexer proper ih =>
      have split := Lexer.tokens_cons proper
      rw [split] at unclosed
      have first : lexer.next.1.IsOpenBrace → '}' ∉ more := by
        intro brace
        exact unclosed ⟨_, List.mem_cons_self, brace⟩
      have others : (∃ token ∈ lexer.next.2.tokens, token.IsOpenBrace) → '}' ∉ more := by
        intro found
        rcases found with ⟨token, present, brace⟩
        exact unclosed ⟨token, List.mem_cons_of_mem _ present, brace⟩
      have next := lexer.next_followedBy proper ends first
      have proper' : (lexer.followedBy more).next.1.kind ≠ .endOfInput := by
        rw [next]
        exact proper
      rw [Lexer.tokens_cons proper', next, ih rfl others, finished_next proper, split,
        List.dropLast_cons_of_ne_nil lexer.next.2.tokens_ne_nil, List.cons_append]

def lowered (lines : Nat) (lexer : Lexer) : Lexer :=
  { lexer with line := lexer.line + lines }

theorem token?_lowered (lines : Nat) (lexer : Lexer) (sort : Lexeme.Class) (text : List Char) :
    (lexer.lowered lines).token? sort text = (lexer.token? sort text).map (Token.lowered lines) := by
  cases sort with
  | gap => rfl
  | real => rfl
  | integer =>
      simp only [token?, integerToken, Option.map_some]
      cases Decimal.toInteger? text <;> rfl
  | word =>
      simp only [token?, wordToken, Option.map_some]
      split <;> rfl
  | sign binary => rfl
  | fixed kind => rfl

theorem advance_lowered (lines : Nat) (lexer : Lexer) (length : Nat) :
    (lexer.lowered lines).advance length = (lexer.advance length).lowered lines := by
  simp only [advance, lowered, Nat.add_right_comm]

theorem scan_lowered (lines : Nat) (lexer : Lexer) :
    (lexer.lowered lines).scan = (lexer.scan.1.lowered lines, lexer.scan.2.lowered lines) := by
  fun_induction scan lexer with
  | case1 lexer ended => exact scan_nil ended
  | case2 lexer c tail shape none =>
      have shape' : (lexer.lowered lines).rest = c :: tail := shape
      rw [scan_unknown shape' none, advance_lowered]
      rfl
  | case3 lexer c tail shape sort length first made ih =>
      rcases eq_gap_of_token? made with rfl
      have first' : Lexeme.first? (lexer.lowered lines).rest = some (.gap, length) := first
      rw [scan_gap first', advance_lowered]
      exact ih
  | case4 lexer c tail shape sort length first token made =>
      have first' : Lexeme.first? (lexer.lowered lines).rest = some (sort, length) := first
      have made' := lexer.token?_lowered lines sort (lexer.rest.take length)
      rw [made, Option.map_some] at made'
      rw [scan_token first' made', advance_lowered]

theorem next_lowered (lines : Nat) (lexer : Lexer) :
    (lexer.lowered lines).next = (lexer.next.1.lowered lines, lexer.next.2.lowered lines) := by
  rw [next_eq, next_eq, scan_lowered]
  rfl

theorem tokens_lowered (lines : Nat) (lexer : Lexer) :
    (lexer.lowered lines).tokens = lexer.tokens.map (Token.lowered lines) := by
  have kind : ∀ token : Token, (token.lowered lines).kind = token.kind := fun _ => rfl
  exact tokens_map kind (next_lowered lines) lexer

end Lexer

/-- Tokens that have others in front of them: where those end with an operand, a sign
that comes first is an operator. -/
def Token.joined (front tokens : List Token) : List Token :=
  if front.getLast?.any
      (·.kind ∈ [.integerLiteral, .realLiteral, .identifier, .closeParen]) then
    tokens.modifyHead (signed false)
  else
    tokens

/-- A text that is read behind other tokens has the tokens that it has by itself, on
its new lines, but for the kind of a leading sign. -/
theorem Lexer.tokens_joined (second : String) (front : List Token) (lines : Nat) {lexer : Lexer}
    (rest : lexer.rest = second.toList) (line : lexer.line = 1 + lines)
    (previous : lexer.previous = front.getLast?.map Token.kind)
    (unbracketed : lexer.bracketed = false) :
    lexer.tokens = Token.joined front ((tokenize second).map (Token.lowered lines)) := by
  have abreast : ((ofSource second).lowered lines).Abreast lexer := ⟨rest.symm, line.symm⟩
  have lowered : (tokenize second).map (Token.lowered lines) =
      ((ofSource second).lowered lines).tokens := ((ofSource second).tokens_lowered lines).symm
  have sign : lexer.signIsUnary = !front.getLast?.any
      (·.kind ∈ [.integerLiteral, .realLiteral, .identifier, .closeParen]) := by
    rw [signIsUnary, unbracketed, previous]
    cases front.getLast? with
    | none => rfl
    | some last =>
        apply congrArg Bool.not
        exact Bool.eq_iff_iff.mpr (Kind.endsOperand_iff.trans decide_eq_true_iff.symm)
  rw [Token.joined, lowered]
  split
  · rename_i operand
    rw [abreast.tokens, sign, operand]
    rfl
  · rename_i noOperand
    -- Nothing tells the lexer from one at the beginning of a text.
    have agrees : ((ofSource second).lowered lines).Agrees lexer := by
      refine ⟨abreast.rest, abreast.line, ?_⟩
      rw [sign, Bool.eq_false_iff.mpr noOperand]
      rfl
    exact agrees.tokens.symm

/-- The tokens of two texts with blanks between them are those of the first without
the end of input, and those of the second on the lines that they come to stand on.
An open brace in the first text must not be closed by the second. -/
theorem tokenize_joined {first gap second : String} (proper : gap ≠ "")
    (blank : ∀ c ∈ gap.toList, isBlank c = true)
    (unclosed : (∀ token ∈ tokenize first, ¬ token.IsOpenBrace) ∨ '}' ∉ second.toList) :
    tokenize (first ++ gap ++ second) = (tokenize first).dropLast ++
      Token.joined (tokenize first).dropLast
        ((tokenize second).map (Token.lowered ((first ++ gap).toList.count '\n'))) := by
  have between : Gap gap.toList := .of_blanks blank
  have ends : Separated (gap.toList ++ second.toList) := by
    apply between.separated
    intro _ empty
    exact proper (String.toList_eq_nil_iff.mp empty)
  have unclosed' : (∃ token ∈ (Lexer.ofSource first).tokens, token.IsOpenBrace) →
      '}' ∉ gap.toList ++ second.toList := by
    intro found
    rcases found with ⟨token, present, brace⟩
    rw [List.mem_append, not_or]
    constructor
    · intro closes
      cases blank _ closes
    · rcases unclosed with noBrace | noClose
      · exact absurd brace (noBrace token present)
      · exact noClose
  have source : Lexer.ofSource (first ++ gap ++ second) =
      (Lexer.ofSource first).followedBy (gap.toList ++ second.toList) := by
    simp [Lexer.ofSource, Lexer.followedBy]
  have here : ((Lexer.ofSource first).finished (gap.toList ++ second.toList)).rest =
      gap.toList ++ second.toList := rfl
  rw [tokenize, source, Lexer.tokens_followedBy _ rfl ends unclosed',
    Lexer.tokens_of_scan_eq (between.scan here)]
  apply congrArg
  apply Lexer.tokens_joined
  · exact List.drop_left
  · simp [Lexer.advance, Lexer.finished, Lexer.ofSource, Nat.add_assoc]
  · exact Option.or_none
  · rfl

/-- Behind an open brace, on the next line, the sign of the second text takes the
name in front of it as its left operand. -/
theorem tokenize_open_brace_joined :
    "\n" ≠ "" ∧ (∀ c ∈ "\n".toList, isBlank c = true) ∧ '}' ∉ "-1".toList ∧
    (tokenize "-1").map Token.kind = [.unarySign, .integerLiteral, .endOfInput] ∧
    tokenize ("\x7b a" ++ "\n" ++ "-1") =
      [⟨.unknown, "\x7b", none, 1⟩, ⟨.identifier, "a", some (.name "a"), 1⟩,
        ⟨.minus, "-", none, 2⟩, ⟨.integerLiteral, "1", some (.integer 1), 2⟩,
        ⟨.endOfInput, "", none, 2⟩] := by
  have proper : "\n" ≠ "" := by decide
  have newline : "\n".toList = ['\n'] := rfl
  have letters : "-1".toList = ['-', '1'] := rfl
  have blank : ∀ c ∈ "\n".toList, isBlank c = true := by
    rw [newline, List.forall_mem_singleton]
    rfl
  have unclosed : '}' ∉ "-1".toList := by
    rw [letters]
    decide
  have alone : tokenize "-1" =
      [⟨.unarySign, "-", none, 1⟩, ⟨.integerLiteral, "1", some (.integer 1), 1⟩,
        ⟨.endOfInput, "", none, 1⟩] := by
    with_unfolding_all rfl
  have front : tokenize "\x7b a" =
      [⟨.unknown, "\x7b", none, 1⟩, ⟨.identifier, "a", some (.name "a"), 1⟩,
        ⟨.endOfInput, "", none, 1⟩] := by
    with_unfolding_all rfl
  refine ⟨proper, blank, unclosed, ?_, ?_⟩
  · rw [alone]
    rfl
  · rw [tokenize_joined proper blank (.inr unclosed), front, alone]
    decide

end PascalFrontEnd
