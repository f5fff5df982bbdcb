import PascalFrontEnd.Proofs.Token.Handing

namespace PascalFrontEnd

/-- Behind the text `before`, the tokens are those of the text: their texts in
their order, a gap in front of each and one at the end, where the end of input
stands. Each is on the line that the characters in front of it lead to. -/
inductive Covers : List Char → List Token → List Char → Prop where
  | ending {before gap : List Char} :
      Gap gap → Covers before [Token.endOfInput (1 + (before ++ gap).count '\n')] gap
  | token {before gap text : List Char} {token : Token} {tokens : List Token} :
      Gap gap → token.kind ≠ .endOfInput → token.text ≠ [] →
      token.line = 1 + (before ++ gap).count '\n' →
      Covers (before ++ gap ++ token.text) tokens text →
      Covers before (token :: tokens) (gap ++ token.text ++ text)

namespace Lexer

variable {lexer : Lexer}

/-- If the line of the lexer is the one that the text in front of it leads to,
so are the line of the token and the line behind the token. -/
theorem HandsOut.lines {gap before : List Char} (hands : lexer.HandsOut gap)
    (line : lexer.line = 1 + before.count '\n') :
    lexer.next.1.line = 1 + (before ++ gap).count '\n' ∧
      lexer.next.2.line = 1 + (before ++ gap ++ lexer.next.1.text).count '\n' := by
  have tokenLine := hands.line
  have lineBehind := hands.lineBehind
  simp only [List.count_append]
  omega

theorem HandsOut.rest_of_ended {gap : List Char} (hands : lexer.HandsOut gap)
    (ended : lexer.next.1.kind = .endOfInput) : lexer.next.1.text = [] ∧ lexer.rest = gap := by
  obtain ⟨token, nothing⟩ := hands.ended ended
  have text : lexer.next.1.text = [] := by
    rw [token]
    rfl
  refine ⟨text, ?_⟩
  rw [hands.text, text, nothing, List.append_nil, List.append_nil]

theorem covers_tokens (lexer : Lexer) {before : List Char}
    (line : lexer.line = 1 + before.count '\n') : Covers before lexer.tokens lexer.rest := by
  induction lexer using Lexer.tokens.induct generalizing before with
  | case1 lexer ended =>
      obtain ⟨gap, hands⟩ := lexer.exists_handsOut
      obtain ⟨-, rest⟩ := hands.rest_of_ended ended
      rw [Lexer.tokens_last ended, (hands.ended ended).1, (hands.lines line).1, rest]
      exact .ending hands.between
  | case2 lexer more ih =>
      obtain ⟨gap, hands⟩ := lexer.exists_handsOut
      obtain ⟨tokenLine, lineBehind⟩ := hands.lines line
      rw [Lexer.tokens_cons more, hands.text]
      exact .token hands.between more (hands.proper more) tokenLine (ih lineBehind)

def past : Nat → Lexer → Lexer
  | 0, lexer => lexer
  | calls + 1, lexer => lexer.next.2.past calls

theorem next_past_of_ended (ended : lexer.rest = []) (calls : Nat) :
    (lexer.past calls).next.1 = Token.endOfInput lexer.line := by
  induction calls generalizing lexer with
  | zero =>
      show lexer.next.1 = _
      rw [next_eq, scan_nil ended]
  | succ calls ih =>
      have next : lexer.next.2 = ⟨[], lexer.line, some .endOfInput, false⟩ := by
        rw [next_eq, scan_nil ended, ended]
        rfl
      rw [past, next]
      exact ih rfl

/-- The calls hand out the tokens one after the other, and from then on the end
of input on the last line. -/
theorem next_past (lexer : Lexer) (calls : Nat) :
    (lexer.past calls).next.1 =
      lexer.tokens.getD calls (Token.endOfInput (lexer.line + lexer.rest.count '\n')) := by
  induction lexer using Lexer.tokens.induct generalizing calls with
  | case1 lexer ended =>
      obtain ⟨gap, hands⟩ := lexer.exists_handsOut
      obtain ⟨token, nothing⟩ := hands.ended ended
      obtain ⟨text, rest⟩ := hands.rest_of_ended ended
      rw [Lexer.tokens_last ended]
      cases calls with
      | zero => rfl
      | succ calls =>
          rw [past, next_past_of_ended nothing, hands.lineBehind, hands.line, text, rest]
          rfl
  | case2 lexer more ih =>
      obtain ⟨gap, hands⟩ := lexer.exists_handsOut
      rw [Lexer.tokens_cons more]
      cases calls with
      | zero => rfl
      | succ calls =>
          rw [past, ih, lexer.lines_next, List.getD_cons_succ]

/-- The byte positions of a source at which its text is looked at, with the
lexer that looks: behind each lexeme and each unknown character, whatever has
been handed out and announced until then. -/
inductive Resumes (source : String) : Nat → Lexer → Prop where
  | start : Resumes source 0 (ofSource source)
  | lexeme {position length : Nat} {lexer : Lexer} {sort : Lexeme.Class} :
      Resumes source position lexer → Lexeme.first? lexer.rest = some (sort, length) →
      Resumes source (position + (String.ofList (lexer.rest.take length)).utf8ByteSize)
        (lexer.advance length)
  | unknown {position : Nat} {lexer : Lexer} {c : Char} {tail : List Char} :
      Resumes source position lexer → lexer.rest = c :: tail →
      Lexeme.first? lexer.rest = none →
      Resumes source (position + c.utf8Size) (lexer.advance 1)
  | context {position : Nat} {lexer : Lexer} (previous : Option Kind) (bracketed : Bool) :
      Resumes source position lexer →
      Resumes source position { lexer with previous := previous, bracketed := bracketed }

variable {source : String} {position : Nat}

theorem Resumes.splits (resumes : Resumes source position lexer) :
    ∃ before, source.toList = before ++ lexer.rest ∧
      position = (String.ofList before).utf8ByteSize := by
  have advanced : ∀ {lexer : Lexer} {before : List Char} (length : Nat),
      source.toList = before ++ lexer.rest →
      source.toList = before ++ lexer.rest.take length ++ (lexer.advance length).rest := by
    intro lexer before length whole
    rw [whole, List.append_assoc]
    exact congrArg (before ++ ·) (List.take_append_drop length lexer.rest).symm
  induction resumes with
  | start => exact ⟨[], rfl, rfl⟩
  | @lexeme position length lexer sort _ _ ih =>
      rcases ih with ⟨before, whole, rfl⟩
      refine ⟨before ++ lexer.rest.take length, advanced length whole, ?_⟩
      rw [String.ofList_append, String.utf8ByteSize_append]
  | @unknown position lexer c tail _ shape _ ih =>
      rcases ih with ⟨before, whole, rfl⟩
      refine ⟨before ++ [c], ?_, ?_⟩
      · have split := advanced 1 whole
        rw [shape] at split
        exact split
      · rw [String.ofList_append, String.utf8ByteSize_append, ← String.singleton_eq_ofList,
          String.utf8ByteSize_singleton]
  | context _ _ _ ih => exact ih

theorem Resumes.boundary (resumes : Resumes source position lexer) :
    ∃ boundary : source.Pos, boundary.offset.byteIdx = position ∧
      (source.sliceFrom boundary).copy = String.ofList lexer.rest := by
  obtain ⟨before, whole, rfl⟩ := resumes.splits
  have parts : source = String.ofList before ++ String.ofList lexer.rest := by
    rw [← String.ofList_append, ← whole, String.ofList_toList]
  have valid : String.Pos.Raw.IsValid source (String.ofList before).rawEndPos :=
    String.Pos.Raw.isValid_iff_exists_append.mpr ⟨_, _, parts, rfl⟩
  have splits : (String.Pos.mk _ valid).Splits (String.ofList before) (String.ofList lexer.rest) :=
    ⟨parts, rfl⟩
  exact ⟨⟨_, valid⟩, rfl, splits.copy_sliceFrom_eq⟩

theorem Resumes.scan (resumes : Resumes source position lexer) :
    ∃ later, Resumes source later lexer.scan.2 := by
  fun_induction Lexer.scan lexer generalizing position with
  | case1 => exact ⟨position, resumes⟩
  | case2 lexer c tail shape none => exact ⟨_, resumes.unknown shape none⟩
  | case3 lexer c tail shape sort length first _ ih => exact ih (resumes.lexeme first)
  | case4 lexer c tail shape sort length first token _ => exact ⟨_, resumes.lexeme first⟩

theorem Resumes.next (resumes : Resumes source position lexer) :
    ∃ later, Resumes source later lexer.next.2 := by
  obtain ⟨later, resumes⟩ := resumes.scan
  exact ⟨later, resumes.context (some lexer.scan.1.kind) false⟩

end Lexer

/-- The tokens of a source text cover it from the first line on, it is only ever
looked at from boundaries of its characters, and the calls behind the last token
hand out the same end of input. -/
theorem tokenize_covers (source : String) :
    Covers [] (tokenize source) source.toList ∧
    (∀ {position : Nat} {lexer : Lexer}, Lexer.Resumes source position lexer →
      (∃ boundary : source.Pos, boundary.offset.byteIdx = position ∧
        (source.sliceFrom boundary).copy = String.ofList lexer.rest) ∧
      ∃ later, Lexer.Resumes source later lexer.next.2) ∧
    ∀ calls, ((Lexer.ofSource source).past calls).next.1 =
      (tokenize source).getD calls (Token.endOfInput (1 + source.toList.count '\n')) := by
  refine ⟨(Lexer.ofSource source).covers_tokens rfl, ?_, ?_⟩
  · intro position lexer resumes
    exact ⟨resumes.boundary, resumes.next⟩
  · exact (Lexer.ofSource source).next_past

/-- Behind an unknown character of two bytes, scanning goes on at the third. -/
theorem tokenize_accented_covers :
    Lexer.Resumes "é\nx" 2 ⟨['\n', 'x'], 1, none, false⟩ ∧
    ∃ boundary : String.Pos "é\nx", boundary.offset.byteIdx = 2 ∧
      (("é\nx" : String).sliceFrom boundary).copy = "\nx" := by
  have accented : (Lexer.ofSource "é\nx").rest = ['é', '\n', 'x'] := by
    show ("é\nx" : String).toList = _
    decide
  have unknown : Lexeme.first? (Lexer.ofSource "é\nx").rest = none := by
    rw [accented]
    decide
  have behind : (Lexer.ofSource "é\nx").advance 1 = ⟨['\n', 'x'], 1, none, false⟩ := by
    rw [Lexer.advance, accented]
    rfl
  have resumes : Lexer.Resumes "é\nx" 2 ⟨['\n', 'x'], 1, none, false⟩ :=
    behind ▸ Lexer.Resumes.start.unknown accented unknown
  exact ⟨resumes, ((tokenize_covers "é\nx").2.1 resumes).1⟩

end PascalFrontEnd
