import PascalFrontEnd.Proofs.Token.Layout
import PascalFrontEnd.Proofs.Token.Word

namespace PascalFrontEnd

theorem Gap.append {gap more : List Char} (first : Gap gap) (second : Gap more) :
    Gap (gap ++ more) := by
  induction first with
  | none => exact second
  | blank blank _ ih => exact .blank blank ih
  | @comment inner gap closed _ ih =>
      have shape : '{' :: inner ++ '}' :: gap ++ more = '{' :: inner ++ '}' :: (gap ++ more) := by
        simp
      rw [shape]
      exact .comment closed ih

theorem Gap.of_blanks {gap : List Char} (blanks : ∀ c ∈ gap, isBlank c = true) : Gap gap := by
  induction gap with
  | nil => exact .none
  | cons c gap ih =>
      rw [List.forall_mem_cons] at blanks
      exact .blank blanks.1 (ih blanks.2)

namespace Lexeme

variable {text : List Char} {sort : Class} {length : Nat}

theorem take_run (property : Char → Bool) (text : List Char) :
    text.take (run property text) = text.takeWhile property :=
  (List.prefix_iff_eq_take.mp (List.takeWhile_prefix property)).symm

theorem all_take_run (property : Char → Bool) (text : List Char) :
    ∀ c ∈ text.take (run property text), property c = true := by
  rw [take_run]
  exact fun c => List.mem_takeWhile_imp

theorem take_run_succ {property : Char → Bool} (ends : run property text < text.length) :
    ∃ c, property c = false ∧ text.take (run property text + 1) = text.takeWhile property ++ [c] := by
  induction text with
  | nil => simp at ends
  | cons head text ih =>
      unfold run at *
      by_cases goesOn : property head = true
      · rw [List.takeWhile_cons_of_pos goesOn] at ends ⊢
        obtain ⟨c, fails, taken⟩ := ih (by simpa using ends)
        refine ⟨c, fails, ?_⟩
        rw [List.length_cons, List.take_succ_cons, taken, List.cons_append]
      · rw [List.takeWhile_cons_of_neg goesOn]
        exact ⟨head, Bool.not_eq_true _ ▸ goesOn, rfl⟩

theorem gap_take_comment (text : List Char) : Gap (text.take (Shape.comment.reach text)) := by
  cases text with
  | nil => exact .none
  | cons head rest =>
      by_cases brace : head = '{'
      · subst brace
        by_cases closed : run (· != '}') rest < rest.length
        · have reach : Shape.comment.reach ('{' :: rest) = run (· != '}') rest + 2 := if_pos closed
          obtain ⟨c, closes, taken⟩ := take_run_succ closed
          rw [bne_eq_false_iff_eq] at closes
          subst closes
          have inside : '}' ∉ rest.takeWhile (· != '}') := by
            intro present
            have kept := List.mem_takeWhile_imp present
            simp at kept
          rw [reach, List.take_succ_cons, taken]
          exact .comment inside .none
        · have reach : Shape.comment.reach ('{' :: rest) = 0 := if_neg closed
          rw [reach]
          exact .none
      · have reach : Shape.comment.reach (head :: rest) = 0 := by simp [Shape.reach, brace]
        rw [reach]
        exact .none

theorem gap_of_first? (first : first? text = some (.gap, length)) : Gap (text.take length) := by
  obtain ⟨shape, listed, rfl, -⟩ := reach_of_first? first
  have shapes : shape = .blanks ∨ shape = .comment := by
    simpa [table] using listed
  rcases shapes with rfl | rfl
  · exact .of_blanks (all_take_run isBlank text)
  · exact gap_take_comment text

theorem ne_endOfInput_of_first? {kind : Kind} (first : first? text = some (.fixed kind, length)) :
    kind ≠ .endOfInput := by
  obtain ⟨shape, listed, -, -⟩ := reach_of_first? first
  rintro rfl
  simp [table] at listed

end Lexeme

theorem Spells.of_kind? {text : List Char} {kind : Kind} (found : Keyword.kind? text = some kind) :
    ∃ word, (word, kind) ∈ Keyword.table ∧ Spells word text := by
  obtain ⟨front, back, shape, -⟩ := List.lookup_eq_some_iff.mp found
  refine ⟨String.ofList (Keyword.upperCase text), by simp [shape], ?_⟩
  rw [Spells, String.toList_ofList]

theorem Keyword.ne_endOfInput {text : List Char} {kind : Kind}
    (found : kind? text = some kind) : kind ≠ .endOfInput := by
  obtain ⟨word, listed, -⟩ := Spells.of_kind? found
  rintro rfl
  simp [table] at listed

namespace Lexer

variable {lexer : Lexer} {sort : Lexeme.Class} {text : List Char} {length : Nat} {token : Token}

theorem token?_reads (made : lexer.token? sort text = some token) :
    token.text = text ∧ token.line = lexer.line := by
  have spelled : (String.ofList text).toList = text := String.toList_ofList
  cases sort with
  | gap => cases made
  | real =>
      cases made
      exact ⟨spelled, rfl⟩
  | integer =>
      cases made
      unfold integerToken
      cases Decimal.toInteger? text <;> exact ⟨spelled, rfl⟩
  | word =>
      cases made
      refine ⟨text_wordToken text lexer.line, ?_⟩
      unfold wordToken
      split <;> rfl
  | sign binary =>
      cases made
      exact ⟨spelled, rfl⟩
  | fixed kind =>
      cases made
      exact ⟨spelled, rfl⟩

theorem token?_ne_endOfInput (first : Lexeme.first? text = some (sort, length))
    {word : List Char} (made : lexer.token? sort word = some token) :
    token.kind ≠ .endOfInput := by
  cases sort with
  | gap => cases made
  | real =>
      cases made
      exact Kind.noConfusion
  | integer =>
      cases made
      unfold integerToken
      cases Decimal.toInteger? word <;> exact Kind.noConfusion
  | word =>
      cases made
      unfold wordToken
      split
      · exact Kind.noConfusion
      · rename_i found
        exact Keyword.ne_endOfInput found
      · exact Kind.noConfusion
  | sign binary =>
      cases made
      have additive := Lexeme.isAdditive_of_first? first
      show (if lexer.signIsUnary then Kind.unarySign else binary) ≠ _
      split
      · exact Kind.noConfusion
      · rintro rfl
        cases additive
  | fixed kind =>
      cases made
      exact Lexeme.ne_endOfInput_of_first? first

/-- The token made of the characters that stand right in front of the lexer,
and how many they are. -/
inductive Makes (lexer : Lexer) : Token → Nat → Prop where
  | ending : lexer.rest = [] → Makes lexer (Token.endOfInput lexer.line) 0
  | unknown {c : Char} {tail : List Char} :
      lexer.rest = c :: tail → Lexeme.first? lexer.rest = none →
      Makes lexer ⟨.unknown, String.singleton c, none, lexer.line⟩ 1
  | lexeme {sort : Lexeme.Class} {length : Nat} {token : Token} :
      Lexeme.first? lexer.rest = some (sort, length) →
      lexer.token? sort (lexer.rest.take length) = some token → Makes lexer token length

theorem Makes.reads (made : lexer.Makes token length) :
    token.text = lexer.rest.take length ∧ token.line = lexer.line := by
  cases made with
  | ending ended =>
      rw [ended]
      exact ⟨rfl, rfl⟩
  | @unknown c _ shape =>
      rw [shape]
      exact ⟨String.toList_singleton c, rfl⟩
  | lexeme _ made => exact token?_reads made

theorem Makes.ended_or_proper (made : lexer.Makes token length) :
    (lexer.rest = [] ∧ length = 0 ∧ token = Token.endOfInput lexer.line) ∨
      (token.kind ≠ .endOfInput ∧ token.text ≠ []) := by
  have text := made.reads.1
  cases made with
  | ending ended => exact .inl ⟨ended, rfl, rfl⟩
  | unknown shape =>
      refine .inr ⟨Kind.noConfusion, ?_⟩
      rw [text, shape]
      exact List.cons_ne_nil _ _
  | lexeme first made =>
      refine .inr ⟨token?_ne_endOfInput first made, ?_⟩
      rw [text]
      intro none
      have pos := Lexeme.first?_pos first
      have le := Lexeme.first?_le first
      have short := congrArg List.length none
      rw [List.length_take, List.length_nil] at short
      omega

/-- A scan passes over a gap and makes the token behind it. -/
theorem scan_makes (lexer : Lexer) :
    ∃ gap token length, Gap gap ∧ gap <+: lexer.rest ∧
      (lexer.advance gap.length).Makes token length ∧
      lexer.scan = (token, (lexer.advance gap.length).advance length) := by
  fun_induction scan lexer with
  | case1 lexer ended =>
      refine ⟨[], Token.endOfInput lexer.line, 0, .none, List.nil_prefix, ?_, ?_⟩
      · exact .ending ended
      · rw [List.length_nil, advance_zero, advance_zero]
  | case2 lexer c tail shape none =>
      refine ⟨[], _, 1, .none, List.nil_prefix, ?_, rfl⟩
      exact .unknown shape none
  | case3 lexer c tail shape sort length first isGap ih =>
      obtain ⟨gap, token, more, between, within, made, scanned⟩ := ih
      have le := Lexeme.first?_le first
      rcases eq_gap_of_token? isGap with rfl
      have size : (lexer.rest.take length ++ gap).length = length + gap.length := by
        rw [List.length_append, List.length_take, Nat.min_eq_left le]
      refine ⟨lexer.rest.take length ++ gap, token, more,
        (Lexeme.gap_of_first? first).append between, ?_, ?_, ?_⟩
      · obtain ⟨behind, whole⟩ := within
        refine ⟨behind, ?_⟩
        rw [List.append_assoc, whole]
        exact List.take_append_drop length lexer.rest
      · rw [size, ← advance_advance]
        exact made
      · rw [size, ← advance_advance]
        exact scanned
  | case4 lexer c tail shape sort length first token made =>
      refine ⟨[], token, length, .none, List.nil_prefix, ?_, rfl⟩
      exact .lexeme first made

theorem next_made (lexer : Lexer) : ∃ (maker : Lexer) (length : Nat),
    maker.Makes lexer.next.1 length := by
  obtain ⟨gap, token, length, -, -, made, scanned⟩ := lexer.scan_makes
  rw [next_eq, scanned]
  exact ⟨_, length, made⟩

/-- Every token of a text has been made somewhere in it, by a lexer that has whatever
is kept from one token to the next. -/
theorem made_of_mem_tokens_of {P : Lexer → Prop}
    (makes : ∀ lexer : Lexer, P lexer →
      ∃ (maker : Lexer) (length : Nat), P maker ∧ maker.Makes lexer.next.1 length)
    (keeps : ∀ lexer : Lexer, P lexer → P lexer.next.2) {lexer : Lexer} {token : Token}
    (here : P lexer) (present : token ∈ lexer.tokens) :
    ∃ (maker : Lexer) (length : Nat), P maker ∧ maker.Makes token length := by
  induction lexer using Lexer.tokens.induct with
  | case1 lexer ended =>
      rw [Lexer.tokens_last ended, List.mem_singleton] at present
      exact present ▸ makes lexer here
  | case2 lexer more ih =>
      rw [Lexer.tokens_cons more, List.mem_cons] at present
      rcases present with rfl | present
      · exact makes lexer here
      · exact ih (keeps lexer here) present

theorem made_of_mem_tokens {lexer : Lexer} {token : Token} (present : token ∈ lexer.tokens) :
    ∃ (maker : Lexer) (length : Nat), maker.Makes token length := by
  have makes : ∀ lexer : Lexer, True →
      ∃ (maker : Lexer) (length : Nat), True ∧ maker.Makes lexer.next.1 length := by
    simpa using next_made
  obtain ⟨maker, length, -, made⟩ :=
    made_of_mem_tokens_of makes (fun _ _ => trivial) trivial present
  exact ⟨maker, length, made⟩

/-- One call: the gap is the one in front of the token, and the lexer stands
behind the token afterwards. -/
structure HandsOut (lexer : Lexer) (gap : List Char) : Prop where
  between : Gap gap
  text : lexer.rest = gap ++ lexer.next.1.text ++ lexer.next.2.rest
  line : lexer.next.1.line = lexer.line + gap.count '\n'
  lineBehind : lexer.next.2.line = lexer.next.1.line + lexer.next.1.text.count '\n'
  ended : lexer.next.1.kind = .endOfInput →
    lexer.next.1 = Token.endOfInput lexer.next.1.line ∧ lexer.next.2.rest = []
  proper : lexer.next.1.kind ≠ .endOfInput → lexer.next.1.text ≠ []

theorem exists_handsOut (lexer : Lexer) : ∃ gap, lexer.HandsOut gap := by
  obtain ⟨gap, token, length, between, ⟨more, whole⟩, made, scanned⟩ := lexer.scan_makes
  have behind : (lexer.advance gap.length).rest = more := rest_advance whole.symm rfl
  obtain ⟨text, line⟩ := made.reads
  rw [behind] at text
  have next : lexer.next = (token, ⟨more.drop length,
      (lexer.advance gap.length).line + (more.take length).count '\n', some token.kind, false⟩) := by
    rw [next_eq, scanned, ← behind]
    rfl
  have lineGap : (lexer.advance gap.length).line = lexer.line + gap.count '\n' := by
    show lexer.line + (lexer.rest.take gap.length).count '\n' = _
    rw [← whole, List.take_left]
  refine ⟨gap, between, ?_, ?_, ?_, ?_, ?_⟩ <;> rw [next]
  · rw [text, List.append_assoc, List.take_append_drop, whole]
  · rw [line, lineGap]
  · rw [line, text]
  · intro ended
    rcases made.ended_or_proper with ⟨nothing, -, rfl⟩ | ⟨proper, -⟩
    · rw [behind] at nothing
      rw [nothing]
      exact ⟨rfl, List.drop_nil⟩
    · exact absurd ended proper
  · intro proper
    rcases made.ended_or_proper with ⟨-, -, rfl⟩ | ⟨-, text⟩
    · exact absurd rfl proper
    · exact text

theorem lines_next (lexer : Lexer) : lexer.next.2.line + lexer.next.2.rest.count '\n' =
    lexer.line + lexer.rest.count '\n' := by
  rcases lexer.exists_handsOut with ⟨gap, hands⟩
  conv_rhs => rw [hands.text]
  rw [hands.lineBehind, hands.line, List.count_append, List.count_append]
  omega

end Lexer

end PascalFrontEnd
