import PascalFrontEnd.Proofs.Token.Matching

/-! Where a shape of the table takes anything, the shapes behind it take less. -/

namespace PascalFrontEnd

namespace Lexeme

/-- The sorts of characters that lexemes begin with. A mark is a sort by itself. -/
inductive Lead where
  | blank
  | digit
  | letter
  | mark (c : Char)
  deriving DecidableEq, Repr

def Lead.of (c : Char) : Lead :=
  if isBlank c then blank
  else if c.isDigit then digit
  else if isWordStart c then letter
  else mark c

def Shape.lead : Shape → Option Lead
  | blanks => some .blank
  | comment => some (.of '{')
  | real | integer => some .digit
  | word => some .letter
  | symbol mark => mark.head?.map .of

variable {text : List Char} {shape : Shape} {sort : Class} {length : Nat}

theorem lead_of_blank {c : Char} (blank : isBlank c = true) : Lead.of c = .blank :=
  if_pos blank

theorem lead_of_digit {c : Char} (digit : c.isDigit = true) : Lead.of c = .digit := by
  have noBlank : isBlank c = false := by
    rw [← Bool.not_eq_true]
    intro blank
    rw [not_isDigit_of_isSeparator (isSeparator_iff.mpr (.inl blank))] at digit
    cases digit
  simp [Lead.of, noBlank, digit]

theorem lead_of_letter {c : Char} (starts : isWordStart c = true) : Lead.of c = .letter := by
  have noBlank : isBlank c = false := by
    rw [← Bool.not_eq_true]
    intro blank
    have noPart := not_isWordPart_of_isSeparator (isSeparator_iff.mpr (.inl blank))
    rw [isWordPart_of_isWordStart starts] at noPart
    cases noPart
  simp [Lead.of, noBlank, not_isDigit_of_isWordStart starts, starts]

theorem head_of_run {property : Char → Bool} (takes : run property text ≠ 0) :
    ∃ c, text.head? = some c ∧ property c = true := by
  cases text with
  | nil => exact absurd rfl takes
  | cons c text =>
      by_cases has : property c = true
      · exact ⟨c, rfl, has⟩
      · exact absurd (by simp [run, has]) takes

theorem lead_of_reach (takes : shape.reach text ≠ 0) :
    shape.lead = text.head?.map Lead.of := by
  cases shape with
  | blanks =>
      rcases head_of_run takes with ⟨c, head, blank⟩
      rw [head, Option.map_some, lead_of_blank blank]
      rfl
  | comment =>
      rcases closed_of_reach_comment takes with ⟨inner, rfl, -⟩
      rfl
  | real =>
      rcases parts_of_reach_real takes with ⟨whole, fraction, rfl, digits⟩
      rw [reach_real_eq digits] at takes
      have proper : run Char.isDigit whole ≠ 0 := by
        intro none
        rw [none] at digits
        exact takes (if_pos (.inl digits.symm))
      rcases head_of_run proper with ⟨c, head, digit⟩
      rw [List.head?_append, head, Option.some_or, Option.map_some, lead_of_digit digit]
      rfl
  | integer =>
      rcases head_of_run takes with ⟨c, head, digit⟩
      rw [head, Option.map_some, lead_of_digit digit]
      rfl
  | word =>
      cases text with
      | nil => exact absurd rfl takes
      | cons c text =>
          by_cases starts : isWordStart c = true
          · simp [Shape.lead, lead_of_letter starts]
          · exact absurd (by simp [Shape.reach, starts]) takes
  | symbol mark =>
      have taken := take_reach_symbol rfl (Nat.pos_of_ne_zero takes)
      have begins : mark <+: text := by
        rw [← taken]
        exact List.take_prefix _ _
      rcases begins with ⟨behind, rfl⟩
      cases mark with
      | nil => exact absurd rfl takes
      | cons c mark => rfl

/-- Where the shape takes anything, the other one takes less. -/
def Shape.Outreaches (shape other : Shape) : Prop :=
  ∀ text, shape.reach text ≠ 0 → other.reach text < shape.reach text

theorem outreaches_of_lead {other : Shape} (apart : shape.lead ≠ other.lead) :
    shape.Outreaches other := by
  intro text takes
  have nothing : other.reach text = 0 := by
    by_contra takesToo
    exact apart ((lead_of_reach takes).trans (lead_of_reach takesToo).symm)
  rw [nothing]
  exact Nat.pos_of_ne_zero takes

/-- The digits in front of the point are only a part of a real number. -/
theorem real_outreaches_integer : Shape.real.Outreaches .integer := by
  intro text takes
  rcases parts_of_reach_real takes with ⟨whole, fraction, rfl, digits⟩
  rw [reach_real_eq digits] at takes ⊢
  split at takes
  · exact absurd rfl takes
  · rename_i parts
    rw [if_neg parts, Shape.reach, run_append (by rfl), digits]
    omega

theorem becomes_outreaches_colon : (Shape.symbol [':', '=']).Outreaches (.symbol [':']) := by
  intro text takes
  rw [Shape.reach] at takes
  split at takes
  · rename_i begins
    rw [Shape.reach, Shape.reach, if_pos begins]
    split <;> decide
  · exact absurd rfl takes

theorem table_ordered : table.Pairwise fun entry later => entry.1.Outreaches later.1 := by
  -- Only two pairs of shapes begin alike.
  have apart : table.Pairwise fun entry later => entry.1.lead ≠ later.1.lead ∨
      (entry.1 = .real ∧ later.1 = .integer) ∨
      (entry.1 = .symbol [':', '='] ∧ later.1 = .symbol [':']) := by
    decide
  apply apart.imp
  intro entry later cases
  rcases cases with lead | ⟨first, second⟩ | ⟨first, second⟩
  · exact outreaches_of_lead lead
  · rw [first, second]
    exact real_outreaches_integer
  · rw [first, second]
    exact becomes_outreaches_colon

/-- No shape of the list matches a front of the text, but for the empty one. -/
def Unmatched (entries : List (Shape × Class)) (text : List Char) : Prop :=
  ∀ entry ∈ entries, ∀ front, front <+: text → front ≠ [] → ¬ entry.1.Matches front

/-- The longest front of the text that any shape of the list matches, by its
length, with a shape that matches it. -/
structure Longest (entries : List (Shape × Class)) (text : List Char) (entry : Shape × Class)
    (length : Nat) : Prop where
  listed : entry ∈ entries
  proper : 0 < length
  within : length ≤ text.length
  matched : entry.1.Matches (text.take length)
  longest : ∀ other ∈ entries, ∀ front, front <+: text → other.1.Matches front →
    front.length ≤ length

theorem unmatched_iff {entries : List (Shape × Class)} :
    Unmatched entries text ↔ ∀ entry ∈ entries, entry.1.reach text = 0 := by
  constructor
  · intro unmatched entry listed
    by_contra takes
    apply unmatched entry listed _ (List.take_prefix _ _) _ (Shape.matches_take takes)
    rw [← List.length_pos_iff, List.length_take_of_le (entry.1.reach_le text)]
    exact Nat.pos_of_ne_zero takes
  · intro nothing entry listed front begins proper matched
    have short := Shape.length_le_reach begins matched
    rw [nothing entry listed] at short
    exact proper (List.length_eq_zero_iff.mp (Nat.le_zero.mp short))

theorem first?_eq_none_iff : first? text = none ↔ Unmatched table text := by
  simp [first?, unmatched_iff]

theorem longest_of_first? (first : first? text = some (sort, length)) :
    ∃ before shape after, table = before ++ (shape, sort) :: after ∧ Unmatched before text ∧
      Longest table text (shape, sort) length := by
  rcases List.findSome?_eq_some_iff.mp first with ⟨before, ⟨shape, sort'⟩, after, split, found, none⟩
  simp only [ite_eq_left_iff, Option.ite_none_left_eq_some, Option.some.injEq, Prod.mk.injEq,
    reduceCtorEq, imp_false, not_not] at found none
  rcases found with ⟨takes, rfl, rfl⟩
  have ordered := table_ordered
  rw [split, List.pairwise_append, List.pairwise_cons] at ordered
  have longest : ∀ other ∈ table, other.1.reach text ≤ shape.reach text := by
    intro other listed
    rw [split, List.mem_append, List.mem_cons] at listed
    rcases listed with listed | rfl | listed
    · rw [none other listed]
      exact Nat.zero_le _
    · exact Nat.le_refl _
    · exact Nat.le_of_lt (ordered.2.1.1 other listed text takes)
  refine ⟨before, shape, after, split, unmatched_iff.mpr none, ?_⟩
  constructor
  · rw [split]
    simp
  · exact Nat.pos_of_ne_zero takes
  · exact shape.reach_le text
  · exact Shape.matches_take takes
  · intro other listed front begins matched
    exact (Shape.length_le_reach begins matched).trans (longest other listed)

theorem outreaches_of_ne {entry other : Shape × Class} (listed : entry ∈ table)
    (listed' : other ∈ table) (distinct : other ≠ entry) :
    entry.1.Outreaches other.1 ∨ other.1.Outreaches entry.1 := by
  rcases List.mem_iff_append.mp listed with ⟨before, after, split⟩
  have ordered := table_ordered
  rw [split, List.pairwise_append, List.pairwise_cons] at ordered
  rw [split, List.mem_append, List.mem_cons] at listed'
  rcases listed' with earlier | same | later
  · exact .inr (ordered.2.2 other earlier entry List.mem_cons_self)
  · exact absurd same distinct
  · exact .inl (ordered.2.1.1 other later)

/-- No text is matched by two shapes of the table. -/
theorem matches_unique {entry other : Shape × Class} (proper : text ≠ []) (listed : entry ∈ table)
    (listed' : other ∈ table) (matched : entry.1.Matches text) (matched' : other.1.Matches text) :
    other = entry := by
  by_contra distinct
  rw [Shape.matches_iff proper] at matched matched'
  have takes : text.length ≠ 0 := by
    simpa using proper
  rcases outreaches_of_ne listed listed' distinct with less | less
  · have short := less text (matched ▸ takes)
    omega
  · have short := less text (matched' ▸ takes)
    omega

theorem Longest.take_ne_nil {entries : List (Shape × Class)} {entry : Shape × Class}
    (found : Longest entries text entry length) : text.take length ≠ [] := by
  rw [← List.length_pos_iff, List.length_take_of_le found.within]
  exact found.proper

theorem Longest.unique {entry other : Shape × Class} {length' : Nat}
    (found : Longest table text entry length) (found' : Longest table text other length') :
    other = entry ∧ length = length' := by
  have sizes : length = length' := by
    have short := found.longest _ found'.listed _ (List.take_prefix _ _) found'.matched
    have short' := found'.longest _ found.listed _ (List.take_prefix _ _) found.matched
    rw [List.length_take_of_le found'.within] at short
    rw [List.length_take_of_le found.within] at short'
    exact Nat.le_antisymm short' short
  subst sizes
  constructor
  · exact matches_unique found.take_ne_nil found.listed found'.listed found.matched found'.matched
  · rfl

/-- The first shape that matches finds the longest match. -/
theorem Longest.first? (found : Longest table text (shape, sort) length) :
    Lexeme.first? text = some (sort, length) := by
  cases first : Lexeme.first? text with
  | none =>
      have unmatched := first?_eq_none_iff.mp first _ found.listed
      exact absurd found.matched (unmatched _ (List.take_prefix _ _) found.take_ne_nil)
  | some entry =>
      rcases longest_of_first? first with ⟨_, shape', _, _, _, found'⟩
      rcases found.unique found' with ⟨same, sizes⟩
      rw [sizes, ← (Prod.mk.inj same).2]

theorem Longest.of_perm {entries others : List (Shape × Class)} {entry : Shape × Class}
    (reordered : entries.Perm others) (found : Longest entries text entry length) :
    Longest others text entry length := by
  constructor
  · exact reordered.mem_iff.mp found.listed
  · exact found.proper
  · exact found.within
  · exact found.matched
  · intro other listed
    exact found.longest other (reordered.mem_iff.mpr listed)

theorem Unmatched.of_perm {entries others : List (Shape × Class)}
    (reordered : entries.Perm others) (unmatched : Unmatched entries text) :
    Unmatched others text := by
  intro entry listed
  exact unmatched entry (reordered.mem_iff.mpr listed)

end Lexeme

namespace Lexer

def behind (lexer : Lexer) (kind : Kind) : Lexer :=
  { lexer with previous := some kind, bracketed := false }

/-- The tokens of a lexer that takes the longest match of the shapes in the list,
whichever of them it belongs to, and a single character as unknown where none of
them matches. -/
inductive Munches (entries : List (Lexeme.Shape × Lexeme.Class)) : Lexer → List Token → Prop where
  | ending {lexer : Lexer} :
      lexer.rest = [] → Munches entries lexer [Token.endOfInput lexer.line]
  | unknown {lexer : Lexer} {c : Char} {tail : List Char} {tokens : List Token} :
      lexer.rest = c :: tail → Lexeme.Unmatched entries lexer.rest →
      Munches entries ((lexer.advance 1).behind .unknown) tokens →
      Munches entries lexer (⟨.unknown, String.singleton c, none, lexer.line⟩ :: tokens)
  | gap {lexer : Lexer} {shape : Lexeme.Shape} {length : Nat} {tokens : List Token} :
      Lexeme.Longest entries lexer.rest (shape, .gap) length →
      Munches entries (lexer.advance length) tokens → Munches entries lexer tokens
  | token {lexer : Lexer} {shape : Lexeme.Shape} {sort : Lexeme.Class} {length : Nat}
      {token : Token} {tokens : List Token} :
      Lexeme.Longest entries lexer.rest (shape, sort) length →
      lexer.token? sort (lexer.rest.take length) = some token →
      Munches entries ((lexer.advance length).behind token.kind) tokens →
      Munches entries lexer (token :: tokens)

variable {entries others : List (Lexeme.Shape × Lexeme.Class)} {lexer other : Lexer}
  {token : Token} {tokens : List Token}

theorem Munches.of_perm (reordered : entries.Perm others) (munches : lexer.Munches entries tokens) :
    lexer.Munches others tokens := by
  induction munches with
  | ending ended => exact .ending ended
  | unknown shape unmatched _ ih => exact .unknown shape (unmatched.of_perm reordered) ih
  | gap found _ ih => exact .gap (found.of_perm reordered) ih
  | token found made _ ih => exact .token (found.of_perm reordered) made ih

theorem tokens_of_scan (scanned : lexer.scan = (token, other)) (more : token.kind ≠ .endOfInput) :
    lexer.tokens = token :: (other.behind token.kind).tokens := by
  have next : lexer.next = (token, other.behind token.kind) := by
    rw [next_eq, scanned]
    rfl
  rw [Lexer.tokens, next, dif_neg more]

theorem tokens_of_ended (ended : lexer.rest = []) :
    lexer.tokens = [Token.endOfInput lexer.line] := by
  have next : lexer.next.1 = Token.endOfInput lexer.line := by
    rw [next_eq, scan_nil ended]
  have last : lexer.next.1.kind = .endOfInput := congrArg Token.kind next
  rw [Lexer.tokens_last last, next]

/-- Whatever a lexer makes that goes by length, it makes of the first matches. -/
theorem Munches.eq_tokens (munches : lexer.Munches Lexeme.table tokens) :
    tokens = lexer.tokens := by
  induction munches with
  | ending ended => rw [tokens_of_ended ended]
  | unknown shape unmatched _ ih =>
      have none := Lexeme.first?_eq_none_iff.mpr unmatched
      rw [tokens_of_scan (scan_unknown shape none) Kind.noConfusion, ih]
  | gap found _ ih => rw [ih, tokens_of_scan_eq (scan_gap found.first?)]
  | token found made _ ih =>
      have more := token?_ne_endOfInput found.first? made
      rw [tokens_of_scan (scan_token found.first? made) more, ih]

theorem munches_tokens (lexer : Lexer) : lexer.Munches Lexeme.table lexer.tokens := by
  induction size : lexer.rest.length using Nat.strongRecOn generalizing lexer with
  | _ total ih =>
      cases shape : lexer.rest with
      | nil =>
          rw [tokens_of_ended shape]
          exact .ending shape
      | cons c tail =>
          have long : 0 < lexer.rest.length := by simp [shape]
          cases first : Lexeme.first? lexer.rest with
          | none =>
              rw [tokens_of_scan (scan_unknown shape first) Kind.noConfusion]
              apply Munches.unknown shape (Lexeme.first?_eq_none_iff.mp first)
              apply ih _ _ _ rfl
              show (lexer.advance 1).rest.length < total
              rw [length_advance]
              omega
          | some entry =>
              rcases entry with ⟨sort, length⟩
              have pos := Lexeme.first?_pos first
              have shorter : (lexer.advance length).rest.length < total := by
                rw [length_advance]
                omega
              rcases Lexeme.longest_of_first? first with ⟨_, _, _, _, _, found⟩
              cases made : lexer.token? sort (lexer.rest.take length) with
              | none =>
                  rcases eq_gap_of_token? made with rfl
                  rw [tokens_of_scan_eq (scan_gap first)]
                  exact .gap found (ih _ shorter _ rfl)
              | some token =>
                  have more := token?_ne_endOfInput first made
                  rw [tokens_of_scan (scan_token first made) more]
                  exact .token found made (ih _ shorter _ rfl)

end Lexer

/-- The first shape that matches a text takes the longest front of it that any of
the shapes matches, and where none takes anything none matches. So the tokens of a
source are those, and only those, that a lexer makes which takes the longest match
of the same shapes in any order. -/
theorem tokenize_munches (source : String) :
    (∀ text sort length, Lexeme.first? text = some (sort, length) →
      ∃ before shape after, Lexeme.table = before ++ (shape, sort) :: after ∧
        Lexeme.Unmatched before text ∧
        Lexeme.Longest Lexeme.table text (shape, sort) length) ∧
    (∀ text, Lexeme.first? text = none ↔ Lexeme.Unmatched Lexeme.table text) ∧
    ∀ entries, entries.Perm Lexeme.table → ∀ tokens,
      (Lexer.ofSource source).Munches entries tokens ↔ tokens = tokenize source := by
  refine ⟨fun _ _ _ => Lexeme.longest_of_first?, fun _ => Lexeme.first?_eq_none_iff, ?_⟩
  intro entries reordered tokens
  constructor
  · intro munches
    exact (munches.of_perm reordered).eq_tokens
  · intro same
    rw [same]
    exact (Lexer.ofSource source).munches_tokens.of_perm reordered.symm

/-- A real number is longer than its digits, and with the shapes in reverse order a
colon in front of an equals sign still is no mark by itself. -/
theorem tokenize_reversed_munches :
    Lexeme.first? ['2', '.', '5', '.'] = some (.real, 3) ∧
    (∃ before shape after, Lexeme.table = before ++ (shape, .real) :: after ∧
      Lexeme.Unmatched before ['2', '.', '5', '.'] ∧
      Lexeme.Longest Lexeme.table ['2', '.', '5', '.'] (shape, .real) 3) ∧
    Lexeme.table.reverse.Perm Lexeme.table ∧
    (Lexer.ofSource "x:=2.").Munches Lexeme.table.reverse
      [⟨.identifier, "x", some (.name "x"), 1⟩, ⟨.becomes, ":=", none, 1⟩,
        ⟨.integerLiteral, "2", some (.integer 2), 1⟩, ⟨.period, ".", none, 1⟩,
        ⟨.endOfInput, "", none, 1⟩] := by
  have first : Lexeme.first? ['2', '.', '5', '.'] = some (.real, 3) := by decide
  have reversed : Lexeme.table.reverse.Perm Lexeme.table := List.reverse_perm _
  have tokens : tokenize "x:=2." =
      [⟨.identifier, "x", some (.name "x"), 1⟩, ⟨.becomes, ":=", none, 1⟩,
        ⟨.integerLiteral, "2", some (.integer 2), 1⟩, ⟨.period, ".", none, 1⟩,
        ⟨.endOfInput, "", none, 1⟩] := by
    with_unfolding_all rfl
  rcases tokenize_munches "x:=2." with ⟨longest, -, munches⟩
  exact ⟨first, longest _ _ _ first, reversed, (munches _ reversed _).mpr tokens.symm⟩

end PascalFrontEnd
