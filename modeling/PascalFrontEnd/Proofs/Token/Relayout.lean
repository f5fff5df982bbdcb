import PascalFrontEnd.Proofs.Token.Excerpt

/-!
Where an opening brace has been left open, no comment may follow: the end of the comment
would close the brace.
-/

namespace PascalFrontEnd

/-- An opening brace that is a token, for want of a brace that closes it. -/
def Token.IsOpenBrace (token : Token) : Prop :=
  token.kind = .unknown ∧ token.text = ['{']

/-- What may stand behind the tokens in front: blanks and closed comments, and
only blanks where one of the tokens is an open brace. -/
structure Fills (front : List Token) (gap : List Char) : Prop where
  between : Gap gap
  blank : (∃ token ∈ front, token.IsOpenBrace) → ∀ c ∈ gap, isBlank c = true

/-- The texts of the tokens one after another, a gap behind each. Between tokens
the gap is not empty. The tokens in front are those before them, last one first. -/
inductive Relays : List Token → List Token → List Char → Prop where
  | none {front : List Token} : Relays front [] []
  | token {front tokens : List Token} {token : Token} {gap text : List Char} :
      Fills (token :: front) gap → (tokens ≠ [] → gap ≠ []) →
      Relays (token :: front) tokens text →
      Relays front (token :: tokens) (token.text ++ gap ++ text)

def Relaid (source text : String) : Prop :=
  ∃ gap spaced, Fills [] gap ∧ Relays [] (tokenize source).dropLast spaced ∧
    text.toList = gap ++ spaced

theorem Fills.of_blanks {gap : List Char} (blanks : ∀ c ∈ gap, isBlank c = true)
    (front : List Token) : Fills front gap :=
  ⟨.of_blanks blanks, fun _ => blanks⟩

theorem exists_relays (front tokens : List Token) : ∃ text, Relays front tokens text := by
  induction tokens generalizing front with
  | nil => exact ⟨[], .none⟩
  | cons token tokens ih =>
      obtain ⟨text, relays⟩ := ih (token :: front)
      have fills : Fills (token :: front) [' '] := .of_blanks (by simp [isBlank]) _
      exact ⟨_, .token fills (fun _ => List.cons_ne_nil _ _) relays⟩

theorem exists_relaid (source : String) : ∃ text, Relaid source text := by
  obtain ⟨text, relays⟩ := exists_relays [] (tokenize source).dropLast
  refine ⟨String.ofList text, [], text, .of_blanks (List.forall_mem_nil _) _, relays, ?_⟩
  rw [String.toList_ofList, List.nil_append]

theorem Fills.closeless {front : List Token} {gap : List Char} (fills : Fills front gap)
    (opened : ∃ token ∈ front, token.IsOpenBrace) : '}' ∉ gap := by
  intro inside
  have blank := fills.blank opened _ inside
  revert blank
  decide

theorem Relays.closeless {front tokens : List Token} {text : List Char}
    (relays : Relays front tokens text) (opened : ∃ token ∈ front, token.IsOpenBrace)
    (free : ∀ token ∈ tokens, '}' ∉ token.text) : '}' ∉ text := by
  induction relays with
  | none => exact List.not_mem_nil
  | @token front tokens token gap text fills _ _ ih =>
      rw [List.forall_mem_cons] at free
      have further : ∃ token' ∈ token :: front, token'.IsOpenBrace := by
        obtain ⟨brace, present, isOpen⟩ := opened
        exact ⟨brace, List.mem_cons_of_mem _ present, isOpen⟩
      simp only [List.mem_append, not_or]
      exact ⟨⟨free.1, fills.closeless further⟩, ih further free.2⟩

namespace Lexeme

variable {c : Char} {tail rest : List Char}

theorem closeless_of_brace (none : first? ('{' :: tail) = none) : '}' ∉ tail := by
  rw [first?_brace] at none
  split at none
  · cases none
  · rename_i unclosed
    have whole : tail.takeWhile (· != '}') = tail :=
      (List.takeWhile_prefix _).eq_of_length_le (Nat.le_of_not_lt unclosed)
    intro inside
    rw [← whole] at inside
    have other := List.mem_takeWhile_imp inside
    simp at other

theorem brace_of_closeless (free : '}' ∉ tail) : first? ('{' :: tail) = none := by
  have whole : tail.takeWhile (· != '}') = tail := by
    rw [List.takeWhile_eq_self_iff]
    intro c inside
    rw [bne_iff_ne]
    rintro rfl
    exact free inside
  rw [first?_brace, run, whole, if_neg (Nat.lt_irrefl _)]

/-- A character that begins no lexeme begins none before a separator either; an
open brace has to be left open. -/
theorem first?_none_again (none : first? (c :: tail) = none) (ends : Separated rest)
    (unclosed : c = '{' → '}' ∉ rest) : first? (c :: rest) = .none := by
  by_cases separates : isSeparator c = true
  · rcases isSeparator_iff.mp separates with blank | rfl
    · rw [first?_blank blank] at none
      cases none
    · exact brace_of_closeless (unclosed rfl)
  · have front : first? ([c] ++ tail) = .none := none
    have alone := first?_eq_none_of_append front
    cases rest with
    | nil => exact alone
    | cons d rest =>
        have begins : isSeparator c = false := Bool.not_eq_true _ ▸ separates
        have same : first? (c :: [] ++ d :: rest) = first? [c] := first?_append begins (ends d rfl)
        rw [← alone, ← same]
        rfl

end Lexeme

namespace Lexer

variable {lexer other maker : Lexer} {token : Token} {length : Nat} {gap rest : List Char}

theorem text_within (lexer : Lexer) : ∀ token ∈ lexer.tokens, token.text <:+: lexer.rest := by
  induction lexer using Lexer.tokens.induct with
  | case1 lexer ended =>
      obtain ⟨gap, hands⟩ := lexer.exists_handsOut
      rw [Lexer.tokens_last ended, List.forall_mem_singleton]
      exact ⟨gap, lexer.next.2.rest, hands.text.symm⟩
  | case2 lexer more ih =>
      obtain ⟨gap, hands⟩ := lexer.exists_handsOut
      rw [Lexer.tokens_cons more, List.forall_mem_cons]
      refine ⟨⟨gap, lexer.next.2.rest, hands.text.symm⟩, fun token present => ?_⟩
      have behind : lexer.next.2.rest <:+ lexer.rest := ⟨_, hands.text.symm⟩
      exact (ih token present).trans behind.isInfix

theorem Makes.again (made : maker.Makes token length) (proper : token.kind ≠ .endOfInput)
    (here : lexer.rest = token.text ++ rest) (ends : Separated rest)
    (sign : maker.signIsUnary = lexer.signIsUnary) (unclosed : token.IsOpenBrace → '}' ∉ rest) :
    ∃ token', lexer.scan = (token', lexer.advance token.text.length) ∧
      SameButLine token token' := by
  have text := made.reads.1
  cases made with
  | ending => exact absurd rfl proper
  | @unknown c tail shape none =>
      have alone : Token.text ⟨.unknown, String.singleton c, .none, maker.line⟩ = [c] :=
        String.toList_singleton c
      have shape' : lexer.rest = c :: rest := by
        rw [here, alone]
        rfl
      have none' : Lexeme.first? lexer.rest = .none := by
        rw [shape] at none
        rw [shape']
        refine Lexeme.first?_none_again none ends ?_
        rintro rfl
        exact unclosed ⟨rfl, alone⟩
      refine ⟨⟨.unknown, String.singleton c, .none, lexer.line⟩, ?_, rfl⟩
      rw [scan_unknown shape' none', alone]
      rfl
  | @lexeme sort length token first made =>
      have size : token.text.length = length := by
        rw [text, List.length_take_of_le (Lexeme.first?_le first)]
      have whole := Lexeme.first?_take first
      rw [← text] at made whole
      rw [← size] at whole
      exact scan_again whole made here ends fun _ _ => sign

theorem closeless_behind (isOpen : lexer.next.1.IsOpenBrace) : '}' ∉ lexer.next.2.rest := by
  obtain ⟨gap, token, length, -, -, made, scanned⟩ := lexer.scan_makes
  rw [next_eq, scanned] at isOpen ⊢
  have text := made.reads.1
  cases made with
  | ending => cases isOpen.1
  | @unknown c tail shape none =>
      have brace : [c] = ['{'] := (String.toList_singleton c).symm.trans isOpen.2
      cases brace
      rw [shape] at none
      show '}' ∉ (lexer.advance gap.length).rest.drop 1
      rw [shape]
      exact Lexeme.closeless_of_brace none
  | lexeme first made =>
      -- A brace by itself is no lexeme.
      have alone := Lexeme.first?_take first
      rw [← text, isOpen.2] at alone
      cases alone

/-- Behind another gap the same token is handed out, up to its line, and signs
are read alike from there on. -/
theorem next_relaid (proper : lexer.next.1.kind ≠ .endOfInput) (leads : Gap gap)
    (here : other.rest = gap ++ (lexer.next.1.text ++ rest)) (ends : Separated rest)
    (sign : lexer.signIsUnary = other.signIsUnary)
    (unclosed : lexer.next.1.IsOpenBrace → '}' ∉ rest) :
    SameButLine lexer.next.1 other.next.1 ∧ other.next.2.rest = rest ∧
      lexer.next.2.signIsUnary = other.next.2.signIsUnary := by
  obtain ⟨gap', token, length, -, -, made, scanned⟩ := lexer.scan_makes
  have first : lexer.next.1 = token := by rw [next_eq, scanned]
  rw [first] at proper here unclosed
  have behind : (other.advance gap.length).rest = token.text ++ rest := rest_advance here rfl
  obtain ⟨token', scanned', same⟩ := made.again proper behind ends sign unclosed
  rw [← leads.scan here] at scanned'
  rw [next_eq lexer, next_eq other, scanned, scanned']
  refine ⟨same, rest_advance behind rfl, ?_⟩
  unfold signIsUnary
  rw [Likeness.kind_eq same]

theorem tokens_ne_nil (lexer : Lexer) : lexer.tokens ≠ [] := by
  obtain ⟨front, last, shape, -⟩ := lexer.tokens_split
  rw [shape]
  exact List.append_ne_nil_of_right_ne_nil front (List.cons_ne_nil last [])

end Lexer

/-- The tokens of one layout are the tokens of any other, up to their lines. -/
theorem Relays.tokens {front : List Token} {gap text : List Char} {lexer other : Lexer}
    (relays : Relays front lexer.tokens.dropLast text) (leads : Gap gap)
    (here : other.rest = gap ++ text) (sign : lexer.signIsUnary = other.signIsUnary) :
    List.Forall₂ SameButLine lexer.tokens other.tokens := by
  induction lexer using Lexer.tokens.induct generalizing front gap text other with
  | case1 lexer ended =>
      obtain ⟨_, hands⟩ := lexer.exists_handsOut
      have only := Lexer.tokens_last ended
      rw [only] at relays ⊢
      cases relays
      rw [List.append_nil] at here
      obtain ⟨line, only'⟩ := Gap.tokens (here ▸ leads)
      rw [only', (hands.ended ended).1]
      exact .cons rfl .nil
  | case2 lexer more ih =>
      have split := Lexer.tokens_cons more
      rw [split, List.dropLast_cons_of_ne_nil (Lexer.tokens_ne_nil _)] at relays
      cases relays with
      | @token _ _ _ gap' text' fills proper relays =>
          rw [List.append_assoc] at here
          -- Behind the last token there may be no gap, but then there is no text either.
          have ends : Separated (gap' ++ text') := by
            refine fills.between.separated fun more => proper fun none => ?_
            rw [none] at relays
            cases relays
            exact more rfl
          have unclosed : lexer.next.1.IsOpenBrace → '}' ∉ gap' ++ text' := by
            intro isOpen
            have opened : ∃ token ∈ lexer.next.1 :: front, token.IsOpenBrace :=
              ⟨_, List.mem_cons_self, isOpen⟩
            rw [List.mem_append, not_or]
            refine ⟨fills.closeless opened, relays.closeless opened ?_⟩
            intro token present inside
            have within := lexer.next.2.text_within token (List.dropLast_subset _ present)
            exact Lexer.closeless_behind isOpen (within.subset inside)
          obtain ⟨same, behind, sign'⟩ := Lexer.next_relaid more leads here ends sign unclosed
          have more' : other.next.1.kind ≠ .endOfInput := by
            rw [← Likeness.kind_eq same]
            exact more
          rw [split, Lexer.tokens_cons more']
          exact .cons same (ih relays fills.between behind sign')

theorem Relaid.tokenize {source text : String} (relaid : Relaid source text) :
    List.Forall₂ SameButLine (tokenize source) (tokenize text) := by
  obtain ⟨gap, spaced, leads, relays, shape⟩ := relaid
  have tokens : Relays [] (Lexer.ofSource source).tokens.dropLast spaced := relays
  exact tokens.tokens leads.between shape rfl

end PascalFrontEnd
