import PascalFrontEnd.Proofs.Token.Reals

namespace PascalFrontEnd

structure Token.DenotesReal (token : Token) (whole fraction : List Char) : Prop where
  kind : token.kind = .realLiteral
  raw : token.raw = String.ofList (whole ++ '.' :: fraction)
  value : ∃ number, token.value = some (.real number) ∧
    number.Rounds (Decimal.quotient whole fraction)

namespace Token.DenotesReal

variable {token other : Token} {whole fraction whole' fraction' : List Char}
  {number number' : Binary64}

theorem number_eq (denotes : token.DenotesReal whole fraction)
    (carried : token.value = some (.real number)) :
    number = Decimal.toBinary64 whole fraction := by
  obtain ⟨nearest, value, rounds⟩ := denotes.value
  rw [carried, Option.some.injEq, Value.real.injEq] at value
  subst value
  exact rounds.unique (Decimal.rounds_toBinary64 whole fraction)

end Token.DenotesReal

namespace Lexer

variable {source : String} {position : Nat} {lexer : Lexer} {whole fraction behind : List Char}

theorem Resumes.realLiteral (resumes : Resumes source position lexer)
    (here : lexer.rest = whole ++ '.' :: fraction ++ behind)
    (isReal : Lexeme.IsReal whole fraction behind) :
    lexer.next.1.DenotesReal whole fraction ∧ lexer.next.2.rest = behind ∧
      ∃ (front : List Token) (after : Lexer),
        tokenize source = front ++ lexer.next.1 :: after.tokens ∧ after.rest = behind := by
  have scans : ∀ other : Lexer, other.rest = lexer.rest → other.line = lexer.line →
      other.scan = (⟨.realLiteral, String.ofList (whole ++ '.' :: fraction),
        some (.real (Decimal.toBinary64 whole fraction)), lexer.line⟩,
        other.advance (whole ++ '.' :: fraction).length) := by
    intro other rest line
    rw [scan_real (rest.trans here) isReal, line]
  obtain ⟨next, rest, among⟩ := resumes.handed scans Kind.noConfusion
  rw [here, List.drop_left] at rest among
  rw [next]
  exact ⟨⟨rfl, rfl, _, rfl, Decimal.rounds_toBinary64 whole fraction⟩, rest, among⟩

theorem real_of_mem {token : Token} {number : Binary64} (present : token ∈ tokenize source)
    (carried : token.value = some (.real number)) :
    ∃ place maker whole fraction behind, Resumes source place maker ∧
      maker.rest = whole ++ '.' :: fraction ++ behind ∧ Lexeme.IsReal whole fraction behind ∧
      maker.next.1 = token := by
  obtain ⟨place, maker, length, resumes, made⟩ := Resumes.start.made_of_mem present
  obtain ⟨first, shape⟩ := made.real carried
  obtain ⟨whole, fraction, parts, isReal⟩ := Lexeme.real_of_first? first
  have here : maker.rest = whole ++ '.' :: fraction ++ maker.rest.drop length := by
    rw [← parts, List.take_append_drop]
  refine ⟨place, maker, whole, fraction, _, resumes, here, isReal, ?_⟩
  rw [shape, parts, realToken_eq isReal.whole.2, next_eq, scan_real here isReal]

end Lexer

/-- In every source digits, a point and digits become one token, a real literal with the
number nearest to their value, and the tokens with reals are these. There is one number
for every value. A greater value does not have a smaller number, and zeros in front of
the digits or behind them do not change it. -/
theorem tokenize_reals (source : String) :
    (∀ {position lexer whole fraction behind}, Lexer.Resumes source position lexer →
      lexer.rest = whole ++ '.' :: fraction ++ behind → Lexeme.IsReal whole fraction behind →
      lexer.next.1.DenotesReal whole fraction ∧ lexer.next.2.rest = behind ∧
        ∃ (front : List Token) (after : Lexer),
          tokenize source = front ++ lexer.next.1 :: after.tokens ∧ after.rest = behind) ∧
    (∀ token ∈ tokenize source,
      token.kind = .realLiteral ∨ (∃ number, token.value = some (.real number)) →
      ∃ position lexer whole fraction behind, Lexer.Resumes source position lexer ∧
        lexer.rest = whole ++ '.' :: fraction ++ behind ∧
        Lexeme.IsReal whole fraction behind ∧ lexer.next.1 = token) ∧
    (∀ (token : Token) (whole fraction : List Char) (number other : Binary64),
      token.DenotesReal whole fraction → token.value = some (.real number) →
      (other.Rounds (Decimal.quotient whole fraction) ↔ other = number)) ∧
    (∀ (token token' : Token) (whole fraction whole' fraction' : List Char)
      (number number' : Binary64),
      token.DenotesReal whole fraction → token.value = some (.real number) →
      token'.DenotesReal whole' fraction' → token'.value = some (.real number') →
      Decimal.quotient whole fraction ≤ Decimal.quotient whole' fraction' →
      number.bits ≤ number'.bits ∧
        (number'.IsFinite → number.IsFinite ∧ number.toRat ≤ number'.toRat)) ∧
    ∀ (token token' : Token) (whole fraction : List Char) (leading trailing : Nat),
      token.DenotesReal whole fraction →
      token'.DenotesReal (List.replicate leading '0' ++ whole)
        (fraction ++ List.replicate trailing '0') →
      token'.value = token.value := by
  refine ⟨?_, ?_, ?_, ?_, ?_⟩
  · intro position lexer whole fraction behind resumes here isReal
    exact resumes.realLiteral here isReal
  · intro token present real
    obtain ⟨number, carried⟩ : ∃ number, token.value = some (.real number) := by
      rcases real with kind | carried
      · rcases (Lexer.genuine_of_mem_tokens present).isNumber (.inr kind) with
          ⟨integer, -⟩ | ⟨-, carried⟩
        · cases integer.symm.trans kind
        · exact carried
      · exact carried
    exact Lexer.real_of_mem present carried
  · intro token whole fraction number other denotes carried
    have rounds := Decimal.rounds_toBinary64 whole fraction
    rw [denotes.number_eq carried]
    constructor
    · intro rounds'
      exact rounds'.unique rounds
    · rintro rfl
      exact rounds
  · intro token token' whole fraction whole' fraction' number number' denotes carried denotes'
      carried' le
    rw [denotes.number_eq carried, denotes'.number_eq carried']
    have ordered := Decimal.toBinary64_mono le
    refine ⟨ordered, ?_⟩
    intro finite
    exact Binary64.toRat_le_of_bits_le (Decimal.rounds_toBinary64 whole fraction).positive
      (Decimal.rounds_toBinary64 whole' fraction').positive finite ordered
  · intro token token' whole fraction leading trailing denotes denotes'
    obtain ⟨number, value, -⟩ := denotes.value
    obtain ⟨number', value', -⟩ := denotes'.value
    rw [value, value', denotes.number_eq value, denotes'.number_eq value',
      Decimal.toBinary64_zeros]

def tenths (raw : String) : Token :=
  ⟨.realLiteral, raw, some (.real ⟨0x3fd3333333333333⟩), 1⟩

def half : Token :=
  ⟨.realLiteral, "0.5", some (.real ⟨0x3fe0000000000000⟩), 1⟩

/-- The zeros at both ends do not matter to the number, which is below a half. -/
theorem tokenize_tenths :
    ((tenths "00.30").DenotesReal ['0', '0'] ['3', '0'] ∧
      ∃ (front : List Token) (after : Lexer),
        tokenize "00.30;" = front ++ tenths "00.30" :: after.tokens ∧ after.rest = [';']) ∧
    (∃ position lexer whole fraction behind, Lexer.Resumes "00.30;" position lexer ∧
      lexer.rest = whole ++ '.' :: fraction ++ behind ∧ lexer.next.1 = tenths "00.30") ∧
    (∀ other : Binary64, other.Rounds (3 / 10) ↔ other = ⟨0x3fd3333333333333⟩) ∧
    (⟨0x3fd3333333333333⟩ : Binary64).toRat ≤ (⟨0x3fe0000000000000⟩ : Binary64).toRat ∧
    (tenths "00.30").value = (tenths "0.3").value := by
  obtain ⟨become, only, nearest, ordered, zeros⟩ := tokenize_reals "00.30;"
  obtain ⟨become', -⟩ := tokenize_reals "0.3"
  obtain ⟨become'', -⟩ := tokenize_reals "0.5"
  have next : (Lexer.ofSource "00.30;").next.1 = tenths "00.30" := by decide +kernel
  have next' : (Lexer.ofSource "0.3").next.1 = tenths "0.3" := by decide +kernel
  have next'' : (Lexer.ofSource "0.5").next.1 = half := by decide +kernel
  have isReal : Lexeme.IsReal ['0', '0'] ['3', '0'] [';'] :=
    ⟨⟨nofun, by simp⟩, ⟨nofun, by simp⟩, by simp⟩
  have isReal' : Lexeme.IsReal ['0'] ['3'] [] :=
    ⟨⟨nofun, by simp⟩, ⟨nofun, by simp⟩, by simp⟩
  have isReal'' : Lexeme.IsReal ['0'] ['5'] [] :=
    ⟨⟨nofun, by simp⟩, ⟨nofun, by simp⟩, by simp⟩
  obtain ⟨denotes, -, among⟩ := become .start rfl isReal
  obtain ⟨denotes', -, -⟩ := become' .start rfl isReal'
  obtain ⟨denotes'', -, -⟩ := become'' .start rfl isReal''
  rw [next] at denotes among
  rw [next'] at denotes'
  rw [next''] at denotes''
  have value : Decimal.quotient ['0'] ['3'] = 3 / 10 := by
    have digits : Decimal.denoted ['0'] = 0 ∧ Decimal.denoted ['3'] = 3 := ⟨rfl, rfl⟩
    norm_num [Decimal.quotient, digits]
  have value'' : Decimal.quotient ['0'] ['5'] = 5 / 10 := by
    have digits : Decimal.denoted ['0'] = 0 ∧ Decimal.denoted ['5'] = 5 := ⟨rfl, rfl⟩
    norm_num [Decimal.quotient, digits]
  have le : Decimal.quotient ['0'] ['3'] ≤ Decimal.quotient ['0'] ['5'] := by
    rw [value, value'']
    norm_num
  have finite : (⟨0x3fe0000000000000⟩ : Binary64).IsFinite := by decide
  obtain ⟨front, after, whole, rest⟩ := among
  have present : tenths "00.30" ∈ tokenize "00.30;" := by simp [whole]
  obtain ⟨place, lexer, wholeDigits, fraction, behind, resumes, here, -, made⟩ :=
    only _ present (.inl rfl)
  refine ⟨⟨denotes, front, after, whole, rest⟩,
    ⟨place, lexer, wholeDigits, fraction, behind, resumes, here, made⟩, ?_, ?_, ?_⟩
  · intro other
    rw [← value]
    exact nearest _ _ _ _ other denotes' rfl
  · exact ((ordered _ _ _ _ _ _ _ _ denotes' rfl denotes'' rfl le).2 finite).2
  · exact zeros _ _ ['0'] ['3'] 1 1 denotes' denotes

end PascalFrontEnd
