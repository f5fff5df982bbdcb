import Mathlib.Data.List.TakeWhile
import PascalFrontEnd.Proofs.Token.Lexed

namespace PascalFrontEnd

def IsWord (text : List Char) : Prop :=
  ∃ head rest, text = head :: rest ∧ isWordStart head = true ∧ ∀ c ∈ rest, isWordPart c = true

def IsName (name : String) : Prop :=
  IsWord name.toList ∧ Keyword.kind? name.toList = none

/-- The text is the word, in any mixture of cases. -/
def Spells (word : String) (text : List Char) : Prop :=
  Keyword.upperCase text = word.toList

section

variable {c : Char}

theorem isWordPart_of_isWordStart (starts : isWordStart c = true) : isWordPart c = true := by
  rw [isWordPart, starts, Bool.true_or]

theorem not_isSeparator_of_isWordPart (part : isWordPart c = true) : isSeparator c = false := by
  rw [← Bool.not_eq_true]
  intro separates
  rw [not_isWordPart_of_isSeparator separates] at part
  cases part

theorem not_isDigit_of_isWordStart (starts : isWordStart c = true) : c.isDigit = false := by
  rw [isWordStart, Bool.or_eq_true, beq_iff_eq, isAlpha_iff] at starts
  rcases starts with letter | rfl
  · rw [← Bool.not_eq_true, isDigit_iff]
    omega
  · rfl

theorem isAlpha_of_toUpper (upper : c.toUpper.isAlpha = true) : c.isAlpha = true := by
  unfold Char.toUpper at upper
  split at upper
  · rename_i lower
    rw [isAlpha_iff]
    exact .inr ⟨lower.1, lower.2⟩
  · exact upper

end

theorem Lexeme.first?_word {text : List Char} (word : IsWord text) :
    first? text = some (.word, text.length) := by
  rcases word with ⟨head, rest, rfl, starts, parts⟩
  have separates := not_isSeparator_of_isWordPart (isWordPart_of_isWordStart starts)
  rw [isSeparator, Bool.or_eq_false_iff, beq_eq_false_iff_ne] at separates
  have noBlank : Shape.blanks.reach (head :: rest) = 0 := by
    simp [Shape.reach, run, separates.1]
  have noComment : Shape.comment.reach (head :: rest) = 0 := by
    simp [Shape.reach, separates.2]
  have noDigit : run Char.isDigit (head :: rest) = 0 := by
    simp [run, not_isDigit_of_isWordStart starts]
  have noReal : Shape.real.reach (head :: rest) = 0 := by
    simp only [Shape.reach, noDigit]
    split <;> rfl
  have noInteger : Shape.integer.reach (head :: rest) = 0 := noDigit
  have whole : Shape.word.reach (head :: rest) = rest.length + 1 := by
    rw [Shape.reach, if_pos starts, run, List.takeWhile_eq_self_iff.mpr parts]
  simp only [first?, table, List.findSome?_cons, noBlank, noComment, noReal, noInteger, whole]
  rfl

theorem Spells.isWord {word : String} {text : List Char} {kind : Kind}
    (spelled : Spells word text) (reserved : Keyword.table.lookup word = some kind) :
    IsWord text := by
  have letters : ∀ entry ∈ Keyword.table,
      entry.1.toList ≠ [] ∧ entry.1.toList.all Char.isAlpha = true := by decide
  obtain ⟨front, back, shape, -⟩ := List.lookup_eq_some_iff.mp reserved
  have listed : (word, kind) ∈ Keyword.table := by simp [shape]
  obtain ⟨proper, upper⟩ := letters _ listed
  rw [← spelled] at proper upper
  have alpha : ∀ c ∈ text, c.isAlpha = true := fun c inside =>
    isAlpha_of_toUpper (List.all_eq_true.mp upper _ (List.mem_map_of_mem inside))
  cases text with
  | nil => exact absurd rfl proper
  | cons head rest =>
      refine ⟨head, rest, rfl, ?_, fun c inside => isWordPart_of_isWordStart ?_⟩
      · rw [isWordStart, alpha head List.mem_cons_self, Bool.true_or]
      · rw [isWordStart, alpha c (List.mem_cons_of_mem _ inside), Bool.true_or]

theorem Spells.kind? {word : String} {text : List Char} (spelled : Spells word text) :
    Keyword.kind? text = Keyword.table.lookup word := by
  rw [Keyword.kind?, spelled, String.ofList_toList]

theorem Lexer.text_wordToken (text : List Char) (line : Nat) :
    (wordToken text line).text = text := by
  unfold wordToken Token.text
  split <;> exact String.toList_ofList

theorem IsWord.isOf {text : List Char} (word : IsWord text) (line : Nat) :
    (Lexer.wordToken text line).IsOf text := by
  refine ⟨Lexer.text_wordToken text line, ⟨[], line, none, false⟩, .word, ?_, ?_⟩
  · rw [Lexer.text_wordToken]
    exact Lexeme.first?_word word
  · rw [Lexer.text_wordToken]
    rfl

theorem Spells.token {word : String} {text : List Char} {kind : Kind}
    (spelled : Spells word text) (reserved : Keyword.table.lookup word = some kind) :
    ∃ token : Token, token.IsOf text ∧ token.kind = kind ∧
      (kind = .typeName → token.name = word) := by
  refine ⟨Lexer.wordToken text 1, (spelled.isWord reserved).isOf 1, ?_⟩
  have found : Keyword.kind? text = some kind := by rw [spelled.kind?, reserved]
  have upper : Keyword.upperCase text = word.toList := spelled
  unfold Lexer.wordToken
  rw [found]
  cases kind
  case typeName =>
    refine ⟨rfl, fun _ => ?_⟩
    show String.ofList (Keyword.upperCase text) = word
    rw [upper, String.ofList_toList]
  all_goals exact ⟨rfl, fun type => by cases type⟩

theorem IsName.token {name : String} (named : IsName name) :
    ∃ token : Token, token.IsOf name.toList ∧ token.kind = .identifier ∧ token.name = name := by
  refine ⟨Lexer.wordToken name.toList 1, named.1.isOf 1, ?_⟩
  unfold Lexer.wordToken
  rw [named.2, String.ofList_toList]
  exact ⟨rfl, rfl⟩

theorem Lexeme.mark_token {mark : List Char} {kind : Kind}
    (listed : (Shape.symbol mark, Class.fixed kind) ∈ table) :
    ∃ token : Token, token.IsOf mark ∧ token.kind = kind := by
  have first : first? mark = some (.fixed kind, mark.length) := by
    simp only [table, List.mem_cons, List.not_mem_nil, Prod.mk.injEq, Shape.symbol.injEq,
      Class.fixed.injEq, reduceCtorEq, and_false, false_or, or_false] at listed
    rcases listed with ⟨rfl, rfl⟩ | ⟨rfl, rfl⟩ | ⟨rfl, rfl⟩ | ⟨rfl, rfl⟩ | ⟨rfl, rfl⟩ |
      ⟨rfl, rfl⟩ | ⟨rfl, rfl⟩ | ⟨rfl, rfl⟩ | ⟨rfl, rfl⟩ <;> rfl
  have text : (Token.mk kind (String.ofList mark) none 1).text = mark := String.toList_ofList
  refine ⟨⟨kind, String.ofList mark, none, 1⟩, ⟨text, ⟨[], 1, none, false⟩, .fixed kind, ?_, ?_⟩,
    rfl⟩
  · rw [text]
    exact first
  · rw [text]
    rfl

end PascalFrontEnd
