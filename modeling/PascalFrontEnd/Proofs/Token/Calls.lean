import Mathlib.Data.List.Induction
import PascalFrontEnd.Proofs.Token.Context

namespace PascalFrontEnd

namespace Lexer

inductive Call where
  | next
  | enterBracket
  deriving DecidableEq, Repr

/-- The tokens that the calls hand out, each with the line of the lexer behind it. -/
def answers (lexer : Lexer) : List Call → List (Token × Nat)
  | [] => []
  | .next :: calls => (lexer.next.1, lexer.next.2.line) :: lexer.next.2.answers calls
  | .enterBracket :: calls => lexer.enterBracket.answers calls

def after (lexer : Lexer) : List Call → Lexer
  | [] => lexer
  | .next :: calls => lexer.next.2.after calls
  | .enterBracket :: calls => lexer.enterBracket.after calls

end Lexer

namespace Token

/-- A token that says the same as the other, except that a sign may be of another
kind. -/
structure SameButSign (token other : Token) : Prop where
  raw : token.raw = other.raw
  value : token.value = other.value
  line : token.line = other.line
  kind : token.raw ≠ "+" → token.raw ≠ "-" → token.kind = other.kind

/-- The kinds of signs are those that the context calls for: a bracket announced
since the last token, and the kind of that token, if there is one. -/
structure FitsContext (token : Token) (announced : Prop) (previous : Option Kind) : Prop where
  /-- A sign with no operand in front of it is a prefix, and so is one behind a bracket. -/
  unary : token.raw = "+" ∨ token.raw = "-" →
    (announced ∨ ∀ kind ∈ previous,
      kind ∉ [.integerLiteral, .realLiteral, .identifier, .closeParen]) →
    token.kind = .unarySign
  plus : token.raw = "+" → ¬ announced →
    (∃ kind ∈ previous, kind ∈ [.integerLiteral, .realLiteral, .identifier, .closeParen]) →
    token.kind = .plus
  minus : token.raw = "-" → ¬ announced →
    (∃ kind ∈ previous, kind ∈ [.integerLiteral, .realLiteral, .identifier, .closeParen]) →
    token.kind = .minus
  other : token.raw ≠ "+" → token.raw ≠ "-" →
    token.kind ∉ [.unarySign, .plus, .minus]

variable {token : Token}

theorem sameButSign_signed (token : Token) (unary : Bool) :
    (token.signed unary).SameButSign token := by
  cases sign : token.sign? with
  | none =>
      rw [signed_of_none sign]
      exact ⟨rfl, rfl, rfl, fun _ _ => rfl⟩
  | some binary =>
      rw [signed_of_some sign]
      refine ⟨rfl, rfl, rfl, fun noPlus noMinus => ?_⟩
      simp only [sign?, if_neg noPlus, if_neg noMinus] at sign
      cases sign

/-- The kinds of signs belong to tokens that are written like signs. -/
theorem Genuine.sign_raw (genuine : token.Genuine)
    (kind : token.kind ∈ [.unarySign, .plus, .minus]) : token.raw = "+" ∨ token.raw = "-" := by
  simp only [List.mem_cons, List.not_mem_nil, or_false] at kind
  rcases kind with kind | kind | kind
  · exact (genuine.isSign kind).2
  · have operator := genuine.isOperator (.inl (by rw [kind]; rfl))
    simp only [IsOperator, kind, reduceCtorEq, false_and, or_false, true_and] at operator
    exact .inl operator
  · have operator := genuine.isOperator (.inl (by rw [kind]; rfl))
    simp only [IsOperator, kind, reduceCtorEq, false_and, or_false, false_or, true_and] at operator
    exact .inr operator

end Token

namespace Lexer

variable {lexer other : Lexer} {calls : List Call}

theorem answers_append (lexer : Lexer) (front back : List Call) :
    lexer.answers (front ++ back) = lexer.answers front ++ (lexer.after front).answers back := by
  induction front generalizing lexer with
  | nil => rfl
  | cons call front ih => cases call <;> simp [answers, after, ih]

theorem after_append (lexer : Lexer) (front back : List Call) :
    lexer.after (front ++ back) = (lexer.after front).after back := by
  induction front generalizing lexer with
  | nil => rfl
  | cons call front ih => cases call <;> simp [after, ih]

theorem length_answers (lexer : Lexer) (calls : List Call) :
    (lexer.answers calls).length = calls.count .next := by
  induction calls generalizing lexer with
  | nil => rfl
  | cons call calls ih => cases call <;> simp [answers, ih]

theorem Agrees.enterBracket (agrees : lexer.Agrees other) :
    lexer.enterBracket.Agrees other.enterBracket :=
  ⟨agrees.rest, agrees.line, rfl⟩

theorem Agrees.answers (agrees : lexer.Agrees other) (calls : List Call) :
    lexer.answers calls = other.answers calls := by
  induction calls generalizing lexer other with
  | nil => rfl
  | cons call calls ih =>
      cases call with
      | next => simp only [Lexer.answers, agrees.next]
      | enterBracket => exact ih agrees.enterBracket

theorem answers_enterBracket (lexer : Lexer) (calls : List Call) :
    (lexer.enterBracket.answers calls).drop 1 = (lexer.answers calls).drop 1 := by
  cases calls with
  | nil => rfl
  | cons call calls =>
      cases call with
      | enterBracket => rfl
      | next =>
          have abreast : lexer.enterBracket.Abreast lexer := ⟨rfl, rfl⟩
          exact abreast.next.2.answers calls

theorem answers_brackets (lexer : Lexer) (count : Nat) (calls : List Call) :
    (lexer.answers (List.replicate count .enterBracket ++ calls)).drop 1 =
      (lexer.answers calls).drop 1 := by
  induction count generalizing lexer with
  | zero => rfl
  | succ count ih =>
      rw [List.replicate_succ, List.cons_append, answers, ih, answers_enterBracket]

/-- Brackets between calls change at most the answer to the next call. -/
theorem eraseIdx_answers_brackets (lexer : Lexer) (front back : List Call) (count : Nat) :
    (lexer.answers (front ++ List.replicate count .enterBracket ++ back)).eraseIdx
        (front.count .next) =
      (lexer.answers (front ++ back)).eraseIdx (front.count .next) := by
  have drop_one : ∀ list : List (Token × Nat), list.eraseIdx 0 = list.drop 1 := by
    intro list
    cases list <;> rfl
  have behind : ∀ answers : List (Token × Nat),
      (lexer.answers front ++ answers).eraseIdx (front.count .next) =
        lexer.answers front ++ answers.drop 1 := by
    intro answers
    rw [← lexer.length_answers front, List.eraseIdx_append_of_length_le (Nat.le_refl _),
      Nat.sub_self, drop_one]
  rw [List.append_assoc, lexer.answers_append front, lexer.answers_append front, behind, behind,
    answers_brackets]

theorem next_fitsContext (lexer : Lexer) :
    lexer.next.1.FitsContext (lexer.bracketed = true) lexer.previous := by
  have genuine : lexer.next.1.Genuine := by
    rcases lexer.next_made with ⟨maker, length, made⟩
    exact made.genuine
  have kind : ∀ binary, lexer.next.1.sign? = some binary →
      lexer.next.1.kind = if lexer.signIsUnary then .unarySign else binary := by
    intro binary sign
    have signed := congrArg Token.kind lexer.next_signed
    rwa [Token.signed_of_some sign] at signed
  have operator : ¬ lexer.bracketed = true → (∃ kind ∈ lexer.previous,
      kind ∈ [.integerLiteral, .realLiteral, .identifier, .closeParen]) →
      lexer.signIsUnary = false := by
    intro quiet operand
    rcases operand with ⟨kind, last, ends⟩
    rw [Option.mem_def] at last
    simp [signIsUnary, quiet, last, Kind.endsOperand_iff.mpr ends]
  constructor
  · intro raw context
    have unary : lexer.signIsUnary = true := by
      rcases context with announced | free
      · simp [signIsUnary, announced]
      · cases last : lexer.previous with
        | none => simp [signIsUnary, last]
        | some kind =>
            have noOperand : kind.endsOperand = false := by
              rw [← Bool.not_eq_true, Kind.endsOperand_iff]
              exact free kind last
            simp [signIsUnary, last, noOperand]
    rcases raw with raw | raw
    · rw [kind .plus (by simp [Token.sign?, raw]), unary, if_pos rfl]
    · rw [kind .minus (by simp [Token.sign?, raw]), unary, if_pos rfl]
  · intro raw quiet operand
    rw [kind .plus (by simp [Token.sign?, raw]), operator quiet operand]
    rfl
  · intro raw quiet operand
    rw [kind .minus (by simp [Token.sign?, raw]), operator quiet operand]
    rfl
  · intro noPlus noMinus kind
    rcases genuine.sign_raw kind with plus | minus
    · exact noPlus plus
    · exact noMinus minus

/-- What the lexer remembers is the kind of the last token, and whether a bracket is
the last that it has been told. -/
theorem context_after (source : String) (calls : List Call) :
    ((ofSource source).after calls).previous =
        ((ofSource source).answers calls).getLast?.map (·.1.kind) ∧
      (((ofSource source).after calls).bracketed = true ↔ calls.getLast? = some .enterBracket) := by
  induction calls using List.reverseRec with
  | nil => exact ⟨rfl, by simp [after, ofSource]⟩
  | append_singleton calls call ih =>
      rw [after_append, answers_append]
      cases call with
      | next => simp [after, answers, next_eq]
      | enterBracket => simp [after, answers, enterBracket, ih.1]

/-- Of lexers at the same place one answers as the other does without brackets, but
for the kinds of signs. -/
theorem Abreast.answers (abreast : lexer.Abreast other) (calls : List Call) :
    List.Forall₂ (fun answer plain => answer.1.SameButSign plain.1 ∧ answer.2 = plain.2)
      (lexer.answers calls) (other.answers (calls.filter (· = .next))) := by
  induction calls generalizing lexer other with
  | nil => exact .nil
  | cons call calls ih =>
      cases call with
      | enterBracket =>
          have announced : lexer.enterBracket.Abreast other := ⟨abreast.rest, abreast.line⟩
          exact ih announced
      | next =>
          rcases abreast.symm.next with ⟨token, behind⟩
          have like : lexer.next.1.SameButSign other.next.1 := by
            rw [token]
            exact Token.sameButSign_signed _ _
          exact .cons ⟨like, behind.line.symm⟩ (ih behind.abreast.symm)

end Lexer

/-- However announcements of brackets are mixed with the calls, the tokens of a source
are those that it has without them, but for the kinds of signs. A sign is a prefix or
an operator as its context has it: the announcements since the last token, and the
kind of that token. Brackets announced between two calls change at most the answer to
the second. -/
theorem answers_fitContext (source : String) :
    (∀ calls, List.Forall₂ (fun answer plain => answer.1.SameButSign plain.1 ∧ answer.2 = plain.2)
      ((Lexer.ofSource source).answers calls)
      ((Lexer.ofSource source).answers (calls.filter (· = .next)))) ∧
    (∀ front back, ∃ token line rest,
      (Lexer.ofSource source).answers (front ++ .next :: back) =
        (Lexer.ofSource source).answers front ++ (token, line) :: rest ∧
      token.FitsContext (front.getLast? = some .enterBracket)
        (((Lexer.ofSource source).answers front).getLast?.map (·.1.kind))) ∧
    ∀ front back count,
      ((Lexer.ofSource source).answers
          (front ++ List.replicate count .enterBracket ++ back)).eraseIdx (front.count .next) =
        ((Lexer.ofSource source).answers (front ++ back)).eraseIdx (front.count .next) := by
  refine ⟨(Lexer.abreast_refl _).answers, ?_, (Lexer.ofSource source).eraseIdx_answers_brackets⟩
  intro front back
  have fits := ((Lexer.ofSource source).after front).next_fitsContext
  rcases Lexer.context_after source front with ⟨previous, bracketed⟩
  rw [previous, bracketed] at fits
  rw [Lexer.answers_append]
  exact ⟨_, _, _, rfl, fits⟩

/-- Two brackets turn a difference into a sign, and leave the next sign what it is. -/
example :
    let calls : List Lexer.Call := [.next, .enterBracket, .enterBracket, .next, .next, .next]
    ((Lexer.ofSource "x-1-").answers calls).map (·.1.kind) =
      [.identifier, .unarySign, .integerLiteral, .minus] := by
  with_unfolding_all rfl

end PascalFrontEnd
