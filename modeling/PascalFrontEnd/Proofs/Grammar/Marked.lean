import Mathlib.Data.List.Forall2
import PascalFrontEnd.Token.Basic

namespace PascalFrontEnd

def Token.marked (admits : Kind → Bool) : List Token → List (Token × List Token)
  | [] => []
  | token :: tokens =>
      if admits token.kind then (token, tokens) :: marked admits tokens else marked admits tokens

/-- There is one value for each token of the admitted kinds, and what is to be
told of the values and the tokens holds. -/
def Marks {α : Type} (admits : Kind → Bool) (tells : α → Token → List Token → Prop)
    (values : List α) (tokens : List Token) : Prop :=
  List.Forall₂ (fun value place => tells value place.1 place.2) values (Token.marked admits tokens)

class Lasting {α : Type} (tells : α → Token → List Token → Prop) : Prop where
  append {value : α} {token : Token} {behind : List Token} (more : List Token) :
    tells value token behind → tells value token (behind ++ more)

namespace Marks

variable {α : Type} {admits : Kind → Bool} {tells : α → Token → List Token → Prop}
  {values others : List α} {value : α} {token : Token} {kind : Kind} {tokens front back : List Token}

theorem nil : Marks admits tells [] [] := List.Forall₂.nil

theorem pass (here : token.kind = kind) (silent : admits kind = false)
    (marks : Marks admits tells values tokens) : Marks admits tells values (token :: tokens) := by
  unfold Marks
  rw [Token.marked, here, silent]
  exact marks

theorem single (here : token.kind = kind) (silent : admits kind = false) :
    Marks admits tells [] [token] :=
  nil.pass here silent

theorem mark (here : token.kind = kind) (admitted : admits kind = true)
    (told : tells value token tokens) (marks : Marks admits tells values tokens) :
    Marks admits tells (value :: values) (token :: tokens) := by
  unfold Marks
  rw [Token.marked, here, if_pos admitted]
  exact .cons told marks

theorem mem (marks : Marks admits tells values tokens) (listed : value ∈ values) :
    ∃ token ∈ tokens, ∃ behind, tells value token behind := by
  induction tokens generalizing values with
  | nil =>
      cases marks
      cases listed
  | cons token tokens ih =>
      unfold Marks at marks
      rw [Token.marked] at marks
      split at marks
      · cases marks with
        | cons told marks =>
            rcases List.mem_cons.mp listed with rfl | listed
            · exact ⟨token, List.mem_cons_self, tokens, told⟩
            · obtain ⟨other, present, tells⟩ := ih marks listed
              exact ⟨other, List.mem_cons_of_mem _ present, tells⟩
      · obtain ⟨other, present, tells⟩ := ih marks listed
        exact ⟨other, List.mem_cons_of_mem _ present, tells⟩

variable [Lasting tells]

theorem append (first : Marks admits tells values front) (second : Marks admits tells others back) :
    Marks admits tells (values ++ others) (front ++ back) := by
  induction front generalizing values with
  | nil =>
      cases first
      exact second
  | cons token front ih =>
      unfold Marks at first
      rw [Token.marked] at first
      split at first
      · rename_i admitted
        cases first with
        | cons told first => exact (ih first).mark rfl admitted (Lasting.append back told)
      · rename_i silent
        exact (ih first).pass rfl (Bool.not_eq_true _ ▸ silent)

theorem concat (marks : Marks admits tells values tokens) (here : token.kind = kind)
    (silent : admits kind = false) : Marks admits tells values (tokens ++ [token]) := by
  have whole := marks.append (single here silent)
  rwa [List.append_nil] at whole

theorem apart (first : Marks admits tells values front) (here : token.kind = kind)
    (silent : admits kind = false) (second : Marks admits tells others back) :
    Marks admits tells (values ++ others) (front ++ [token] ++ back) :=
  (first.concat here silent).append second

end Marks

end PascalFrontEnd
