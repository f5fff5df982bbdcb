import PascalFrontEnd.Proofs.Parse.Recording
import PascalFrontEnd.Proofs.Run.Bookkeeping
import PascalFrontEnd.Proofs.Run.StatementLists

/-! The journal of a run. -/

namespace PascalFrontEnd

def Mode.opening (current : Token) : Mode → Event
  | loose => .startedFrom current
  | wholeProgram => .startedProgram

namespace Session

variable {σ : Type} [TokenStream σ] {session after : Session σ} {tokens : List Token}

theorem Logs.between {session middle : Session Lexer} {tokens : List Token} {events : List Event}
    {opening : Event} (logs : (session.note opening).Logs tokens events middle)
    (announced : ∀ event ∈ events, event.scope?.isSome = true) (closing : Event) :
    ∃ drawn added, Merges drawn events added ∧ (middle.note closing).journal.toList =
      session.journal.toList ++ opening :: (added ++ [closing]) := by
  have untraced : ∀ event ∈ events, event.level ≠ .trace :=
    fun event present => Event.untraced_of_scope (announced event present)
  obtain ⟨drawn, added, -, merges, whole⟩ := logs.journal untraced
  refine ⟨drawn, added, merges, ?_⟩
  rw [Session.note, Array.toList_push, whole, Session.note, Array.toList_push]
  simp only [List.append_assoc, List.cons_append, List.nil_append]

/-- A failing parse, and a successful one of what is left, with the BEGIN of a
procedure on the second line and that of the program on the third. -/
example :
    let source := "PROGRAM PROGRAM p; PROCEDURE q;\nBEGIN END;\nBEGIN END."
    let session := (start (Lexer.ofSource source)).run [.wholeProgram, .wholeProgram]
    (session.journal.toList.filter fun event => event.level = .info) =
        [.startedProgram, .startedProgram, .parsed "Program"] ∧
      (session.journal.toList.filterMap Event.scope?) =
        [.program "p", .declarations, .procedure "q", .declarations, .compound, .compound] ∧
      session.journal.toList.filterMap Event.compoundLine? = [2, 3] := by
  decide +kernel

end Session

end PascalFrontEnd
