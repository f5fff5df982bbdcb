import PascalFrontEnd.Proofs.Session.Passing
import PascalFrontEnd.Proofs.Tree.Scopes

/-! `Logs` looks back like `Passes`, and keeps the notes that have been taken on the way. -/

namespace PascalFrontEnd

namespace Event

def scope? : Event → Option Scope
  | entersCompound _ => some .compound
  | entersDeclarations _ => some .declarations
  | entersProcedure name _ => some (.procedure name)
  | entersProgram name => some (.program name)
  | _ => none

def compoundLine? : Event → Option Nat
  | entersCompound line => some line
  | _ => none

theorem level_of_scope {event : Event} (announces : event.scope?.isSome = true) :
    event.level = .debug := by
  cases event <;> first | rfl | cases announces

theorem untraced_of_scope {event : Event} (announces : event.scope?.isSome = true) :
    event.level ≠ .trace := by
  rw [level_of_scope announces]
  exact Level.noConfusion

end Event

namespace Session

variable {σ : Type} [TokenStream σ] {session middle after : Session σ} {tokens more : List Token}
  {events others : List Event}

/-- Passing the listed tokens and taking the listed notes leads from one session to
the other. -/
inductive Logs : Session σ → List Token → List Event → Session σ → Prop where
  | done (session : Session σ) : Logs session [] [] session
  | note {session after : Session σ} {tokens : List Token} {events : List Event} (event : Event) :
      Logs (session.note event) tokens events after → Logs session tokens (event :: events) after
  | token {session after : Session σ} {tokens : List Token} {events : List Event} :
      session.current.kind ≠ .unknown → session.current.kind ≠ .endOfInput →
      Logs session.pass tokens events after →
      Logs session (session.current :: tokens) events after

theorem Logs.passes (logs : session.Logs tokens events after) : session.Passes tokens after := by
  induction logs with
  | done session => exact .done session
  | note event _ ih => exact .note event ih
  | token known notEnd _ ih => exact .token known notEnd ih

theorem Logs.trans (first : session.Logs tokens events middle)
    (second : middle.Logs more others after) :
    session.Logs (tokens ++ more) (events ++ others) after := by
  induction first with
  | done => exact second
  | note event _ ih => exact .note event (ih second)
  | token known notEnd _ ih => exact .token known notEnd (ih second)

theorem logs_note (session : Session σ) (event : Event) :
    session.Logs [] [event] (session.note event) :=
  .note event (.done _)

/-- What is added to the journal of a session that draws the listed tokens and takes
the listed notes. -/
structure Merges (drawn : List Token) (events added : List Event) : Prop where
  drawn : added.filter (fun event => event.level = .trace) = drawn.map .scanned
  noted : added.filter (fun event => event.level ≠ .trace) = events

namespace Merges

variable {drawn : List Token} {added : List Event}

theorem mem (merges : Merges drawn events added) {event : Event} (present : event ∈ added) :
    event.level = .trace ∨ event ∈ events := by
  by_cases traced : event.level = .trace
  · exact .inl traced
  · right
    rw [← merges.noted, List.mem_filter]
    exact ⟨present, by simpa using traced⟩

theorem debug (merges : Merges drawn events added)
    (announced : ∀ event ∈ events, event.scope?.isSome = true) :
    added.filter (fun event => event.level = .debug) = events := by
  have among : added.filter (fun event => event.level = .debug) =
      events.filter fun event => event.level = .debug := by
    rw [← merges.noted, List.filter_filter]
    congr 1
    funext event
    cases event <;> rfl
  rw [among, List.filter_eq_self]
  intro event present
  rw [Event.level_of_scope (announced event present)]
  rfl

theorem lines (merges : Merges drawn events added) :
    added.filterMap Event.compoundLine? = events.filterMap Event.compoundLine? := by
  rw [← merges.noted, List.filterMap_filter]
  congr 1
  funext event
  cases event <;> rfl

end Merges

theorem journal_pass (session : Session Lexer) :
    session.pass.journal.toList = session.journal.toList ++ [.scanned session.pass.current] := by
  unfold pass
  split <;> exact Array.toList_appendList

theorem Logs.journal {session after : Session Lexer} (logs : session.Logs tokens events after)
    (noted : ∀ event ∈ events, event.level ≠ .trace) :
    ∃ drawn added, session.current :: drawn = tokens ++ [after.current] ∧
      Merges drawn events added ∧ after.journal.toList = session.journal.toList ++ added := by
  induction logs with
  | done session => exact ⟨[], [], rfl, ⟨rfl, rfl⟩, (List.append_nil _).symm⟩
  | @note session after tokens events event _ ih =>
      rw [List.forall_mem_cons] at noted
      obtain ⟨drawn, added, split, merges, whole⟩ := ih noted.2
      refine ⟨drawn, event :: added, split, ⟨?_, ?_⟩, ?_⟩
      · rw [List.filter_cons_of_neg (by simpa using noted.1), merges.drawn]
      · rw [List.filter_cons_of_pos (by simpa using noted.1), merges.noted]
      · rw [whole]
        simp [Session.note]
  | @token session after tokens events _ _ _ ih =>
      obtain ⟨drawn, added, split, merges, whole⟩ := ih noted
      refine ⟨session.pass.current :: drawn, .scanned session.pass.current :: added, ?_, ⟨?_, ?_⟩, ?_⟩
      · rw [split, List.cons_append]
      · rw [List.filter_cons_of_pos (by rfl), merges.drawn, List.map_cons]
      · rw [List.filter_cons_of_neg (by simp [Event.level]), merges.noted]
      · rw [whole, journal_pass, List.append_assoc, List.singleton_append]

end Session

end PascalFrontEnd
