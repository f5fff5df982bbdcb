import PascalFrontEnd.Proofs.Parse.Recognition
import PascalFrontEnd.Proofs.Session.Recording

namespace PascalFrontEnd

def Token.beginLines (tokens : List Token) : List Nat :=
  (tokens.filter (·.kind == .beginWord)).map Token.line

/-- Events that announce the listed scopes, and the compound statements by the lines
on which those among the tokens begin. -/
structure Announce (events : List Event) (tokens : List Token) (scopes : List Scope) : Prop where
  scopes : events.map Event.scope? = scopes.map some
  lines : events.filterMap Event.compoundLine? = Token.beginLines tokens

namespace Announce

variable {events others : List Event} {tokens more : List Token} {scopes behind : List Scope}

theorem nil : Announce [] [] [] := ⟨rfl, rfl⟩

theorem append (first : Announce events tokens scopes) (second : Announce others more behind) :
    Announce (events ++ others) (tokens ++ more) (scopes ++ behind) where
  scopes := by rw [List.map_append, List.map_append, first.scopes, second.scopes]
  lines := by
    rw [List.filterMap_append, first.lines, second.lines, Token.beginLines, Token.beginLines,
      Token.beginLines, List.filter_append, List.map_append]

theorem single {token : Token} (silent : token.kind ≠ .beginWord) : Announce [] [token] [] where
  scopes := rfl
  lines := by
    rw [Token.beginLines, List.filter_cons_of_neg (by simpa using silent)]
    rfl

theorem isSome (announce : Announce events tokens scopes) :
    ∀ event ∈ events, event.scope?.isSome = true := by
  intro event present
  have listed : event.scope? ∈ scopes.map some := by
    rw [← announce.scopes]
    exact List.mem_map_of_mem present
  obtain ⟨scope, -, same⟩ := List.mem_map.mp listed
  rw [← same]
  rfl

end Announce

namespace Session

variable {σ α β : Type} [TokenStream σ] {session middle after : Session σ} {rule other : Rule σ α}
  {tokens : List Token} {events : List Event} {scopes : List Scope}

/-- What a rule records when it is applied in a session; what is told of its value and
of the scopes that it has announced holds. -/
structure Follows (session : Session σ) (rule : Rule σ α) (tells : α → List Scope → Prop) :
    Prop where
  ok {value : α} {after : Session σ} : rule session = .ok value after →
    ∃ tokens events scopes, session.Logs tokens events after ∧ Announce events tokens scopes ∧
      tells value scopes
  error {error : ParseError} {after : Session σ} : rule session = .error error after →
    ∃ tokens events middle, session.Logs tokens events middle ∧
      after = middle.note (.failed error) ∧ ∀ event ∈ events, event.scope?.isSome = true

namespace Follows

variable {tells : α → List Scope → Prop} {total : β → List Scope → Prop}

theorem behind (logs : session.Logs tokens events middle) (announce : Announce events tokens scopes)
    (run : rule session = other middle)
    (follows : middle.Follows other fun value more => tells value (scopes ++ more)) :
    session.Follows rule tells where
  ok ran := by
    rw [run] at ran
    obtain ⟨more, others, rest, logsRest, announceRest, told⟩ := follows.ok ran
    exact ⟨_, _, _, logs.trans logsRest, announce.append announceRest, told⟩
  error ran := by
    rw [run] at ran
    obtain ⟨more, others, last, logsRest, shape, announced⟩ := follows.error ran
    refine ⟨_, _, last, logs.trans logsRest, shape, ?_⟩
    intro event present
    rcases List.mem_append.mp present with present | present
    · exact announce.isSome event present
    · exact announced event present

theorem of_eq (run : rule session = other session) (follows : session.Follows other tells) :
    session.Follows rule tells :=
  behind (.done session) .nil run follows

theorem pure {value : α} (told : tells value []) : session.Follows (pure value) tells where
  ok ran := by
    obtain ⟨rfl, rfl⟩ := Rule.pure_ok.mp ran
    exact ⟨[], [], [], .done _, .nil, told⟩
  error ran := absurd ran Rule.pure_error

theorem fail (error : ParseError) : session.Follows (Rule.fail error : Rule σ α) tells where
  ok ran := by
    rw [Rule.fail_run] at ran
    cases ran
  error ran := by
    rw [Rule.fail_run] at ran
    cases ran
    exact ⟨[], [], session, .done _, rfl, List.forall_mem_nil _⟩

theorem mismatch (expected : Kind) :
    session.Follows (Rule.mismatch expected : Rule σ α) tells := by
  have run : (Rule.mismatch expected : Rule σ α) session =
      Rule.fail (.ofMismatch expected session.current) session := rfl
  exact of_eq run (fail _)

theorem bind {tell : α → List Scope} {next : α → Rule σ β}
    (first : session.Follows rule fun value scopes => scopes = tell value)
    (rest : ∀ value after, Session.Follows after (next value) fun result more =>
      total result (tell value ++ more)) :
    session.Follows (rule >>= next) total := by
  cases ran : rule session with
  | ok value middle =>
      obtain ⟨tokens, events, _, logs, announce, rfl⟩ := first.ok ran
      exact behind logs announce (Rule.bind_of_ok ran next) (rest value middle)
  | error error last =>
      refine ⟨?_, ?_⟩
      · intro value after ranAll
        rw [Rule.bind_of_error ran next] at ranAll
        cases ranAll
      · intro error' after ranAll
        rw [Rule.bind_of_error ran next] at ranAll
        cases ranAll
        exact first.error ran

theorem note {event : Event} {scope : Scope} {next : Unit → Rule σ β}
    (announces : event.scope? = some scope) (silent : event.compoundLine? = none)
    (rest : Session.Follows (session.note event) (next ()) fun result more =>
      total result (scope :: more)) :
    session.Follows (Rule.note event >>= next) total := by
  have announce : Announce [event] [] [scope] := by
    constructor
    · rw [List.map_singleton, announces, List.map_singleton]
    · rw [List.filterMap_cons, silent]
      rfl
  exact behind (session.logs_note event) announce rfl rest

end Follows

end Session

namespace Rule

variable {σ α β : Type} [TokenStream σ]

end Rule

end PascalFrontEnd
