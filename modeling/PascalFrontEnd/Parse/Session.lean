import PascalFrontEnd.Token.Stream

/-!
A session is a parser at work: the stream it draws from, the one token it looks at,
and a record of what it has done. A rule is a step of a session.
-/

namespace PascalFrontEnd

structure Session (σ : Type) where
  current : Token
  stream : σ
  /-- How many tokens have been drawn. -/
  pulls : Nat
  /-- For every bracket announced, how many tokens had been drawn by then. -/
  brackets : Array Nat
  journal : Array Event

namespace Session

variable {σ : Type} [TokenStream σ]

/-- Begin a session by drawing the first token. -/
def start (stream : σ) : Session σ :=
  let (token, rest) := TokenStream.next stream
  ⟨token, rest, 1, #[], (TokenStream.report stream token).toArray⟩

def advance (session : Session σ) : Session σ :=
  let (token, rest) := TokenStream.next session.stream
  { session with
    current := token
    stream := rest
    pulls := session.pulls + 1
    journal := session.journal ++ TokenStream.report session.stream token }

def announceBracket (session : Session σ) : Session σ :=
  { session with
    stream := TokenStream.enterBracket session.stream
    brackets := session.brackets.push session.pulls }

def note (session : Session σ) (event : Event) : Session σ :=
  { session with journal := session.journal.push event }

/-- More than the number of tokens still to come, the current one and the end
of input included. No rule goes through as many steps without passing a token,
so that rules may count down from here. -/
def budget (session : Session σ) : Nat :=
  TokenStream.bound session.stream + 3

end Session

abbrev Rule (σ α : Type) := EStateM ParseError (Session σ) α

namespace Rule

variable {σ α : Type} [TokenStream σ]

def current : Rule σ Token := do
  return (← get).current

def currentKind : Rule σ Kind := do
  return (← current).kind

def sees (kind : Kind) : Rule σ Bool := do
  return (← currentKind) == kind

def note (event : Event) : Rule σ Unit :=
  modify (·.note event)

def announceBracket : Rule σ Unit :=
  modify Session.announceBracket

def fail (error : ParseError) : Rule σ α := do
  note (.failed error)
  throw error

def mismatch (expected : Kind) : Rule σ α := do
  fail (.ofMismatch expected (← current))

/-- Pass the current token, which has to be of the expected kind. Unknown
tokens are never passed. -/
def take (expected : Kind) : Rule σ Token := do
  let token ← current
  if token.kind = .unknown ∨ token.kind ≠ expected then
    mismatch expected
  else
    modify Session.advance
    return token

def skip (expected : Kind) : Rule σ Unit :=
  discard (take expected)

def repeatWhile (admits : Kind → Bool) (rule : Rule σ α) : Nat → Rule σ (List α)
  | 0 => return []
  | steps + 1 => do
      if admits (← currentKind) then
        let first ← rule
        let others ← repeatWhile admits rule steps
        return first :: others
      else
        return []

end Rule

end PascalFrontEnd
