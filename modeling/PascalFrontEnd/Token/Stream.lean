import PascalFrontEnd.Token.Lexer
import PascalFrontEnd.Journal

namespace PascalFrontEnd

class TokenStream (σ : Type) where
  next : σ → Token × σ
  /-- The parser announces that a parenthesis opens. -/
  enterBracket : σ → σ
  /-- An upper bound on the tokens that come before the end of input. -/
  bound : σ → Nat
  /-- What the stream itself reports about a token it hands out. -/
  report : σ → Token → List Event

instance : TokenStream Lexer where
  next := Lexer.next
  enterBracket := Lexer.enterBracket
  bound lexer := lexer.rest.length
  report _ token := [.scanned token]

/-- The replay of a list of tokens. -/
structure Replay where
  rest : List Token
  line : Nat
  deriving DecidableEq, Repr

namespace Replay

def ofTokens (tokens : List Token) : Replay :=
  ⟨tokens, 1⟩

def next (replay : Replay) : Token × Replay :=
  match replay.rest with
  | [] => (Token.endOfInput replay.line, replay)
  | token :: rest => (token, ⟨rest, token.line⟩)

end Replay

instance : TokenStream Replay where
  next := Replay.next
  enterBracket replay := replay
  bound replay := replay.rest.length
  report _ _ := []

end PascalFrontEnd
