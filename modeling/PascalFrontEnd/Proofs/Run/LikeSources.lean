import PascalFrontEnd.Proofs.Run.LazyLexing

namespace PascalFrontEnd

variable {T : Token → Token → Prop} [Likeness T]

theorem parseSource_alike {source other : String}
    (alike : List.Forall₂ T (tokenize source) (tokenize other)) (mode : Mode) :
    ResultsAlike T (parseSource source mode) (parseSource other mode) := by
  obtain ⟨front, last, shape, ended, -⟩ := (Lexer.ofSource source).tokens_split
  have tokens : tokenize source = front ++ [last] := shape
  have shown : (Session.start (Lexer.ofSource source)).Shows (front ++ [last]) :=
    tokens ▸ Session.start_shows (Lexer.ofSource source)
  have copied : (Session.start (Lexer.ofSource other)).Copies T (front ++ [last]) :=
    (Session.start_shows (Lexer.ofSource other)).copies (tokens ▸ alike)
  have beside : (Session.start (Lexer.ofSource source)).SideBySide T
      (Session.start (Lexer.ofSource other)) :=
    ⟨rfl, rfl, front, last, ended, shown, copied⟩
  exact (beside.parse mode).1

theorem map_eq_map_iff {change : Token → Token} {tokens others : List Token} :
    tokens.map change = others.map change ↔
      List.Forall₂ (fun token other => change token = change other) tokens others := by
  rw [← List.forall₂_eq_eq_eq, List.forall₂_map_left_iff, List.forall₂_map_right_iff]

namespace ParseError

def map (change : Token → Token) : ParseError → ParseError
  | unknownToken text expected line =>
      let found := change ⟨.unknown, text, none, line⟩
      unknownToken found.raw expected found.line
  | unexpected expected found => unexpected expected (change found)
  | missingSeparator found => missingSeparator (change found)
  | trailing found => trailing (change found)

/-- Errors that are alike are equal once their tokens are exchanged for others in
which like tokens do not differ, whatever payloads they carry. -/
theorem Alike.map_eq {change : Token → Token} {error other : ParseError}
    (alike : error.Alike T other)
    (same : ∀ {token other}, T token other → change token = change other)
    (bare : ∀ {token other}, T token other →
      change ⟨.unknown, token.raw, none, token.line⟩ =
        change ⟨.unknown, other.raw, none, other.line⟩) :
    error.map change = other.map change := by
  cases alike with
  | @mismatch expected found found' like =>
      unfold ofMismatch
      rw [Likeness.kind_eq like]
      split
      · simp only [map, bare like]
      · simp only [map, same like]
  | missingSeparator like => simp only [map, same like]
  | trailing like => simp only [map, same like]

end ParseError

end PascalFrontEnd
