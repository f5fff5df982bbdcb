import PascalFrontEnd.Proofs.Run.LikeSources
import PascalFrontEnd.Proofs.Token.Relayout

namespace PascalFrontEnd

def ParseError.unlined (error : ParseError) : ParseError :=
  error.map Token.unlined

theorem ParseError.Alike.unlined_eq {error other : ParseError}
    (alike : error.Alike SameButLine other) : error.unlined = other.unlined := by
  refine alike.map_eq id fun {token other} same => ?_
  have unlined : token.unlined = other.unlined := same
  have raw : token.unlined.raw = other.unlined.raw := congrArg Token.raw unlined
  exact congrArg (fun raw => (⟨.unknown, raw, none, 0⟩ : Token)) raw

def unlinedResult (result : Except ParseError Tree) : Except ParseError Tree :=
  (result.map Tree.unlined).mapError ParseError.unlined

theorem ResultsAlike.unlined_eq {result other : Except ParseError Tree}
    (alike : ResultsAlike SameButLine result other) :
    unlinedResult result = unlinedResult other := by
  cases alike with
  | ok alike => exact congrArg Except.ok alike.unlined_eq
  | error alike => exact congrArg Except.error alike.unlined_eq

/-- Every source can be laid out anew, and however it is, its tokens and its
results are the same but for their lines. -/
theorem parseSource_relaid (source : String) :
    (∃ text, Relaid source text) ∧ ∀ text, Relaid source text →
      (tokenize text).map Token.unlined = (tokenize source).map Token.unlined ∧
      ∀ mode, unlinedResult (parseSource text mode) = unlinedResult (parseSource source mode) := by
  refine ⟨exists_relaid source, fun text relaid => ?_⟩
  have alike := relaid.tokenize
  refine ⟨(map_eq_map_iff.mpr alike).symm, fun mode => ?_⟩
  exact (parseSource_alike alike mode).unlined_eq.symm

/-- A number with a sign, behind it a brace that is left open, and the same in
another layout. -/
theorem parseSource_openBrace_relaid :
    Relaid "-1\x7by" "\x7bset\x7d- 1 \x7b\ny" ∧
      (tokenize "\x7bset\x7d- 1 \x7b\ny").map Token.unlined =
        (tokenize "-1\x7by").map Token.unlined ∧
      ∀ mode, unlinedResult (parseSource "\x7bset\x7d- 1 \x7b\ny" mode) =
        unlinedResult (parseSource "-1\x7by" mode) := by
  have tokens : (tokenize "-1\x7by").dropLast =
      [⟨.unarySign, "-", none, 1⟩, ⟨.integerLiteral, "1", some (.integer 1), 1⟩,
        ⟨.unknown, "\x7b", none, 1⟩, ⟨.identifier, "y", some (.name "y"), 1⟩] := by
    with_unfolding_all rfl
  have comment : Fills [] ['{', 's', 'e', 't', '}'] :=
    ⟨.comment (by decide : '}' ∉ ['s', 'e', 't']) .none, fun opened => absurd opened (by simp)⟩
  have blank : ∀ (front : List Token) (c : Char), isBlank c = true → Fills front [c] :=
    fun front c blank => .of_blanks (List.forall_mem_singleton.mpr blank) front
  have proper : ∀ c : Char, [c] ≠ [] := fun c => List.cons_ne_nil c []
  have relaid : Relaid "-1\x7by" "\x7bset\x7d- 1 \x7b\ny" := by
    unfold Relaid
    rw [tokens]
    refine ⟨_, _, comment,
      .token (blank _ ' ' rfl) (fun _ => proper ' ') (.token (blank _ ' ' rfl) (fun _ => proper ' ')
        (.token (blank _ '\n' rfl) (fun _ => proper '\n')
          (.token (.of_blanks (List.forall_mem_nil _) _) (absurd rfl) .none))), ?_⟩
    decide
  exact ⟨relaid, (parseSource_relaid _).2 _ relaid⟩

end PascalFrontEnd
