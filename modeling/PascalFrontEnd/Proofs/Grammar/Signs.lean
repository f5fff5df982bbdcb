import PascalFrontEnd.Grammar

namespace PascalFrontEnd

def SignFits (previous : Option Kind) (kind : Kind) : Prop :=
  (kind = .unarySign → previous.any Kind.endsOperand = false) ∧
    (kind.isAdditive = true → previous.any Kind.endsOperand = true)

def SignsFit : Option Kind → List Kind → Prop
  | _, [] => True
  | previous, kind :: kinds => SignFits previous kind ∧ SignsFit (some kind) kinds

def lastKind : Option Kind → List Kind → Option Kind
  | previous, [] => previous
  | _, kind :: kinds => lastKind (some kind) kinds

theorem signsFit_append {previous : Option Kind} {front back : List Kind} :
    SignsFit previous (front ++ back) ↔
      SignsFit previous front ∧ SignsFit (lastKind previous front) back := by
  induction front generalizing previous with
  | nil => simp [SignsFit, lastKind]
  | cons kind front ih => simp [SignsFit, lastKind, ih, and_assoc]

theorem lastKind_append (previous : Option Kind) (front back : List Kind) :
    lastKind previous (front ++ back) = lastKind (lastKind previous front) back := by
  induction front generalizing previous with
  | nil => rfl
  | cons kind front ih => exact ih (some kind)

theorem signFits_of_other {kind : Kind} (noPrefix : kind ≠ .unarySign)
    (noSign : kind.isAdditive = false) (previous : Option Kind) : SignFits previous kind := by
  constructor
  · intro sign
    exact absurd sign noPrefix
  · intro additive
    rw [noSign] at additive
    cases additive

theorem signsFit_cons {kind : Kind} {kinds : List Kind} {previous : Option Kind}
    (noPrefix : kind ≠ .unarySign) (noSign : kind.isAdditive = false)
    (fit : SignsFit (some kind) kinds) : SignsFit previous (kind :: kinds) :=
  ⟨signFits_of_other noPrefix noSign previous, fit⟩

def Nonterminal.isOperand : Nonterminal → Bool
  | .expression | .term | .factor => true
  | _ => false

/-- The kinds fit wherever a phrase of the sort may stand, and behind an
operand an operator may follow. -/
def FitsAs (symbol : Nonterminal) (kinds : List Kind) : Prop :=
  ∀ previous : Option Kind,
    (symbol.isOperand = true → previous.any Kind.endsOperand = false) →
    SignsFit previous kinds ∧
      (symbol.isOperand = true → (lastKind previous kinds).any Kind.endsOperand = true)

section

variable {symbol : Nonterminal} {kinds : List Kind}

theorem FitsAs.of_plain (plain : symbol.isOperand = false)
    (fit : ∀ previous, SignsFit previous kinds) : FitsAs symbol kinds := by
  intro previous _
  refine ⟨fit previous, fun operand => ?_⟩
  rw [plain] at operand
  cases operand

theorem FitsAs.plain (fits : FitsAs symbol kinds) (plain : symbol.isOperand = false)
    (previous : Option Kind) : SignsFit previous kinds := by
  refine (fits previous fun operand => ?_).1
  rw [plain] at operand
  cases operand

theorem FitsAs.operand (fits : FitsAs symbol kinds) (operand : symbol.isOperand = true)
    {previous : Option Kind} (called : previous.any Kind.endsOperand = false) :
    SignsFit previous kinds ∧ (lastKind previous kinds).any Kind.endsOperand = true :=
  have both := fits previous fun _ => called
  ⟨both.1, both.2 operand⟩

theorem FitsAs.joined {left right : List Kind} {first second : Nonterminal} {op : Kind}
    (fits : FitsAs first left) (fits' : FitsAs second right) (operand : first.isOperand = true)
    (operand' : second.isOperand = true) (noPrefix : op ≠ .unarySign)
    (noEnd : op.endsOperand = false) (whole : symbol.isOperand = true) :
    FitsAs symbol (left ++ [op] ++ right) := by
  intro previous called
  have front := fits.operand operand (called whole)
  have back : SignsFit (some op) right ∧ _ := fits'.operand operand' noEnd
  rw [List.append_assoc, List.singleton_append, signsFit_append, lastKind_append]
  refine ⟨⟨front.1, ⟨?_, fun _ => front.2⟩, back.1⟩, fun _ => back.2⟩
  intro sign
  exact absurd sign noPrefix

end

/-- Signs fit throughout what the grammar derives. -/
theorem Derives.fitsAs {symbol : Nonterminal} {kinds : List Kind}
    (derived : Derives symbol kinds) : FitsAs symbol kinds := by
  have single : ∀ kind : Kind, kind ≠ .unarySign → kind.isAdditive = false →
      ∀ previous, SignsFit previous [kind] :=
    fun kind noPrefix noSign _ => signsFit_cons noPrefix noSign trivial
  induction derived with
  | headed _ ih =>
      refine .of_plain rfl fun previous => ?_
      refine signsFit_append.mpr ⟨signsFit_append.mpr ⟨?_, ih.plain rfl _⟩, ?_⟩
      · exact signsFit_cons (by decide) rfl (signsFit_cons (by decide) rfl
          (single _ (by decide) rfl _))
      · exact single _ (by decide) rfl _
  | headless _ ih =>
      refine .of_plain rfl fun previous => ?_
      exact signsFit_append.mpr ⟨ih.plain rfl _, single _ (by decide) rfl _⟩
  | block _ _ ih ih' =>
      refine .of_plain rfl fun previous => ?_
      exact signsFit_append.mpr ⟨ih.plain rfl _, ih'.plain rfl _⟩
  | withoutVariables _ ih => exact .of_plain rfl (ih.plain rfl)
  | withVariables _ _ ih ih' =>
      refine .of_plain rfl fun previous => signsFit_cons (by decide) rfl ?_
      exact signsFit_append.mpr ⟨ih.plain rfl _, ih'.plain rfl _⟩
  | lastGroup _ ih =>
      refine .of_plain rfl fun previous => ?_
      exact signsFit_append.mpr ⟨ih.plain rfl _, single _ (by decide) rfl _⟩
  | moreGroups _ _ ih ih' =>
      refine .of_plain rfl fun previous => ?_
      refine signsFit_append.mpr ⟨signsFit_append.mpr ⟨ih.plain rfl _, ?_⟩, ih'.plain rfl _⟩
      exact single _ (by decide) rfl _
  | variableList _ ih =>
      refine .of_plain rfl fun previous => signsFit_append.mpr ⟨ih.plain rfl _, ?_⟩
      exact signsFit_cons (by decide) rfl (single _ (by decide) rfl _)
  | lastName => exact .of_plain rfl (single _ (by decide) rfl)
  | moreNames _ ih =>
      refine .of_plain rfl fun previous => ?_
      exact signsFit_cons (by decide) rfl (signsFit_cons (by decide) rfl (ih.plain rfl _))
  | noProcedure => exact .of_plain rfl fun _ => trivial
  | moreProcedures _ _ ih ih' =>
      refine .of_plain rfl fun previous => signsFit_append.mpr ⟨?_, ih'.plain rfl _⟩
      refine signsFit_append.mpr ⟨signsFit_append.mpr ⟨?_, ih.plain rfl _⟩, ?_⟩
      · exact signsFit_cons (by decide) rfl (signsFit_cons (by decide) rfl
          (single _ (by decide) rfl _))
      · exact single _ (by decide) rfl _
  | compound _ ih =>
      refine .of_plain rfl fun previous => signsFit_cons (by decide) rfl ?_
      exact signsFit_append.mpr ⟨ih.plain rfl _, single _ (by decide) rfl _⟩
  | lastStatement _ ih => exact .of_plain rfl (ih.plain rfl)
  | moreStatements _ _ ih ih' =>
      refine .of_plain rfl fun previous => ?_
      refine signsFit_append.mpr ⟨signsFit_append.mpr ⟨ih.plain rfl _, ?_⟩, ih'.plain rfl _⟩
      exact single _ (by decide) rfl _
  | nested _ ih => exact .of_plain rfl (ih.plain rfl)
  | assignment _ ih =>
      refine .of_plain rfl fun previous => ?_
      exact signsFit_cons (by decide) rfl (signsFit_cons (by decide) rfl (ih.operand rfl rfl).1)
  | emptyStatement => exact .of_plain rfl fun _ => trivial
  | lastTerm _ ih | lastFactor _ ih => exact ih
  | @moreTerms _ op _ _ additive _ ih ih' =>
      refine ih.joined ih' rfl rfl ?_ ?_ rfl
      · rintro rfl
        cases additive
      · rcases Kind.eq_of_isAdditive additive with rfl | rfl <;> rfl
  | @moreFactors _ op _ _ multiplicative _ ih ih' =>
      refine ih.joined ih' rfl rfl ?_ ?_ rfl
      · rintro rfl
        cases multiplicative
      · rcases Kind.eq_of_isMultiplicative multiplicative with rfl | rfl | rfl <;> rfl
  | signed _ ih =>
      intro previous called
      have operand : SignsFit (some .unarySign) _ ∧ _ := ih.operand rfl rfl
      exact ⟨⟨⟨fun _ => called rfl, fun additive => by cases additive⟩, operand.1⟩,
        fun _ => operand.2⟩
  | integer => exact fun previous _ => ⟨single _ (by decide) rfl _, fun _ => rfl⟩
  | real => exact fun previous _ => ⟨single _ (by decide) rfl _, fun _ => rfl⟩
  | parenthesised _ ih =>
      intro previous _
      have inside : SignsFit (some .openParen) _ ∧ _ := ih.operand rfl rfl
      refine ⟨signsFit_cons (by decide) rfl (signsFit_append.mpr
        ⟨inside.1, single _ (by decide) rfl _⟩), fun _ => ?_⟩
      rw [lastKind_append]
      rfl
  | reference => exact fun previous _ => ⟨single _ (by decide) rfl _, fun _ => rfl⟩

end PascalFrontEnd
