import PascalFrontEnd.Proofs.Grammar.Reading

/-!
The last additive operator outside all parentheses splits an expression in two; where
there is none, the last multiplicative one does.
-/

namespace PascalFrontEnd

def Kind.nesting : Kind → Int
  | openParen => 1
  | closeParen => -1
  | _ => 0

def Token.nesting : List Token → Int
  | [] => 0
  | token :: tokens => token.kind.nesting + nesting tokens

/-- The last admitted token at depth zero, between what stands in front of it
and what stands behind it. The depth is the one at which the tokens begin. -/
def lastOutside (admits : Kind → Bool) : Int → List Token → Option (List Token × Token × List Token)
  | _, [] => none
  | depth, token :: tokens =>
      match lastOutside admits (depth + token.kind.nesting) tokens with
      | some (front, last, back) => some (token :: front, last, back)
      | none => if depth = 0 ∧ admits token.kind = true then some ([], token, tokens) else none

def sign? : List Token → Option (Token × List Token)
  | [] => none
  | first :: rest => if first.kind = .unarySign then some (first, rest) else none

def inside? : List Token → Option (List Token)
  | [] => none
  | first :: rest =>
      match rest.getLast? with
      | none => none
      | some last =>
          if first.kind = .openParen ∧ last.kind = .closeParen then some rest.dropLast else none

def leaf? : List Token → Option Tree
  | [token] =>
      match token.kind with
      | .integerLiteral | .realLiteral => some (.number token)
      | .identifier => some (.varRef token)
      | _ => none
  | _ => none

theorem lastOutside_split {admits : Kind → Bool} {depth : Int} {tokens front back : List Token}
    {last : Token} (found : lastOutside admits depth tokens = some (front, last, back)) :
    tokens = front ++ last :: back := by
  induction tokens generalizing depth front with
  | nil => cases found
  | cons token tokens ih =>
      rw [lastOutside] at found
      split at found
      · rename_i further
        cases found
        rw [ih further, List.cons_append]
      · split at found
        · cases found
          rfl
        · cases found

theorem sign?_split {tokens rest : List Token} {sign : Token}
    (signed : sign? tokens = some (sign, rest)) : tokens = sign :: rest := by
  cases tokens with
  | nil => cases signed
  | cons first tokens =>
      rw [sign?] at signed
      split at signed
      · cases signed
        rfl
      · cases signed

theorem inside?_split {tokens inner : List Token} (enclosed : inside? tokens = some inner) :
    ∃ first last, tokens = first :: inner ++ [last] := by
  cases tokens with
  | nil => cases enclosed
  | cons first rest =>
      rw [inside?] at enclosed
      split at enclosed
      · cases enclosed
      · rename_i last ends
        split at enclosed
        · obtain ⟨front, rfl⟩ := List.getLast?_eq_some_iff.mp ends
          rw [List.dropLast_concat, Option.some.injEq] at enclosed
          exact ⟨first, last, by rw [enclosed, List.cons_append]⟩
        · cases enclosed

/-- The weakest operator, between its operands: the last one of a sum, and where
nothing is added the last one of a product. -/
def weakestOperator (tokens : List Token) : Option (List Token × Token × List Token) :=
  (lastOutside Kind.isAdditive 0 tokens).or (lastOutside Kind.isMultiplicative 0 tokens)

theorem weakestOperator_split {tokens left right : List Token} {op : Token}
    (found : weakestOperator tokens = some (left, op, right)) : tokens = left ++ op :: right := by
  rcases Option.or_eq_some_iff.mp found with sum | ⟨-, product⟩
  · exact lastOutside_split sum
  · exact lastOutside_split product

/-- The tree of an expression, found from its weakest operator down. -/
def weakestFirst (tokens : List Token) : Option Tree :=
  match _operator : weakestOperator tokens with
  | some (left, op, right) => do
      return .binOp (← weakestFirst left) op (← weakestFirst right)
  | none =>
      match _signed : sign? tokens with
      | some (sign, operand) => do
          return .unaryOp sign (← weakestFirst operand)
      | none =>
          match _enclosed : inside? tokens with
          | some inner => weakestFirst inner
          | none => leaf? tokens
termination_by tokens.length
decreasing_by
  · rw [weakestOperator_split _operator, List.length_append, List.length_cons]
    omega
  · rw [weakestOperator_split _operator, List.length_append, List.length_cons]
    omega
  · rw [sign?_split _signed]
    exact Nat.lt_succ_self _
  · obtain ⟨_, _, shape⟩ := inside?_split _enclosed
    rw [shape, List.length_append, List.length_cons]
    omega

section

variable {admits : Kind → Bool} {depth : Int} {left right tokens : List Token} {op token : Token}

theorem Token.nesting_cons (token : Token) (tokens : List Token) :
    Token.nesting (token :: tokens) = token.kind.nesting + Token.nesting tokens := rfl

theorem Token.nesting_append (tokens more : List Token) :
    Token.nesting (tokens ++ more) = Token.nesting tokens + Token.nesting more := by
  induction tokens with
  | nil => exact (Int.zero_add _).symm
  | cons token tokens ih => rw [List.cons_append, nesting, ih, nesting, Int.add_assoc]

theorem lastOutside_cons_none (back : lastOutside admits (depth + token.kind.nesting) tokens = none)
    (passed : depth = 0 → admits token.kind = false) :
    lastOutside admits depth (token :: tokens) = none := by
  rw [lastOutside, back]
  refine if_neg fun here => ?_
  rw [passed here.1] at here
  exact Bool.false_ne_true here.2

/-- Where neither part has an admitted token outside, the whole has none. -/
theorem lastOutside_append_none (front : lastOutside admits depth left = none)
    (back : lastOutside admits (depth + Token.nesting left) right = none) :
    lastOutside admits depth (left ++ right) = none := by
  induction left generalizing depth with
  | nil => simpa [Token.nesting] using back
  | cons token left ih =>
      rw [lastOutside] at front
      split at front
      · cases front
      · rename_i further
        rw [Token.nesting_cons, ← Int.add_assoc] at back
        refine lastOutside_cons_none (ih further back) fun here => ?_
        simpa [here] using front

theorem lastOutside_append_cons (closed : depth + Token.nesting left = 0)
    (admitted : admits op.kind = true) (level : op.kind.nesting = 0)
    (back : lastOutside admits 0 right = none) :
    lastOutside admits depth (left ++ op :: right) = some (left, op, right) := by
  induction left generalizing depth with
  | nil =>
      have here : depth = 0 := by simpa [Token.nesting] using closed
      rw [List.nil_append, lastOutside, level, here, Int.add_zero, back]
      simp [admitted]
  | cons token left ih =>
      rw [Token.nesting_cons, ← Int.add_assoc] at closed
      rw [List.cons_append, lastOutside, ih closed]

/-- Parentheses are closed where they are opened: behind the tokens the depth is
as before, and inside parentheses nothing of them is outside. -/
structure Enclosed (tokens : List Token) : Prop where
  nesting : Token.nesting tokens = 0
  inside (admits : Kind → Bool) {depth : Int} : 0 < depth → lastOutside admits depth tokens = none

theorem Enclosed.append (first : Enclosed left) (second : Enclosed right) :
    Enclosed (left ++ right) where
  nesting := by rw [Token.nesting_append, first.nesting, second.nesting, Int.add_zero]
  inside admits depth deep := by
    refine lastOutside_append_none (first.inside admits deep) ?_
    rw [first.nesting, Int.add_zero]
    exact second.inside admits deep

theorem Enclosed.single (level : token.kind.nesting = 0) : Enclosed [token] where
  nesting := by simp [Token.nesting, level]
  inside admits depth deep :=
    lastOutside_cons_none rfl fun here => absurd here (Int.ne_of_gt deep)

section

variable {first last : Token}

theorem Enclosed.lastOutside_parenthesised (enclosed : Enclosed tokens)
    (opens : first.kind = .openParen) (above : 0 ≤ depth)
    (passed : depth = 0 → admits .openParen = false) :
    lastOutside admits depth (first :: tokens ++ [last]) = none := by
  refine lastOutside_cons_none ?_ (by rwa [opens])
  rw [opens]
  have deep : 0 < depth + Kind.openParen.nesting := Int.lt_add_one_of_le above
  refine lastOutside_append_none (enclosed.inside admits deep) ?_
  rw [enclosed.nesting, Int.add_zero]
  exact lastOutside_cons_none rfl fun here => absurd here (Int.ne_of_gt deep)

theorem Enclosed.parenthesised (enclosed : Enclosed tokens) (opens : first.kind = .openParen)
    (closes : last.kind = .closeParen) : Enclosed (first :: tokens ++ [last]) where
  nesting := by
    rw [List.cons_append, Token.nesting_cons, Token.nesting_append, enclosed.nesting, opens]
    simp [Token.nesting, closes, Kind.nesting]
  inside admits depth deep :=
    enclosed.lastOutside_parenthesised opens (Int.le_of_lt deep)
      fun here => absurd here (Int.ne_of_gt deep)

end

end

theorem Kind.nesting_of_isAdditive {kind : Kind} (additive : kind.isAdditive = true) :
    kind.nesting = 0 ∧ kind.isMultiplicative = false := by
  rcases eq_of_isAdditive additive with rfl | rfl <;> exact ⟨rfl, rfl⟩

theorem Kind.nesting_of_isMultiplicative {kind : Kind}
    (multiplicative : kind.isMultiplicative = true) :
    kind.nesting = 0 ∧ kind.isAdditive = false := by
  rcases eq_of_isMultiplicative multiplicative with rfl | rfl | rfl <;> exact ⟨rfl, rfl⟩

def Nonterminal.Encloses : Nonterminal → List Token → Prop
  | .expression, tokens => Enclosed tokens
  | .term, tokens => Enclosed tokens ∧ lastOutside Kind.isAdditive 0 tokens = none
  | .factor, tokens => Enclosed tokens ∧ lastOutside Kind.isAdditive 0 tokens = none ∧
      lastOutside Kind.isMultiplicative 0 tokens = none
  | _, _ => True

theorem encloses_leaf {token : Token} (level : token.kind.nesting = 0)
    (noSum : token.kind.isAdditive = false) (noProduct : token.kind.isMultiplicative = false) :
    Nonterminal.factor.Encloses [token] :=
  ⟨.single level, lastOutside_cons_none rfl fun _ => noSum,
    lastOutside_cons_none rfl fun _ => noProduct⟩

theorem Reads.encloses {symbol : Nonterminal} {tokens : List Token} {value : symbol.Value}
    (read : Reads symbol tokens value) : symbol.Encloses tokens := by
  induction read with
  | onlyTerm _ ih => exact ih.1
  | sum _ additive _ ih ih' =>
      exact (ih.append (.single (Kind.nesting_of_isAdditive additive).1)).append ih'.1
  | onlyFactor _ ih => exact ⟨ih.1, ih.2.1⟩
  | product _ multiplicative _ ih ih' =>
      obtain ⟨level, noSum⟩ := Kind.nesting_of_isMultiplicative multiplicative
      have front := ih.1.append (.single level)
      refine ⟨front.append ih'.1, lastOutside_append_none ?_ ?_⟩
      · refine lastOutside_append_none ih.2 ?_
        rw [ih.1.nesting]
        exact lastOutside_cons_none rfl fun _ => noSum
      · rw [front.nesting]
        exact ih'.2.1
  | signed sign _ ih =>
      have level : Kind.unarySign.nesting = 0 := rfl
      refine ⟨Enclosed.append (.single (sign ▸ level)) ih.1, lastOutside_cons_none ?_ ?_,
        lastOutside_cons_none ?_ ?_⟩ <;> rw [sign]
      · exact ih.2.1
      · exact fun _ => rfl
      · exact ih.2.2
      · exact fun _ => rfl
  | integer kind | real kind | reference kind =>
      exact encloses_leaf (by rw [kind]; rfl) (by rw [kind]; rfl) (by rw [kind]; rfl)
  | parenthesised opens _ closes ih =>
      exact ⟨ih.parenthesised opens closes,
        ih.lastOutside_parenthesised opens (Int.le_refl 0) fun _ => rfl,
        ih.lastOutside_parenthesised opens (Int.le_refl 0) fun _ => rfl⟩
  | _ => trivial

theorem weakestFirst_eq (tokens : List Token) :
    weakestFirst tokens =
      match weakestOperator tokens with
      | some (left, op, right) => do
          return .binOp (← weakestFirst left) op (← weakestFirst right)
      | none =>
          match sign? tokens with
          | some (sign, operand) => do
              return .unaryOp sign (← weakestFirst operand)
          | none =>
              match inside? tokens with
              | some inner => weakestFirst inner
              | none => leaf? tokens := by
  rw [weakestFirst]
  split
  · rename_i found
    rw [found]
  · rename_i noOperator
    rw [noOperator]
    split
    · rename_i signed
      rw [signed]
    · rename_i unsigned
      rw [unsigned]
      split
      · rename_i enclosed
        rw [enclosed]
      · rename_i bare
        rw [bare]

theorem inside?_parenthesised {first last : Token} {inner : List Token}
    (opens : first.kind = .openParen) (closes : last.kind = .closeParen) :
    inside? (first :: inner ++ [last]) = some inner := by
  rw [List.cons_append, inside?, List.getLast?_concat, List.dropLast_concat]
  exact if_pos ⟨opens, closes⟩

def Nonterminal.FoundByWeakest : (symbol : Nonterminal) → List Token → symbol.Value → Prop
  | .expression, tokens, tree | .term, tokens, tree | .factor, tokens, tree =>
      weakestFirst tokens = some tree
  | _, _, _ => True

theorem weakestOperator_of_factor {tokens : List Token} {tree : Tree}
    (read : Reads .factor tokens tree) : weakestOperator tokens = none :=
  Option.or_eq_none_iff.mpr read.encloses.2

theorem weakestFirst_leaf {token : Token} {tree : Tree} (read : Reads .factor [token] tree)
    (unsigned : token.kind ≠ .unarySign) (leaf : leaf? [token] = some tree) :
    weakestFirst [token] = some tree := by
  have noSign : sign? [token] = none := if_neg unsigned
  have bare : inside? [token] = none := by
    cases enclosed : inside? [token] with
    | none => rfl
    | some inner =>
        obtain ⟨first, last, shape⟩ := inside?_split enclosed
        have length := congrArg List.length shape
        simp at length
  rw [weakestFirst_eq, weakestOperator_of_factor read, noSign, bare]
  exact leaf

theorem Reads.foundByWeakest {symbol : Nonterminal} {tokens : List Token} {value : symbol.Value}
    (read : Reads symbol tokens value) : symbol.FoundByWeakest tokens value := by
  induction read with
  | onlyTerm _ ih | onlyFactor _ ih => exact ih
  | @sum op left right _ _ first additive second ih ih' =>
      -- The term behind the operator has no sum outside, so that this operator is the last.
      have level := (Kind.nesting_of_isAdditive additive).1
      have split : lastOutside Kind.isAdditive 0 (left ++ op :: right) = some (left, op, right) :=
        lastOutside_append_cons (by rw [first.encloses.nesting]; rfl) additive level
          second.encloses.2
      have found : weakestFirst left = some _ := ih
      have found' : weakestFirst right = some _ := ih'
      show weakestFirst (left ++ [op] ++ right) = _
      rw [List.append_assoc, List.singleton_append, weakestFirst_eq, weakestOperator, split]
      simp only [Option.some_or, found, found']
      rfl
  | @product op left right _ _ first multiplicative second ih ih' =>
      have level := (Kind.nesting_of_isMultiplicative multiplicative).1
      have noSum := (Reads.product first multiplicative second).encloses.2
      have split : lastOutside Kind.isMultiplicative 0 (left ++ op :: right) =
          some (left, op, right) :=
        lastOutside_append_cons (by rw [first.encloses.1.nesting]; rfl) multiplicative level
          second.encloses.2.2
      have found : weakestFirst left = some _ := ih
      have found' : weakestFirst right = some _ := ih'
      show weakestFirst (left ++ [op] ++ right) = _
      rw [List.append_assoc, List.singleton_append] at noSum ⊢
      rw [weakestFirst_eq, weakestOperator, noSum, split]
      simp only [Option.none_or, found, found']
      rfl
  | @signed sign tokens _ kind read ih =>
      have found : weakestFirst tokens = some _ := ih
      have signed : sign? (sign :: tokens) = some (sign, tokens) := if_pos kind
      show weakestFirst (sign :: tokens) = _
      rw [weakestFirst_eq, weakestOperator_of_factor (.signed kind read), signed]
      simp only [found]
      rfl
  | @integer token kind =>
      exact weakestFirst_leaf (.integer kind) (by rw [kind]; decide) (by simp only [leaf?, kind])
  | @real token kind =>
      exact weakestFirst_leaf (.real kind) (by rw [kind]; decide) (by simp only [leaf?, kind])
  | @reference token kind =>
      exact weakestFirst_leaf (.reference kind) (by rw [kind]; decide) (by simp only [leaf?, kind])
  | @parenthesised first last tokens _ opens read closes ih =>
      have unsigned : sign? (first :: tokens ++ [last]) = none :=
        if_neg (by rw [opens]; decide)
      show weakestFirst (first :: tokens ++ [last]) = _
      rw [weakestFirst_eq, weakestOperator_of_factor (.parenthesised opens read closes), unsigned,
        inside?_parenthesised opens closes]
      exact ih
  | _ => trivial

end PascalFrontEnd
