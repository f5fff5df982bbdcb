import Mathlib.Algebra.Group.Nat.Defs
import PascalFrontEnd.Proofs.Grammar.Reading
import PascalFrontEnd.Tree.Tally
import PascalFrontEnd.Tree.Walk

namespace PascalFrontEnd

namespace Tree

def word? (count : Nat) : Option Int32 :=
  if count < 2 ^ 31 then some (Int32.ofNat count) else none

variable {count more : Nat}

theorem word?_of_lt (fits : count < 2 ^ 31) : word? count = some (Int32.ofNat count) :=
  if_pos fits

theorem word?_of_le (beyond : 2 ^ 31 ≤ count) : word? count = none :=
  if_neg (Nat.not_lt.mpr beyond)

theorem checkedAdd_ofNat (fits : count < 2 ^ 31) (fits' : more < 2 ^ 31) :
    checkedAdd (Int32.ofNat count) (Int32.ofNat more) = word? (count + more) := by
  have sum : (Int32.ofNat count).toInt + (Int32.ofNat more).toInt = ((count + more : Nat) : Int) := by
    rw [Int32.toInt_ofNat_of_lt fits, Int32.toInt_ofNat_of_lt fits', Int.natCast_add]
  -- Neither word is negative, so that only the upper bound is ever reached.
  have room : (Int32.minValue.toInt ≤ ((count + more : Nat) : Int) ∧
      ((count + more : Nat) : Int) ≤ Int32.maxValue.toInt) ↔ count + more < 2 ^ 31 := by
    rw [Int32.toInt_minValue, Int32.toInt_maxValue]
    omega
  simp only [checkedAdd, sum, room, Int32.ofInt_eq_ofNat, word?]

/-- Counts that do not fit have no sum that does, so that checking every sum is no
more than checking the last one. -/
theorem sum_word? (count more : Nat) :
    (do checkedAdd (← word? count) (← word? more)) = word? (count + more) := by
  by_cases fits : count < 2 ^ 31
  · by_cases fits' : more < 2 ^ 31
    · rw [word?_of_lt fits, word?_of_lt fits']
      exact checkedAdd_ofNat fits fits'
    · have beyond : 2 ^ 31 ≤ more := Nat.not_lt.mp fits'
      rw [word?_of_lt fits, word?_of_le beyond, word?_of_le (Nat.le_add_left_of_le beyond)]
      rfl
  · have beyond : 2 ^ 31 ≤ count := Nat.not_lt.mp fits
    rw [word?_of_le beyond, word?_of_le (Nat.le_add_right_of_le beyond)]
    rfl

theorem countNode_word? (count : Nat) : countNode (word? count) = word? (count + 1) := by
  rw [Nat.add_comm]
  exact sum_word? 1 count

theorem countBlock_word? (count more : Nat) :
    countBlock (word? count) (word? more) = word? (count + (more + 1) + 1) := by
  rw [countBlock, countNode_word?, countNode_word?, Nat.add_right_comm]
  exact sum_word? _ _

theorem tallyAll_zero {trees : List Tree}
    (total : (do tallyAll (← word? 0) trees) = word? (0 + count)) :
    tallyAll 0 trees = word? count := by
  rw [Nat.zero_add] at total
  exact total

mutual

/-- The tally is the length of the walk, on whatever depth that begins. -/
theorem tally_eq (depth : Nat) : ∀ tree : Tree, tree.tally = word? (tree.walkAt depth).length
  | number _ | varRef _ | noOp | varDecl _ _ => rfl
  | unaryOp _ operand => by
      rw [tally, tally_eq (depth + 1) operand, countNode_word?, walkAt, List.length_cons]
  | binOp left _ right => by
      rw [tally, tally_eq (depth + 1) left, tally_eq (depth + 1) right, countNode_word?, sum_word?,
        walkAt, List.length_cons, List.length_append, Nat.add_right_comm]
  | assign target value => by
      have first : (some 1 : Option Int32) = word? 1 := rfl
      rw [tally, tally_eq (depth + 1) value, first, countNode_word?, sum_word?, walkAt,
        List.length_cons, List.length_cons, Nat.add_comm]
  | compound statements => by
      rw [tally, tallyAll_zero (tallyAll_eq (depth + 1) 0 statements), countNode_word?, walkAt,
        List.length_cons]
  | block declarations statements => by
      rw [tally, tallyAll_zero (tallyAll_eq (depth + 1) 0 declarations),
        tallyAll_zero (tallyAll_eq (depth + 2) 0 statements), countBlock_word?, walkAt,
        List.length_cons, List.length_append, List.length_cons]
  | procedure _ declarations statements | program _ declarations statements => by
      rw [tally, tallyAll_zero (tallyAll_eq (depth + 2) 0 declarations),
        tallyAll_zero (tallyAll_eq (depth + 3) 0 statements), countBlock_word?, countNode_word?,
        walkAt, List.length_cons, List.length_cons, List.length_append, List.length_cons]

theorem tallyAll_eq (depth count : Nat) : ∀ trees : List Tree,
    (do tallyAll (← word? count) trees) = word? (count + (walkAllAt depth trees).length)
  | [] => by
      cases total : word? count <;> exact total.symm
  | tree :: trees => by
      -- The running total has taken the first tree in when the others are counted.
      rw [walkAllAt, List.length_append, ← Nat.add_assoc, ← tallyAll_eq depth _ trees,
        ← sum_word?, ← tally_eq depth tree]
      simp only [tallyAll, bind_assoc]

end

end Tree

def Token.openings (tokens : List Token) : Nat :=
  tokens.countP (·.kind == .openParen)

/-- Every token is a node of the tree, but for the parentheses, which come in pairs. -/
def Tree.Measures (tree : Tree) (tokens : List Token) : Prop :=
  ∀ depth, (tree.walkAt depth).length + 2 * Token.openings tokens = tokens.length

def Nonterminal.Measured : (symbol : Nonterminal) → List Token → symbol.Value → Prop
  | .expression, tokens, tree | .term, tokens, tree | .factor, tokens, tree => tree.Measures tokens
  | _, _, _ => True

theorem Kind.ne_openParen_of_isAdditive {kind : Kind} (additive : kind.isAdditive = true) :
    kind ≠ .openParen := by
  rintro rfl
  cases additive

theorem Kind.ne_openParen_of_isMultiplicative {kind : Kind}
    (multiplicative : kind.isMultiplicative = true) : kind ≠ .openParen := by
  rintro rfl
  cases multiplicative

section

variable {front back tokens : List Token} {token op first last : Token} {tree left right : Tree}

theorem Token.openings_append :
    openings (front ++ back) = openings front + openings back :=
  List.countP_append

theorem Token.openings_cons_of_ne (other : token.kind ≠ .openParen) :
    openings (token :: tokens) = openings tokens :=
  List.countP_cons_of_neg (by simpa using other)

theorem Token.openings_cons_of_eq (opens : token.kind = .openParen) :
    openings (token :: tokens) = openings tokens + 1 :=
  List.countP_cons_of_pos (by simpa using opens)

theorem Tree.measures_leaf (other : token.kind ≠ .openParen)
    (leaf : ∀ depth, (tree.walkAt depth).length = 1) : tree.Measures [token] := by
  intro depth
  rw [leaf, Token.openings_cons_of_ne other]
  rfl

theorem Tree.Measures.signed (measures : tree.Measures tokens) (other : op.kind ≠ .openParen) :
    (Tree.unaryOp op tree).Measures (op :: tokens) := by
  intro depth
  have operand := measures (depth + 1)
  rw [Tree.walkAt, List.length_cons, List.length_cons, Token.openings_cons_of_ne other]
  omega

theorem Tree.Measures.joined (measures : left.Measures front) (other : op.kind ≠ .openParen)
    (measures' : right.Measures back) :
    (Tree.binOp left op right).Measures (front ++ [op] ++ back) := by
  intro depth
  have here := measures (depth + 1)
  have there := measures' (depth + 1)
  rw [List.append_assoc, List.singleton_append, Token.openings_append,
    Token.openings_cons_of_ne other, Tree.walkAt]
  simp only [List.length_cons, List.length_append]
  omega

theorem Tree.Measures.parenthesised (measures : tree.Measures tokens)
    (opens : first.kind = .openParen) (closes : last.kind ≠ .openParen) :
    tree.Measures (first :: tokens ++ [last]) := by
  intro depth
  have inner := measures depth
  rw [List.cons_append, Token.openings_cons_of_eq opens, Token.openings_append,
    Token.openings_cons_of_ne closes, List.length_cons, List.length_append]
  simp only [Token.openings, List.countP_nil, List.length_singleton] at inner ⊢
  omega

end

theorem Reads.measured {symbol : Nonterminal} {tokens : List Token} {value : symbol.Value}
    (read : Reads symbol tokens value) : symbol.Measured tokens value := by
  induction read with
  | onlyTerm _ ih | onlyFactor _ ih => exact ih
  | sum _ additive _ ih ih' =>
      exact Tree.Measures.joined ih (Kind.ne_openParen_of_isAdditive additive) ih'
  | product _ multiplicative _ ih ih' =>
      exact Tree.Measures.joined ih (Kind.ne_openParen_of_isMultiplicative multiplicative) ih'
  | signed sign _ ih => exact Tree.Measures.signed ih (by rw [sign]; decide)
  | integer kind | real kind | reference kind =>
      exact Tree.measures_leaf (by rw [kind]; decide) fun _ => rfl
  | parenthesised opens _ closes ih =>
      exact Tree.Measures.parenthesised ih opens (by rw [closes]; decide)
  | _ => trivial

end PascalFrontEnd
