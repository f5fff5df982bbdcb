import PascalFrontEnd.Proofs.Tree.Likeness
import PascalFrontEnd.Proofs.Tree.Mentions
import PascalFrontEnd.Proofs.Tree.Text
import PascalFrontEnd.Tree.Same
import PascalFrontEnd.Tree.Tally

/-!
Two trees are the same when they are equal once negative zeros are exchanged for positive
ones, and neither holds a NaN.
-/

namespace PascalFrontEnd

namespace Binary64

/-- The number, with positive zero in place of negative zero. -/
def canonical (x : Binary64) : Binary64 :=
  if x.magnitude = 0 then ⟨0⟩ else x

variable {x y : Binary64}

theorem canonical_of_zero (zero : x.magnitude = 0) : x.canonical = ⟨0⟩ :=
  if_pos zero

theorem canonical_of_ne_zero (other : x.magnitude ≠ 0) : x.canonical = x :=
  if_neg other

theorem magnitude_canonical (x : Binary64) : x.canonical.magnitude = x.magnitude := by
  by_cases zero : x.magnitude = 0
  · rw [canonical_of_zero zero, zero]
    rfl
  · rw [canonical_of_ne_zero zero]

/-- Equal patterns and the two zeros are what the canonical form makes equal. -/
theorem canonical_eq_iff :
    x.canonical = y.canonical ↔ x.bits = y.bits ∨ x.magnitude = 0 ∧ y.magnitude = 0 := by
  constructor
  · intro equal
    have magnitudes : x.magnitude = y.magnitude := by
      rw [← magnitude_canonical x, equal, magnitude_canonical]
    by_cases zero : x.magnitude = 0
    · exact .inr ⟨zero, magnitudes ▸ zero⟩
    · rw [canonical_of_ne_zero zero, canonical_of_ne_zero (magnitudes ▸ zero)] at equal
      exact .inl (congrArg bits equal)
  · intro equal
    rcases equal with patterns | ⟨zero, zero'⟩
    · have identical : x = y := congrArg mk patterns
      rw [identical]
    · rw [canonical_of_zero zero, canonical_of_zero zero']

theorem same_iff :
    x.same y = true ↔ x.canonical = y.canonical ∧ x.isNaN = false ∧ y.isNaN = false := by
  simp only [same, Bool.and_eq_true, Bool.not_eq_true', Bool.or_eq_true, beq_iff_eq,
    canonical_eq_iff]
  exact and_comm

end Binary64

namespace Value

def canonical : Value → Value
  | real x => real x.canonical
  | value => value

def isNaN : Value → Bool
  | real x => x.isNaN
  | _ => false

theorem same_iff {value other : Value} :
    value.same other = true ↔
      value.canonical = other.canonical ∧ value.isNaN = false ∧ other.isNaN = false := by
  cases value <;> cases other <;> simp [same, canonical, isNaN, Binary64.same_iff]

end Value

namespace Token

def canonical (token : Token) : Token :=
  { token with value := token.value.map Value.canonical }

def holdsNaN (token : Token) : Bool :=
  token.value.any Value.isNaN

theorem same_iff {token other : Token} :
    token.same other = true ↔
      token.canonical = other.canonical ∧ token.holdsNaN = false ∧ other.holdsNaN = false := by
  rcases token with ⟨kind, raw, value, line⟩
  rcases other with ⟨kind', raw', value', line'⟩
  cases value <;> cases value' <;>
    simp only [same, canonical, holdsNaN, Value.same_iff, Bool.and_eq_true, beq_iff_eq, mk.injEq,
      Option.map_none, Option.map_some, Option.any_none, Option.any_some, Option.some.injEq,
      reduceCtorEq] <;>
    tauto

theorem name_canonical (token : Token) : token.canonical.name = token.name := by
  rcases token with ⟨kind, raw, value, line⟩
  rcases value with _ | _ | _ | _ <;> rfl

end Token

def FreeOfNaN (listed : List Mention) : Prop :=
  ∀ token, Mention.token token ∈ listed → token.holdsNaN = false

section

variable {listed more : List Mention}

@[simp] theorem freeOfNaN_nil : FreeOfNaN [] := by
  simp [FreeOfNaN]

@[simp] theorem freeOfNaN_append :
    FreeOfNaN (listed ++ more) ↔ FreeOfNaN listed ∧ FreeOfNaN more := by
  simp [FreeOfNaN, or_imp, forall_and]

@[simp] theorem freeOfNaN_token {token : Token} :
    FreeOfNaN (.token token :: listed) ↔ token.holdsNaN = false ∧ FreeOfNaN listed := by
  simp [FreeOfNaN, or_imp, forall_and]

@[simp] theorem freeOfNaN_name {name : String} :
    FreeOfNaN (.name name :: listed) ↔ FreeOfNaN listed := by
  simp [FreeOfNaN]

@[simp] theorem freeOfNaN_declared {name typeName : String} :
    FreeOfNaN (.declared name typeName :: listed) ↔ FreeOfNaN listed := by
  simp [FreeOfNaN]

end

namespace Tree

mutual

/-- Trees are the same when their canonical forms are equal and hold no NaN. -/
theorem same_iff : ∀ tree other : Tree,
    tree.same other = true ↔ tree.map Token.canonical = other.map Token.canonical ∧
      FreeOfNaN tree.mentions ∧ FreeOfNaN other.mentions
  | number token, other => by
      -- Trees of two sorts are never the same, and no change of tokens makes them equal.
      cases other with
      | number => simp [same, map, mentions, Token.same_iff]
      | _ => simp [same, map]
  | varRef token, other => by
      cases other with
      | varRef => simp [same, map, mentions, Token.same_iff]
      | _ => simp [same, map]
  | unaryOp op operand, other => by
      cases other with
      | unaryOp =>
          simp only [same, Bool.and_eq_true, Token.same_iff, same_iff operand, map,
            unaryOp.injEq, mentions, freeOfNaN_token]
          tauto
      | _ => simp [same, map]
  | binOp left op right, other => by
      cases other with
      | binOp =>
          simp only [same, Bool.and_eq_true, Token.same_iff, same_iff left,
            same_iff right, map, binOp.injEq, mentions, freeOfNaN_append, freeOfNaN_token]
          tauto
      | _ => simp [same, map]
  | assign target value, other => by
      cases other with
      | assign =>
          simp only [same, Bool.and_eq_true, Token.same_iff, same_iff value, map,
            assign.injEq, mentions, freeOfNaN_token]
          tauto
      | _ => simp [same, map]
  | compound statements, other => by
      cases other with
      | compound => simp [same, map, mentions, sameAll_iff statements]
      | _ => simp [same, map]
  | noOp, other => by
      cases other with
      | noOp => simp [same, mentions]
      | _ => simp [same, map]
  | varDecl name typeName, other => by
      cases other with
      | varDecl => simp [same, map, mentions]
      | _ => simp [same, map]
  | block declarations statements, other => by
      cases other with
      | block =>
          simp only [same, Bool.and_eq_true, sameAll_iff declarations,
            sameAll_iff statements, map, block.injEq, mentions, freeOfNaN_append]
          tauto
      | _ => simp [same, map]
  | procedure name declarations statements, other => by
      cases other with
      | procedure =>
          simp only [same, Bool.and_eq_true, beq_iff_eq, sameAll_iff declarations,
            sameAll_iff statements, map, procedure.injEq, mentions, freeOfNaN_name,
            freeOfNaN_append]
          tauto
      | _ => simp [same, map]
  | program name declarations statements, other => by
      cases other with
      | program =>
          simp only [same, Bool.and_eq_true, beq_iff_eq, sameAll_iff declarations,
            sameAll_iff statements, map, program.injEq, mentions, freeOfNaN_name,
            freeOfNaN_append]
          tauto
      | _ => simp [same, map]

theorem sameAll_iff : ∀ trees others : List Tree,
    sameAll trees others = true ↔ mapAll Token.canonical trees = mapAll Token.canonical others ∧
      FreeOfNaN (mentionsAll trees) ∧ FreeOfNaN (mentionsAll others)
  | [], others => by
      cases others with
      | nil => simp [sameAll, mentionsAll]
      | cons => simp [sameAll, mapAll]
  | tree :: trees, others => by
      cases others with
      | nil => simp [sameAll, mapAll]
      | cons =>
          simp only [sameAll, Bool.and_eq_true, same_iff tree,
            sameAll_iff trees, mapAll, List.cons.injEq, mentionsAll, freeOfNaN_append]
          tauto

end

theorem kindName_map (change : Token → Token) (tree : Tree) :
    (tree.map change).kindName = tree.kindName := by
  cases tree <;> rfl

mutual

theorem tally_map (change : Token → Token) : ∀ tree : Tree,
    (tree.map change).tally = tree.tally
  | number _ | varRef _ | noOp | varDecl _ _ => rfl
  | unaryOp _ operand => by rw [map, tally, tally, tally_map change operand]
  | binOp left _ right => by rw [map, tally, tally, tally_map change left, tally_map change right]
  | assign _ value => by rw [map, tally, tally, tally_map change value]
  | compound statements => by rw [map, tally, tally, tallyAll_map change 0 statements]
  | block declarations statements | procedure _ declarations statements
  | program _ declarations statements => by
      rw [map, tally, tally, tallyAll_map change 0 declarations, tallyAll_map change 0 statements]

theorem tallyAll_map (change : Token → Token) (total : Int32) : ∀ trees : List Tree,
    tallyAll total (mapAll change trees) = tallyAll total trees
  | [] => rfl
  | tree :: trees => by
      simp only [mapAll, tallyAll, tally_map change tree, tallyAll_map change _ trees]

end

structure Prints (change : Token → Token) : Prop where
  raw (token : Token) : (change token).raw = token.raw
  name (token : Token) : (change token).name = token.name

theorem prints_canonical : Prints Token.canonical where
  raw _ := rfl
  name := Token.name_canonical

mutual

/-- What is printed does not depend on what else the tokens hold. -/
theorem render_map {change : Token → Token} (prints : Prints change) : ∀ tree : Tree,
    (tree.map change).render = tree.render
  | number token | varRef token => by
      simp only [render_eq, map, opening, body, prints.raw, prints.name]
  | noOp | varDecl _ _ => rfl
  | unaryOp op operand => by
      rw [render_eq, render_eq (unaryOp op operand)]
      simp only [map, opening, body, prints.raw, render_map prints operand]
  | binOp left op right => by
      rw [render_eq, render_eq (binOp left op right)]
      simp only [map, opening, body, prints.raw, render_map prints left, render_map prints right]
  | assign target value => by
      rw [render_eq, render_eq (assign target value)]
      simp only [map, opening, body, prints.name, render_map prints value]
  | compound statements => by
      simp only [render_eq, map, opening, body, renderAll_map prints statements]
  | block declarations statements | procedure _ declarations statements
  | program _ declarations statements => by
      simp only [render_eq, map, opening, body, renderAll_map prints declarations,
        renderAll_map prints statements]

theorem renderAll_map {change : Token → Token} (prints : Prints change) : ∀ trees : List Tree,
    renderAll (mapAll change trees) = renderAll trees
  | [] => rfl
  | [tree] => by
      rw [mapAll, mapAll, renderAll_cons, renderAll_cons, render_map prints tree]
  | tree :: next :: trees => by
      have behind : separator ++ renderAll (mapAll change (next :: trees)) =
          separator ++ renderAll (next :: trees) := by
        rw [renderAll_map prints (next :: trees)]
      rw [mapAll, renderAll_cons, renderAll_cons, render_map prints tree]
      exact congrArg (tree.render ++ ·) behind

end

variable {tree other third : Tree}

theorem same_symm (same : tree.same other = true) : other.same tree = true := by
  obtain ⟨equal, free, free'⟩ := (same_iff _ _).mp same
  exact (same_iff _ _).mpr ⟨equal.symm, free', free⟩

theorem same_trans (same : tree.same other = true) (same' : other.same third = true) :
    tree.same third = true := by
  obtain ⟨equal, free, -⟩ := (same_iff _ _).mp same
  obtain ⟨equal', -, free'⟩ := (same_iff _ _).mp same'
  exact (same_iff _ _).mpr ⟨equal.trans equal', free, free'⟩

theorem same_self_iff : tree.same tree = true ↔ FreeOfNaN tree.mentions := by
  rw [same_iff, and_self]
  exact and_iff_right rfl

end Tree

end PascalFrontEnd
