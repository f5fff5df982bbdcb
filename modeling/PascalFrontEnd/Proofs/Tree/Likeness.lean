import Mathlib.Data.List.Forall2
import PascalFrontEnd.Parse.Error
import PascalFrontEnd.Tree.Basic

namespace PascalFrontEnd

class Likeness (T : Token → Token → Prop) : Prop where
  refl (token : Token) : T token token
  kind_eq {token other : Token} : T token other → token.kind = other.kind

instance : Likeness Eq where
  refl _ := rfl
  kind_eq same := congrArg Token.kind same

def NamesAlike (T : Token → Token → Prop) (name other : String) : Prop :=
  ∃ token token', T token token' ∧ token.name = name ∧ token'.name = other

namespace Tree

mutual

def Alike (T : Token → Token → Prop) : Tree → Tree → Prop
  | number token, number token' => T token token'
  | varRef token, varRef token' => T token token'
  | unaryOp op operand, unaryOp op' operand' => T op op' ∧ Alike T operand operand'
  | binOp left op right, binOp left' op' right' =>
      Alike T left left' ∧ T op op' ∧ Alike T right right'
  | assign target value, assign target' value' => T target target' ∧ Alike T value value'
  | compound statements, compound statements' => AllAlike T statements statements'
  | noOp, noOp => True
  | varDecl name typeName, varDecl name' typeName' =>
      NamesAlike T name name' ∧ NamesAlike T typeName typeName'
  | block declarations statements, block declarations' statements' =>
      AllAlike T declarations declarations' ∧ AllAlike T statements statements'
  | procedure name declarations statements, procedure name' declarations' statements' =>
      NamesAlike T name name' ∧ AllAlike T declarations declarations' ∧
        AllAlike T statements statements'
  | program name declarations statements, program name' declarations' statements' =>
      NamesAlike T name name' ∧ AllAlike T declarations declarations' ∧
        AllAlike T statements statements'
  | _, _ => False

def AllAlike (T : Token → Token → Prop) : List Tree → List Tree → Prop
  | [], [] => True
  | tree :: trees, tree' :: trees' => Alike T tree tree' ∧ AllAlike T trees trees'
  | _, _ => False

end

mutual

def map (change : Token → Token) : Tree → Tree
  | number token => number (change token)
  | varRef token => varRef (change token)
  | unaryOp op operand => unaryOp (change op) (operand.map change)
  | binOp left op right => binOp (left.map change) (change op) (right.map change)
  | assign target value => assign (change target) (value.map change)
  | compound statements => compound (mapAll change statements)
  | noOp => noOp
  | varDecl name typeName => varDecl name typeName
  | block declarations statements =>
      block (mapAll change declarations) (mapAll change statements)
  | procedure name declarations statements =>
      procedure name (mapAll change declarations) (mapAll change statements)
  | program name declarations statements =>
      program name (mapAll change declarations) (mapAll change statements)

def mapAll (change : Token → Token) : List Tree → List Tree
  | [] => []
  | tree :: trees => tree.map change :: mapAll change trees

end

end Tree

inductive ParseError.Alike (T : Token → Token → Prop) : ParseError → ParseError → Prop where
  | mismatch (expected : Kind) {found found' : Token} :
      T found found' → Alike T (.ofMismatch expected found) (.ofMismatch expected found')
  | missingSeparator {found found' : Token} :
      T found found' → Alike T (.missingSeparator found) (.missingSeparator found')
  | trailing {found found' : Token} :
      T found found' → Alike T (.trailing found) (.trailing found')

theorem ParseError.Alike.eq {error other : ParseError} (alike : error.Alike Eq other) :
    error = other := by
  cases alike with
  | mismatch expected same => rw [same]
  | missingSeparator same => rw [same]
  | trailing same => rw [same]

theorem NamesAlike.eq {T : Token → Token → Prop} {name other : String}
    (alike : NamesAlike T name other)
    (names : ∀ {token other}, T token other → token.name = other.name) : name = other := by
  rcases alike with ⟨token, token', like, rfl, rfl⟩
  exact names like

section

variable {T : Token → Token → Prop}

theorem namesAlike_refl [Likeness T] (name : String) : NamesAlike T name name :=
  ⟨⟨.identifier, name, none, 1⟩, _, Likeness.refl _, rfl, rfl⟩

namespace Tree

theorem allAlike_iff {trees others : List Tree} :
    AllAlike T trees others ↔ List.Forall₂ (Alike T) trees others := by
  induction trees generalizing others with
  | nil => cases others <;> simp [AllAlike]
  | cons tree trees ih => cases others <;> simp [AllAlike, ih]

mutual

theorem alike_refl [Likeness T] : ∀ tree : Tree, tree.Alike T tree
  | number token | varRef token => Likeness.refl token
  | unaryOp op operand => ⟨Likeness.refl op, alike_refl operand⟩
  | binOp left op right => ⟨alike_refl left, Likeness.refl op, alike_refl right⟩
  | assign target value => ⟨Likeness.refl target, alike_refl value⟩
  | compound statements => allAlike_refl statements
  | noOp => trivial
  | varDecl name typeName => ⟨namesAlike_refl name, namesAlike_refl typeName⟩
  | block declarations statements => ⟨allAlike_refl declarations, allAlike_refl statements⟩
  | procedure name declarations statements
  | program name declarations statements =>
      ⟨namesAlike_refl name, allAlike_refl declarations, allAlike_refl statements⟩

theorem allAlike_refl [Likeness T] : ∀ trees : List Tree, AllAlike T trees trees
  | [] => trivial
  | tree :: trees => ⟨alike_refl tree, allAlike_refl trees⟩

end

/-- Like tokens are exchanged for the same, and have the same names. -/
structure Forgets (T : Token → Token → Prop) (change : Token → Token) : Prop where
  change_eq {token other : Token} : T token other → change token = change other
  name_eq {token other : Token} : T token other → token.name = other.name

mutual

/-- Trees that are alike are equal once their tokens are exchanged for others
in which like tokens do not differ. -/
theorem map_eq_of_alike {change : Token → Token} (forgets : Forgets T change) :
    ∀ {tree other : Tree}, tree.Alike T other → tree.map change = other.map change
  | number token, other, alike => by
      cases other <;> first | exact congrArg number (forgets.change_eq alike) | cases alike
  | varRef token, other, alike => by
      cases other <;> first | exact congrArg varRef (forgets.change_eq alike) | cases alike
  | unaryOp op operand, other, alike => by
      cases other <;>
        first | rw [map, map, forgets.change_eq alike.1, map_eq_of_alike forgets alike.2] | cases alike
  | binOp left op right, other, alike => by
      cases other <;>
        first
        | rw [map, map, map_eq_of_alike forgets alike.1, forgets.change_eq alike.2.1, map_eq_of_alike forgets alike.2.2]
        | cases alike
  | assign target value, other, alike => by
      cases other <;>
        first | rw [map, map, forgets.change_eq alike.1, map_eq_of_alike forgets alike.2] | cases alike
  | compound statements, other, alike => by
      cases other <;> first | exact congrArg compound (mapAll_eq_of_allAlike forgets alike) | cases alike
  | noOp, other, alike => by
      cases other <;> first | rfl | cases alike
  | varDecl name typeName, other, alike => by
      cases other <;> first | rw [alike.1.eq forgets.name_eq, alike.2.eq forgets.name_eq] | cases alike
  | block declarations statements, other, alike => by
      cases other <;>
        first
        | rw [map, map, mapAll_eq_of_allAlike forgets alike.1, mapAll_eq_of_allAlike forgets alike.2]
        | cases alike
  | procedure name declarations statements, other, alike => by
      cases other <;>
        first
        | rw [map, map, alike.1.eq forgets.name_eq, mapAll_eq_of_allAlike forgets alike.2.1,
            mapAll_eq_of_allAlike forgets alike.2.2]
        | cases alike
  | program name declarations statements, other, alike => by
      cases other <;>
        first
        | rw [map, map, alike.1.eq forgets.name_eq, mapAll_eq_of_allAlike forgets alike.2.1,
            mapAll_eq_of_allAlike forgets alike.2.2]
        | cases alike

theorem mapAll_eq_of_allAlike {change : Token → Token} (forgets : Forgets T change) :
    ∀ {trees others : List Tree}, AllAlike T trees others →
      mapAll change trees = mapAll change others
  | [], others, alike => by
      cases others with
      | nil => rfl
      | cons => cases alike
  | tree :: trees, others, alike => by
      cases others with
      | nil => cases alike
      | cons => rw [mapAll, mapAll, map_eq_of_alike forgets alike.1, mapAll_eq_of_allAlike forgets alike.2]

end

mutual

theorem map_id : ∀ tree : Tree, tree.map id = tree
  | number _ | varRef _ | noOp | varDecl _ _ => rfl
  | unaryOp op operand => by rw [map, map_id operand, id]
  | binOp left op right => by rw [map, map_id left, map_id right, id]
  | assign target value => by rw [map, map_id value, id]
  | compound statements => by rw [map, mapAll_id statements]
  | block declarations statements
  | procedure _ declarations statements
  | program _ declarations statements => by
      rw [map, mapAll_id declarations, mapAll_id statements]

theorem mapAll_id : ∀ trees : List Tree, mapAll id trees = trees
  | [] => rfl
  | tree :: trees => by rw [mapAll, map_id tree, mapAll_id trees]

end

theorem eq_of_alike {tree other : Tree} (alike : tree.Alike Eq other) : tree = other := by
  have forgets : Forgets Eq id := ⟨id, congrArg Token.name⟩
  calc tree
      = tree.map id := (map_id tree).symm
    _ = other.map id := map_eq_of_alike forgets alike
    _ = other := map_id other

end Tree

end

end PascalFrontEnd
