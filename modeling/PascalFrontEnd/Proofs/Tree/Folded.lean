import PascalFrontEnd.Proofs.Token.AnyCase
import PascalFrontEnd.Proofs.Tree.Regular

namespace PascalFrontEnd

theorem NamesAlike.foldCase_eq {name other : String} (alike : NamesAlike SameButCase name other) :
    foldCase name = foldCase other := by
  rcases alike with ⟨token, token', same, rfl, rfl⟩
  exact same.name_eq

theorem NamesAlike.typeName_eq {type other : String} (alike : NamesAlike SameButCase type other)
    (typed : IsTypeName type) (typed' : IsTypeName other) : type = other := by
  have same := alike.foldCase_eq
  rcases typed with rfl | rfl <;> rcases typed' with rfl | rfl
  · rfl
  · exact absurd same (by decide)
  · exact absurd same (by decide)
  · rfl

namespace Tree

mutual

def folded : Tree → Tree
  | number token => number token.folded
  | varRef token => varRef token.folded
  | unaryOp op operand => unaryOp op.folded operand.folded
  | binOp left op right => binOp left.folded op.folded right.folded
  | assign target value => assign target.folded value.folded
  | compound statements => compound (foldedAll statements)
  | noOp => noOp
  | varDecl name typeName => varDecl (foldCase name) typeName
  | block declarations statements => block (foldedAll declarations) (foldedAll statements)
  | procedure name declarations statements =>
      procedure (foldCase name) (foldedAll declarations) (foldedAll statements)
  | program name declarations statements =>
      program (foldCase name) (foldedAll declarations) (foldedAll statements)

def foldedAll : List Tree → List Tree
  | [] => []
  | tree :: trees => tree.folded :: foldedAll trees

end

def Sound (tree : Tree) : Prop :=
  ∃ depth, ∀ visit ∈ tree.walkAt depth, visit.2.Regular

section

variable {tree : Tree} {declarations statements : List Tree} {name : String}

theorem Sound.regular (sound : tree.Sound) : tree.Regular := by
  obtain ⟨depth, regular⟩ := sound
  exact regular _ (mem_walkAt.mpr (.inl rfl))

theorem Sound.part (sound : tree.Sound) {below : Tree} (listed : below ∈ tree.parts) :
    below.Sound := by
  obtain ⟨depth, regular⟩ := sound
  refine ⟨depth + 1, fun visit here => ?_⟩
  exact regular visit (mem_walkAt.mpr (.inr ⟨below, listed, here⟩))

theorem Sound.ofBlock (sound : (block declarations statements).Sound) :
    (∀ tree ∈ declarations, tree.Sound) ∧ ∀ tree ∈ statements, tree.Sound := by
  have body : (compound statements).Sound := sound.part (by simp [parts])
  constructor
  · intro tree listed
    exact sound.part (List.mem_append_left _ listed)
  · intro tree listed
    exact body.part listed

theorem Sound.ofProcedure (sound : (procedure name declarations statements).Sound) :
    (∀ tree ∈ declarations, tree.Sound) ∧ ∀ tree ∈ statements, tree.Sound :=
  (sound.part List.mem_cons_self).ofBlock

theorem Sound.ofProgram (sound : (program name declarations statements).Sound) :
    (∀ tree ∈ declarations, tree.Sound) ∧ ∀ tree ∈ statements, tree.Sound :=
  (sound.part List.mem_cons_self).ofBlock

end

mutual

/-- Sound trees that are alike but for case are equal in upper case. -/
theorem folded_eq_of_alike : ∀ {tree other : Tree}, tree.Sound → other.Sound →
    tree.Alike SameButCase other → tree.folded = other.folded
  | number token, other, _, _, alike => by
      cases other with
      | number => exact congrArg number alike
      | _ => cases alike
  | varRef token, other, _, _, alike => by
      cases other with
      | varRef => exact congrArg varRef alike
      | _ => cases alike
  | unaryOp op operand, other, sound, sound', alike => by
      cases other with
      | unaryOp op' operand' =>
          have same : op.folded = op'.folded := alike.1
          have below := folded_eq_of_alike (sound.part List.mem_cons_self)
            (sound'.part List.mem_cons_self) alike.2
          rw [folded, folded, same, below]
      | _ => cases alike
  | binOp left op right, other, sound, sound', alike => by
      cases other with
      | binOp left' op' right' =>
          have first := folded_eq_of_alike (sound.part List.mem_cons_self)
            (sound'.part List.mem_cons_self) alike.1
          have same : op.folded = op'.folded := alike.2.1
          have second := folded_eq_of_alike (sound.part (List.mem_cons_of_mem _ List.mem_cons_self))
            (sound'.part (List.mem_cons_of_mem _ List.mem_cons_self)) alike.2.2
          rw [folded, folded, first, same, second]
      | _ => cases alike
  | assign target value, other, sound, sound', alike => by
      cases other with
      | assign target' value' =>
          have same : target.folded = target'.folded := alike.1
          have below := folded_eq_of_alike (sound.part (List.mem_cons_of_mem _ List.mem_cons_self))
            (sound'.part (List.mem_cons_of_mem _ List.mem_cons_self)) alike.2
          rw [folded, folded, same, below]
      | _ => cases alike
  | compound statements, other, sound, sound', alike => by
      cases other with
      | compound =>
          exact congrArg compound (foldedAll_eq_of_allAlike (fun _ => sound.part)
            (fun _ => sound'.part) alike)
      | _ => cases alike
  | noOp, other, _, _, alike => by
      cases other with
      | noOp => rfl
      | _ => cases alike
  | varDecl name typeName, other, sound, sound', alike => by
      cases other with
      | varDecl name' typeName' =>
          have typed := alike.2.typeName_eq sound.regular.2 sound'.regular.2
          rw [folded, folded, alike.1.foldCase_eq, typed]
      | _ => cases alike
  | block declarations statements, other, sound, sound', alike => by
      cases other with
      | block declarations' statements' =>
          have declared := foldedAll_eq_of_allAlike sound.ofBlock.1 sound'.ofBlock.1 alike.1
          have body := foldedAll_eq_of_allAlike sound.ofBlock.2 sound'.ofBlock.2 alike.2
          rw [folded, folded, declared, body]
      | _ => cases alike
  | procedure name declarations statements, other, sound, sound', alike => by
      cases other with
      | procedure name' declarations' statements' =>
          have declared :=
            foldedAll_eq_of_allAlike sound.ofProcedure.1 sound'.ofProcedure.1 alike.2.1
          have body := foldedAll_eq_of_allAlike sound.ofProcedure.2 sound'.ofProcedure.2 alike.2.2
          rw [folded, folded, alike.1.foldCase_eq, declared, body]
      | _ => cases alike
  | program name declarations statements, other, sound, sound', alike => by
      cases other with
      | program name' declarations' statements' =>
          have declared := foldedAll_eq_of_allAlike sound.ofProgram.1 sound'.ofProgram.1 alike.2.1
          have body := foldedAll_eq_of_allAlike sound.ofProgram.2 sound'.ofProgram.2 alike.2.2
          rw [folded, folded, alike.1.foldCase_eq, declared, body]
      | _ => cases alike

theorem foldedAll_eq_of_allAlike : ∀ {trees others : List Tree}, (∀ tree ∈ trees, tree.Sound) →
    (∀ tree ∈ others, tree.Sound) → AllAlike SameButCase trees others →
    foldedAll trees = foldedAll others
  | [], others, _, _, alike => by
      cases others with
      | nil => rfl
      | cons => cases alike
  | tree :: trees, others, sound, sound', alike => by
      cases others with
      | nil => cases alike
      | cons other others =>
          rw [List.forall_mem_cons] at sound sound'
          rw [foldedAll, foldedAll, folded_eq_of_alike sound.1 sound'.1 alike.1,
            foldedAll_eq_of_allAlike sound.2 sound'.2 alike.2]

end

end Tree

end PascalFrontEnd
