import PascalFrontEnd.Proofs.Token.Legible
import PascalFrontEnd.Proofs.Tree.Folded
import PascalFrontEnd.Proofs.Tree.Mentions
import PascalFrontEnd.Proofs.Tree.Text

/-! The text of a tree tells where the tree ends, and what it is but for lines. -/

namespace PascalFrontEnd

section

variable {word word' : List Char} {rest rest' : List Char}

theorem Clear.takeWhile (clear : Clear word) {mark : Char} (delimits : isDelimiter mark = true) :
    (word ++ mark :: rest).takeWhile (!isDelimiter ·) = word := by
  have goesOn : ∀ c ∈ word, (!isDelimiter c) = true := fun c inside => by rw [clear c inside]; rfl
  rw [List.takeWhile_append_of_pos goesOn, List.takeWhile_cons, delimits]
  exact List.append_nil word

theorem Clear.ends (clear : Clear word) (clear' : Clear word') {mark : Char}
    (delimits : isDelimiter mark = true) (same : word ++ mark :: rest = word' ++ mark :: rest') :
    word = word' ∧ rest = rest' := by
  have words : word = word' := by
    rw [← clear.takeWhile delimits, same, clear'.takeWhile delimits]
  rw [words, List.append_cancel_left_eq, List.cons.injEq] at same
  exact ⟨words, same.2⟩

theorem Clear.upToSeparator (clear : Clear word) (clear' : Clear word')
    (same : word ++ (Tree.separator.toList ++ rest) = word' ++ (Tree.separator.toList ++ rest')) :
    word = word' ∧ rest = rest' := by
  obtain ⟨words, rests⟩ := clear.ends clear' rfl same
  exact ⟨words, (List.cons.inj rests).2⟩

theorem Clear.upToClosing (clear : Clear word) (clear' : Clear word')
    (same : word ++ (")".toList ++ rest) = word' ++ (")".toList ++ rest')) :
    word = word' ∧ rest = rest' :=
  clear.ends clear' rfl same

end

/-- The characters of the token tell what it is, given whether it is a prefix, and
they end where a delimiter follows. -/
structure Token.Told (prefixed : Bool) (token : Token) : Prop where
  lexed : token.Lexed
  clear : Clear token.raw.toList
  sign : token.kind = .unarySign ↔ prefixed = true

theorem Token.Told.sameButLine {prefixed : Bool} {token other : Token}
    (told : token.Told prefixed) (told' : other.Told prefixed)
    (same : token.raw.toList = other.raw.toList) : SameButLine token other :=
  told.lexed.sameButLine told'.lexed (String.toList_inj.mp same) (told.sign.trans told'.sign.symm)

theorem Token.Lexed.told {token : Token} (lexed : token.Lexed)
    (other : token.kind ∉ [.unarySign, .comma, .closeParen]) : token.Told false where
  lexed := lexed
  clear := lexed.clear (fun comma => other (by simp [comma])) fun closing => other (by simp [closing])
  sign := iff_of_false (fun sign => other (by simp [sign])) Bool.false_ne_true

theorem Token.IsVariable.name_eq {token : Token} (reference : token.IsVariable) :
    token.name = token.raw := by
  rw [Token.name, reference.2.1]

namespace Tree

structure Legible (tree : Tree) : Prop where
  sound : tree.Sound
  lexed {token : Token} : Mention.token token ∈ tree.mentions → token.Lexed

theorem mem_mentionsAll {mention : Mention} {trees : List Tree} :
    mention ∈ mentionsAll trees ↔ ∃ tree ∈ trees, mention ∈ tree.mentions := by
  induction trees with
  | nil => simp [mentionsAll]
  | cons tree trees ih => simp [mentionsAll, ih]

theorem mentions_of_part {tree below : Tree} {mention : Mention} (listed : below ∈ tree.parts)
    (here : mention ∈ below.mentions) : mention ∈ tree.mentions := by
  cases tree with
  | number | varRef | noOp | varDecl => cases listed
  | compound => exact mem_mentionsAll.mpr ⟨below, listed, here⟩
  | _ =>
      simp only [parts, List.mem_cons, List.mem_append, List.not_mem_nil, or_false] at listed
      simp only [mentions, List.mem_cons, List.mem_append, mem_mentionsAll]
      grind [mentions, mem_mentionsAll]

namespace Legible

variable {tree below : Tree} {declarations statements : List Tree} {name : String}

theorem part (legible : tree.Legible) (listed : below ∈ tree.parts) : below.Legible where
  sound := legible.sound.part listed
  lexed here := legible.lexed (mentions_of_part listed here)

theorem ofBlock (legible : (block declarations statements).Legible) :
    (∀ tree ∈ declarations, tree.Legible) ∧ ∀ tree ∈ statements, tree.Legible := by
  have body : (compound statements).Legible := legible.part (by simp [parts])
  constructor
  · intro tree listed
    exact legible.part (List.mem_append_left _ listed)
  · intro tree listed
    exact body.part listed

variable {token op : Token} {operand left right value : Tree}

theorem ofNumber (legible : (number token).Legible) : token.Told false := by
  have lexed : token.Lexed := legible.lexed List.mem_cons_self
  apply lexed.told
  rcases legible.sound.regular with ⟨kind, -⟩ | ⟨kind, -⟩ <;> rw [kind] <;> decide

theorem ofVarRef (legible : (varRef token).Legible) :
    token.Told false ∧ token.name = token.raw := by
  have lexed : token.Lexed := legible.lexed List.mem_cons_self
  have reference : token.IsVariable := legible.sound.regular
  refine ⟨lexed.told ?_, reference.name_eq⟩
  rw [reference.1]
  decide

theorem ofUnaryOp (legible : (unaryOp op operand).Legible) :
    op.Told true ∧ operand.Legible := by
  have lexed : op.Lexed := legible.lexed List.mem_cons_self
  have kind : op.kind = .unarySign := legible.sound.regular.1.1
  refine ⟨⟨lexed, ?_, iff_of_true kind rfl⟩, legible.part List.mem_cons_self⟩
  exact lexed.clear (by rw [kind]; decide) (by rw [kind]; decide)

theorem ofBinOp (legible : (binOp left op right).Legible) :
    left.Legible ∧ op.Told false ∧ right.Legible := by
  have lexed : op.Lexed :=
    legible.lexed (List.mem_append_right left.mentions List.mem_cons_self)
  refine ⟨legible.part List.mem_cons_self, lexed.told ?_,
    legible.part (List.mem_cons_of_mem left List.mem_cons_self)⟩
  rcases legible.sound.regular.2.1 with ⟨kind, -⟩ | ⟨kind, -⟩ | ⟨kind, -⟩ | ⟨kind, -⟩ | ⟨kind, -⟩ <;>
    rw [kind] <;> decide

theorem ofAssign (legible : (assign token value).Legible) :
    (token.Told false ∧ token.name = token.raw) ∧ value.Legible :=
  ⟨(legible.part List.mem_cons_self).ofVarRef,
    legible.part (List.mem_cons_of_mem _ List.mem_cons_self)⟩

theorem ofProcedure (legible : (procedure name declarations statements).Legible) :
    Clear name.toList ∧ (∀ tree ∈ declarations, tree.Legible) ∧
      ∀ tree ∈ statements, tree.Legible := by
  have named : IsName name := legible.sound.regular
  exact ⟨named.clear, (legible.part List.mem_cons_self).ofBlock⟩

theorem ofProgram (legible : (program name declarations statements).Legible) :
    Clear name.toList ∧ (∀ tree ∈ declarations, tree.Legible) ∧
      ∀ tree ∈ statements, tree.Legible := by
  have named : IsName name := legible.sound.regular
  exact ⟨named.clear, (legible.part List.mem_cons_self).ofBlock⟩

theorem ofVarDecl {typeName : String} (legible : (varDecl name typeName).Legible) :
    Clear name.toList ∧ Clear typeName.toList := by
  obtain ⟨named, typed⟩ := legible.sound.regular
  refine ⟨named.clear, ?_⟩
  rcases typed with rfl | rfl <;> exact .of_all rfl

end Legible

/-- What is read back where a list of trees stands, up to the bracket behind it. -/
def ReadsBack (trees others : List Tree) : Prop :=
  ∀ {rest rest' : List Char},
    (renderAll trees).toList ++ ']' :: rest = (renderAll others).toList ++ ']' :: rest' →
      AllAlike SameButLine trees others ∧ rest = rest'

theorem behind_of_same {trees others : List Tree} {rest rest' : List Char}
    (all : ReadsBack trees others)
    (same : (renderBehind trees).toList ++ ']' :: rest =
      (renderBehind others).toList ++ ']' :: rest') :
    AllAlike SameButLine trees others ∧ rest = rest' := by
  have behind : ∀ (tree : Tree) (trees : List Tree) (rest : List Char),
      (renderBehind (tree :: trees)).toList ++ rest =
        ',' :: ' ' :: ((renderAll (tree :: trees)).toList ++ rest) := by
    intro tree trees rest
    rw [renderBehind, String.toList_append, List.append_assoc]
    · rfl
    · exact List.cons_ne_nil tree trees
  cases trees with
  | nil =>
      cases others with
      | nil => exact ⟨trivial, (List.cons.inj same).2⟩
      | cons other others =>
          rw [behind] at same
          exact absurd (List.cons.inj same).1 (by decide)
  | cons tree trees =>
      cases others with
      | nil =>
          rw [behind] at same
          exact absurd (List.cons.inj same).1 (by decide)
      | cons other others =>
          rw [behind, behind] at same
          exact all (List.cons.inj (List.cons.inj same).2).2

theorem blockBody_of_same {declared declared' body body' : List Tree} {rest rest' : List Char}
    (first : ReadsBack declared declared') (second : ReadsBack body body')
    (same : (blockBody (renderAll declared) (renderAll body)).toList ++ rest =
      (blockBody (renderAll declared') (renderAll body')).toList ++ rest') :
    (AllAlike SameButLine declared declared' ∧ AllAlike SameButLine body body') ∧ rest = rest' := by
  simp only [blockBody, String.toList_append, List.append_assoc] at same
  obtain ⟨declarations, same⟩ := first same
  obtain ⟨statements, same⟩ := second (List.append_cancel_left (List.append_cancel_left same))
  exact ⟨⟨declarations, statements⟩, (List.cons.inj (List.cons.inj same).2).2⟩

theorem named_of_same {name name' : String} {declared declared' body body' : List Tree}
    {rest rest' : List Char} (clear : Clear name.toList) (clear' : Clear name'.toList)
    (first : ReadsBack declared declared') (second : ReadsBack body body')
    (same : (name ++ (separator ++ ("Block([" ++
        (blockBody (renderAll declared) (renderAll body) ++ ")")))).toList ++ rest =
      (name' ++ (separator ++ ("Block([" ++
        (blockBody (renderAll declared') (renderAll body') ++ ")")))).toList ++ rest') :
    (NamesAlike SameButLine name name' ∧ AllAlike SameButLine declared declared' ∧
      AllAlike SameButLine body body') ∧ rest = rest' := by
  rw [String.toList_append, String.toList_append, String.toList_append, String.toList_append,
    String.toList_append, String.toList_append, String.toList_append, String.toList_append] at same
  simp only [List.append_assoc] at same
  obtain ⟨names, same⟩ := clear.upToSeparator clear' same
  obtain ⟨lists, same⟩ := blockBody_of_same first second (List.append_cancel_left same)
  rw [String.toList_inj.mp names]
  exact ⟨⟨namesAlike_refl name', lists⟩, List.append_cancel_left same⟩

mutual

/-- Where texts agree from their beginnings on, legible trees agree, and what
stands behind them does. -/
theorem alike_of_same : ∀ {tree other : Tree} {rest rest' : List Char},
    tree.Legible → other.Legible →
    tree.render.toList ++ rest = other.render.toList ++ rest' →
    tree.Alike SameButLine other ∧ rest = rest'
  -- The openings tell the sort of tree; behind them the words of both trees end at
  -- the same delimiters, and the parts are read back one after the other.
  | number token, other, rest, rest', legible, legible', same => by
      obtain ⟨opened, same⟩ := body_of_same same
      cases other with
      | number token' =>
          simp only [body, String.toList_append, List.append_assoc] at same
          obtain ⟨raw, same⟩ := legible.ofNumber.clear.upToClosing legible'.ofNumber.clear same
          exact ⟨legible.ofNumber.sameButLine legible'.ofNumber raw, same⟩
      | _ => simp [opening, emptyStatement] at opened
  | varRef token, other, rest, rest', legible, legible', same => by
      obtain ⟨opened, same⟩ := body_of_same same
      cases other with
      | varRef token' =>
          obtain ⟨told, name⟩ := legible.ofVarRef
          obtain ⟨told', name'⟩ := legible'.ofVarRef
          simp only [body, String.toList_append, List.append_assoc, name, name'] at same
          obtain ⟨raw, same⟩ := told.clear.upToClosing told'.clear same
          exact ⟨told.sameButLine told' raw, same⟩
      | _ => simp [opening, emptyStatement] at opened
  | unaryOp op operand, other, rest, rest', legible, legible', same => by
      obtain ⟨opened, same⟩ := body_of_same same
      cases other with
      | unaryOp op' operand' =>
          obtain ⟨told, inner⟩ := legible.ofUnaryOp
          obtain ⟨told', inner'⟩ := legible'.ofUnaryOp
          simp only [body, String.toList_append, List.append_assoc] at same
          obtain ⟨raw, same⟩ := told.clear.upToSeparator told'.clear same
          obtain ⟨alike, same⟩ := alike_of_same inner inner' same
          exact ⟨⟨told.sameButLine told' raw, alike⟩, List.append_cancel_left same⟩
      | _ => simp [opening, emptyStatement] at opened
  | binOp left op right, other, rest, rest', legible, legible', same => by
      obtain ⟨opened, same⟩ := body_of_same same
      cases other with
      | binOp left' op' right' =>
          obtain ⟨first, told, second⟩ := legible.ofBinOp
          obtain ⟨first', told', second'⟩ := legible'.ofBinOp
          simp only [body, String.toList_append, List.append_assoc] at same
          obtain ⟨raw, same⟩ := told.clear.upToSeparator told'.clear same
          obtain ⟨alike, same⟩ := alike_of_same first first' same
          obtain ⟨alike', same⟩ := alike_of_same second second' (List.append_cancel_left same)
          exact ⟨⟨alike, told.sameButLine told' raw, alike'⟩, List.append_cancel_left same⟩
      | _ => simp [opening, emptyStatement] at opened
  | assign target value, other, rest, rest', legible, legible', same => by
      obtain ⟨opened, same⟩ := body_of_same same
      cases other with
      | assign target' value' =>
          obtain ⟨⟨told, name⟩, inner⟩ := legible.ofAssign
          obtain ⟨⟨told', name'⟩, inner'⟩ := legible'.ofAssign
          simp only [body, String.toList_append, List.append_assoc, name, name'] at same
          obtain ⟨raw, same⟩ := told.clear.upToClosing told'.clear same
          obtain ⟨alike, same⟩ := alike_of_same inner inner' (List.append_cancel_left same)
          exact ⟨⟨told.sameButLine told' raw, alike⟩, List.append_cancel_left same⟩
      | _ => simp [opening, emptyStatement] at opened
  | compound statements, other, rest, rest', legible, legible', same => by
      obtain ⟨opened, same⟩ := body_of_same same
      cases other with
      | compound statements' =>
          simp only [body, String.toList_append, List.append_assoc] at same
          obtain ⟨alike, same⟩ := allAlike_of_same (fun _ => legible.part)
            (fun _ => legible'.part) same
          exact ⟨alike, (List.cons.inj same).2⟩
      | _ => simp [opening, emptyStatement] at opened
  | noOp, other, rest, rest', _, _, same => by
      obtain ⟨opened, same⟩ := body_of_same same
      cases other with
      | noOp => exact ⟨trivial, same⟩
      | _ => simp [opening, emptyStatement] at opened
  | varDecl name typeName, other, rest, rest', legible, legible', same => by
      obtain ⟨opened, same⟩ := body_of_same same
      cases other with
      | varDecl name' typeName' =>
          obtain ⟨clear, clearType⟩ := legible.ofVarDecl
          obtain ⟨clear', clearType'⟩ := legible'.ofVarDecl
          simp only [body, String.toList_append, List.append_assoc] at same
          obtain ⟨names, same⟩ := clear.upToSeparator clear' same
          obtain ⟨types, same⟩ := clearType.upToClosing clearType' same
          rw [String.toList_inj.mp names, String.toList_inj.mp types]
          exact ⟨⟨namesAlike_refl name', namesAlike_refl typeName'⟩, same⟩
      | _ => simp [opening, emptyStatement] at opened
  | block declarations statements, other, rest, rest', legible, legible', same => by
      obtain ⟨opened, same⟩ := body_of_same same
      cases other with
      | block declarations' statements' =>
          obtain ⟨declared, body⟩ := legible.ofBlock
          obtain ⟨declared', body'⟩ := legible'.ofBlock
          exact blockBody_of_same (allAlike_of_same declared declared')
            (allAlike_of_same body body') same
      | _ => simp [opening, emptyStatement] at opened
  | procedure name declarations statements, other, rest, rest', legible, legible', same => by
      obtain ⟨opened, same⟩ := body_of_same same
      cases other with
      | procedure name' declarations' statements' =>
          obtain ⟨clear, declared, body⟩ := legible.ofProcedure
          obtain ⟨clear', declared', body'⟩ := legible'.ofProcedure
          exact named_of_same clear clear' (allAlike_of_same declared declared')
            (allAlike_of_same body body') same
      | _ => simp [opening, emptyStatement] at opened
  | program name declarations statements, other, rest, rest', legible, legible', same => by
      obtain ⟨opened, same⟩ := body_of_same same
      cases other with
      | program name' declarations' statements' =>
          obtain ⟨clear, declared, body⟩ := legible.ofProgram
          obtain ⟨clear', declared', body'⟩ := legible'.ofProgram
          exact named_of_same clear clear' (allAlike_of_same declared declared')
            (allAlike_of_same body body') same
      | _ => simp [opening, emptyStatement] at opened

theorem allAlike_of_same : ∀ {trees others : List Tree}, (∀ tree ∈ trees, tree.Legible) →
    (∀ tree ∈ others, tree.Legible) → ReadsBack trees others
  | [], [], _, _, _, _, same => ⟨trivial, (List.cons.inj same).2⟩
  | [], other :: others, _, _, rest, rest', same => by
      rw [renderAll_cons, String.toList_append, List.append_assoc] at same
      exact absurd same.symm (render_ne_bracket other)
  | tree :: trees, [], _, _, _, _, same => by
      rw [renderAll_cons, String.toList_append, List.append_assoc] at same
      exact absurd same (render_ne_bracket tree)
  | tree :: trees, other :: others, legible, legible', rest, rest', same => by
      rw [List.forall_mem_cons] at legible legible'
      rw [renderAll_cons, renderAll_cons, String.toList_append, String.toList_append,
        List.append_assoc, List.append_assoc] at same
      obtain ⟨alike, same⟩ := alike_of_same legible.1 legible'.1 same
      obtain ⟨alikes, same⟩ := behind_of_same (allAlike_of_same legible.2 legible'.2) same
      exact ⟨⟨alike, alikes⟩, same⟩

end

end Tree

end PascalFrontEnd
