import PascalFrontEnd.Proofs.Grammar.Marked
import PascalFrontEnd.Proofs.Grammar.Reading
import PascalFrontEnd.Tree.Walk

/-!
Tokens are met on levels: a BEGIN takes what follows to the next level, up to the END
that matches it.
-/

namespace PascalFrontEnd

def Kind.levelBehind (level : Nat) : Kind → Nat
  | beginWord => level + 1
  | endWord => level - 1
  | _ => level

namespace Token

def leveled : Nat → List Token → List (Token × Nat)
  | _, [] => []
  | level, token :: tokens => (token, level) :: leveled (token.kind.levelBehind level) tokens

def levelBehind (level : Nat) (tokens : List Token) : Nat :=
  tokens.foldl (fun level token => token.kind.levelBehind level) level

def separates (place : Token × Nat) : Bool :=
  place.1.kind == .semicolon && place.2 == 0

def UpToEnd (tokens : List Token) (body : List (Token × Nat)) : Prop :=
  ∃ last rest, leveled 0 tokens = body ++ (last, 0) :: rest ∧ last.kind = .endWord ∧
    ∀ place ∈ body, place.2 = 0 → place.1.kind ≠ .endWord

end Token

/-- The statements are one more than the semicolons that belong to no compound
inside, and these divide the tokens into what the statements are read from, in
their order. -/
structure Divides (body : List (Token × Nat)) (statements : List Tree) : Prop where
  count : statements.length = body.countP Token.separates + 1
  parts : List.Forall₂ (Reads .statement)
    ((body.splitOnP Token.separates).map fun part => part.map Prod.fst) statements

/-- What stands between a BEGIN and the END that matches it is divided into the
statements. -/
def Encloses (statements : List Tree) (_first : Token) (behind : List Token) : Prop :=
  ∃ body, Token.UpToEnd behind body ∧ Divides body statements

theorem Token.leveled_append (level : Nat) (tokens more : List Token) :
    leveled level (tokens ++ more) = leveled level tokens ++ leveled (levelBehind level tokens) more := by
  induction tokens generalizing level with
  | nil => rfl
  | cons token tokens ih => rw [List.cons_append, leveled, ih, leveled, List.cons_append]; rfl

theorem Token.levelBehind_append (level : Nat) (tokens more : List Token) :
    levelBehind level (tokens ++ more) = levelBehind (levelBehind level tokens) more :=
  List.foldl_append

theorem Token.map_fst_leveled (level : Nat) (tokens : List Token) :
    (leveled level tokens).map Prod.fst = tokens := by
  induction tokens generalizing level with
  | nil => rfl
  | cons token tokens ih => rw [leveled, List.map_cons, ih]

instance : Lasting Encloses where
  append {statements first behind} more encloses := by
    obtain ⟨body, ⟨last, rest, shape, ends, inside⟩, divided⟩ := encloses
    refine ⟨body, ⟨last, rest ++ Token.leveled (Token.levelBehind 0 behind) more, ?_, ends, inside⟩,
      divided⟩
    rw [Token.leveled_append, shape, List.append_assoc, List.cons_append]

/-- Compounds are closed where they are opened, and no barred token is met on
the level on which the tokens begin. -/
structure Closed (bars : Kind → Bool) (tokens : List Token) : Prop where
  level (level : Nat) : Token.levelBehind level tokens = level
  inside {level : Nat} {place : Token × Nat} : place ∈ Token.leveled level tokens →
    level ≤ place.2 ∧ (place.2 = level → bars place.1.kind = false)

def Kind.endsStatement (kind : Kind) : Bool :=
  kind == .semicolon || kind == .endWord

def Kind.isInner : Kind → Bool
  | beginWord | endWord | semicolon => false
  | _ => true

theorem Kind.isInner_of_isAdditive {kind : Kind} (additive : kind.isAdditive = true) :
    kind.isInner = true := by
  rcases eq_of_isAdditive additive with rfl | rfl <;> rfl

theorem Kind.isInner_of_isMultiplicative {kind : Kind}
    (multiplicative : kind.isMultiplicative = true) : kind.isInner = true := by
  rcases eq_of_isMultiplicative multiplicative with rfl | rfl | rfl <;> rfl

namespace Closed

variable {bars : Kind → Bool} {tokens more : List Token} {token : Token}

theorem nil : Closed bars [] where
  level _ := rfl
  inside here := by cases here

theorem append (first : Closed bars tokens) (second : Closed bars more) :
    Closed bars (tokens ++ more) where
  level level := by rw [Token.levelBehind_append, first.level, second.level]
  inside here := by
    rw [Token.leveled_append, first.level] at here
    rcases List.mem_append.mp here with here | here
    · exact first.inside here
    · exact second.inside here

theorem single (opens : token.kind ≠ .beginWord) (closes : token.kind ≠ .endWord)
    (admitted : bars token.kind = false) : Closed bars [token] where
  level level := by
    show token.kind.levelBehind level = level
    unfold Kind.levelBehind
    split <;> first | contradiction | rfl
  inside here := by
    cases List.mem_singleton.mp here
    exact ⟨Nat.le_refl _, fun _ => admitted⟩

theorem inner (inner : token.kind.isInner = true) : Closed Kind.endsStatement [token] := by
  revert inner
  generalize here : token.kind = kind
  intro inner
  apply single <;> rw [here] <;> revert inner <;> cases kind <;> decide

theorem weaken {others : Kind → Bool} (closed : Closed bars tokens)
    (fewer : ∀ kind, bars kind = false → others kind = false) : Closed others tokens where
  level := closed.level
  inside here := ⟨(closed.inside here).1, fun same => fewer _ ((closed.inside here).2 same)⟩

theorem compound {others : Kind → Bool} {first last : Token} (closed : Closed bars tokens)
    (opens : first.kind = .beginWord) (closes : last.kind = .endWord)
    (admitted : others .beginWord = false) : Closed others (first :: tokens ++ [last]) where
  level level := by
    rw [List.cons_append, ← List.singleton_append, Token.levelBehind_append,
      Token.levelBehind_append, closed.level]
    simp [Token.levelBehind, opens, closes, Kind.levelBehind]
  inside {level place} here := by
    rw [List.cons_append, Token.leveled, opens, Token.leveled_append, closed.level] at here
    rcases List.mem_cons.mp here with rfl | here
    · exact ⟨Nat.le_refl _, fun _ => by rw [opens]; exact admitted⟩
    · -- All that stands behind the BEGIN is met on a deeper level, its END included.
      have deeper : level + 1 ≤ place.2 := by
        rcases List.mem_append.mp here with here | here
        · exact (closed.inside here).1
        · cases List.mem_singleton.mp here
          exact Nat.le_refl _
      exact ⟨Nat.le_of_succ_le deeper, fun same => absurd same (Nat.ne_of_gt deeper)⟩

theorem separates_eq_false (closed : Closed Kind.endsStatement tokens) {place : Token × Nat}
    (here : place ∈ Token.leveled 0 tokens) : Token.separates place = false := by
  obtain ⟨-, barred⟩ := closed.inside here
  by_cases outside : place.2 = 0
  · have other := barred outside
    simp only [Kind.endsStatement, Bool.or_eq_false_iff] at other
    rw [Token.separates, other.1, Bool.false_and]
  · rw [Token.separates, beq_false_of_ne outside, Bool.and_false]

theorem divides {statement : Tree} (closed : Closed Kind.endsStatement tokens)
    (read : Reads .statement tokens statement) : Divides (Token.leveled 0 tokens) [statement] where
  count := by
    rw [List.countP_eq_zero.mpr fun place here => by rw [closed.separates_eq_false here]; decide]
    rfl
  parts := by
    rw [List.splitOnP_eq_singleton fun place => closed.separates_eq_false, List.map_singleton,
      Token.map_fst_leveled]
    exact .cons read .nil

theorem divides_cons {statement : Tree} {others : List Tree} {semicolon : Token}
    (closed : Closed Kind.endsStatement tokens) (read : Reads .statement tokens statement)
    (separates : semicolon.kind = .semicolon) (divided : Divides (Token.leveled 0 more) others) :
    Divides (Token.leveled 0 (tokens ++ [semicolon] ++ more)) (statement :: others) := by
  have leveled : Token.leveled 0 (tokens ++ [semicolon] ++ more) =
      Token.leveled 0 tokens ++ (semicolon, 0) :: Token.leveled 0 more := by
    rw [List.append_assoc, Token.leveled_append, closed.level, List.singleton_append,
      Token.leveled, separates]
    rfl
  have bar : Token.separates (semicolon, 0) = true := by rw [Token.separates, separates]; rfl
  have none := (closed.divides read).count
  rw [leveled]
  constructor
  · rw [List.countP_append, List.countP_cons, if_pos bar, List.length_cons, divided.count]
    rw [List.length_singleton] at none
    omega
  · rw [List.splitOnP_append_cons_of_forall_mem (fun place => closed.separates_eq_false) _ bar,
      List.map_cons, Token.map_fst_leveled]
    exact .cons read divided.parts

end Closed

def Nonterminal.Divided : (symbol : Nonterminal) → List Token → symbol.Value → Prop
  | .expression, tokens, _ | .term, tokens, _ | .factor, tokens, _ | .statement, tokens, _
  | .compound, tokens, _ => Closed Kind.endsStatement tokens
  | .statements, tokens, list =>
      Closed (· == .endWord) tokens ∧ Divides (Token.leveled 0 tokens) list
  | _, _, _ => True

theorem Reads.divided {symbol : Nonterminal} {tokens : List Token} {value : symbol.Value}
    (read : Reads symbol tokens value) : symbol.Divided tokens value := by
  induction read with
  | compound opens _ closes ih => exact ih.1.compound opens closes rfl
  | lastStatement read ih =>
      exact ⟨ih.weaken fun kind => by cases kind <;> decide, ih.divides read⟩
  | moreStatements read separates _ ih ih' =>
      refine ⟨(Closed.append ?_ (.single ?_ ?_ ?_)).append ih'.1, ih.divides_cons read separates ih'.2⟩
      · exact ih.weaken fun kind => by cases kind <;> decide
      all_goals rw [separates]; decide
  | nested _ ih => exact ih
  | assignment target becomes _ ih =>
      have front : Closed Kind.endsStatement ([_] ++ [_]) :=
        (Closed.inner (by rw [target]; rfl)).append (.inner (by rw [becomes]; rfl))
      exact front.append ih
  | emptyStatement => exact .nil
  | onlyTerm _ ih | onlyFactor _ ih => exact ih
  | sum _ additive _ ih ih' =>
      exact (Closed.append ih (.inner (Kind.isInner_of_isAdditive additive))).append ih'
  | product _ multiplicative _ ih ih' =>
      exact (Closed.append ih (.inner (Kind.isInner_of_isMultiplicative multiplicative))).append ih'
  | signed sign _ ih => exact Closed.append (.inner (by rw [sign]; rfl)) ih
  | integer kind | real kind | reference kind => exact .inner (by rw [kind]; rfl)
  | parenthesised opens _ closes ih =>
      have front := Closed.append (.inner (by rw [opens]; rfl)) ih
      exact front.append (.inner (by rw [closes]; rfl))
  | _ => trivial

theorem Reads.encloses_statements {first last : Token} {tokens : List Token}
    {statements : List Tree} (read : Reads .statements tokens statements)
    (closes : last.kind = .endWord) : Encloses statements first (tokens ++ [last]) := by
  obtain ⟨closed, divided⟩ := read.divided
  refine ⟨Token.leveled 0 tokens, ⟨last, [], ?_, closes, fun place here outside => ?_⟩, divided⟩
  · rw [Token.leveled_append, closed.level]
    rfl
  · simpa using (closed.inside here).2 outside

namespace Tree

def bodies (visits : List Visit) : List (List Tree) :=
  visits.filterMap fun visit =>
    match visit.2 with
    | compound statements => some statements
    | _ => none

theorem bodies_append (visits others : List Visit) :
    bodies (visits ++ others) = bodies visits ++ bodies others :=
  List.filterMap_append

theorem walkAllAt_append (depth : Nat) (trees others : List Tree) :
    walkAllAt depth (trees ++ others) = walkAllAt depth trees ++ walkAllAt depth others := by
  induction trees with
  | nil => rfl
  | cons tree trees ih => rw [List.cons_append, walkAllAt, walkAllAt, ih, List.append_assoc]

theorem bodies_binOp (depth : Nat) (left right : Tree) (op : Token) :
    bodies ((binOp left op right).walkAt depth) =
      bodies (left.walkAt (depth + 1)) ++ bodies (right.walkAt (depth + 1)) :=
  bodies_append _ _

theorem bodies_procedure (depth : Nat) (name : String) (declarations statements : List Tree) :
    bodies ((procedure name declarations statements).walkAt depth) =
      bodies (walkAllAt (depth + 2) declarations) ++
        statements :: bodies (walkAllAt (depth + 3) statements) :=
  bodies_append _ _

theorem bodies_program (depth : Nat) (name : String) (declarations statements : List Tree) :
    bodies ((program name declarations statements).walkAt depth) =
      bodies (walkAllAt (depth + 2) declarations) ++
        statements :: bodies (walkAllAt (depth + 3) statements) :=
  bodies_append _ _

theorem bodies_orNoOp (depth : Nat) (trees : List Tree) :
    bodies (walkAllAt depth (orNoOp trees)) = bodies (walkAllAt depth trees) := by
  cases trees <;> rfl

theorem bodies_varDecls (depth : Nat) (names : List String) (typeName : String) :
    bodies (walkAllAt depth (names.map (.varDecl · typeName))) = [] := by
  induction names with
  | nil => rfl
  | cons name names ih => exact ih

end Tree

/-- The BEGINs among the tokens enclose the listed statements, each its own. -/
abbrev Compounds (listed : List (List Tree)) (tokens : List Token) : Prop :=
  Marks (· == .beginWord) Encloses listed tokens

def Nonterminal.Visited : (symbol : Nonterminal) → List Token → symbol.Value → Prop
  | .program, tokens, tree | .statement, tokens, tree | .expression, tokens, tree
  | .term, tokens, tree | .factor, tokens, tree =>
      ∀ depth, Compounds (Tree.bodies (tree.walkAt depth)) tokens
  | .declarations, tokens, trees | .groups, tokens, trees | .variableList, tokens, trees
  | .procedures, tokens, trees | .statements, tokens, trees =>
      ∀ depth, Compounds (Tree.bodies (Tree.walkAllAt depth trees)) tokens
  | .compound, tokens, body =>
      ∀ depth, Compounds (body :: Tree.bodies (Tree.walkAllAt depth body)) tokens
  | .names, tokens, _ => Compounds [] tokens
  | .block, tokens, (declared, body) =>
      ∀ depth depth', Compounds (Tree.bodies (Tree.walkAllAt depth declared) ++
        body :: Tree.bodies (Tree.walkAllAt depth' body)) tokens

theorem Compounds.headed {word name semicolon : Token} {kind : Kind} {listed : List (List Tree)}
    {tokens : List Token} (here : word.kind = kind) (silent : (kind == .beginWord) = false)
    (named : name.kind = .identifier) (ends : semicolon.kind = .semicolon)
    (compounds : Compounds listed tokens) : Compounds listed ([word, name, semicolon] ++ tokens) :=
  .pass here silent (.pass named rfl (.pass ends rfl compounds))

theorem Kind.beginWord_of_isInner {kind : Kind} (inner : kind.isInner = true) :
    (kind == .beginWord) = false := by
  revert inner
  cases kind <;> decide

theorem Reads.visited {symbol : Nonterminal} {tokens : List Token} {value : symbol.Value}
    (read : Reads symbol tokens value) : symbol.Visited tokens value := by
  induction read with
  | headed word name semicolon _ period ih =>
      intro depth
      rw [Tree.bodies_program]
      exact (Compounds.headed word rfl name semicolon (ih _ _)).concat period rfl
  | headless _ period ih =>
      exact fun depth => Marks.concat (ih (depth + 2)) period rfl
  | block _ _ ih ih' => exact fun depth depth' => Marks.append (ih depth) (ih' depth')
  | withoutVariables _ ih =>
      intro depth
      rw [Tree.bodies_orNoOp]
      exact ih depth
  | withVariables word _ _ ih ih' =>
      intro depth
      rw [Tree.bodies_orNoOp, Tree.walkAllAt_append, Tree.bodies_append]
      exact .pass word rfl (.append (ih depth) (ih' depth))
  | lastGroup _ semicolon ih => exact fun depth => Marks.concat (ih depth) semicolon rfl
  | moreGroups _ semicolon _ ih ih' =>
      intro depth
      rw [Tree.walkAllAt_append, Tree.bodies_append]
      exact .apart (ih depth) semicolon rfl (ih' depth)
  | variableList _ colon type ih =>
      intro depth
      rw [Tree.bodies_varDecls]
      exact Marks.append ih (.pass colon rfl (.single type rfl))
  | lastName name => exact .single name rfl
  | moreNames name comma _ ih => exact .pass name rfl (.pass comma rfl ih)
  | noProcedure => exact fun _ => Marks.nil
  | moreProcedures word name semicolon _ last _ ih ih' =>
      intro depth
      rw [Tree.walkAllAt, Tree.bodies_append, Tree.bodies_procedure]
      exact .append ((Compounds.headed word rfl name semicolon (ih _ _)).concat last rfl) (ih' depth)
  | compound opens read closes ih =>
      intro depth
      exact .mark opens rfl (read.encloses_statements closes) (.concat (ih depth) closes rfl)
  | lastStatement _ ih =>
      intro depth
      rw [Tree.walkAllAt, Tree.walkAllAt, List.append_nil]
      exact ih depth
  | moreStatements _ semicolon _ ih ih' =>
      intro depth
      rw [Tree.walkAllAt, Tree.bodies_append]
      exact .apart (ih depth) semicolon rfl (ih' depth)
  | nested _ ih => exact fun depth => ih (depth + 1)
  | assignment target becomes _ ih =>
      exact fun depth => .pass target rfl (.pass becomes rfl (ih (depth + 1)))
  | emptyStatement => exact fun _ => Marks.nil
  | onlyTerm _ ih | onlyFactor _ ih => exact ih
  | sum _ additive _ ih ih' =>
      intro depth
      rw [Tree.bodies_binOp]
      exact .apart (ih _) rfl (Kind.beginWord_of_isInner (Kind.isInner_of_isAdditive additive))
        (ih' _)
  | product _ multiplicative _ ih ih' =>
      intro depth
      rw [Tree.bodies_binOp]
      exact .apart (ih _) rfl
        (Kind.beginWord_of_isInner (Kind.isInner_of_isMultiplicative multiplicative)) (ih' _)
  | signed sign _ ih => exact fun depth => .pass sign rfl (ih (depth + 1))
  | integer kind | real kind | reference kind => exact fun _ => .single kind rfl
  | parenthesised opens _ closes ih =>
      exact fun depth => .concat (.pass opens rfl (ih depth)) closes rfl

end PascalFrontEnd
