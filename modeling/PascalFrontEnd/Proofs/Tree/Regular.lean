import PascalFrontEnd.Proofs.Token.Payload
import PascalFrontEnd.Tree.Walk

namespace PascalFrontEnd

def Declares (declared : List Tree) : Prop :=
  declared = [.noOp] ∨
    ∃ vars procedures, declared = vars ++ procedures ∧ declared ≠ [] ∧
      (∀ var ∈ vars, var.isVarDecl) ∧
      ∀ procedure ∈ procedures, procedure.isProcedure

namespace Tree

def isProgram : Tree → Bool
  | program _ _ _ => true
  | _ => false

def IsExpression : Tree → Prop
  | number _ | varRef _ | unaryOp _ _ | binOp _ _ _ => True
  | _ => False

def IsStatement : Tree → Prop
  | assign _ _ | compound _ | noOp => True
  | _ => False

def Regular : Tree → Prop
  | number token => token.IsNumber
  | varRef token => token.IsVariable
  | unaryOp op operand => op.IsSign ∧ operand.IsExpression
  | binOp left op right => left.IsExpression ∧ op.IsOperator ∧ right.IsExpression
  | assign _ value => value.IsExpression
  | compound statements => statements ≠ [] ∧ ∀ statement ∈ statements, statement.IsStatement
  | noOp => True
  | varDecl name typeName => IsName name ∧ IsTypeName typeName
  | block declarations _ => Declares declarations
  | procedure name _ _ => IsName name
  | program name _ _ => IsName name

def parts : Tree → List Tree
  | number _ | varRef _ | noOp | varDecl _ _ => []
  | unaryOp _ operand => [operand]
  | binOp left _ right => [left, right]
  | assign target value => [varRef target, value]
  | compound statements => statements
  | block declarations statements => declarations ++ [compound statements]
  | procedure _ declarations statements => [block declarations statements]
  | program _ declarations statements => [block declarations statements]

theorem walkAllAt_eq (depth : Nat) (trees : List Tree) :
    walkAllAt depth trees = trees.flatMap (·.walkAt depth) := by
  induction trees with
  | nil => rfl
  | cons tree trees ih => rw [walkAllAt, ih, List.flatMap_cons]

/-- A walk begins at the node and goes on through its parts, one level deeper. -/
theorem walkAt_eq (depth : Nat) (tree : Tree) :
    tree.walkAt depth = (depth, tree) :: tree.parts.flatMap (·.walkAt (depth + 1)) := by
  cases tree <;> simp [walkAt, parts, walkAllAt_eq]

theorem mem_walkAt {depth : Nat} {visit : Visit} {tree : Tree} :
    visit ∈ tree.walkAt depth ↔
      visit = (depth, tree) ∨ ∃ part ∈ tree.parts, visit ∈ part.walkAt (depth + 1) := by
  rw [walkAt_eq, List.mem_cons, List.mem_flatMap]

def Inner (tree : Tree) : Prop :=
  ∀ depth, ∀ visit ∈ tree.walkAt depth, visit.2.Regular ∧ ¬ visit.2.isProgram

/-- All nodes are regular, and none but the root may be a program. -/
def Rooted (tree : Tree) : Prop :=
  tree.Regular ∧ ∀ part ∈ tree.parts, part.Inner

variable {tree : Tree}

theorem Rooted.inner (rooted : tree.Rooted) (proper : ¬ tree.isProgram) : tree.Inner := by
  intro depth visit here
  rcases mem_walkAt.mp here with rfl | ⟨part, listed, here⟩
  · exact ⟨rooted.1, proper⟩
  · exact rooted.2 part listed _ visit here

theorem inner_leaf (regular : tree.Regular) (leaf : tree.parts = [])
    (proper : ¬ tree.isProgram) : tree.Inner := by
  refine Rooted.inner ⟨regular, ?_⟩ proper
  rw [leaf]
  exact fun part listed => absurd listed List.not_mem_nil

theorem Inner.walk (inner : tree.Inner) :
    ∀ visit ∈ tree.walk, visit.2.Regular ∧ (visit.2.isProgram → visit.1 = 0) := by
  intro visit here
  obtain ⟨regular, proper⟩ := inner 0 visit here
  exact ⟨regular, fun isProgram => absurd isProgram proper⟩

theorem Rooted.walk (rooted : tree.Rooted) :
    ∀ visit ∈ tree.walk, visit.2.Regular ∧ (visit.2.isProgram → visit.1 = 0) := by
  intro visit here
  rcases mem_walkAt.mp here with rfl | ⟨part, listed, here⟩
  · exact ⟨rooted.1, fun _ => rfl⟩
  · obtain ⟨regular, proper⟩ := rooted.2 part listed _ visit here
    exact ⟨regular, fun isProgram => absurd isProgram proper⟩

end Tree

def Nonterminal.Formed : (symbol : Nonterminal) → symbol.Value → Prop
  | .program, tree =>
      (tree.isProgram ∨ ∃ body, tree = .block [.noOp] body) ∧ tree.Rooted
  | .block, parts => (Tree.block parts.1 parts.2).Inner
  | .declarations, declared => Declares declared ∧ ∀ tree ∈ declared, tree.Inner
  | .groups, vars | .variableList, vars =>
      vars ≠ [] ∧ ∀ var ∈ vars, var.isVarDecl ∧ var.Inner
  | .names, list => list ≠ [] ∧ ∀ name ∈ list, IsName name
  | .procedures, list => ∀ procedure ∈ list, procedure.isProcedure ∧ procedure.Inner
  | .compound, body | .statements, body =>
      body ≠ [] ∧ ∀ tree ∈ body, tree.IsStatement ∧ tree.Inner
  | .statement, tree => tree.IsStatement ∧ tree.Inner
  | .expression, tree | .term, tree | .factor, tree => tree.IsExpression ∧ tree.Inner

section

variable {vars procedures body declared : List Tree} {left right value : Tree}
  {token op sign target : Token} {name : String}

theorem inner_noOp : Tree.noOp.Inner :=
  Tree.inner_leaf trivial rfl Bool.false_ne_true

theorem inner_compound (formed : Nonterminal.compound.Formed body) :
    (Tree.compound body).Inner := by
  have regular : (Tree.compound body).Regular := ⟨formed.1, fun tree listed => (formed.2 tree listed).1⟩
  exact Tree.Rooted.inner ⟨regular, fun tree listed => (formed.2 tree listed).2⟩
    Bool.false_ne_true

theorem rooted_block (formed : Nonterminal.declarations.Formed declared)
    (formed' : Nonterminal.compound.Formed body) : (Tree.block declared body).Rooted := by
  refine ⟨formed.1, fun tree listed => ?_⟩
  rcases List.mem_append.mp listed with listed | listed
  · exact formed.2 tree listed
  · rw [List.mem_singleton] at listed
    exact listed ▸ inner_compound formed'

theorem inner_procedure (named : IsName name) (inner : (Tree.block declared body).Inner) :
    (Tree.procedure name declared body).Inner := by
  refine Tree.Rooted.inner ⟨named, ?_⟩ Bool.false_ne_true
  simpa [Tree.parts] using inner

theorem inner_varDecl {type : String} (named : IsName name) (typed : IsTypeName type) :
    (Tree.varDecl name type).Inner :=
  Tree.inner_leaf ⟨named, typed⟩ rfl Bool.false_ne_true

theorem inner_assign (variable' : target.IsVariable) (formed : Nonterminal.expression.Formed value) :
    (Tree.assign target value).Inner := by
  have reference : (Tree.varRef target).Inner :=
    Tree.inner_leaf variable' rfl Bool.false_ne_true
  refine Tree.Rooted.inner ⟨formed.1, ?_⟩ Bool.false_ne_true
  simpa [Tree.parts] using ⟨reference, formed.2⟩

theorem formed_number (number : token.IsNumber) :
    Nonterminal.factor.Formed (Tree.number token) :=
  ⟨trivial,
    Tree.inner_leaf number rfl Bool.false_ne_true⟩

theorem formed_varRef (variable' : token.IsVariable) :
    Nonterminal.factor.Formed (Tree.varRef token) :=
  ⟨trivial,
    Tree.inner_leaf variable' rfl Bool.false_ne_true⟩

theorem formed_unaryOp (isSign : sign.IsSign) (formed : Nonterminal.factor.Formed value) :
    Nonterminal.factor.Formed (Tree.unaryOp sign value) := by
  refine ⟨trivial, ?_⟩
  refine Tree.Rooted.inner ⟨⟨isSign, formed.1⟩, ?_⟩ Bool.false_ne_true
  simpa [Tree.parts] using formed.2

theorem formed_binOp (operator : op.IsOperator) (formed : Nonterminal.expression.Formed left)
    (formed' : Nonterminal.expression.Formed right) :
    Nonterminal.expression.Formed (Tree.binOp left op right) := by
  refine ⟨trivial, ?_⟩
  refine Tree.Rooted.inner ⟨⟨formed.1, operator, formed'.1⟩, ?_⟩ Bool.false_ne_true
  simpa [Tree.parts] using ⟨formed.2, formed'.2⟩

theorem formed_orNoOp (formed : ∀ var ∈ vars, var.isVarDecl ∧ var.Inner)
    (formed' : Nonterminal.procedures.Formed procedures) :
    Nonterminal.declarations.Formed (orNoOp (vars ++ procedures)) := by
  cases shape : vars ++ procedures with
  | nil => exact ⟨.inl rfl, by simpa [orNoOp] using inner_noOp⟩
  | cons first others =>
      refine ⟨.inr ⟨vars, procedures, shape.symm, List.cons_ne_nil _ _,
        fun var listed => (formed var listed).1,
        fun procedure listed => (formed' procedure listed).1⟩, ?_⟩
      intro tree listed
      have listed : tree ∈ vars ++ procedures := shape ▸ listed
      rcases List.mem_append.mp listed with listed | listed
      · exact (formed tree listed).2
      · exact (formed' tree listed).2

end

/-- What is read from genuine tokens is formed as the grammar says. -/
theorem Reads.formed {symbol : Nonterminal} {tokens : List Token} {value : symbol.Value}
    (read : Reads symbol tokens value) (genuine : ∀ token ∈ tokens, token.Genuine) :
    symbol.Formed value := by
  induction read with
  | headed _ name _ _ _ ih =>
      simp only [List.forall_mem_append, List.forall_mem_cons] at genuine
      have named := (genuine.1.1.2.1.isVariable name).isName
      refine ⟨.inl rfl, named, ?_⟩
      intro part listed
      rw [List.mem_singleton.mp listed]
      exact ih genuine.1.2
  | headless _ _ ih =>
      rw [List.forall_mem_append] at genuine
      have declared : Nonterminal.declarations.Formed [Tree.noOp] :=
        ⟨.inl rfl, by simpa using inner_noOp⟩
      exact ⟨.inr ⟨_, rfl⟩, rooted_block declared (ih genuine.1)⟩
  | block _ _ ih ih' =>
      rw [List.forall_mem_append] at genuine
      exact (rooted_block (ih genuine.1) (ih' genuine.2)).inner Bool.false_ne_true
  | withoutVariables _ ih =>
      have none : ∀ var ∈ ([] : List Tree), var.isVarDecl ∧ var.Inner := by simp
      exact formed_orNoOp none (ih genuine)
  | withVariables _ _ _ ih ih' =>
      simp only [List.forall_mem_append, List.forall_mem_cons] at genuine
      exact formed_orNoOp (ih genuine.1.2).2 (ih' genuine.2)
  | lastGroup _ _ ih =>
      rw [List.forall_mem_append] at genuine
      exact ih genuine.1
  | moreGroups _ _ _ ih ih' =>
      simp only [List.forall_mem_append] at genuine
      obtain ⟨proper, formed⟩ := ih genuine.1.1
      refine ⟨List.append_ne_nil_of_left_ne_nil proper _, ?_⟩
      rw [List.forall_mem_append]
      exact ⟨formed, (ih' genuine.2).2⟩
  | variableList _ _ type ih =>
      simp only [List.forall_mem_append, List.forall_mem_cons] at genuine
      obtain ⟨proper, named⟩ := ih genuine.1
      have typed := genuine.2.2.1.isTypeName type
      refine ⟨by simpa using proper, ?_⟩
      rw [List.forall_mem_map]
      exact fun name listed => ⟨rfl, inner_varDecl (named name listed) typed⟩
  | lastName name =>
      have named := ((genuine _ List.mem_cons_self).isVariable name).isName
      exact ⟨List.cons_ne_nil _ _, by simpa using named⟩
  | moreNames name _ _ ih =>
      simp only [List.forall_mem_cons] at genuine
      have named := (genuine.1.isVariable name).isName
      refine ⟨List.cons_ne_nil _ _, ?_⟩
      rw [List.forall_mem_cons]
      exact ⟨named, (ih genuine.2.2).2⟩
  | noProcedure => exact fun tree listed => absurd listed List.not_mem_nil
  | moreProcedures _ name _ _ _ _ ih ih' =>
      simp only [List.forall_mem_append, List.forall_mem_cons] at genuine
      have named := (genuine.1.1.1.2.1.isVariable name).isName
      exact List.forall_mem_cons.mpr
        ⟨⟨rfl, inner_procedure named (ih genuine.1.1.2)⟩, ih' genuine.2⟩
  | compound _ _ _ ih =>
      simp only [List.forall_mem_append, List.forall_mem_cons] at genuine
      exact ih genuine.1.2
  | lastStatement _ ih =>
      exact ⟨List.cons_ne_nil _ _, fun tree listed => List.mem_singleton.mp listed ▸ ih genuine⟩
  | moreStatements _ _ _ ih ih' =>
      simp only [List.forall_mem_append] at genuine
      refine ⟨List.cons_ne_nil _ _, ?_⟩
      rw [List.forall_mem_cons]
      exact ⟨ih genuine.1.1, (ih' genuine.2).2⟩
  | nested _ ih => exact ⟨trivial, inner_compound (ih genuine)⟩
  | assignment target _ _ ih =>
      simp only [List.forall_mem_cons] at genuine
      exact ⟨trivial,
        inner_assign (genuine.1.isVariable target) (ih genuine.2.2)⟩
  | emptyStatement => exact ⟨trivial, inner_noOp⟩
  | onlyTerm _ ih | onlyFactor _ ih => exact ih genuine
  | sum _ additive _ ih ih' =>
      simp only [List.forall_mem_append, List.forall_mem_cons] at genuine
      exact formed_binOp (genuine.1.2.1.isOperator (.inl additive)) (ih genuine.1.1) (ih' genuine.2)
  | product _ multiplicative _ ih ih' =>
      simp only [List.forall_mem_append, List.forall_mem_cons] at genuine
      exact formed_binOp (genuine.1.2.1.isOperator (.inr multiplicative)) (ih genuine.1.1)
        (ih' genuine.2)
  | signed sign _ ih =>
      rw [List.forall_mem_cons] at genuine
      exact formed_unaryOp (genuine.1.isSign sign) (ih genuine.2)
  | integer kind => exact formed_number ((genuine _ List.mem_cons_self).isNumber (.inl kind))
  | real kind => exact formed_number ((genuine _ List.mem_cons_self).isNumber (.inr kind))
  | parenthesised _ _ _ ih =>
      simp only [List.forall_mem_append, List.forall_mem_cons] at genuine
      exact ih genuine.1.2
  | reference kind => exact formed_varRef ((genuine _ List.mem_cons_self).isVariable kind)

end PascalFrontEnd
