import PascalFrontEnd.Proofs.Grammar.Reading

namespace PascalFrontEnd

inductive Repeated {α : Type} (reads : List Token → α → Prop) :
    List Token → List α → Prop where
  | none : Repeated reads [] []
  | more {tokens rest : List Token} {value : α} {others : List α} :
      reads tokens value → Repeated reads rest others →
      Repeated reads (tokens ++ rest) (value :: others)

def Single (kind : Kind) (tokens : List Token) (token : Token) : Prop :=
  tokens = [token] ∧ token.kind = kind

def Operation (joins : Kind → Bool) (operand : List Token → Tree → Prop)
    (tokens : List Token) (operation : Token × Tree) : Prop :=
  ∃ rest, tokens = operation.1 :: rest ∧ joins operation.1.kind = true ∧
    operand rest operation.2

theorem Reads.signs {signs : List Token} {tokens rest : List Token} {operand : Tree}
    (repeated : Repeated (Single .unarySign) tokens signs)
    (read : Reads .factor rest operand) :
    Reads .factor (tokens ++ rest) (signs.foldr .unaryOp operand) := by
  induction repeated with
  | none => exact read
  | more single _ ih =>
      rcases single with ⟨rfl, kind⟩
      exact .signed kind ih

/-- Operations behind a phrase that operators extend to the right. -/
theorem Repeated.foldl_binOp {joins : Kind → Bool} {operand whole : List Token → Tree → Prop}
    (joined : ∀ left leftValue op right rightValue, whole left leftValue →
      joins op.kind = true → operand right rightValue →
      whole (left ++ [op] ++ right) (.binOp leftValue op rightValue))
    {tokens rest : List Token} {first : Tree} {operations : List (Token × Tree)}
    (read : whole tokens first)
    (repeated : Repeated (Operation joins operand) rest operations) :
    whole (tokens ++ rest)
      (operations.foldl (fun left operation => .binOp left operation.1 operation.2) first) := by
  induction repeated generalizing tokens first with
  | none => simpa using read
  | @more _ _ operation _ once _ ih =>
      rcases once with ⟨right, rfl, admitted, readRight⟩
      have next := ih (joined tokens first operation.1 right operation.2 read admitted readRight)
      simpa only [List.append_assoc, List.cons_append, List.nil_append,
        List.foldl_cons] using next

def Led {α : Type} (kind : Kind) (reads : List Token → α → Prop)
    (tokens : List Token) (value : α) : Prop :=
  ∃ token rest, tokens = token :: rest ∧ token.kind = kind ∧ reads rest value

theorem Reads.statements_append {semicolon : Token} {tokens more : List Token}
    {others : List Tree} {symbol : Nonterminal} {value : symbol.Value}
    (first : Reads symbol tokens value) (kind : semicolon.kind = .semicolon)
    (second : Reads .statements more others) (shape : symbol = .statements) :
    Reads .statements (tokens ++ [semicolon] ++ more) (shape ▸ value ++ others) := by
  induction first with
  | lastStatement statement => exact .moreStatements statement kind second
  | moreStatements statement between _ _ ih =>
      have whole := Reads.moreStatements statement between (ih rfl)
      simp only [List.append_assoc] at whole ⊢
      exact whole
  | _ => cases shape

theorem Reads.statements_repeated {tokens rest : List Token} {statements : List Tree}
    {others : List (List Tree)} (first : Reads .statements tokens statements)
    (repeated : Repeated (Led .semicolon (Reads .statements)) rest others) :
    Reads .statements (tokens ++ rest) (statements ++ others.flatten) := by
  induction repeated generalizing tokens statements with
  | none => simpa using first
  | more once _ ih =>
      rcases once with ⟨semicolon, more, rfl, kind, second⟩
      have whole := ih (first.statements_append kind second rfl)
      simpa only [List.append_assoc, List.cons_append, List.nil_append,
        List.flatten_cons] using whole

def Named (tokens : List Token) (name : String) : Prop :=
  ∃ token, Single .identifier tokens token ∧ token.name = name

def Group (tokens : List Token) (vars : List Tree) : Prop :=
  ∃ list semicolon, tokens = list ++ [semicolon] ∧ semicolon.kind = .semicolon ∧
    Reads .variableList list vars

def Procedure (tokens : List Token) (tree : Tree) : Prop :=
  ∃ word name semicolon block last declared statements,
    tokens = [word, name, semicolon] ++ block ++ [last] ∧
    word.kind = .procedureWord ∧ name.kind = .identifier ∧ semicolon.kind = .semicolon ∧
    last.kind = .semicolon ∧ Reads .block block (declared, statements) ∧
    tree = .procedure name.name declared statements

theorem Reads.names_repeated {tokens rest : List Token} {name : String} {others : List String}
    (first : Named tokens name) (repeated : Repeated (Led .comma Named) rest others) :
    Reads .names (tokens ++ rest) (name :: others) := by
  induction repeated generalizing tokens name with
  | none =>
      rcases first with ⟨token, ⟨rfl, kind⟩, rfl⟩
      exact .lastName kind
  | more once _ ih =>
      rcases first with ⟨token, ⟨rfl, kind⟩, rfl⟩
      rcases once with ⟨comma, more, rfl, commaKind, second⟩
      exact .moreNames kind commaKind (ih second)

theorem Reads.groups_repeated {tokens rest : List Token} {vars : List Tree}
    {others : List (List Tree)} (first : Group tokens vars)
    (repeated : Repeated Group rest others) :
    Reads .groups (tokens ++ rest) (vars ++ others.flatten) := by
  induction repeated generalizing tokens vars with
  | none =>
      rcases first with ⟨list, semicolon, rfl, kind, read⟩
      simpa using Reads.lastGroup read kind
  | more once _ ih =>
      rcases first with ⟨list, semicolon, rfl, kind, read⟩
      exact .moreGroups read kind (ih once)

theorem Reads.procedures_repeated {tokens : List Token} {declared : List Tree}
    (repeated : Repeated Procedure tokens declared) : Reads .procedures tokens declared := by
  induction repeated with
  | none => exact .noProcedure
  | more once _ ih =>
      rcases once with ⟨word, name, semicolon, block, last, inner, statements, rfl, wordKind,
        nameKind, semicolonKind, lastKind, read, rfl⟩
      exact .moreProcedures wordKind nameKind semicolonKind read lastKind ih

def Variables (tokens : List Token) (vars : List Tree) : Prop :=
  (tokens = [] ∧ vars = []) ∨
    ∃ word groups, tokens = word :: groups ∧ word.kind = .varWord ∧ Reads .groups groups vars

def Unended (tokens : List Token) (tree : Tree) : Prop :=
  ∀ period : Token, period.kind = .period → Reads .program (tokens ++ [period]) tree

theorem Repeated.append {α : Type} {reads : List Token → α → Prop}
    {tokens rest : List Token} {values others : List α}
    (first : Repeated reads tokens values) (second : Repeated reads rest others) :
    Repeated reads (tokens ++ rest) (values ++ others) := by
  induction first with
  | none => exact second
  | more once _ ih =>
      rw [List.append_assoc]
      exact .more once ih

theorem Repeated.one {α : Type} {reads : List Token → α → Prop} {tokens : List Token}
    {value : α} (once : reads tokens value) : Repeated reads tokens [value] := by
  have whole := Repeated.more once .none
  rwa [List.append_nil] at whole

def Chained (joins : Kind → Bool) (operand : List Token → Tree → Prop)
    (tokens : List Token) (tree : Tree) : Prop :=
  ∃ front back first operations, tokens = front ++ back ∧ operand front first ∧
    Repeated (Operation joins operand) back operations ∧
    tree = operations.foldl (fun left operation => .binOp left operation.1 operation.2) first

theorem Chained.single {joins : Kind → Bool} {operand : List Token → Tree → Prop}
    {tokens : List Token} {tree : Tree} (read : operand tokens tree) :
    Chained joins operand tokens tree :=
  ⟨tokens, [], tree, [], (List.append_nil tokens).symm, read, .none, rfl⟩

theorem Chained.join {joins : Kind → Bool} {operand : List Token → Tree → Prop}
    {op : Token} {left right : List Token} {leftValue rightValue : Tree}
    (first : Chained joins operand left leftValue) (joined : joins op.kind = true)
    (second : operand right rightValue) :
    Chained joins operand (left ++ [op] ++ right) (.binOp leftValue op rightValue) := by
  rcases first with ⟨front, back, value, operations, rfl, read, repeated, rfl⟩
  have last : Operation joins operand (op :: right) (op, rightValue) :=
    ⟨right, rfl, joined, second⟩
  refine ⟨front, back ++ (op :: right), value, operations ++ [(op, rightValue)], ?_, read,
    repeated.append (.one last), ?_⟩
  · simp
  · rw [List.foldl_append]
    rfl

def Unsigned (tokens : List Token) (tree : Tree) : Prop :=
  Reads .factor tokens tree ∧ ∀ token ∈ tokens.head?, token.kind ≠ .unarySign

/-- How a phrase falls into the parts that its rule goes through. -/
def Parts : (symbol : Nonterminal) → List Token → symbol.Value → Prop
  | .expression, tokens, tree => Chained Kind.isAdditive (Reads .term) tokens tree
  | .term, tokens, tree => Chained Kind.isMultiplicative (Reads .factor) tokens tree
  | .factor, tokens, tree =>
      ∃ front back signs operand, tokens = front ++ back ∧
        Repeated (Single .unarySign) front signs ∧ Unsigned back operand ∧
        tree = signs.foldr .unaryOp operand
  | .names, tokens, names =>
      ∃ front back name others, tokens = front ++ back ∧ Named front name ∧
        Repeated (Led .comma Named) back others ∧ names = name :: others
  | .groups, tokens, vars =>
      ∃ front back first others, tokens = front ++ back ∧ Group front first ∧
        Repeated Group back others ∧ vars = first ++ others.flatten
  | .procedures, tokens, declared => Repeated Procedure tokens declared
  | _, _, _ => True

theorem parts_of_unsigned {tokens : List Token} {tree : Tree} (read : Reads .factor tokens tree)
    (unsigned : ∀ token ∈ tokens.head?, token.kind ≠ .unarySign) :
    Parts .factor tokens tree :=
  ⟨[], tokens, [], tree, rfl, .none, ⟨read, unsigned⟩, rfl⟩

theorem Reads.parts {symbol : Nonterminal} {tokens : List Token} {value : symbol.Value}
    (read : Reads symbol tokens value) : Parts symbol tokens value := by
  induction read with
  | onlyTerm term => exact .single term
  | sum _ additive term ih => exact ih.join additive term
  | onlyFactor factor => exact .single factor
  | product _ multiplicative factor ih => exact ih.join multiplicative factor
  | @signed sign _ _ kind _ ih =>
      rcases ih with ⟨front, back, signs, operand, rfl, repeated, unsigned, rfl⟩
      exact ⟨[sign] ++ front, back, sign :: signs, operand, rfl, .more ⟨rfl, kind⟩ repeated,
        unsigned, rfl⟩
  | integer kind => exact parts_of_unsigned (.integer kind) (by simp [kind])
  | real kind => exact parts_of_unsigned (.real kind) (by simp [kind])
  | parenthesised first inside last =>
      exact parts_of_unsigned (.parenthesised first inside last) (by simp [first])
  | reference kind => exact parts_of_unsigned (.reference kind) (by simp [kind])
  | @lastName name kind =>
      exact ⟨[name], [], name.name, [], rfl, ⟨name, ⟨rfl, kind⟩, rfl⟩, .none, rfl⟩
  | @moreNames name comma _ _ kind commaKind _ ih =>
      rcases ih with ⟨front, back, second, others, rfl, named, repeated, rfl⟩
      exact ⟨[name], comma :: front ++ back, name.name, second :: others, rfl,
        ⟨name, ⟨rfl, kind⟩, rfl⟩, .more ⟨comma, front, rfl, commaKind, named⟩ repeated, rfl⟩
  | @lastGroup semicolon list vars read kind =>
      exact ⟨list ++ [semicolon], [], vars, [], by simp, ⟨list, semicolon, rfl, kind, read⟩,
        .none, by simp⟩
  | @moreGroups semicolon list _ vars _ read kind _ _ ih =>
      rcases ih with ⟨front, back, first, others, rfl, group, repeated, rfl⟩
      exact ⟨list ++ [semicolon], front ++ back, vars, first :: others, rfl,
        ⟨list, semicolon, rfl, kind, read⟩, .more group repeated, rfl⟩
  | noProcedure => exact .none
  | moreProcedures word name semicolon read last _ _ ih =>
      exact .more ⟨_, _, _, _, _, _, _, rfl, word, name, semicolon, last, read, rfl⟩ ih
  | _ => trivial

theorem Reads.sections {tokens : List Token} {declared : List Tree}
    (read : Reads .declarations tokens declared) :
    ∃ front back vars procedures, tokens = front ++ back ∧ Variables front vars ∧
      Repeated Procedure back procedures ∧ declared = orNoOp (vars ++ procedures) := by
  cases read with
  | withoutVariables read =>
      exact ⟨[], tokens, [], _, rfl, .inl ⟨rfl, rfl⟩, read.parts, rfl⟩
  | @withVariables word groups procedures vars _ kind readGroups read =>
      exact ⟨word :: groups, procedures, vars, _, rfl, .inr ⟨word, groups, rfl, kind, readGroups⟩,
        read.parts, rfl⟩

end PascalFrontEnd
