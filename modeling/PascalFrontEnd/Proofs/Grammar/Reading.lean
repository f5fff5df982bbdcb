import PascalFrontEnd.Grammar
import PascalFrontEnd.Tree.Basic

/-!
`Reads symbol tokens value`: the tokens are a phrase of the sort and stand for the value.
-/

namespace PascalFrontEnd

/-- What a phrase of each sort stands for. -/
@[reducible] def Nonterminal.Value : Nonterminal → Type
  | .program | .statement | .expression | .term | .factor => Tree
  | .declarations | .groups | .variableList | .procedures | .compound | .statements =>
      List Tree
  | .names => List String
  | .block => List Tree × List Tree

def orNoOp : List Tree → List Tree
  | [] => [.noOp]
  | declared => declared

def Token.kinds (tokens : List Token) : List Kind :=
  tokens.map Token.kind

inductive Reads : (symbol : Nonterminal) → List Token → symbol.Value → Prop where
  | headed {word name semicolon period : Token} {block : List Token}
      {declared statements : List Tree} :
      word.kind = .programWord → name.kind = .identifier → semicolon.kind = .semicolon →
      Reads .block block (declared, statements) → period.kind = .period →
      Reads .program ([word, name, semicolon] ++ block ++ [period])
        (.program name.name declared statements)
  | headless {period : Token} {compound : List Token} {statements : List Tree} :
      Reads .compound compound statements → period.kind = .period →
      Reads .program (compound ++ [period]) (.block [.noOp] statements)
  | block {declarations compound : List Token} {declared statements : List Tree} :
      Reads .declarations declarations declared → Reads .compound compound statements →
      Reads .block (declarations ++ compound) (declared, statements)
  | withoutVariables {procedures : List Token} {declared : List Tree} :
      Reads .procedures procedures declared →
      Reads .declarations procedures (orNoOp declared)
  | withVariables {word : Token} {groups procedures : List Token} {vars declared : List Tree} :
      word.kind = .varWord → Reads .groups groups vars →
      Reads .procedures procedures declared →
      Reads .declarations (word :: groups ++ procedures) (orNoOp (vars ++ declared))
  | lastGroup {semicolon : Token} {list : List Token} {vars : List Tree} :
      Reads .variableList list vars → semicolon.kind = .semicolon →
      Reads .groups (list ++ [semicolon]) vars
  | moreGroups {semicolon : Token} {list groups : List Token} {vars others : List Tree} :
      Reads .variableList list vars → semicolon.kind = .semicolon →
      Reads .groups groups others →
      Reads .groups (list ++ [semicolon] ++ groups) (vars ++ others)
  | variableList {colon type : Token} {tokens : List Token} {names : List String} :
      Reads .names tokens names → colon.kind = .colon → type.kind = .typeName →
      Reads .variableList (tokens ++ [colon, type]) (names.map (.varDecl · type.name))
  | lastName {name : Token} :
      name.kind = .identifier → Reads .names [name] [name.name]
  | moreNames {name comma : Token} {tokens : List Token} {names : List String} :
      name.kind = .identifier → comma.kind = .comma → Reads .names tokens names →
      Reads .names (name :: comma :: tokens) (name.name :: names)
  | noProcedure : Reads .procedures [] []
  | moreProcedures {word name semicolon last : Token} {block procedures : List Token}
      {declared statements others : List Tree} :
      word.kind = .procedureWord → name.kind = .identifier → semicolon.kind = .semicolon →
      Reads .block block (declared, statements) → last.kind = .semicolon →
      Reads .procedures procedures others →
      Reads .procedures ([word, name, semicolon] ++ block ++ [last] ++ procedures)
        (.procedure name.name declared statements :: others)
  | compound {first last : Token} {tokens : List Token} {statements : List Tree} :
      first.kind = .beginWord → Reads .statements tokens statements →
      last.kind = .endWord → Reads .compound (first :: tokens ++ [last]) statements
  | lastStatement {tokens : List Token} {statement : Tree} :
      Reads .statement tokens statement → Reads .statements tokens [statement]
  | moreStatements {semicolon : Token} {tokens more : List Token} {statement : Tree}
      {others : List Tree} :
      Reads .statement tokens statement → semicolon.kind = .semicolon →
      Reads .statements more others →
      Reads .statements (tokens ++ [semicolon] ++ more) (statement :: others)
  | nested {tokens : List Token} {statements : List Tree} :
      Reads .compound tokens statements → Reads .statement tokens (.compound statements)
  | assignment {target becomes : Token} {tokens : List Token} {value : Tree} :
      target.kind = .identifier → becomes.kind = .becomes → Reads .expression tokens value →
      Reads .statement (target :: becomes :: tokens) (.assign target value)
  | emptyStatement : Reads .statement [] .noOp
  | onlyTerm {tokens : List Token} {value : Tree} :
      Reads .term tokens value → Reads .expression tokens value
  | sum {op : Token} {left right : List Token} {leftValue rightValue : Tree} :
      Reads .expression left leftValue → op.kind.isAdditive = true →
      Reads .term right rightValue →
      Reads .expression (left ++ [op] ++ right) (.binOp leftValue op rightValue)
  | onlyFactor {tokens : List Token} {value : Tree} :
      Reads .factor tokens value → Reads .term tokens value
  | product {op : Token} {left right : List Token} {leftValue rightValue : Tree} :
      Reads .term left leftValue → op.kind.isMultiplicative = true →
      Reads .factor right rightValue →
      Reads .term (left ++ [op] ++ right) (.binOp leftValue op rightValue)
  | signed {sign : Token} {tokens : List Token} {value : Tree} :
      sign.kind = .unarySign → Reads .factor tokens value →
      Reads .factor (sign :: tokens) (.unaryOp sign value)
  | integer {token : Token} :
      token.kind = .integerLiteral → Reads .factor [token] (.number token)
  | real {token : Token} :
      token.kind = .realLiteral → Reads .factor [token] (.number token)
  | parenthesised {first last : Token} {tokens : List Token} {value : Tree} :
      first.kind = .openParen → Reads .expression tokens value →
      last.kind = .closeParen → Reads .factor (first :: tokens ++ [last]) value
  | reference {token : Token} :
      token.kind = .identifier → Reads .factor [token] (.varRef token)

theorem Derives.sum {left right : List Kind} {op : Kind}
    (first : Derives .expression left) (additive : op.isAdditive = true)
    (second : Derives .term right) : Derives .expression (left ++ [op] ++ right) := by
  generalize shape : Nonterminal.expression = symbol at first
  induction first with
  | lastTerm term => exact .moreTerms term additive (.lastTerm second)
  | moreTerms term between _ _ ih =>
      have rest := Derives.moreTerms term between (ih rfl)
      simpa only [List.append_assoc] using rest
  | _ => cases shape

theorem Derives.product {left right : List Kind} {op : Kind}
    (first : Derives .term left) (multiplicative : op.isMultiplicative = true)
    (second : Derives .factor right) : Derives .term (left ++ [op] ++ right) := by
  generalize shape : Nonterminal.term = symbol at first
  induction first with
  | lastFactor factor => exact .moreFactors factor multiplicative (.lastFactor second)
  | moreFactors factor between _ _ ih =>
      have rest := Derives.moreFactors factor between (ih rfl)
      simpa only [List.append_assoc] using rest
  | _ => cases shape

theorem Reads.derives {symbol : Nonterminal} {tokens : List Token} {value : symbol.Value}
    (read : Reads symbol tokens value) : Derives symbol (Token.kinds tokens) := by
  induction read with
  | headed word name semicolon _ period ih =>
      simpa [Token.kinds, word, name, semicolon, period] using Derives.headed ih
  | headless _ period ih =>
      simpa [Token.kinds, period] using Derives.headless ih
  | block _ _ ih ih' =>
      simpa [Token.kinds] using Derives.block ih ih'
  | withoutVariables _ ih => exact .withoutVariables ih
  | withVariables word _ _ ih ih' =>
      simpa [Token.kinds, word] using Derives.withVariables ih ih'
  | lastGroup _ semicolon ih =>
      simpa [Token.kinds, semicolon] using Derives.lastGroup ih
  | moreGroups _ semicolon _ ih ih' =>
      simpa [Token.kinds, semicolon] using Derives.moreGroups ih ih'
  | variableList _ colon type ih =>
      simpa [Token.kinds, colon, type] using Derives.variableList ih
  | lastName name =>
      simpa [Token.kinds, name] using Derives.lastName
  | moreNames name comma _ ih =>
      simpa [Token.kinds, name, comma] using Derives.moreNames ih
  | noProcedure => exact .noProcedure
  | moreProcedures word name semicolon _ last _ ih ih' =>
      simpa [Token.kinds, word, name, semicolon, last] using Derives.moreProcedures ih ih'
  | compound first _ last ih =>
      simpa [Token.kinds, first, last] using Derives.compound ih
  | lastStatement _ ih => exact .lastStatement ih
  | moreStatements _ semicolon _ ih ih' =>
      simpa [Token.kinds, semicolon] using Derives.moreStatements ih ih'
  | nested _ ih => exact .nested ih
  | assignment target becomes _ ih =>
      simpa [Token.kinds, target, becomes] using Derives.assignment ih
  | emptyStatement => exact .emptyStatement
  | onlyTerm _ ih => exact .lastTerm ih
  | sum _ additive _ ih ih' =>
      simpa [Token.kinds] using Derives.sum ih additive ih'
  | onlyFactor _ ih => exact .lastFactor ih
  | product _ multiplicative _ ih ih' =>
      simpa [Token.kinds] using Derives.product ih multiplicative ih'
  | signed sign _ ih =>
      simpa [Token.kinds, sign] using Derives.signed ih
  | integer kind => simpa [Token.kinds, kind] using Derives.integer
  | real kind => simpa [Token.kinds, kind] using Derives.real
  | parenthesised first _ last ih =>
      simpa [Token.kinds, first, last] using Derives.parenthesised ih
  | reference kind => simpa [Token.kinds, kind] using Derives.reference

theorem Reads.sum_cons {op : Token} {left right : List Token} {leftValue : Tree}
    {symbol : Nonterminal} {rightValue : symbol.Value}
    (first : Reads .term left leftValue) (additive : op.kind.isAdditive = true)
    (second : Reads symbol right rightValue) (shape : symbol = .expression) :
    ∃ value, Reads .expression (left ++ [op] ++ right) value := by
  induction second with
  | onlyTerm term => exact ⟨_, .sum (.onlyTerm first) additive term⟩
  | sum _ between term ih =>
      obtain ⟨value, read⟩ := ih rfl
      have whole := Reads.sum read between term
      simp only [List.append_assoc] at whole ⊢
      exact ⟨_, whole⟩
  | _ => cases shape

theorem Reads.product_cons {op : Token} {left right : List Token} {leftValue : Tree}
    {symbol : Nonterminal} {rightValue : symbol.Value}
    (first : Reads .factor left leftValue) (multiplicative : op.kind.isMultiplicative = true)
    (second : Reads symbol right rightValue) (shape : symbol = .term) :
    ∃ value, Reads .term (left ++ [op] ++ right) value := by
  induction second with
  | onlyFactor factor => exact ⟨_, .product (.onlyFactor first) multiplicative factor⟩
  | product _ between factor ih =>
      obtain ⟨value, read⟩ := ih rfl
      have whole := Reads.product read between factor
      simp only [List.append_assoc] at whole ⊢
      exact ⟨_, whole⟩
  | _ => cases shape

theorem Token.kinds_append (tokens more : List Token) :
    Token.kinds (tokens ++ more) = Token.kinds tokens ++ Token.kinds more :=
  List.map_append

theorem Token.kinds_eq_append {tokens : List Token} {front back : List Kind} :
    Token.kinds tokens = front ++ back ↔
      ∃ before behind, tokens = before ++ behind ∧ Token.kinds before = front ∧
        Token.kinds behind = back :=
  List.map_eq_append_iff

theorem Token.kinds_eq_cons {tokens : List Token} {first : Kind} {rest : List Kind} :
    Token.kinds tokens = first :: rest ↔
      ∃ token more, tokens = token :: more ∧ token.kind = first ∧ Token.kinds more = rest :=
  List.map_eq_cons_iff

theorem Token.kinds_eq_nil {tokens : List Token} :
    Token.kinds tokens = [] ↔ tokens = [] :=
  List.map_eq_nil_iff

theorem Derives.reads {symbol : Nonterminal} {kinds : List Kind}
    (derived : Derives symbol kinds) {tokens : List Token}
    (spells : Token.kinds tokens = kinds) : ∃ value, Reads symbol tokens value := by
  induction derived generalizing tokens with
  | headed _ ih =>
      simp only [Token.kinds_eq_append, Token.kinds_eq_cons, Token.kinds_eq_nil] at spells
      rcases spells with ⟨_, _, rfl, ⟨_, block, rfl, ⟨word, _, rfl, wordKind, name, _, rfl,
        nameKind, semicolon, _, rfl, semicolonKind, rfl⟩, blockKinds⟩, period, _, rfl,
        periodKind, rfl⟩
      obtain ⟨⟨declared, statements⟩, read⟩ := ih blockKinds
      exact ⟨_, .headed wordKind nameKind semicolonKind read periodKind⟩
  | headless _ ih =>
      simp only [Token.kinds_eq_append, Token.kinds_eq_cons, Token.kinds_eq_nil] at spells
      rcases spells with ⟨compound, _, rfl, compoundKinds, period, _, rfl, periodKind, rfl⟩
      obtain ⟨statements, read⟩ := ih compoundKinds
      exact ⟨_, .headless read periodKind⟩
  | block _ _ ih ih' =>
      rcases Token.kinds_eq_append.mp spells with
        ⟨declarations, compound, rfl, declarationKinds, compoundKinds⟩
      obtain ⟨declared, read⟩ := ih declarationKinds
      obtain ⟨statements, read'⟩ := ih' compoundKinds
      exact ⟨(declared, statements), .block read read'⟩
  | withoutVariables _ ih =>
      obtain ⟨declared, read⟩ := ih spells
      exact ⟨_, .withoutVariables read⟩
  | withVariables _ _ ih ih' =>
      simp only [Token.kinds_eq_append, Token.kinds_eq_cons] at spells
      rcases spells with ⟨_, procedures, rfl, ⟨word, groups, rfl, wordKind, groupKinds⟩,
        procedureKinds⟩
      obtain ⟨vars, read⟩ := ih groupKinds
      obtain ⟨declared, read'⟩ := ih' procedureKinds
      exact ⟨_, .withVariables wordKind read read'⟩
  | lastGroup _ ih =>
      simp only [Token.kinds_eq_append, Token.kinds_eq_cons, Token.kinds_eq_nil] at spells
      rcases spells with ⟨list, _, rfl, listKinds, semicolon, _, rfl, semicolonKind, rfl⟩
      obtain ⟨vars, read⟩ := ih listKinds
      exact ⟨_, .lastGroup read semicolonKind⟩
  | moreGroups _ _ ih ih' =>
      simp only [Token.kinds_eq_append, Token.kinds_eq_cons, Token.kinds_eq_nil] at spells
      rcases spells with ⟨_, groups, rfl, ⟨list, _, rfl, listKinds, semicolon, _, rfl,
        semicolonKind, rfl⟩, groupKinds⟩
      obtain ⟨vars, read⟩ := ih listKinds
      obtain ⟨others, read'⟩ := ih' groupKinds
      exact ⟨_, .moreGroups read semicolonKind read'⟩
  | variableList _ ih =>
      simp only [Token.kinds_eq_append, Token.kinds_eq_cons, Token.kinds_eq_nil] at spells
      rcases spells with ⟨list, _, rfl, nameKinds, colon, _, rfl, colonKind, type, _, rfl,
        typeKind, rfl⟩
      obtain ⟨names, read⟩ := ih nameKinds
      exact ⟨_, .variableList read colonKind typeKind⟩
  | lastName =>
      simp only [Token.kinds_eq_cons, Token.kinds_eq_nil] at spells
      rcases spells with ⟨name, _, rfl, nameKind, rfl⟩
      exact ⟨_, .lastName nameKind⟩
  | moreNames _ ih =>
      simp only [Token.kinds_eq_cons] at spells
      rcases spells with ⟨name, _, rfl, nameKind, comma, list, rfl, commaKind, nameKinds⟩
      obtain ⟨names, read⟩ := ih nameKinds
      exact ⟨_, .moreNames nameKind commaKind read⟩
  | noProcedure =>
      rcases Token.kinds_eq_nil.mp spells with rfl
      exact ⟨_, .noProcedure⟩
  | moreProcedures _ _ ih ih' =>
      simp only [Token.kinds_eq_append, Token.kinds_eq_cons, Token.kinds_eq_nil] at spells
      rcases spells with ⟨_, procedures, rfl, ⟨_, _, rfl, ⟨_, block, rfl, ⟨word, _, rfl,
        wordKind, name, _, rfl, nameKind, semicolon, _, rfl, semicolonKind, rfl⟩,
        blockKinds⟩, last, _, rfl, lastKind, rfl⟩, procedureKinds⟩
      obtain ⟨⟨declared, statements⟩, read⟩ := ih blockKinds
      obtain ⟨others, read'⟩ := ih' procedureKinds
      exact ⟨_, .moreProcedures wordKind nameKind semicolonKind read lastKind read'⟩
  | compound _ ih =>
      simp only [Token.kinds_eq_append, Token.kinds_eq_cons, Token.kinds_eq_nil] at spells
      rcases spells with ⟨_, _, rfl, ⟨first, list, rfl, firstKind, statementKinds⟩, last, _,
        rfl, lastKind, rfl⟩
      obtain ⟨statements, read⟩ := ih statementKinds
      exact ⟨_, .compound firstKind read lastKind⟩
  | lastStatement _ ih =>
      obtain ⟨statement, read⟩ := ih spells
      exact ⟨_, .lastStatement read⟩
  | moreStatements _ _ ih ih' =>
      simp only [Token.kinds_eq_append, Token.kinds_eq_cons, Token.kinds_eq_nil] at spells
      rcases spells with ⟨_, more, rfl, ⟨list, _, rfl, statementKinds, semicolon, _, rfl,
        semicolonKind, rfl⟩, moreKinds⟩
      obtain ⟨statement, read⟩ := ih statementKinds
      obtain ⟨others, read'⟩ := ih' moreKinds
      exact ⟨_, .moreStatements read semicolonKind read'⟩
  | nested _ ih =>
      obtain ⟨statements, read⟩ := ih spells
      exact ⟨_, .nested read⟩
  | assignment _ ih =>
      simp only [Token.kinds_eq_cons] at spells
      rcases spells with ⟨target, _, rfl, targetKind, becomes, list, rfl, becomesKind,
        valueKinds⟩
      obtain ⟨value, read⟩ := ih valueKinds
      exact ⟨_, .assignment targetKind becomesKind read⟩
  | emptyStatement =>
      rcases Token.kinds_eq_nil.mp spells with rfl
      exact ⟨_, .emptyStatement⟩
  | lastTerm _ ih =>
      obtain ⟨value, read⟩ := ih spells
      exact ⟨_, .onlyTerm read⟩
  | moreTerms _ additive _ ih ih' =>
      simp only [Token.kinds_eq_append, Token.kinds_eq_cons, Token.kinds_eq_nil] at spells
      rcases spells with ⟨_, right, rfl, ⟨left, _, rfl, leftKinds, op, _, rfl, rfl, rfl⟩,
        rightKinds⟩
      obtain ⟨leftValue, read⟩ := ih leftKinds
      obtain ⟨rightValue, read'⟩ := ih' rightKinds
      exact Reads.sum_cons read additive read' rfl
  | lastFactor _ ih =>
      obtain ⟨value, read⟩ := ih spells
      exact ⟨_, .onlyFactor read⟩
  | moreFactors _ multiplicative _ ih ih' =>
      simp only [Token.kinds_eq_append, Token.kinds_eq_cons, Token.kinds_eq_nil] at spells
      rcases spells with ⟨_, right, rfl, ⟨left, _, rfl, leftKinds, op, _, rfl, rfl, rfl⟩,
        rightKinds⟩
      obtain ⟨leftValue, read⟩ := ih leftKinds
      obtain ⟨rightValue, read'⟩ := ih' rightKinds
      exact Reads.product_cons read multiplicative read' rfl
  | signed _ ih =>
      obtain ⟨sign, list, rfl, signKind, factorKinds⟩ := Token.kinds_eq_cons.mp spells
      obtain ⟨value, read⟩ := ih factorKinds
      exact ⟨_, .signed signKind read⟩
  | integer =>
      simp only [Token.kinds_eq_cons, Token.kinds_eq_nil] at spells
      rcases spells with ⟨token, _, rfl, tokenKind, rfl⟩
      exact ⟨_, .integer tokenKind⟩
  | real =>
      simp only [Token.kinds_eq_cons, Token.kinds_eq_nil] at spells
      rcases spells with ⟨token, _, rfl, tokenKind, rfl⟩
      exact ⟨_, .real tokenKind⟩
  | parenthesised _ ih =>
      simp only [Token.kinds_eq_append, Token.kinds_eq_cons, Token.kinds_eq_nil] at spells
      rcases spells with ⟨_, _, rfl, ⟨first, list, rfl, firstKind, valueKinds⟩, last, _, rfl,
        lastKind, rfl⟩
      obtain ⟨value, read⟩ := ih valueKinds
      exact ⟨_, .parenthesised firstKind read lastKind⟩
  | reference =>
      simp only [Token.kinds_eq_cons, Token.kinds_eq_nil] at spells
      rcases spells with ⟨token, _, rfl, tokenKind, rfl⟩
      exact ⟨_, .reference tokenKind⟩

def Nonterminal.nullable : Nonterminal → Bool
  | .declarations | .procedures | .statements | .statement => true
  | _ => false

theorem Derives.ne_nil {symbol : Nonterminal} {kinds : List Kind}
    (derived : Derives symbol kinds) (proper : symbol.nullable = false) : kinds ≠ [] := by
  induction derived with
  | block _ _ _ ih =>
      intro empty
      exact ih rfl (List.append_eq_nil_iff.mp empty).2
  | lastTerm _ ih => exact ih rfl
  | lastFactor _ ih => exact ih rfl
  | withoutVariables | withVariables | noProcedure | moreProcedures | lastStatement
  | moreStatements | nested | assignment | emptyStatement => cases proper
  | _ => simp

theorem Reads.ne_nil {symbol : Nonterminal} {tokens : List Token} {value : symbol.Value}
    (read : Reads symbol tokens value) (proper : symbol.nullable = false) : tokens ≠ [] := by
  rintro rfl
  exact read.derives.ne_nil proper rfl

theorem Derives.known {symbol : Nonterminal} {kinds : List Kind}
    (derived : Derives symbol kinds) : .endOfInput ∉ kinds ∧ .unknown ∉ kinds := by
  induction derived with
  | @moreTerms _ op _ _ additive _ ih ih' =>
      have other : Kind.endOfInput ≠ op ∧ Kind.unknown ≠ op := by
        constructor <;> (rintro rfl; cases additive)
      simp [ih, ih', other]
  | @moreFactors _ op _ _ multiplicative _ ih ih' =>
      have other : Kind.endOfInput ≠ op ∧ Kind.unknown ≠ op := by
        constructor <;> (rintro rfl; cases multiplicative)
      simp [ih, ih', other]
  | _ => simp_all

theorem Reads.known {symbol : Nonterminal} {tokens : List Token} {value : symbol.Value}
    (read : Reads symbol tokens value) {token : Token} (present : token ∈ tokens) :
    token.kind ≠ .endOfInput ∧ token.kind ≠ .unknown := by
  have listed : token.kind ∈ Token.kinds tokens := List.mem_map_of_mem present
  constructor
  · intro ended
    exact read.derives.known.1 (ended ▸ listed)
  · intro unknown
    exact read.derives.known.2 (unknown ▸ listed)

end PascalFrontEnd
