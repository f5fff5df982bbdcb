import Mathlib.Data.List.Forall2
import PascalFrontEnd.Proofs.Grammar.Reading
import PascalFrontEnd.Proofs.Token.Word

/-!
The grammar leaves the case of reserved words free, and the number of parentheses around
an expression.
-/

namespace PascalFrontEnd

def IsTypeName (name : String) : Prop :=
  name = "INTEGER" ∨ name = "REAL"

/-- What a program may have as the value of a phrase: names that are not
reserved, tokens as the lexer makes them, no empty list where the grammar calls
for a member. -/
inductive WellFormed : (symbol : Nonterminal) → symbol.Value → Prop where
  | headed {name : String} {declared statements : List Tree} :
      IsName name → WellFormed .block (declared, statements) →
      WellFormed .program (.program name declared statements)
  | headless {statements : List Tree} :
      WellFormed .compound statements → WellFormed .program (.block [.noOp] statements)
  | block {declared statements : List Tree} :
      WellFormed .declarations declared → WellFormed .compound statements →
      WellFormed .block (declared, statements)
  | noDeclaration : WellFormed .declarations [.noOp]
  | withoutVariables {declared : List Tree} :
      declared ≠ [] → WellFormed .procedures declared → WellFormed .declarations declared
  | withVariables {vars declared : List Tree} :
      WellFormed .groups vars → WellFormed .procedures declared →
      WellFormed .declarations (vars ++ declared)
  | lastVariable {name type : String} :
      IsName name → IsTypeName type → WellFormed .groups [.varDecl name type]
  | moreVariables {name type : String} {vars : List Tree} :
      IsName name → IsTypeName type → WellFormed .groups vars →
      WellFormed .groups (.varDecl name type :: vars)
  | noProcedure : WellFormed .procedures []
  | moreProcedures {name : String} {declared statements others : List Tree} :
      IsName name → WellFormed .block (declared, statements) → WellFormed .procedures others →
      WellFormed .procedures (.procedure name declared statements :: others)
  | compound {statements : List Tree} :
      WellFormed .statements statements → WellFormed .compound statements
  | lastStatement {statement : Tree} :
      WellFormed .statement statement → WellFormed .statements [statement]
  | moreStatements {statement : Tree} {others : List Tree} :
      WellFormed .statement statement → WellFormed .statements others →
      WellFormed .statements (statement :: others)
  | nested {statements : List Tree} :
      WellFormed .compound statements → WellFormed .statement (.compound statements)
  | assignment {target : Token} {value : Tree} :
      target.Lexed → target.kind = .identifier → WellFormed .expression value →
      WellFormed .statement (.assign target value)
  | emptyStatement : WellFormed .statement .noOp
  | operand {value : Tree} : WellFormed .expression value → WellFormed .factor value
  | binary {left right : Tree} {op : Token} :
      op.Lexed → (op.kind.isAdditive = true ∨ op.kind.isMultiplicative = true) →
      WellFormed .expression left → WellFormed .expression right →
      WellFormed .expression (.binOp left op right)
  | signed {sign : Token} {value : Tree} :
      sign.Lexed → sign.kind = .unarySign → WellFormed .expression value →
      WellFormed .expression (.unaryOp sign value)
  | number {token : Token} :
      token.Lexed → (token.kind = .integerLiteral ∨ token.kind = .realLiteral) →
      WellFormed .expression (.number token)
  | reference {token : Token} :
      token.Lexed → token.kind = .identifier → WellFormed .expression (.varRef token)

/-- `Writes symbol value words`: the words write the value as a phrase of the
symbol. A binary operation is no operand without parentheses, and with them
every expression is. -/
inductive Writes : (symbol : Nonterminal) → symbol.Value → List (List Char) → Prop where
  | headed {word : List Char} {name : String} {declared statements : List Tree}
      {block : List (List Char)} :
      Spells "PROGRAM" word → Writes .block (declared, statements) block →
      Writes .program (.program name declared statements)
        ([word, name.toList, [';']] ++ block ++ [['.']])
  | headless {statements : List Tree} {compound : List (List Char)} :
      Writes .compound statements compound →
      Writes .program (.block [.noOp] statements) (compound ++ [['.']])
  | block {declared statements : List Tree} {front back : List (List Char)} :
      Writes .declarations declared front → Writes .compound statements back →
      Writes .block (declared, statements) (front ++ back)
  | noDeclaration : Writes .declarations [.noOp] []
  | withoutVariables {declared : List Tree} {words : List (List Char)} :
      Writes .procedures declared words → Writes .declarations declared words
  | withVariables {word : List Char} {vars declared : List Tree} {groups words : List (List Char)} :
      Spells "VAR" word → Writes .groups vars groups → Writes .procedures declared words →
      Writes .declarations (vars ++ declared) (word :: groups ++ words)
  | lastVariable {name type : String} {word : List Char} :
      Spells type word →
      Writes .groups [.varDecl name type] [name.toList, [':'], word, [';']]
  | moreVariables {name type : String} {word : List Char} {vars : List Tree}
      {groups : List (List Char)} :
      Spells type word → Writes .groups vars groups →
      Writes .groups (.varDecl name type :: vars) ([name.toList, [':'], word, [';']] ++ groups)
  | noProcedure : Writes .procedures [] []
  | moreProcedures {word : List Char} {name : String} {declared statements others : List Tree}
      {block words : List (List Char)} :
      Spells "PROCEDURE" word → Writes .block (declared, statements) block →
      Writes .procedures others words →
      Writes .procedures (.procedure name declared statements :: others)
        ([word, name.toList, [';']] ++ block ++ [[';']] ++ words)
  | compound {first last : List Char} {statements : List Tree} {words : List (List Char)} :
      Spells "BEGIN" first → Writes .statements statements words → Spells "END" last →
      Writes .compound statements (first :: words ++ [last])
  | lastStatement {statement : Tree} {words : List (List Char)} :
      Writes .statement statement words → Writes .statements [statement] words
  | moreStatements {statement : Tree} {others : List Tree} {words more : List (List Char)} :
      Writes .statement statement words → Writes .statements others more →
      Writes .statements (statement :: others) (words ++ [[';']] ++ more)
  | nested {statements : List Tree} {words : List (List Char)} :
      Writes .compound statements words → Writes .statement (.compound statements) words
  | assignment {target : Token} {value : Tree} {words : List (List Char)} :
      Writes .expression value words →
      Writes .statement (.assign target value) (target.text :: [':', '='] :: words)
  | emptyStatement : Writes .statement .noOp []
  | operand {value : Tree} {words : List (List Char)} :
      Writes .factor value words → Writes .expression value words
  | binary {left right : Tree} {op : Token} {words more : List (List Char)} :
      Writes .factor left words → Writes .factor right more →
      Writes .expression (.binOp left op right) (words ++ [op.text] ++ more)
  | signed {sign : Token} {value : Tree} {words : List (List Char)} :
      Writes .factor value words → Writes .factor (.unaryOp sign value) (sign.text :: words)
  | number {token : Token} : Writes .factor (.number token) [token.text]
  | reference {token : Token} : Writes .factor (.varRef token) [token.text]
  | parenthesised {value : Tree} {words : List (List Char)} :
      Writes .expression value words → Writes .factor value (['('] :: words ++ [[')']])

theorem WellFormed.writes {symbol : Nonterminal} {value : symbol.Value}
    (formed : WellFormed symbol value) : ∃ words, Writes symbol value words := by
  have spelled : ∀ word ∈ ["PROGRAM", "VAR", "PROCEDURE", "BEGIN", "END", "INTEGER", "REAL"],
      Spells word word.toList := by
    unfold Spells
    decide
  have typed : ∀ {type : String}, IsTypeName type → Spells type type.toList := by
    rintro type (rfl | rfl)
    · exact spelled "INTEGER" (by decide)
    · exact spelled "REAL" (by decide)
  induction formed with
  | headed _ _ ih =>
      rcases ih with ⟨block, written⟩
      exact ⟨_, .headed (spelled "PROGRAM" (by decide)) written⟩
  | headless _ ih =>
      rcases ih with ⟨compound, written⟩
      exact ⟨_, .headless written⟩
  | block _ _ ih ih' =>
      rcases ih with ⟨front, written⟩
      rcases ih' with ⟨back, written'⟩
      exact ⟨_, .block written written'⟩
  | noDeclaration => exact ⟨_, .noDeclaration⟩
  | withoutVariables _ _ ih =>
      rcases ih with ⟨words, written⟩
      exact ⟨_, .withoutVariables written⟩
  | withVariables _ _ ih ih' =>
      rcases ih with ⟨groups, written⟩
      rcases ih' with ⟨words, written'⟩
      exact ⟨_, .withVariables (spelled "VAR" (by decide)) written written'⟩
  | lastVariable _ type => exact ⟨_, .lastVariable (typed type)⟩
  | moreVariables _ type _ ih =>
      rcases ih with ⟨groups, written⟩
      exact ⟨_, .moreVariables (typed type) written⟩
  | noProcedure => exact ⟨_, .noProcedure⟩
  | moreProcedures _ _ _ ih ih' =>
      rcases ih with ⟨block, written⟩
      rcases ih' with ⟨words, written'⟩
      exact ⟨_, .moreProcedures (spelled "PROCEDURE" (by decide)) written written'⟩
  | compound _ ih =>
      rcases ih with ⟨words, written⟩
      exact ⟨_, .compound (spelled "BEGIN" (by decide)) written (spelled "END" (by decide))⟩
  | lastStatement _ ih =>
      rcases ih with ⟨words, written⟩
      exact ⟨_, .lastStatement written⟩
  | moreStatements _ _ ih ih' =>
      rcases ih with ⟨words, written⟩
      rcases ih' with ⟨more, written'⟩
      exact ⟨_, .moreStatements written written'⟩
  | nested _ ih =>
      rcases ih with ⟨words, written⟩
      exact ⟨_, .nested written⟩
  | assignment _ _ _ ih =>
      rcases ih with ⟨words, written⟩
      exact ⟨_, .assignment written⟩
  | emptyStatement => exact ⟨_, .emptyStatement⟩
  | operand _ ih =>
      rcases ih with ⟨words, written⟩
      exact ⟨_, .parenthesised written⟩
  | binary _ _ _ _ ih ih' =>
      rcases ih with ⟨words, written⟩
      rcases ih' with ⟨more, written'⟩
      exact ⟨_, .binary (.parenthesised written) (.parenthesised written')⟩
  | signed _ _ _ ih =>
      rcases ih with ⟨words, written⟩
      exact ⟨_, .operand (.signed (.parenthesised written))⟩
  | number => exact ⟨_, .operand .number⟩
  | reference => exact ⟨_, .operand .reference⟩

def Tree.isVarDecl : Tree → Bool
  | varDecl _ _ => true
  | _ => false

def Tree.isProcedure : Tree → Bool
  | procedure _ _ _ => true
  | _ => false

theorem Tree.not_isVarDecl {tree : Tree} (isProcedure : tree.isProcedure) : ¬ tree.isVarDecl := by
  cases tree with
  | procedure => exact Bool.false_ne_true
  | _ => cases isProcedure

section

variable {vars declared : List Tree} {words : List (List Char)}

theorem Writes.areVars (written : Writes .groups vars words) :
    ∀ tree ∈ vars, tree.isVarDecl := by
  induction vars generalizing words with
  | nil => cases written
  | cons tree vars ih =>
      cases written with
      | lastVariable => exact List.forall_mem_singleton.mpr rfl
      | moreVariables _ written => exact List.forall_mem_cons.mpr ⟨rfl, ih written⟩

theorem Writes.areProcedures (written : Writes .procedures declared words) :
    ∀ tree ∈ declared, tree.isProcedure := by
  induction declared generalizing words with
  | nil => exact List.forall_mem_nil _
  | cons tree declared ih =>
      cases written with
      | moreProcedures _ _ written => exact List.forall_mem_cons.mpr ⟨rfl, ih written⟩

theorem WellFormed.areVars (formed : WellFormed .groups vars) :
    ∀ tree ∈ vars, tree.isVarDecl := by
  rcases formed.writes with ⟨words, written⟩
  exact written.areVars

theorem WellFormed.areProcedures (formed : WellFormed .procedures declared) :
    ∀ tree ∈ declared, tree.isProcedure := by
  rcases formed.writes with ⟨words, written⟩
  exact written.areProcedures

end

/-- Variables followed by procedures can be told apart. -/
theorem vars_append_inj {vars vars' declared declared' : List Tree}
    (areVars : ∀ tree ∈ vars, tree.isVarDecl)
    (areVars' : ∀ tree ∈ vars', tree.isVarDecl)
    (areProcedures : ∀ tree ∈ declared, tree.isProcedure)
    (areProcedures' : ∀ tree ∈ declared', tree.isProcedure)
    (same : vars ++ declared = vars' ++ declared') : vars = vars' ∧ declared = declared' := by
  have front : ∀ {vars declared : List Tree}, (∀ tree ∈ vars, tree.isVarDecl) →
      (∀ tree ∈ declared, tree.isProcedure) →
      (vars ++ declared).filter (·.isVarDecl) = vars := by
    intro vars declared areVars areProcedures
    have all : vars.filter (·.isVarDecl) = vars :=
      List.filter_eq_self.mpr areVars
    have none : declared.filter (·.isVarDecl) = [] :=
      List.filter_eq_nil_iff.mpr fun tree present => Tree.not_isVarDecl (areProcedures tree present)
    rw [List.filter_append, all, none, List.append_nil]
  have vars_eq : vars = vars' :=
    calc vars
        = (vars ++ declared).filter (·.isVarDecl) := (front areVars areProcedures).symm
      _ = (vars' ++ declared').filter (·.isVarDecl) := by rw [same]
      _ = vars' := front areVars' areProcedures'
  refine ⟨vars_eq, ?_⟩
  rw [vars_eq] at same
  exact List.append_cancel_left same

theorem orNoOp_of_ne_nil {declared : List Tree} (proper : declared ≠ []) :
    orNoOp declared = declared := by
  cases declared with
  | nil => exact absurd rfl proper
  | cons => rfl

theorem Writes.vars_ne_nil {vars : List Tree} {words : List (List Char)}
    (written : Writes .groups vars words) : vars ≠ [] := by
  rintro rfl
  cases written

theorem WellFormed.procedures {declared : List Tree} {words : List (List Char)}
    (formed : WellFormed .declarations declared) (written : Writes .procedures declared words) :
    declared ≠ [] ∧ WellFormed .procedures declared := by
  have areProcedures := written.areProcedures
  cases formed with
  | noDeclaration => cases written
  | withoutVariables proper formed => exact ⟨proper, formed⟩
  | withVariables formed formed' =>
      rcases formed.writes with ⟨groups, written⟩
      have split := vars_append_inj formed.areVars (List.forall_mem_nil _)
        formed'.areProcedures areProcedures rfl
      exact absurd split.1 written.vars_ne_nil

/-- What is declared consists of the variables that are written first and the
procedures that are written behind them. -/
theorem WellFormed.declared {vars declared : List Tree} {groups words : List (List Char)}
    (formed : WellFormed .declarations (vars ++ declared)) (written : Writes .groups vars groups)
    (written' : Writes .procedures declared words) :
    vars ++ declared ≠ [] ∧ WellFormed .groups vars ∧ WellFormed .procedures declared := by
  have areVars := written.areVars
  have areProcedures := written'.areProcedures
  have proper := written.vars_ne_nil
  refine ⟨fun none => proper (List.append_eq_nil_iff.mp none).1, ?_⟩
  generalize shape : vars ++ declared = all at formed
  cases formed with
  | noDeclaration =>
      cases vars with
      | nil => exact absurd rfl proper
      | cons tree vars =>
          rw [List.cons_append, List.cons.injEq] at shape
          have isVar := areVars tree List.mem_cons_self
          rw [shape.1] at isVar
          exact absurd isVar (by decide)
  | withoutVariables _ formed =>
      have split := vars_append_inj areVars (List.forall_mem_nil _) areProcedures
        formed.areProcedures shape
      exact absurd split.1 proper
  | withVariables formed formed' =>
      rcases vars_append_inj areVars formed.areVars areProcedures formed'.areProcedures shape with
        ⟨rfl, rfl⟩
      exact ⟨formed, formed'⟩

theorem IsTypeName.token {type : String} {text : List Char} (named : IsTypeName type)
    (spelled : Spells type text) :
    ∃ token : Token, token.IsOf text ∧ token.kind = .typeName ∧ token.name = type := by
  have reserved : Keyword.table.lookup type = some .typeName := by
    rcases named with rfl | rfl <;> rfl
  obtain ⟨token, ofText, isType, name⟩ := spelled.token reserved
  exact ⟨token, ofText, isType, name rfl⟩

/-- The words in which a well-formed value is written are those of tokens that
read as the value. -/
theorem Writes.reads {symbol : Nonterminal} {value : symbol.Value} {words : List (List Char)}
    (written : Writes symbol value words) (formed : WellFormed symbol value) :
    ∃ tokens, List.Forall₂ Token.IsOf tokens words ∧ Reads symbol tokens value := by
  -- A mark says nothing but its kind, so that one token of each serves everywhere.
  obtain ⟨semicolon, ofSemicolon, isSemicolon⟩ : ∃ token : Token, token.IsOf [';'] ∧ token.kind = .semicolon :=
    Lexeme.mark_token (by decide)
  obtain ⟨period, ofPeriod, isPeriod⟩ : ∃ token : Token, token.IsOf ['.'] ∧ token.kind = .period :=
    Lexeme.mark_token (by decide)
  obtain ⟨colon, ofColon, isColon⟩ : ∃ token : Token, token.IsOf [':'] ∧ token.kind = .colon :=
    Lexeme.mark_token (by decide)
  obtain ⟨becomes, ofBecomes, isBecomes⟩ : ∃ token : Token, token.IsOf [':', '='] ∧ token.kind = .becomes :=
    Lexeme.mark_token (by decide)
  obtain ⟨opening, ofOpening, isOpening⟩ : ∃ token : Token, token.IsOf ['('] ∧ token.kind = .openParen :=
    Lexeme.mark_token (by decide)
  obtain ⟨closing, ofClosing, isClosing⟩ : ∃ token : Token, token.IsOf [')'] ∧ token.kind = .closeParen :=
    Lexeme.mark_token (by decide)
  have three : ∀ {first second third : Token} {word word' word'' : List Char},
      first.IsOf word → second.IsOf word' → third.IsOf word'' →
      List.Forall₂ Token.IsOf [first, second, third] [word, word', word''] :=
    fun first second third => .cons first (.cons second (.cons third .nil))
  -- How the parts of a value are formed is given back by how the value is.
  induction written with
  | headed spelled _ ih =>
      cases formed with
      | headed named formed =>
          obtain ⟨word, ofWord, isWord, -⟩ := spelled.token rfl
          rcases named.token with ⟨name, ofName, isName, rfl⟩
          obtain ⟨block, ofBlock, read⟩ := ih formed
          refine ⟨_, ?_, .headed isWord isName isSemicolon read isPeriod⟩
          exact List.rel_append (List.rel_append (three ofWord ofName ofSemicolon) ofBlock)
            (.cons ofPeriod .nil)
  | headless _ ih =>
      cases formed with
      | headless formed =>
          obtain ⟨compound, ofCompound, read⟩ := ih formed
          refine ⟨_, ?_, .headless read isPeriod⟩
          exact List.rel_append ofCompound (.cons ofPeriod .nil)
  | block _ _ ih ih' =>
      cases formed with
      | block formed formed' =>
          obtain ⟨front, ofFront, read⟩ := ih formed
          obtain ⟨back, ofBack, read'⟩ := ih' formed'
          exact ⟨_, List.rel_append ofFront ofBack, .block read read'⟩
  | noDeclaration => exact ⟨[], .nil, .withoutVariables .noProcedure⟩
  | withoutVariables written ih =>
      obtain ⟨proper, formed⟩ := formed.procedures written
      obtain ⟨procedures, ofProcedures, read⟩ := ih formed
      rw [← orNoOp_of_ne_nil proper]
      exact ⟨procedures, ofProcedures, .withoutVariables read⟩
  | withVariables spelled written written' ih ih' =>
      obtain ⟨proper, formed, formed'⟩ := formed.declared written written'
      obtain ⟨word, ofWord, isWord, -⟩ := spelled.token rfl
      obtain ⟨groups, ofGroups, read⟩ := ih formed
      obtain ⟨procedures, ofProcedures, read'⟩ := ih' formed'
      rw [← orNoOp_of_ne_nil proper]
      refine ⟨_, ?_, .withVariables isWord read read'⟩
      exact .cons ofWord (List.rel_append ofGroups ofProcedures)
  | lastVariable spelled =>
      cases formed with
      | lastVariable named type =>
          rcases named.token with ⟨name, ofName, isName, rfl⟩
          obtain ⟨type, ofType, isType, rfl⟩ := type.token spelled
          refine ⟨_, ?_, .lastGroup (.variableList (.lastName isName) isColon isType) isSemicolon⟩
          exact .cons ofName (three ofColon ofType ofSemicolon)
      | moreVariables _ _ formed =>
          rcases formed.writes with ⟨words, none⟩
          cases none
  | moreVariables spelled written ih =>
      cases formed with
      | lastVariable => cases written
      | moreVariables named type formed =>
          rcases named.token with ⟨name, ofName, isName, rfl⟩
          obtain ⟨type, ofType, isType, rfl⟩ := type.token spelled
          obtain ⟨groups, ofGroups, read⟩ := ih formed
          refine ⟨_, ?_,
            .moreGroups (.variableList (.lastName isName) isColon isType) isSemicolon read⟩
          exact .cons ofName (List.rel_append (three ofColon ofType ofSemicolon) ofGroups)
  | noProcedure => exact ⟨[], .nil, .noProcedure⟩
  | moreProcedures spelled _ _ ih ih' =>
      cases formed with
      | moreProcedures named formed formed' =>
          obtain ⟨word, ofWord, isWord, -⟩ := spelled.token rfl
          rcases named.token with ⟨name, ofName, isName, rfl⟩
          obtain ⟨block, ofBlock, read⟩ := ih formed
          obtain ⟨procedures, ofProcedures, read'⟩ := ih' formed'
          refine ⟨_, ?_, .moreProcedures isWord isName isSemicolon read isSemicolon read'⟩
          exact List.rel_append (List.rel_append
            (List.rel_append (three ofWord ofName ofSemicolon) ofBlock) (.cons ofSemicolon .nil))
            ofProcedures
  | compound spelled _ spelled' ih =>
      cases formed with
      | compound formed =>
          obtain ⟨first, ofFirst, isFirst, -⟩ := spelled.token rfl
          obtain ⟨last, ofLast, isLast, -⟩ := spelled'.token rfl
          obtain ⟨statements, ofStatements, read⟩ := ih formed
          refine ⟨_, ?_, .compound isFirst read isLast⟩
          exact .cons ofFirst (List.rel_append ofStatements (.cons ofLast .nil))
  | lastStatement _ ih =>
      cases formed with
      | lastStatement formed =>
          obtain ⟨statement, ofStatement, read⟩ := ih formed
          exact ⟨statement, ofStatement, .lastStatement read⟩
      | moreStatements _ formed =>
          rcases formed.writes with ⟨words, none⟩
          cases none
  | moreStatements _ written ih ih' =>
      cases formed with
      | lastStatement => cases written
      | moreStatements formed formed' =>
          obtain ⟨statement, ofStatement, read⟩ := ih formed
          obtain ⟨statements, ofStatements, read'⟩ := ih' formed'
          refine ⟨_, ?_, .moreStatements read isSemicolon read'⟩
          exact List.rel_append (List.rel_append ofStatement (.cons ofSemicolon .nil)) ofStatements
  | nested _ ih =>
      cases formed with
      | nested formed =>
          obtain ⟨compound, ofCompound, read⟩ := ih formed
          exact ⟨compound, ofCompound, .nested read⟩
  | @assignment target _ _ _ ih =>
      cases formed with
      | assignment lexed isTarget formed =>
          obtain ⟨value, ofValue, read⟩ := ih formed
          refine ⟨_, ?_, .assignment isTarget isBecomes read⟩
          exact .cons ⟨rfl, lexed⟩ (.cons ofBecomes ofValue)
  | emptyStatement => exact ⟨[], .nil, .emptyStatement⟩
  | operand _ ih =>
      obtain ⟨tokens, ofTokens, read⟩ := ih (.operand formed)
      exact ⟨tokens, ofTokens, .onlyTerm (.onlyFactor read)⟩
  | binary _ _ ih ih' =>
      cases formed with
      | binary lexed operator formed formed' =>
          obtain ⟨left, ofLeft, read⟩ := ih (.operand formed)
          obtain ⟨right, ofRight, read'⟩ := ih' (.operand formed')
          refine ⟨_, List.rel_append (List.rel_append ofLeft (.cons ⟨rfl, lexed⟩ .nil)) ofRight, ?_⟩
          rcases operator with additive | multiplicative
          · exact .sum (.onlyTerm (.onlyFactor read)) additive (.onlyFactor read')
          · exact .onlyTerm (.product (.onlyFactor read) multiplicative read')
  | signed _ ih =>
      cases formed with
      | operand formed =>
          cases formed with
          | signed lexed isSign formed =>
              obtain ⟨tokens, ofTokens, read⟩ := ih (.operand formed)
              exact ⟨_, .cons ⟨rfl, lexed⟩ ofTokens, .signed isSign read⟩
  | number =>
      cases formed with
      | operand formed =>
          cases formed with
          | number lexed literal =>
              refine ⟨_, .cons ⟨rfl, lexed⟩ .nil, ?_⟩
              rcases literal with integer | real
              · exact .integer integer
              · exact .real real
  | reference =>
      cases formed with
      | operand formed =>
          cases formed with
          | reference lexed isName => exact ⟨_, .cons ⟨rfl, lexed⟩ .nil, .reference isName⟩
  | parenthesised _ ih =>
      cases formed with
      | operand formed =>
          obtain ⟨tokens, ofTokens, read⟩ := ih formed
          refine ⟨_, ?_, .parenthesised isOpening read isClosing⟩
          exact .cons ofOpening (List.rel_append ofTokens (.cons ofClosing .nil))

end PascalFrontEnd
