import PascalFrontEnd.Grammar

/-!
The grammar as the language's documentation writes it, with options and
repetitions, and the proof that it derives the programs of `Derives`.

    program              = "PROGRAM" variable ";" block "." | compound_statement "." ;
    block                = declarations compound_statement ;
    declarations         = [ "VAR" ( variable_declaration ";" ) { variable_declaration ";" } ]
                           { "PROCEDURE" ident ";" block ";" } ;
    variable_declaration = ident { "," ident } ":" type_name ;
    compound_statement   = "BEGIN" statement_list "END" ;
    statement_list       = statement { ";" statement } ;
    statement            = compound_statement | assignment_statement | empty ;
    assignment_statement = variable ":=" expr ;
    expr                 = term { ( "+" | "-" ) term } ;
    term                 = factor { ( "*" | "DIV" | "/" ) factor } ;
    factor               = sign factor | integer | real | "(" expr ")" | variable ;
-/

namespace PascalFrontEnd

/-- The left-hand sides of the documented grammar. -/
inductive Category where
  | program
  | block
  | declarations
  | variableDeclaration
  | compoundStatement
  | statementList
  | statement
  | assignmentStatement
  | expr
  | term
  | factor
  deriving DecidableEq, Repr

inductive Ebnf where
  | empty
  | token (kind : Kind)
  | part (category : Category)
  | sequence (first second : Ebnf)
  | choice (first second : Ebnf)
  | optional (body : Ebnf)
  | repetition (body : Ebnf)
  deriving DecidableEq, Repr

namespace Ebnf

def inOrder (parts : List Ebnf) : Ebnf :=
  parts.foldr sequence empty

end Ebnf

open Ebnf in
def Category.production : Category → Ebnf
  | program =>
      choice
        (inOrder [token .programWord, token .identifier, token .semicolon, part block,
          token .period])
        (inOrder [part compoundStatement, token .period])
  | block => inOrder [part declarations, part compoundStatement]
  | declarations =>
      inOrder [
        optional (inOrder [token .varWord,
          inOrder [part variableDeclaration, token .semicolon],
          repetition (inOrder [part variableDeclaration, token .semicolon])]),
        repetition (inOrder [token .procedureWord, token .identifier, token .semicolon,
          part block, token .semicolon])]
  | variableDeclaration =>
      inOrder [token .identifier, repetition (inOrder [token .comma, token .identifier]),
        token .colon, token .typeName]
  | compoundStatement => inOrder [token .beginWord, part statementList, token .endWord]
  | statementList =>
      inOrder [part statement, repetition (inOrder [token .semicolon, part statement])]
  | statement =>
      choice (part compoundStatement) (choice (part assignmentStatement) empty)
  | assignmentStatement => inOrder [token .identifier, token .becomes, part expr]
  | expr =>
      inOrder [part term,
        repetition (inOrder [choice (token .plus) (token .minus), part term])]
  | term =>
      inOrder [part factor,
        repetition (inOrder [
          choice (token .times) (choice (token .integerDivision) (token .realDivision)),
          part factor])]
  | factor =>
      choice (inOrder [token .unarySign, part factor])
        (choice (token .integerLiteral)
          (choice (token .realLiteral)
            (choice (inOrder [token .openParen, part expr, token .closeParen])
              (token .identifier))))

inductive Ebnf.Matches : Ebnf → List Kind → Prop where
  | empty : Matches .empty []
  | token (kind : Kind) : Matches (.token kind) [kind]
  | part {category : Category} {kinds : List Kind} :
      Matches category.production kinds → Matches (.part category) kinds
  | sequence {first second : Ebnf} {front back : List Kind} :
      Matches first front → Matches second back →
      Matches (.sequence first second) (front ++ back)
  | left {first second : Ebnf} {kinds : List Kind} :
      Matches first kinds → Matches (.choice first second) kinds
  | right {first second : Ebnf} {kinds : List Kind} :
      Matches second kinds → Matches (.choice first second) kinds
  | absent {body : Ebnf} : Matches (.optional body) []
  | present {body : Ebnf} {kinds : List Kind} :
      Matches body kinds → Matches (.optional body) kinds
  | never {body : Ebnf} : Matches (.repetition body) []
  | again {body : Ebnf} {front back : List Kind} :
      Matches body front → Matches (.repetition body) back →
      Matches (.repetition body) (front ++ back)

/-- The phrases of a category, in terms of `Derives`. -/
def Category.Phrase : Category → List Kind → Prop
  | program, kinds => Derives .program kinds
  | block, kinds => Derives .block kinds
  | declarations, kinds => Derives .declarations kinds
  | variableDeclaration, kinds => Derives .variableList kinds
  | compoundStatement, kinds => Derives .compound kinds
  | statementList, kinds => Derives .statements kinds
  | statement, kinds => Derives .statement kinds
  | assignmentStatement, kinds =>
      ∃ value, kinds = .identifier :: .becomes :: value ∧ Derives .expression value
  | expr, kinds => Derives .expression kinds
  | term, kinds => Derives .term kinds
  | factor, kinds => Derives .factor kinds

namespace Ebnf

/-- The sequences of kinds a right-hand side stands for, when every category
stands for its phrases. -/
def Denotes : Ebnf → List Kind → Prop
  | empty, kinds => kinds = []
  | token kind, kinds => kinds = [kind]
  | part category, kinds => category.Phrase kinds
  | sequence first second, kinds =>
      ∃ front back, kinds = front ++ back ∧ first.Denotes front ∧ second.Denotes back
  | choice first second, kinds => first.Denotes kinds ∨ second.Denotes kinds
  | optional body, kinds => kinds = [] ∨ body.Denotes kinds
  | repetition body, kinds =>
      ∃ parts : List (List Kind), kinds = parts.flatten ∧ ∀ part ∈ parts, body.Denotes part

end Ebnf

/-! ### Every production derives phrases -/

section

open Ebnf

theorem Derives.names_of_parts {parts : List (List Kind)}
    (led : ∀ part ∈ parts, (inOrder [token .comma, token .identifier]).Denotes part) :
    Derives .names (.identifier :: parts.flatten) := by
  induction parts with
  | nil => exact .lastName
  | cons part parts ih =>
      have rest := ih fun other present => led other (List.mem_cons_of_mem _ present)
      obtain ⟨_, _, rfl, rfl, _, _, rfl, rfl, rfl⟩ := led part List.mem_cons_self
      exact .moreNames rest

theorem Derives.groups_of_parts {first : List Kind} {parts : List (List Kind)}
    (group : (inOrder [part .variableDeclaration, token .semicolon]).Denotes first)
    (groups : ∀ kinds ∈ parts,
      (inOrder [part .variableDeclaration, token .semicolon]).Denotes kinds) :
    Derives .groups (first ++ parts.flatten) := by
  induction parts generalizing first with
  | nil =>
      rcases group with ⟨list, _, rfl, declared, _, _, rfl, rfl, rfl⟩
      simpa using Derives.lastGroup declared
  | cons second parts ih =>
      have rest := ih (groups second List.mem_cons_self)
        fun other present => groups other (List.mem_cons_of_mem _ present)
      rcases group with ⟨list, _, rfl, declared, _, _, rfl, rfl, rfl⟩
      exact .moreGroups declared rest

theorem Derives.procedures_of_parts {parts : List (List Kind)}
    (each : ∀ kinds ∈ parts, (inOrder [token .procedureWord, token .identifier,
      token .semicolon, part .block, token .semicolon]).Denotes kinds) :
    Derives .procedures parts.flatten := by
  induction parts with
  | nil => exact .noProcedure
  | cons first parts ih =>
      have rest := ih fun other present => each other (List.mem_cons_of_mem _ present)
      rcases each first List.mem_cons_self with ⟨_, _, rfl, rfl, _, _, rfl, rfl, _, _, rfl, rfl,
        block, _, rfl, derived, _, _, rfl, rfl, rfl⟩
      simpa using Derives.moreProcedures derived rest

theorem Derives.statements_of_parts {first : List Kind} {parts : List (List Kind)}
    (statement : Derives .statement first)
    (each : ∀ kinds ∈ parts, (inOrder [token .semicolon, part .statement]).Denotes kinds) :
    Derives .statements (first ++ parts.flatten) := by
  induction parts generalizing first with
  | nil => simpa using Derives.lastStatement statement
  | cons second parts ih =>
      obtain ⟨_, _, rfl, rfl, next, _, rfl, derived, rfl⟩ := each second List.mem_cons_self
      have rest := ih derived fun other present => each other (List.mem_cons_of_mem _ present)
      simpa using Derives.moreStatements statement rest

theorem Derives.expression_of_parts {first : List Kind} {parts : List (List Kind)}
    (term : Derives .term first)
    (each : ∀ kinds ∈ parts,
      (inOrder [choice (token .plus) (token .minus), part .term]).Denotes kinds) :
    Derives .expression (first ++ parts.flatten) := by
  induction parts generalizing first with
  | nil => simpa using Derives.lastTerm term
  | cons second parts ih =>
      obtain ⟨_, _, rfl, op, next, _, rfl, derived, rfl⟩ := each second List.mem_cons_self
      have rest := ih derived fun other present => each other (List.mem_cons_of_mem _ present)
      rcases op with rfl | rfl
      · simpa using Derives.moreTerms term rfl rest
      · simpa using Derives.moreTerms term rfl rest

theorem Derives.term_of_parts {first : List Kind} {parts : List (List Kind)}
    (factor : Derives .factor first)
    (each : ∀ kinds ∈ parts, (inOrder [choice (token .times)
      (choice (token .integerDivision) (token .realDivision)), part .factor]).Denotes kinds) :
    Derives .term (first ++ parts.flatten) := by
  induction parts generalizing first with
  | nil => simpa using Derives.lastFactor factor
  | cons second parts ih =>
      obtain ⟨_, _, rfl, op, next, _, rfl, derived, rfl⟩ := each second List.mem_cons_self
      have rest := ih derived fun other present => each other (List.mem_cons_of_mem _ present)
      rcases op with rfl | rfl | rfl
      · simpa using Derives.moreFactors factor rfl rest
      · simpa using Derives.moreFactors factor rfl rest
      · simpa using Derives.moreFactors factor rfl rest

theorem Category.phrase_of_production {category : Category} {kinds : List Kind}
    (denoted : category.production.Denotes kinds) : category.Phrase kinds := by
  cases category with
  | program =>
      rcases denoted with headed | headless
      · rcases headed with ⟨_, _, rfl, rfl, _, _, rfl, rfl, _, _, rfl, rfl, block, _, rfl,
          derived, _, _, rfl, rfl, rfl⟩
        exact .headed derived
      · rcases headless with ⟨compound, _, rfl, derived, _, _, rfl, rfl, rfl⟩
        exact .headless derived
  | block =>
      rcases denoted with ⟨declarations, _, rfl, derived, compound, _, rfl, derived', rfl⟩
      simpa [Category.Phrase] using Derives.block derived derived'
  | declarations =>
      rcases denoted with ⟨vars, _, rfl, leading, procedures, _, rfl, ⟨parts, rfl, each⟩, rfl⟩
      have declared := Derives.procedures_of_parts each
      rcases leading with rfl | ⟨_, _, rfl, rfl, first, _, rfl, group, _, _, rfl,
        ⟨groups, rfl, eachGroup⟩, rfl⟩
      · simpa [Category.Phrase] using Derives.withoutVariables declared
      · simpa [Category.Phrase] using Derives.withVariables (.groups_of_parts group eachGroup) declared
  | variableDeclaration =>
      rcases denoted with ⟨_, _, rfl, rfl, _, _, rfl, ⟨parts, rfl, led⟩, _, _, rfl, rfl, _, _,
        rfl, rfl, rfl⟩
      exact .variableList (.names_of_parts led)
  | compoundStatement =>
      rcases denoted with ⟨_, _, rfl, rfl, statements, _, rfl, derived, _, _, rfl, rfl, rfl⟩
      exact .compound derived
  | statementList =>
      rcases denoted with ⟨first, _, rfl, derived, _, _, rfl, ⟨parts, rfl, each⟩, rfl⟩
      simpa [Category.Phrase] using Derives.statements_of_parts derived each
  | statement =>
      rcases denoted with derived | ⟨value, rfl, derived⟩ | rfl
      · exact .nested derived
      · exact .assignment derived
      · exact .emptyStatement
  | assignmentStatement =>
      rcases denoted with ⟨_, _, rfl, rfl, _, _, rfl, rfl, value, _, rfl, derived, rfl⟩
      exact ⟨value, by simp, derived⟩
  | expr =>
      rcases denoted with ⟨first, _, rfl, derived, _, _, rfl, ⟨parts, rfl, each⟩, rfl⟩
      simpa [Category.Phrase] using Derives.expression_of_parts derived each
  | term =>
      rcases denoted with ⟨first, _, rfl, derived, _, _, rfl, ⟨parts, rfl, each⟩, rfl⟩
      simpa [Category.Phrase] using Derives.term_of_parts derived each
  | factor =>
      rcases denoted with signed | rfl | rfl | bracketed | rfl
      · rcases signed with ⟨_, _, rfl, rfl, factor, _, rfl, derived, rfl⟩
        simpa [Category.Phrase] using Derives.signed derived
      · exact .integer
      · exact .real
      · rcases bracketed with ⟨_, _, rfl, rfl, expression, _, rfl, derived, _, _, rfl, rfl, rfl⟩
        exact .parenthesised derived
      · exact .reference

theorem Ebnf.Matches.denotes {body : Ebnf} {kinds : List Kind} (matched : body.Matches kinds) :
    body.Denotes kinds := by
  induction matched with
  | empty => rfl
  | token => rfl
  | part _ ih => exact Category.phrase_of_production ih
  | sequence _ _ ih ih' => exact ⟨_, _, rfl, ih, ih'⟩
  | left _ ih => exact .inl ih
  | right _ ih => exact .inr ih
  | absent => exact .inl rfl
  | present _ ih => exact .inr ih
  | never => exact ⟨[], rfl, by simp⟩
  | again _ _ ih ih' =>
      rcases ih' with ⟨parts, rfl, each⟩
      exact ⟨_ :: parts, rfl, List.forall_mem_cons.mpr ⟨ih, each⟩⟩

end

/-! ### Every phrase is derived by the productions -/

def Nonterminal.form : Nonterminal → Ebnf
  | .program => .part .program
  | .block => .part .block
  | .declarations => .part .declarations
  | .groups =>
      .sequence (.inOrder [.part .variableDeclaration, .token .semicolon])
        (.repetition (.inOrder [.part .variableDeclaration, .token .semicolon]))
  | .variableList => .part .variableDeclaration
  | .names =>
      .sequence (.token .identifier)
        (.repetition (.inOrder [.token .comma, .token .identifier]))
  | .procedures =>
      .repetition (.inOrder [.token .procedureWord, .token .identifier, .token .semicolon,
        .part .block, .token .semicolon])
  | .compound => .part .compoundStatement
  | .statements => .part .statementList
  | .statement => .part .statement
  | .expression => .part .expr
  | .term => .part .term
  | .factor => .part .factor

namespace Ebnf.Matches

theorem led {kind : Kind} {rest : List Ebnf} {kinds : List Kind}
    (matched : (inOrder rest).Matches kinds) :
    (inOrder (.token kind :: rest)).Matches (kind :: kinds) :=
  .sequence (.token kind) matched

theorem last {body : Ebnf} {kinds : List Kind} (matched : body.Matches kinds) :
    (inOrder [body]).Matches kinds := by
  have whole := Matches.sequence matched .empty
  rwa [List.append_nil] at whole

theorem ended {body : Ebnf} {kind : Kind} {kinds : List Kind} (matched : body.Matches kinds) :
    (inOrder [body, .token kind]).Matches (kinds ++ [kind]) :=
  .sequence matched (last (.token kind))

theorem alone {first body : Ebnf} {kinds : List Kind} (matched : first.Matches kinds) :
    (Ebnf.sequence first (.repetition body)).Matches kinds := by
  have whole := Matches.sequence matched (never : (repetition body).Matches [])
  rwa [List.append_nil] at whole

theorem once {first body : Ebnf} {kinds : List Kind} (matched : first.Matches kinds) :
    (inOrder [first, .repetition body]).Matches kinds := by
  have whole := Matches.sequence matched (last (never : (repetition body).Matches []))
  rwa [List.append_nil] at whole

theorem more {category : Category} {first joined : Ebnf} {front between back : List Kind}
    (production : category.production = inOrder [first, .repetition joined])
    (matched : first.Matches front) (linked : ∀ {kinds}, first.Matches kinds →
      joined.Matches (between ++ kinds))
    (rest : (Ebnf.part category).Matches back) :
    (Ebnf.part category).Matches (front ++ between ++ back) := by
  cases rest with
  | part inside =>
      rw [production] at inside
      refine .part ?_
      rw [production, List.append_assoc]
      refine .sequence matched (last ?_)
      cases inside with
      | @sequence _ _ head tail matchedHead matchedTail =>
          cases matchedTail with
          | @sequence _ _ loop _ matchedLoop matchedEnd =>
              cases matchedEnd
              rw [← List.append_assoc]
              refine .again (linked matchedHead) ?_
              rwa [List.append_nil]

end Ebnf.Matches

theorem Ebnf.matches_additive {kind : Kind} (additive : kind.isAdditive = true) :
    (choice (token .plus) (token .minus)).Matches [kind] := by
  rcases Kind.eq_of_isAdditive additive with rfl | rfl
  · exact .left (.token _)
  · exact .right (.token _)

theorem Ebnf.matches_multiplicative {kind : Kind}
    (multiplicative : kind.isMultiplicative = true) :
    (choice (token .times) (choice (token .integerDivision) (token .realDivision))).Matches
      [kind] := by
  rcases Kind.eq_of_isMultiplicative multiplicative with rfl | rfl | rfl
  · exact .left (.token _)
  · exact .right (.left (.token _))
  · exact .right (.right (.token _))

open Ebnf Ebnf.Matches in
theorem Derives.matches_form {symbol : Nonterminal} {kinds : List Kind}
    (derived : Derives symbol kinds) : symbol.form.Matches kinds := by
  induction derived with
  | headed _ ih =>
      exact .part (.left (led (led (led (ended ih)))))
  | headless _ ih => exact .part (.right (ended ih))
  | block _ _ ih ih' => exact .part (.sequence ih (last ih'))
  | withoutVariables _ ih => exact .part (.sequence .absent (last ih))
  | withVariables _ _ ih ih' =>
      refine .part (.sequence (.present (led ?_)) (last ih'))
      cases ih with
      | sequence first others => exact .sequence first (last others)
  | lastGroup _ ih => exact alone (ended ih)
  | moreGroups _ _ ih ih' =>
      refine .sequence (ended ih) ?_
      cases ih' with
      | sequence first others => exact .again first others
  | variableList _ ih =>
      refine .part ?_
      cases ih with
      | sequence first others =>
          rw [List.append_assoc]
          exact .sequence first (.sequence others (led (last (.token _))))
  | lastName => exact .sequence (.token _) .never
  | moreNames _ ih =>
      refine .sequence (.token _) ?_
      cases ih with
      | sequence first others => exact .again (led (last first)) others
  | noProcedure => exact .never
  | moreProcedures _ _ ih ih' => exact .again (led (led (led (ended ih)))) ih'
  | compound _ ih => exact .part (led (ended ih))
  | lastStatement _ ih => exact .part (once ih)
  | moreStatements _ _ ih ih' => exact more rfl ih (fun matched => led (last matched)) ih'
  | nested _ ih => exact .part (.left ih)
  | assignment _ ih => exact .part (.right (.left (.part (led (led (last ih))))))
  | emptyStatement => exact .part (.right (.right .empty))
  | lastTerm _ ih => exact .part (once ih)
  | moreTerms _ additive _ ih ih' =>
      exact more rfl ih (fun matched => .sequence (matches_additive additive) (last matched)) ih'
  | lastFactor _ ih => exact .part (once ih)
  | moreFactors _ multiplicative _ ih ih' =>
      exact more rfl ih
        (fun matched => .sequence (matches_multiplicative multiplicative) (last matched)) ih'
  | signed _ ih => exact .part (.left (led (last ih)))
  | integer => exact .part (.right (.left (.token _)))
  | real => exact .part (.right (.right (.left (.token _))))
  | parenthesised _ ih => exact .part (.right (.right (.right (.left (led (ended ih))))))
  | reference => exact .part (.right (.right (.right (.right (.token _)))))

theorem Ebnf.Denotes.matches : ∀ {body : Ebnf} {kinds : List Kind},
    body.Denotes kinds → body.Matches kinds
  | .empty, _, rfl => .empty
  | .token kind, _, rfl => .token kind
  | .part .program, _, derived | .part .block, _, derived | .part .declarations, _, derived
  | .part .variableDeclaration, _, derived | .part .compoundStatement, _, derived
  | .part .statementList, _, derived | .part .statement, _, derived | .part .expr, _, derived
  | .part .term, _, derived | .part .factor, _, derived => Derives.matches_form derived
  | .part .assignmentStatement, _, ⟨_, rfl, derived⟩ =>
      .part (Matches.led (Matches.led (Matches.last derived.matches_form)))
  | .sequence _ _, _, ⟨_, _, rfl, first, second⟩ =>
      .sequence (Denotes.matches first) (Denotes.matches second)
  | .choice _ _, _, .inl first => .left (Denotes.matches first)
  | .choice _ _, _, .inr second => .right (Denotes.matches second)
  | .optional _, _, .inl rfl => .absent
  | .optional _, _, .inr present => .present (Denotes.matches present)
  | .repetition body, _, ⟨parts, rfl, each⟩ => by
      induction parts with
      | nil => exact .never
      | cons part parts ih =>
          refine .again (Denotes.matches (each part List.mem_cons_self)) (ih ?_)
          exact fun other present => each other (List.mem_cons_of_mem _ present)

/-- The documented grammar derives what `Derives` does. -/
theorem matches_iff {body : Ebnf} {kinds : List Kind} :
    body.Matches kinds ↔ body.Denotes kinds :=
  ⟨Ebnf.Matches.denotes, Ebnf.Denotes.matches⟩

end PascalFrontEnd
