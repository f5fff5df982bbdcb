import PascalFrontEnd.Token.Kind

/-!
The grammar of the language over token kinds, stated without a parser. A
repetition is written out to the right: `expression` is a term, or a term, an
additive operator and an expression.

    program      = "PROGRAM" identifier ";" block "." | compound "."
    block        = declarations compound
    declarations = [ "VAR" groups ] procedures
    groups       = variableList ";" [ groups ]
    variableList = names ":" type
    names        = identifier [ "," names ]
    procedures   = [ "PROCEDURE" identifier ";" block ";" procedures ]
    compound     = "BEGIN" statements "END"
    statements   = statement [ ";" statements ]
    statement    = compound | identifier ":=" expression | empty
    expression   = term [ ("+" | "-") expression ]
    term         = factor [ ("*" | "DIV" | "/") term ]
    factor       = sign factor | literal | "(" expression ")" | identifier
-/

namespace PascalFrontEnd

inductive Nonterminal where
  | program
  | block
  | declarations
  | groups
  | variableList
  | names
  | procedures
  | compound
  | statements
  | statement
  | expression
  | term
  | factor
  deriving DecidableEq, Repr

inductive Derives : Nonterminal → List Kind → Prop where
  | headed {block} : Derives .block block →
      Derives .program ([.programWord, .identifier, .semicolon] ++ block ++ [.period])
  | headless {compound} : Derives .compound compound →
      Derives .program (compound ++ [.period])
  | block {declarations compound} : Derives .declarations declarations →
      Derives .compound compound → Derives .block (declarations ++ compound)
  | withoutVariables {procedures} : Derives .procedures procedures →
      Derives .declarations procedures
  | withVariables {groups procedures} : Derives .groups groups →
      Derives .procedures procedures →
      Derives .declarations (.varWord :: groups ++ procedures)
  | lastGroup {list} : Derives .variableList list →
      Derives .groups (list ++ [.semicolon])
  | moreGroups {list groups} : Derives .variableList list →
      Derives .groups groups → Derives .groups (list ++ [.semicolon] ++ groups)
  | variableList {names} : Derives .names names →
      Derives .variableList (names ++ [.colon, .typeName])
  | lastName : Derives .names [.identifier]
  | moreNames {names} : Derives .names names →
      Derives .names (.identifier :: .comma :: names)
  | noProcedure : Derives .procedures []
  | moreProcedures {block procedures} : Derives .block block →
      Derives .procedures procedures →
      Derives .procedures ([.procedureWord, .identifier, .semicolon] ++ block ++
        [.semicolon] ++ procedures)
  | compound {statements} : Derives .statements statements →
      Derives .compound (.beginWord :: statements ++ [.endWord])
  | lastStatement {statement} : Derives .statement statement →
      Derives .statements statement
  | moreStatements {statement statements} : Derives .statement statement →
      Derives .statements statements →
      Derives .statements (statement ++ [.semicolon] ++ statements)
  | nested {compound} : Derives .compound compound → Derives .statement compound
  | assignment {expression} : Derives .expression expression →
      Derives .statement (.identifier :: .becomes :: expression)
  | emptyStatement : Derives .statement []
  | lastTerm {term} : Derives .term term → Derives .expression term
  | moreTerms {term op expression} : Derives .term term → op.isAdditive = true →
      Derives .expression expression → Derives .expression (term ++ [op] ++ expression)
  | lastFactor {factor} : Derives .factor factor → Derives .term factor
  | moreFactors {factor op term} : Derives .factor factor → op.isMultiplicative = true →
      Derives .term term → Derives .term (factor ++ [op] ++ term)
  | signed {factor} : Derives .factor factor → Derives .factor (.unarySign :: factor)
  | integer : Derives .factor [.integerLiteral]
  | real : Derives .factor [.realLiteral]
  | parenthesised {expression} : Derives .expression expression →
      Derives .factor (.openParen :: expression ++ [.closeParen])
  | reference : Derives .factor [.identifier]

end PascalFrontEnd
