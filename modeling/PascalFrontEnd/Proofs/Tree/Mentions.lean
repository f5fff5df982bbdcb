import PascalFrontEnd.Proofs.Grammar.Marked
import PascalFrontEnd.Proofs.Grammar.Reading

namespace PascalFrontEnd

def Kind.isMentioned : Kind → Bool
  | identifier | integerLiteral | realLiteral | unarySign | plus | minus | times
  | integerDivision | realDivision => true
  | _ => false

/-- A token in a tree, or a name in place of it; with the name of a variable
goes that of its type. -/
inductive Mention where
  | token (token : Token)
  | name (name : String)
  | declared (name typeName : String)
  deriving DecidableEq, Repr

/-- How a token is mentioned: as it is, by its name, or by its name and that of
the first type behind it. -/
def Mention.Of : Mention → Token → List Token → Prop
  | token stored, here, _ => stored = here
  | name stored, here, _ => stored = here.name
  | declared stored typeName, here, behind =>
      stored = here.name ∧
        ∃ type, behind.find? (·.kind == .typeName) = some type ∧ typeName = type.name

namespace Tree

mutual

def mentions : Tree → List Mention
  | number token => [.token token]
  | varRef token => [.token token]
  | unaryOp op operand => .token op :: operand.mentions
  | binOp left op right => left.mentions ++ .token op :: right.mentions
  | assign target value => .token target :: value.mentions
  | compound statements => mentionsAll statements
  | noOp => []
  | varDecl name typeName => [.declared name typeName]
  | block declarations statements => mentionsAll declarations ++ mentionsAll statements
  | procedure name declarations statements =>
      .name name :: (mentionsAll declarations ++ mentionsAll statements)
  | program name declarations statements =>
      .name name :: (mentionsAll declarations ++ mentionsAll statements)

def mentionsAll : List Tree → List Mention
  | [] => []
  | tree :: trees => tree.mentions ++ mentionsAll trees

end

theorem mentionsAll_append (trees others : List Tree) :
    mentionsAll (trees ++ others) = mentionsAll trees ++ mentionsAll others := by
  induction trees with
  | nil => rfl
  | cons tree trees ih => rw [List.cons_append, mentionsAll, mentionsAll, ih, List.append_assoc]

theorem mentionsAll_orNoOp (trees : List Tree) : mentionsAll (orNoOp trees) = mentionsAll trees := by
  cases trees <;> rfl

theorem mentionsAll_varDecls (names : List String) (typeName : String) :
    mentionsAll (names.map (.varDecl · typeName)) = names.map (.declared · typeName) := by
  induction names with
  | nil => rfl
  | cons name names ih =>
      rw [List.map_cons, List.map_cons, mentionsAll, ih]
      rfl

end Tree

instance : Lasting Mention.Of where
  append {mention token behind} more told := by
    cases mention with
    | token => exact told
    | name => exact told
    | declared =>
        obtain ⟨named, type, found, typed⟩ := told
        exact ⟨named, type, by rw [List.find?_append, found, Option.some_or], typed⟩

/-- The tokens mention what is listed, and nothing else that has to be. -/
abbrev Mentions (listed : List Mention) (tokens : List Token) : Prop :=
  Marks Kind.isMentioned Mention.Of listed tokens

def Nonterminal.Mentioned : (symbol : Nonterminal) → List Token → symbol.Value → Prop
  | .program, tokens, tree | .statement, tokens, tree | .expression, tokens, tree
  | .term, tokens, tree | .factor, tokens, tree => Mentions tree.mentions tokens
  | .declarations, tokens, trees | .groups, tokens, trees | .variableList, tokens, trees
  | .procedures, tokens, trees | .compound, tokens, trees | .statements, tokens, trees =>
      Mentions (Tree.mentionsAll trees) tokens
  | .names, tokens, spelt => ∀ colon type : Token, colon.kind = .colon → type.kind = .typeName →
      (tokens ++ [colon, type]).find? (·.kind == .typeName) = some type ∧
        Mentions (spelt.map (.declared · type.name)) (tokens ++ [colon, type])
  | .block, tokens, (declared, body) =>
      Mentions (Tree.mentionsAll declared ++ Tree.mentionsAll body) tokens

section

variable {first second : List Mention} {front back tokens : List Token} {token : Token}

theorem Mentions.joined {op : Token} (left : Mentions first front)
    (operator : op.kind.isMentioned = true) (right : Mentions second back) :
    Mentions (first ++ .token op :: second) (front ++ [op] ++ back) := by
  rw [List.append_assoc]
  exact left.append (.mark rfl operator rfl right)

theorem Mentions.headed {word name semicolon : Token} {kind : Kind} (here : word.kind = kind)
    (silent : kind.isMentioned = false) (named : name.kind = .identifier)
    (ends : semicolon.kind = .semicolon) (mentions : Mentions first tokens) :
    Mentions (.name name.name :: first) ([word, name, semicolon] ++ tokens) :=
  .pass here silent (.mark named rfl rfl (.pass ends rfl mentions))

theorem Mentions.single {kind : Kind} (here : token.kind = kind)
    (mentioned : kind.isMentioned = true) : Mentions [.token token] [token] :=
  .mark here mentioned rfl .nil

end

theorem Kind.isMentioned_of_isAdditive {kind : Kind} (additive : kind.isAdditive = true) :
    kind.isMentioned = true := by
  rcases eq_of_isAdditive additive with rfl | rfl <;> rfl

theorem Kind.isMentioned_of_isMultiplicative {kind : Kind}
    (multiplicative : kind.isMultiplicative = true) : kind.isMentioned = true := by
  rcases eq_of_isMultiplicative multiplicative with rfl | rfl | rfl <;> rfl

theorem mentions_lastName {name colon type : Token} (named : name.kind = .identifier)
    (separated : colon.kind = .colon) (typed : type.kind = .typeName) :
    [name, colon, type].find? (·.kind == .typeName) = some type ∧
      Mentions [.declared name.name type.name] [name, colon, type] := by
  have found : [colon, type].find? (·.kind == .typeName) = some type := by
    simp [separated, typed]
  have silent : Mentions [] [colon, type] := .pass separated rfl (.single typed rfl)
  refine ⟨by simp [named, separated, typed], ?_⟩
  exact .mark named rfl ⟨rfl, type, found, rfl⟩ silent

theorem Reads.mentioned {symbol : Nonterminal} {tokens : List Token} {value : symbol.Value}
    (read : Reads symbol tokens value) : symbol.Mentioned tokens value := by
  induction read with
  | headed word name semicolon _ period ih =>
      exact (Mentions.headed word rfl name semicolon ih).concat period rfl
  | headless _ period ih => exact Marks.concat ih period rfl
  | block _ _ ih ih' => exact Marks.append ih ih'
  | withoutVariables _ ih =>
      show Mentions (Tree.mentionsAll (orNoOp _)) _
      rw [Tree.mentionsAll_orNoOp]
      exact ih
  | withVariables word _ _ ih ih' =>
      show Mentions (Tree.mentionsAll (orNoOp _)) _
      rw [Tree.mentionsAll_orNoOp, Tree.mentionsAll_append]
      exact .pass word rfl (.append ih ih')
  | lastGroup _ semicolon ih => exact Marks.concat ih semicolon rfl
  | moreGroups _ semicolon _ ih ih' =>
      show Mentions (Tree.mentionsAll _) _
      rw [Tree.mentionsAll_append]
      exact .apart ih semicolon rfl ih'
  | variableList _ colon type ih =>
      show Mentions (Tree.mentionsAll _) _
      rw [Tree.mentionsAll_varDecls]
      exact (ih _ _ colon type).2
  | lastName name =>
      intro colon type separated typed
      exact mentions_lastName name separated typed
  | @moreNames name comma tokens names named separates _ ih =>
      intro colon type separated typed
      obtain ⟨found, mentions⟩ := ih colon type separated typed
      have found' : (comma :: (tokens ++ [colon, type])).find? (·.kind == .typeName) = some type := by
        rw [List.find?_cons_of_neg (by rw [separates]; decide), found]
      refine ⟨?_, .mark named rfl ⟨rfl, type, found', rfl⟩ (.pass separates rfl mentions)⟩
      show (name :: comma :: (tokens ++ [colon, type])).find? (·.kind == .typeName) = some type
      rw [List.find?_cons_of_neg (by rw [named]; decide), found']
  | noProcedure => exact Marks.nil
  | moreProcedures word name semicolon _ last _ ih ih' =>
      exact .apart (Mentions.headed word rfl name semicolon ih) last rfl ih'
  | compound opens _ closes ih => exact Marks.concat (.pass opens rfl ih) closes rfl
  | lastStatement _ ih =>
      show Mentions (Tree.mentionsAll _) _
      rw [Tree.mentionsAll, Tree.mentionsAll, List.append_nil]
      exact ih
  | moreStatements _ semicolon _ ih ih' => exact Marks.apart ih semicolon rfl ih'
  | nested _ ih => exact ih
  | assignment target becomes _ ih => exact .mark target rfl rfl (.pass becomes rfl ih)
  | emptyStatement => exact Marks.nil
  | onlyTerm _ ih | onlyFactor _ ih => exact ih
  | sum _ additive _ ih ih' =>
      exact Mentions.joined ih (Kind.isMentioned_of_isAdditive additive) ih'
  | product _ multiplicative _ ih ih' =>
      exact Mentions.joined ih (Kind.isMentioned_of_isMultiplicative multiplicative) ih'
  | signed sign _ ih => exact .mark sign rfl rfl ih
  | integer kind | real kind | reference kind => exact Mentions.single kind rfl
  | parenthesised opens _ closes ih => exact Marks.concat (.pass opens rfl ih) closes rfl

end PascalFrontEnd
