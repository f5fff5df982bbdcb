import PascalFrontEnd.Proofs.Parse.Recognition

/-! Sketches say at which places of a stream the tokens of a tree stand. -/

namespace PascalFrontEnd

inductive Sketch where
  | number (place : Nat)
  | varRef (place : Nat)
  | unaryOp (op : Nat) (operand : Sketch)
  | binOp (left : Sketch) (op : Nat) (right : Sketch)
  | assign (target : Nat) (value : Sketch)
  | compound (statements : List Sketch)
  | noOp
  | varDecl (name typeName : Nat)
  | block (declarations statements : List Sketch)
  | procedure (name : Nat) (declarations statements : List Sketch)
  | program (name : Nat) (declarations statements : List Sketch)

namespace Sketch

mutual

/-- The tree with the tokens of the stream, and with their names where names are
kept. -/
def fill (stream : Nat → Token) : Sketch → Tree
  | number place => .number (stream place)
  | varRef place => .varRef (stream place)
  | unaryOp op operand => .unaryOp (stream op) (operand.fill stream)
  | binOp left op right => .binOp (left.fill stream) (stream op) (right.fill stream)
  | assign target value => .assign (stream target) (value.fill stream)
  | compound statements => .compound (fillAll stream statements)
  | noOp => .noOp
  | varDecl name typeName => .varDecl (stream name).name (stream typeName).name
  | block declarations statements =>
      .block (fillAll stream declarations) (fillAll stream statements)
  | procedure name declarations statements =>
      .procedure (stream name).name (fillAll stream declarations) (fillAll stream statements)
  | program name declarations statements =>
      .program (stream name).name (fillAll stream declarations) (fillAll stream statements)

def fillAll (stream : Nat → Token) : List Sketch → List Tree
  | [] => []
  | sketch :: sketches => sketch.fill stream :: fillAll stream sketches

end

theorem fillAll_append (stream : Nat → Token) (sketches more : List Sketch) :
    fillAll stream (sketches ++ more) = fillAll stream sketches ++ fillAll stream more := by
  induction sketches with
  | nil => rfl
  | cons sketch sketches ih => rw [List.cons_append, fillAll, fillAll, ih, List.cons_append]

def orNoOp : List Sketch → List Sketch
  | [] => [.noOp]
  | declared => declared

theorem fillAll_orNoOp (stream : Nat → Token) (sketches : List Sketch) :
    fillAll stream (orNoOp sketches) = PascalFrontEnd.orNoOp (fillAll stream sketches) := by
  cases sketches <;> rfl

theorem fillAll_varDecls (stream : Nat → Token) (names : List Nat) (typeName : Nat) :
    fillAll stream (names.map (.varDecl · typeName)) =
      (names.map fun name => (stream name).name).map (.varDecl · (stream typeName).name) := by
  induction names with
  | nil => rfl
  | cons name names ih => rw [List.map_cons, fillAll, ih, fill, List.map_cons, List.map_cons]

end Sketch

@[reducible] def Nonterminal.Sketch : Nonterminal → Type
  | .program | .statement | .expression | .term | .factor => PascalFrontEnd.Sketch
  | .declarations | .groups | .variableList | .procedures | .compound | .statements =>
      List PascalFrontEnd.Sketch
  | .names => List Nat
  | .block => List PascalFrontEnd.Sketch × List PascalFrontEnd.Sketch

def Nonterminal.fill (stream : Nat → Token) : (symbol : Nonterminal) → symbol.Sketch → symbol.Value
  | .program, sketch | .statement, sketch | .expression, sketch | .term, sketch
  | .factor, sketch => sketch.fill stream
  | .declarations, sketches | .groups, sketches | .variableList, sketches
  | .procedures, sketches | .compound, sketches | .statements, sketches =>
      Sketch.fillAll stream sketches
  | .names, places => places.map fun place => (stream place).name
  | .block, sketches => (Sketch.fillAll stream sketches.1, Sketch.fillAll stream sketches.2)

def counterparts (stream : Nat → Token) : Nat → List Token → List Token
  | _, [] => []
  | place, _ :: tokens => stream place :: counterparts stream (place + 1) tokens

section

variable {stream : Nat → Token} {place : Nat}

theorem counterparts_append (stream : Nat → Token) (place : Nat) (front back : List Token) :
    counterparts stream place (front ++ back) =
      counterparts stream place front ++ counterparts stream (place + front.length) back := by
  induction front generalizing place with
  | nil => rfl
  | cons token front ih =>
      rw [List.cons_append, counterparts, ih, counterparts, List.cons_append, List.length_cons,
        Nat.add_right_comm, Nat.add_assoc]

theorem length_counterparts (stream : Nat → Token) (place : Nat) (tokens : List Token) :
    (counterparts stream place tokens).length = tokens.length := by
  induction tokens generalizing place with
  | nil => rfl
  | cons token tokens ih => rw [counterparts, List.length_cons, ih, List.length_cons]

theorem counterparts_append_eq {front back : List Token} :
    counterparts stream place (front ++ back) = front ++ back ↔
      counterparts stream place front = front ∧
        counterparts stream (place + front.length) back = back := by
  rw [counterparts_append]
  constructor
  · exact fun same => List.append_inj same (length_counterparts stream place front)
  · rintro ⟨first, second⟩
    rw [first, second]

theorem counterparts_cons_eq {token : Token} {tokens : List Token} :
    counterparts stream place (token :: tokens) = token :: tokens ↔
      stream place = token ∧ counterparts stream (place + 1) tokens = tokens := by
  rw [counterparts, List.cons.injEq]

end

/-- The value is read at a place of a stream as a sketch that can be filled in
with any stream of the same kinds. -/
def Sketched (symbol : Nonterminal) (base : Nat → Token) (place : Nat) (tokens : List Token) :
    Prop :=
  ∃ sketch : symbol.Sketch, ∀ stream : Nat → Token, (∀ at', (stream at').kind = (base at').kind) →
    Reads symbol (counterparts stream place tokens) (symbol.fill stream sketch)

theorem Reads.sketched {base : Nat → Token} {symbol : Nonterminal} {tokens : List Token}
    {value : symbol.Value} (read : Reads symbol tokens value) {place : Nat}
    (here : counterparts base place tokens = tokens) : Sketched symbol base place tokens := by
  induction read generalizing place with
  | headed word name semicolon _ period ih =>
      simp only [counterparts_append_eq, counterparts_cons_eq] at here
      obtain ⟨⟨⟨rfl, rfl, rfl, -⟩, inside⟩, rfl, -⟩ := here
      obtain ⟨sketch, fills⟩ := ih inside
      refine ⟨.program (place + 1) sketch.1 sketch.2, fun stream same => ?_⟩
      rw [counterparts_append, counterparts_append]
      exact .headed ((same _).trans word) ((same _).trans name) ((same _).trans semicolon)
        (fills stream same) ((same _).trans period)
  | headless _ period ih =>
      simp only [counterparts_append_eq, counterparts_cons_eq] at here
      obtain ⟨inside, rfl, -⟩ := here
      obtain ⟨sketch, fills⟩ := ih inside
      refine ⟨.block [.noOp] sketch, fun stream same => ?_⟩
      rw [counterparts_append]
      exact .headless (fills stream same) ((same _).trans period)
  | block _ _ ih ih' =>
      rw [counterparts_append_eq] at here
      obtain ⟨declared, fillsDeclared⟩ := ih here.1
      obtain ⟨body, fillsBody⟩ := ih' here.2
      refine ⟨(declared, body), fun stream same => ?_⟩
      rw [counterparts_append]
      exact .block (fillsDeclared stream same) (fillsBody stream same)
  | withoutVariables _ ih =>
      obtain ⟨sketch, fills⟩ := ih here
      refine ⟨Sketch.orNoOp sketch, fun stream same => ?_⟩
      rw [Nonterminal.fill, Sketch.fillAll_orNoOp]
      exact .withoutVariables (fills stream same)
  | withVariables word _ _ ih ih' =>
      rw [counterparts_append_eq, counterparts_cons_eq] at here
      obtain ⟨⟨rfl, vars⟩, procedures⟩ := here
      obtain ⟨sketch, fills⟩ := ih vars
      obtain ⟨sketch', fills'⟩ := ih' procedures
      refine ⟨Sketch.orNoOp (sketch ++ sketch'), fun stream same => ?_⟩
      rw [counterparts_append, Nonterminal.fill, Sketch.fillAll_orNoOp, Sketch.fillAll_append]
      exact .withVariables ((same _).trans word) (fills stream same) (fills' stream same)
  | lastGroup _ semicolon ih =>
      simp only [counterparts_append_eq, counterparts_cons_eq] at here
      obtain ⟨list, rfl, -⟩ := here
      obtain ⟨sketch, fills⟩ := ih list
      refine ⟨sketch, fun stream same => ?_⟩
      rw [counterparts_append]
      exact .lastGroup (fills stream same) ((same _).trans semicolon)
  | moreGroups _ semicolon _ ih ih' =>
      simp only [counterparts_append_eq, counterparts_cons_eq] at here
      obtain ⟨⟨list, rfl, -⟩, groups⟩ := here
      obtain ⟨sketch, fills⟩ := ih list
      obtain ⟨sketch', fills'⟩ := ih' groups
      refine ⟨sketch ++ sketch', fun stream same => ?_⟩
      rw [counterparts_append, counterparts_append, Nonterminal.fill, Sketch.fillAll_append]
      exact .moreGroups (fills stream same) ((same _).trans semicolon) (fills' stream same)
  | @variableList _ _ tokens _ _ colon type ih =>
      simp only [counterparts_append_eq, counterparts_cons_eq] at here
      obtain ⟨names, rfl, rfl, -⟩ := here
      obtain ⟨places, fills⟩ := ih names
      refine ⟨places.map (.varDecl · (place + tokens.length + 1)), fun stream same => ?_⟩
      rw [counterparts_append, Nonterminal.fill, Sketch.fillAll_varDecls]
      exact .variableList (fills stream same) ((same _).trans colon) ((same _).trans type)
  | lastName name =>
      rw [counterparts_cons_eq] at here
      obtain ⟨rfl, -⟩ := here
      exact ⟨[place], fun stream same => .lastName ((same _).trans name)⟩
  | moreNames name comma _ ih =>
      simp only [counterparts_cons_eq] at here
      obtain ⟨rfl, rfl, names⟩ := here
      obtain ⟨places, fills⟩ := ih names
      refine ⟨place :: places, fun stream same => ?_⟩
      exact .moreNames ((same _).trans name) ((same _).trans comma) (fills stream same)
  | noProcedure => exact ⟨[], fun _ _ => .noProcedure⟩
  | moreProcedures word name semicolon _ last _ ih ih' =>
      simp only [counterparts_append_eq, counterparts_cons_eq] at here
      obtain ⟨⟨⟨⟨rfl, rfl, rfl, -⟩, inside⟩, rfl, -⟩, procedures⟩ := here
      obtain ⟨sketch, fills⟩ := ih inside
      obtain ⟨sketch', fills'⟩ := ih' procedures
      refine ⟨.procedure (place + 1) sketch.1 sketch.2 :: sketch', fun stream same => ?_⟩
      rw [counterparts_append, counterparts_append, counterparts_append]
      exact .moreProcedures ((same _).trans word) ((same _).trans name) ((same _).trans semicolon)
        (fills stream same) ((same _).trans last) (fills' stream same)
  | compound first _ last ih =>
      rw [counterparts_append_eq, counterparts_cons_eq, counterparts_cons_eq] at here
      obtain ⟨⟨rfl, inside⟩, rfl, -⟩ := here
      obtain ⟨sketch, fills⟩ := ih inside
      refine ⟨sketch, fun stream same => ?_⟩
      rw [counterparts_append]
      exact .compound ((same _).trans first) (fills stream same) ((same _).trans last)
  | lastStatement _ ih =>
      obtain ⟨sketch, fills⟩ := ih here
      exact ⟨[sketch], fun stream same => .lastStatement (fills stream same)⟩
  | moreStatements _ semicolon _ ih ih' =>
      simp only [counterparts_append_eq, counterparts_cons_eq] at here
      obtain ⟨⟨first, rfl, -⟩, others⟩ := here
      obtain ⟨sketch, fills⟩ := ih first
      obtain ⟨sketch', fills'⟩ := ih' others
      refine ⟨sketch :: sketch', fun stream same => ?_⟩
      rw [counterparts_append, counterparts_append]
      exact .moreStatements (fills stream same) ((same _).trans semicolon) (fills' stream same)
  | nested _ ih =>
      obtain ⟨sketch, fills⟩ := ih here
      exact ⟨.compound sketch, fun stream same => .nested (fills stream same)⟩
  | assignment target becomes _ ih =>
      simp only [counterparts_cons_eq] at here
      obtain ⟨rfl, rfl, inside⟩ := here
      obtain ⟨sketch, fills⟩ := ih inside
      refine ⟨.assign place sketch, fun stream same => ?_⟩
      exact .assignment ((same _).trans target) ((same _).trans becomes) (fills stream same)
  | emptyStatement => exact ⟨.noOp, fun _ _ => .emptyStatement⟩
  | onlyTerm _ ih =>
      obtain ⟨sketch, fills⟩ := ih here
      exact ⟨sketch, fun stream same => .onlyTerm (fills stream same)⟩
  | @sum _ left _ _ _ _ additive _ ih ih' =>
      simp only [counterparts_append_eq, counterparts_cons_eq] at here
      obtain ⟨⟨first, rfl, -⟩, second⟩ := here
      obtain ⟨sketch, fills⟩ := ih first
      obtain ⟨sketch', fills'⟩ := ih' second
      refine ⟨.binOp sketch (place + left.length) sketch', fun stream same => ?_⟩
      rw [counterparts_append, counterparts_append]
      exact .sum (fills stream same) ((congrArg Kind.isAdditive (same _)).trans additive)
        (fills' stream same)
  | onlyFactor _ ih =>
      obtain ⟨sketch, fills⟩ := ih here
      exact ⟨sketch, fun stream same => .onlyFactor (fills stream same)⟩
  | @product _ left _ _ _ _ multiplicative _ ih ih' =>
      simp only [counterparts_append_eq, counterparts_cons_eq] at here
      obtain ⟨⟨first, rfl, -⟩, second⟩ := here
      obtain ⟨sketch, fills⟩ := ih first
      obtain ⟨sketch', fills'⟩ := ih' second
      refine ⟨.binOp sketch (place + left.length) sketch', fun stream same => ?_⟩
      rw [counterparts_append, counterparts_append]
      exact .product (fills stream same)
        ((congrArg Kind.isMultiplicative (same _)).trans multiplicative) (fills' stream same)
  | signed sign _ ih =>
      rw [counterparts_cons_eq] at here
      obtain ⟨rfl, inside⟩ := here
      obtain ⟨sketch, fills⟩ := ih inside
      exact ⟨.unaryOp place sketch, fun stream same =>
        .signed ((same _).trans sign) (fills stream same)⟩
  | integer kind =>
      rw [counterparts_cons_eq] at here
      obtain ⟨rfl, -⟩ := here
      exact ⟨.number place, fun stream same => .integer ((same _).trans kind)⟩
  | real kind =>
      rw [counterparts_cons_eq] at here
      obtain ⟨rfl, -⟩ := here
      exact ⟨.number place, fun stream same => .real ((same _).trans kind)⟩
  | parenthesised first _ last ih =>
      rw [counterparts_append_eq, counterparts_cons_eq, counterparts_cons_eq] at here
      obtain ⟨⟨rfl, inside⟩, rfl, -⟩ := here
      obtain ⟨sketch, fills⟩ := ih inside
      refine ⟨sketch, fun stream same => ?_⟩
      rw [counterparts_append]
      exact .parenthesised ((same _).trans first) (fills stream same) ((same _).trans last)
  | reference kind =>
      rw [counterparts_cons_eq] at here
      obtain ⟨rfl, -⟩ := here
      exact ⟨.varRef place, fun stream same => .reference ((same _).trans kind)⟩

theorem head_counterparts (property : Kind → Prop) {base stream : Nat → Token} {place : Nat}
    {tokens : List Token} (same : ∀ at', (stream at').kind = (base at').kind)
    (here : counterparts base place tokens = tokens)
    (leads : ∃ head ∈ tokens.head?, property head.kind) :
    ∃ head ∈ (counterparts stream place tokens).head?, property head.kind := by
  rcases leads with ⟨head, first, holds⟩
  cases tokens with
  | nil => cases first
  | cons token tokens =>
      cases first
      rw [counterparts_cons_eq] at here
      refine ⟨stream place, rfl, ?_⟩
      rw [same, here.1]
      exact holds

/-- What a mode reads at a place of a stream has a sketch. -/
theorem Mode.Reads.sketched {base : Nat → Token} {mode : Mode} {tokens : List Token} {tree : Tree}
    (read : mode.Reads tokens tree) {place : Nat} (here : counterparts base place tokens = tokens) :
    ∃ sketch : Sketch, ∀ stream : Nat → Token, (∀ at', (stream at').kind = (base at').kind) →
      mode.Reads (counterparts stream place tokens) (sketch.fill stream) := by
  cases mode with
  | wholeProgram => exact PascalFrontEnd.Reads.sketched read here
  | loose =>
      rcases read with ⟨read, leads⟩ | ⟨read, heads⟩ | ⟨body, read, rfl⟩
      · obtain ⟨sketch, fills⟩ := read.sketched here
        exact ⟨sketch, fun stream same => .inl ⟨fills stream same,
          head_counterparts (·.leadsExpression = true) same here leads⟩⟩
      · obtain ⟨sketch, fills⟩ := read.sketched here
        exact ⟨sketch, fun stream same => .inr (.inl ⟨fills stream same,
          head_counterparts (· = .programWord) same here heads⟩)⟩
      · obtain ⟨sketch, fills⟩ := read.sketched here
        exact ⟨.compound sketch, fun stream same => .inr (.inr ⟨_, fills stream same, rfl⟩)⟩

end PascalFrontEnd
