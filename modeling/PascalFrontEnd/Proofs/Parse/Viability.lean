import PascalFrontEnd.Proofs.Parse.Recognition

namespace PascalFrontEnd

namespace Ebnf

def Begins (body : Ebnf) (kinds : List Kind) : Prop :=
  ∃ rest, body.Denotes (kinds ++ rest)

end Ebnf

theorem Category.inhabited (category : Category) : ∃ kinds, category.Phrase kinds := by
  have factor : Derives .factor [.identifier] := .reference
  have expression := Derives.lastTerm (.lastFactor factor)
  have compound := Derives.compound (.lastStatement .emptyStatement)
  have declarations := Derives.withoutVariables .noProcedure
  cases category with
  | program => exact ⟨_, .headless compound⟩
  | block => exact ⟨_, .block declarations compound⟩
  | declarations => exact ⟨_, declarations⟩
  | variableDeclaration => exact ⟨_, .variableList .lastName⟩
  | compoundStatement => exact ⟨_, compound⟩
  | statementList => exact ⟨_, .lastStatement .emptyStatement⟩
  | statement => exact ⟨_, .emptyStatement⟩
  | assignmentStatement => exact ⟨_, _, rfl, expression⟩
  | expr => exact ⟨_, expression⟩
  | term => exact ⟨_, .lastFactor factor⟩
  | factor => exact ⟨_, factor⟩

theorem Ebnf.inhabited (body : Ebnf) : ∃ kinds, body.Denotes kinds := by
  induction body with
  | empty => exact ⟨[], rfl⟩
  | token kind => exact ⟨[kind], rfl⟩
  | part category => exact category.inhabited
  | sequence first second ih ih' =>
      rcases ih with ⟨front, first⟩
      rcases ih' with ⟨back, second⟩
      exact ⟨front ++ back, front, back, rfl, first, second⟩
  | choice first second ih _ =>
      rcases ih with ⟨kinds, first⟩
      exact ⟨kinds, .inl first⟩
  | optional body _ => exact ⟨[], .inl rfl⟩
  | repetition body _ => exact ⟨[], [], rfl, by simp⟩

theorem Derives.signs {parts : List (List Kind)} {kinds : List Kind}
    (signs : ∀ sign ∈ parts, (Ebnf.token .unarySign).Denotes sign) (derived : Derives .factor kinds) :
    Derives .factor (parts.flatten ++ kinds) := by
  induction parts with
  | nil => exact derived
  | cons sign parts ih =>
      rw [show sign = _ from signs sign List.mem_cons_self]
      exact .signed (ih fun other present => signs other (List.mem_cons_of_mem _ present))

theorem Derives.statements_append {front back : List Kind}
    (first : Derives .statements front) (second : Derives .statements back) :
    Derives .statements (front ++ [.semicolon] ++ back) := by
  generalize shape : Nonterminal.statements = symbol at first
  induction first with
  | lastStatement statement => exact .moreStatements statement second
  | moreStatements statement _ _ ih =>
      have whole := Derives.moreStatements statement (ih rfl)
      simpa only [List.append_assoc] using whole
  | _ => cases shape

/-- The error points at the token, where the given kind was expected. -/
inductive Blames : ParseError → Kind → Token → Prop where
  | mismatch (expected : Kind) (found : Token) :
      Blames (.ofMismatch expected found) expected found
  | missingSeparator (found : Token) : Blames (.missingSeparator found) .semicolon found
  | trailing (found : Token) : Blames (.trailing found) .endOfInput found

theorem Blames.line {error : ParseError} {expected : Kind} {found : Token}
    (blames : Blames error expected found) : error.line = found.line := by
  cases blames with
  | mismatch => exact ParseError.line_ofMismatch expected found
  | missingSeparator => rfl
  | trailing => rfl

namespace Rule

variable {σ α β : Type} [TokenStream σ]

/-- From the session on, the rule passes what the right-hand side stands for,
or fails where only something else could go on. -/
structure Follows (body : Ebnf) (rule : Rule σ α) (session : Session σ) : Prop where
  ok {value : α} {after : Session σ} : rule session = .ok value after →
    ∃ tokens, session.Passes tokens after ∧ body.Denotes (Token.kinds tokens)
  error {error : ParseError} {after : Session σ} : rule session = .error error after →
    ∃ tokens expected, session.Passes tokens after ∧ Blames error expected after.current ∧
      body.Begins (Token.kinds tokens ++ [expected])

variable {body : Ebnf} {session : Session σ}

theorem Follows.imply {body' : Ebnf} {rule : Rule σ α} (follows : Follows body rule session)
    (weaker : ∀ kinds, body.Denotes kinds → body'.Denotes kinds) : Follows body' rule session where
  ok ran := by
    obtain ⟨tokens, passed, denoted⟩ := follows.ok ran
    exact ⟨tokens, passed, weaker _ denoted⟩
  error ran := by
    obtain ⟨tokens, expected, passed, blames, rest, denoted⟩ := follows.error ran
    exact ⟨tokens, expected, passed, blames, rest, weaker _ denoted⟩

theorem Follows.part {category : Category} {rule : Rule σ α}
    (follows : Follows category.production rule session) : Follows (.part category) rule session :=
  follows.imply fun _ => Category.phrase_of_production

theorem Follows.pure (value : α) : Follows .empty (Pure.pure value : Rule σ α) session where
  ok ran := by
    obtain ⟨-, rfl⟩ := pure_ok.mp ran
    exact ⟨[], .done _, rfl⟩
  error ran := absurd ran pure_error

theorem Follows.mismatch {expected : Kind} (begins : body.Begins [expected]) :
    Follows body (Rule.mismatch expected : Rule σ α) session where
  ok ran := by
    rw [mismatch_run] at ran
    cases ran
  error ran := by
    rw [mismatch_run, EStateM.Result.error.injEq] at ran
    rcases ran with ⟨rfl, rfl⟩
    exact ⟨[], expected, .note _ (.done _), .mismatch _ _, begins⟩

theorem Follows.take {kind : Kind} (plain : Plain kind) :
    Follows (.token kind) (Rule.take kind : Rule σ Token) session where
  ok ran := by
    obtain ⟨passed, here⟩ := take_passes plain ran
    exact ⟨_, passed, by rw [← here]; rfl⟩
  error ran := by
    obtain ⟨rfl, passed, here⟩ := take_rejects ran
    exact ⟨[], kind, passed, here ▸ .mismatch _ _, [], rfl⟩

theorem Follows.sequence {first second : Ebnf} {rule : Rule σ α} {follow : α → Rule σ β}
    (followsFirst : Follows first rule session)
    (followsSecond : ∀ value middle, Follows second (follow value) middle) :
    Follows (.sequence first second) (rule >>= follow) session where
  ok ran := by
    obtain ⟨value, middle, ranFirst, ranSecond⟩ := bind_ok.mp ran
    obtain ⟨front, passed, denoted⟩ := followsFirst.ok ranFirst
    obtain ⟨back, passedBack, denotedBack⟩ := (followsSecond value middle).ok ranSecond
    exact ⟨front ++ back, passed.trans passedBack, _, _, List.map_append, denoted, denotedBack⟩
  error ran := by
    rcases bind_error.mp ran with ranFirst | ⟨value, middle, ranFirst, ranSecond⟩
    · obtain ⟨tokens, expected, passed, blames, rest, denoted⟩ := followsFirst.error ranFirst
      rcases second.inhabited with ⟨back, denotedBack⟩
      refine ⟨tokens, expected, passed, blames, rest ++ back, _, back, ?_, denoted, denotedBack⟩
      rw [List.append_assoc _ rest]
    · obtain ⟨front, passed, denoted⟩ := followsFirst.ok ranFirst
      rcases (followsSecond value middle).error ranSecond with
        ⟨tokens, expected, passedBack, blames, rest, denotedBack⟩
      refine ⟨front ++ tokens, expected, passed.trans passedBack, blames, rest,
        Token.kinds front, Token.kinds tokens ++ [expected] ++ rest, ?_, denoted, denotedBack⟩
      simp [Token.kinds]

theorem Follows.andThen {rule : Rule σ α} {follow : α → Rule σ β}
    (follows : Follows body rule session)
    (last : ∀ value middle, Follows .empty (follow value) middle) :
    Follows body (rule >>= follow) session := by
  apply (follows.sequence last).imply
  rintro _ ⟨front, _, rfl, denoted, rfl⟩
  rwa [List.append_nil]

theorem Follows.skip {kind : Kind} (plain : Plain kind) :
    Follows (.token kind) (Rule.skip kind : Rule σ Unit) session := by
  rw [skip_eq_bind]
  exact (Follows.take plain).andThen fun _ _ => .pure ()

theorem Follows.note {event : Event} {follow : Unit → Rule σ β}
    (follows : ∀ session, Follows body (follow ()) session) :
    Follows body (Rule.note event >>= follow) session where
  ok ran := by
    rw [note_bind] at ran
    obtain ⟨tokens, passed, denoted⟩ := (follows _).ok ran
    exact ⟨tokens, .note event passed, denoted⟩
  error ran := by
    rw [note_bind] at ran
    obtain ⟨tokens, expected, passed, rest⟩ := (follows _).error ran
    exact ⟨tokens, expected, .note event passed, rest⟩

theorem Follows.current {follow : Token → Rule σ β}
    (follows : Follows body (follow session.current) session) :
    Follows body (Rule.current >>= follow) session :=
  ⟨follows.ok, follows.error⟩

theorem Follows.currentKind {follow : Kind → Rule σ β}
    (follows : Follows body (follow session.current.kind) session) :
    Follows body (Rule.currentKind >>= follow) session :=
  ⟨follows.ok, follows.error⟩

theorem Follows.sees {kind : Kind} {follow : Bool → Rule σ β}
    (follows : Follows body (follow (session.current.kind == kind)) session) :
    Follows body (Rule.sees kind >>= follow) session :=
  ⟨follows.ok, follows.error⟩

theorem Follows.announced {follow : Rule σ β} (here : session.current.kind = .openParen)
    (follows : ∀ middle, Follows body follow middle) :
    Follows (.sequence (.token .openParen) body)
      (do announceBracket; Rule.skip .openParen; follow : Rule σ β) session := by
  have known : session.current.kind ≠ .unknown ∧ session.current.kind ≠ .endOfInput := by
    rw [here]
    exact ⟨by decide, by decide⟩
  constructor
  · intro value after ran
    rw [announced_run here] at ran
    obtain ⟨tokens, passed, denoted⟩ := (follows _).ok ran
    refine ⟨_, .token known.1 known.2 passed, [.openParen], _, ?_, rfl, denoted⟩
    rw [← here]
    rfl
  · intro error after ran
    rw [announced_run here] at ran
    obtain ⟨tokens, expected, passed, blames, rest, denoted⟩ := (follows _).error ran
    refine ⟨_, expected, .token known.1 known.2 passed, blames, rest, [.openParen], _, ?_, rfl,
      denoted⟩
    rw [← here]
    rfl

theorem Follows.repetition {admits : Kind → Bool} {rule : Rule σ α}
    (once : ∀ session : Session σ, admits session.current.kind = true →
      Follows body rule session) (steps : Nat) (session : Session σ) :
    Follows (.repetition body) (repeatWhile admits rule steps) session := by
  have none : (Ebnf.repetition body).Denotes [] := ⟨[], rfl, by simp⟩
  induction steps generalizing session with
  | zero =>
      apply (Follows.pure []).imply
      rintro _ rfl
      exact none
  | succ steps ih =>
      rw [repeatWhile]
      apply Follows.currentKind
      by_cases admitted : admits session.current.kind = true
      · rw [if_pos admitted]
        refine ((once session admitted).sequence fun first middle =>
          (ih middle).andThen fun others _ => .pure (first :: others)).imply ?_
        rintro _ ⟨front, _, rfl, denoted, parts, rfl, each⟩
        exact ⟨front :: parts, rfl, List.forall_mem_cons.mpr ⟨denoted, each⟩⟩
      · rw [if_neg admitted]
        apply (Follows.pure []).imply
        rintro _ rfl
        exact none

/-! ### Expressions -/

open Ebnf

theorem literal_follows {kind : Kind} (plain : Plain kind) (session : Session σ) :
    Follows (token kind) (literal kind : Rule σ Tree) session :=
  (Follows.take plain).andThen fun op _ => .pure (Tree.number op)

theorem variableRef_follows (session : Session σ) :
    Follows (token .identifier) (variableRef : Rule σ Tree) session :=
  (Follows.take ⟨by decide, by decide⟩).andThen fun name _ => .pure (Tree.varRef name)

theorem parenthesised_follows {inner : Rule σ Tree}
    (inside : ∀ session, Follows (part .expr) inner session)
    (here : session.current.kind = .openParen) :
    Follows (inOrder [token .openParen, part .expr, token .closeParen]) (parenthesised inner)
      session := by
  refine .announced here fun middle => (inside middle).sequence fun tree _ => ?_
  exact (Follows.skip ⟨by decide, by decide⟩).sequence fun _ _ => .pure tree

theorem unsignedFactor_follows {inner : Rule σ Tree}
    (inside : ∀ session, Follows (part .expr) inner session) (session : Session σ) :
    Follows (part .factor) (unsignedFactor inner) session := by
  refine .part (.currentKind ?_)
  cases here : session.current.kind with
  | integerLiteral =>
      refine (literal_follows ⟨by decide, by decide⟩ session).imply ?_
      exact fun _ literal => .inr (.inl literal)
  | realLiteral =>
      refine (literal_follows ⟨by decide, by decide⟩ session).imply ?_
      exact fun _ literal => .inr (.inr (.inl literal))
  | openParen =>
      apply (parenthesised_follows inside here).imply
      exact fun _ bracketed => .inr (.inr (.inr (.inl bracketed)))
  | _ =>
      apply (variableRef_follows session).imply
      exact fun _ reference => .inr (.inr (.inr (.inr reference)))

theorem factor_follows {inner : Rule σ Tree}
    (inside : ∀ session, Follows (part .expr) inner session) (steps : Nat)
    (session : Session σ) : Follows (part .factor) (factor inner steps) session := by
  have signs : Follows (repetition (token .unarySign))
      (repeatWhile (· == .unarySign) (take .unarySign) steps : Rule σ (List Token)) session :=
    .repetition (fun _ _ => .take ⟨by decide, by decide⟩) steps session
  refine (signs.sequence fun tokens middle => (unsignedFactor_follows inside middle).andThen
    fun operand _ => .pure (tokens.foldr .unaryOp operand)).imply ?_
  rintro _ ⟨_, kinds, rfl, ⟨parts, rfl, each⟩, derived⟩
  exact Derives.signs each derived

theorem chain_follows {joins : Kind → Bool} {operand : Rule σ Tree} {op low : Ebnf}
    (plain : ∀ kind, joins kind = true → Plain kind)
    (denoted : ∀ kind, joins kind = true → op.Denotes [kind])
    (operandFollows : ∀ session, Follows low operand session) (steps : Nat)
    (session : Session σ) :
    Follows (inOrder [low, repetition (inOrder [op, low])]) (chain joins operand steps)
      session := by
  have once : ∀ session : Session σ, joins session.current.kind = true →
      Follows (inOrder [op, low]) (operation operand) session := by
    intro session joined
    have operator : Follows op (take session.current.kind : Rule σ Token) session := by
      apply (Follows.take (plain _ joined)).imply
      rintro _ rfl
      exact denoted _ joined
    exact .currentKind (operator.sequence fun token middle =>
      (operandFollows middle).sequence fun right _ => .pure (token, right))
  refine (operandFollows session).sequence fun first middle => ?_
  exact (Follows.repetition once steps middle).sequence fun _ _ => .pure _

theorem term_follows {inner : Rule σ Tree}
    (inside : ∀ session, Follows (part .expr) inner session) (steps : Nat)
    (session : Session σ) : Follows (part .term) (term inner steps) session := by
  refine .part (chain_follows (fun _ => Kind.plain_of_isMultiplicative) ?_
    (factor_follows inside steps) steps session)
  exact fun kind multiplicative => (matches_multiplicative multiplicative).denotes

theorem expression_follows (steps : Nat) (session : Session σ) :
    Follows (part .expr) (expression steps : Rule σ Tree) session := by
  induction steps generalizing session with
  | zero => exact .mismatch ⟨[], .lastTerm (.lastFactor .reference)⟩
  | succ steps ih =>
      refine .part (chain_follows (fun _ => Kind.plain_of_isAdditive) ?_
        (term_follows ih steps) steps session)
      exact fun kind additive => (matches_additive additive).denotes

/-! ### Statements -/

theorem assignment_follows (steps : Nat) (session : Session σ) :
    Follows (part .assignmentStatement) (assignment steps : Rule σ Tree) session := by
  refine .part ((Follows.take ⟨by decide, by decide⟩).sequence fun target _ => ?_)
  refine (Follows.skip ⟨by decide, by decide⟩).sequence fun _ middle => ?_
  exact (expression_follows steps middle).sequence fun value _ => .pure (Tree.assign target value)

theorem statement_follows {compound : Rule σ (List Tree)}
    (inside : ∀ session, Follows (part .compoundStatement) compound session) (steps : Nat)
    (session : Session σ) : Follows (part .statement) (statement compound steps) session := by
  refine .part (.currentKind ?_)
  cases session.current.kind with
  | beginWord =>
      refine ((inside session).andThen fun body _ => .pure (Tree.compound body)).imply ?_
      exact fun _ nested => .inl nested
  | identifier =>
      apply (assignment_follows steps session).imply
      exact fun _ assigned => .inr (.inl assigned)
  | _ =>
      apply (Follows.pure Tree.noOp).imply
      exact fun _ nothing => .inr (.inr nothing)

def furtherStatements : Ebnf :=
  repetition (inOrder [token .semicolon, part .statementList])

theorem statementList_of_further {front back : List Kind} (first : Derives .statements front)
    (further : furtherStatements.Denotes back) : Derives .statements (front ++ back) := by
  rcases further with ⟨parts, rfl, each⟩
  induction parts generalizing front with
  | nil => simpa using first
  | cons kinds parts ih =>
      obtain ⟨_, _, rfl, rfl, next, _, rfl, derived, rfl⟩ := each kinds List.mem_cons_self
      have rest := ih (first.statements_append derived)
        fun other present => each other (List.mem_cons_of_mem _ present)
      simpa using rest

theorem separated_follows (values : List Tree) (session : Session σ) :
    Follows furtherStatements
      (do
        if ← sees .identifier then fail (.missingSeparator (← Rule.current))
        else return values : Rule σ (List Tree)) session := by
  apply Follows.sees
  by_cases missing : (session.current.kind == Kind.identifier) = true
  · rw [if_pos missing]
    constructor
    · intro value after ran
      rw [current_bind, fail_run] at ran
      cases ran
    · intro error after ran
      rw [current_bind, fail_run, EStateM.Result.error.injEq] at ran
      rcases ran with ⟨rfl, rfl⟩
      refine ⟨[], .semicolon, .note _ (.done _), .missingSeparator _, [], [[.semicolon]], rfl, ?_⟩
      simp only [List.mem_singleton, forall_eq]
      exact ⟨[.semicolon], [], rfl, rfl, [], [], rfl, .lastStatement .emptyStatement, rfl⟩
  · rw [if_neg missing]
    apply (Follows.pure values).imply
    rintro _ rfl
    exact ⟨[], rfl, by simp⟩

theorem statements_follows {one : Rule σ Tree}
    (inside : ∀ session, Follows (part .statement) one session) (steps : Nat)
    (session : Session σ) : Follows (part .statementList) (statements one steps) session := by
  induction steps generalizing session with
  | zero =>
      apply (Follows.pure [Tree.noOp]).imply
      rintro _ rfl
      exact Derives.lastStatement .emptyStatement
  | succ steps ih =>
      have again : ∀ session, Follows (inOrder [token .semicolon, part .statementList])
          (do skip .semicolon; statements one steps : Rule σ (List Tree)) session := by
        intro session
        refine (Follows.skip ⟨by decide, by decide⟩).sequence fun _ middle => ?_
        refine (ih middle).imply fun kinds denoted => ?_
        exact ⟨kinds, [], (List.append_nil kinds).symm, denoted, rfl⟩
      have whole : Follows (.sequence (part .statement) (.sequence furtherStatements
          furtherStatements)) (statements one (steps + 1)) session := by
        refine (inside session).sequence fun first middle => ?_
        refine (Follows.repetition (fun session _ => again session) steps middle).sequence ?_
        exact fun others last => separated_follows (first :: others.flatten) last
      apply whole.imply
      rintro _ ⟨front, _, rfl, first, middle, back, rfl, further, further'⟩
      rw [← List.append_assoc]
      exact statementList_of_further (statementList_of_further (.lastStatement first) further)
        further'

theorem compound_follows (steps : Nat) (session : Session σ) :
    Follows (part .compoundStatement) (compound steps : Rule σ (List Tree)) session := by
  induction steps generalizing session with
  | zero =>
      exact .mismatch ⟨[.endWord], .compound (.lastStatement .emptyStatement)⟩
  | succ steps ih =>
      refine .part (.current (.note fun session => ?_))
      refine (Follows.skip ⟨by decide, by decide⟩).sequence fun _ middle => ?_
      apply (statements_follows (statement_follows ih steps) steps middle).sequence
      exact fun body _ => (Follows.skip ⟨by decide, by decide⟩).sequence fun _ _ => .pure body

/-! ### Declarations and programs -/

theorem identifierName_follows (session : Session σ) :
    Follows (token .identifier) (identifierName : Rule σ String) session :=
  (Follows.take ⟨by decide, by decide⟩).andThen fun name _ => .pure name.name

theorem variableList_follows (steps : Nat) (session : Session σ) :
    Follows (part .variableDeclaration) (variableList steps : Rule σ (List Tree)) session := by
  have once : ∀ session, Follows (inOrder [token .comma, token .identifier])
      (do skip .comma; identifierName : Rule σ String) session := by
    intro session
    refine (Follows.skip ⟨by decide, by decide⟩).sequence fun _ middle => ?_
    refine (identifierName_follows middle).imply fun kinds denoted => ?_
    exact ⟨kinds, [], (List.append_nil kinds).symm, denoted, rfl⟩
  refine .part ((identifierName_follows session).sequence fun first middle => ?_)
  refine (Follows.repetition (fun session _ => once session) steps middle).sequence ?_
  refine fun others _ => (Follows.skip ⟨by decide, by decide⟩).sequence fun _ _ => ?_
  exact (Follows.take ⟨by decide, by decide⟩).sequence fun _ _ => .pure _

theorem variableGroup_follows (steps : Nat) (session : Session σ) :
    Follows (inOrder [part .variableDeclaration, token .semicolon])
      (variableGroup steps : Rule σ (List Tree)) session := by
  refine (variableList_follows steps session).sequence fun declared _ => ?_
  exact (Follows.skip ⟨by decide, by decide⟩).sequence fun _ _ => .pure declared

theorem variableSection_follows (steps : Nat) (session : Session σ) :
    Follows (optional (inOrder [token .varWord,
        inOrder [part .variableDeclaration, token .semicolon],
        repetition (inOrder [part .variableDeclaration, token .semicolon])]))
      (variableSection steps : Rule σ (List Tree)) session := by
  apply Follows.sees
  by_cases opened : (session.current.kind == Kind.varWord) = true
  · rw [if_pos opened]
    refine Follows.imply ?_ fun _ present => Or.inr present
    refine (Follows.skip ⟨by decide, by decide⟩).sequence fun _ middle => ?_
    refine (variableGroup_follows steps middle).sequence fun first next => ?_
    exact (Follows.repetition (fun session _ => variableGroup_follows steps session) steps
      next).sequence fun others _ => .pure (first ++ others.flatten)
  · rw [if_neg opened]
    exact (Follows.pure []).imply fun _ absent => Or.inl absent

theorem procedure_follows {block : Rule σ (List Tree × List Tree)}
    (inside : ∀ session, Follows (part .block) block session) (session : Session σ) :
    Follows (inOrder [token .procedureWord, token .identifier, token .semicolon, part .block,
      token .semicolon]) (procedure block) session := by
  refine (Follows.skip ⟨by decide, by decide⟩).sequence fun _ middle => ?_
  refine (identifierName_follows middle).sequence fun name next => ?_
  refine .current (.note fun session => ?_)
  refine (Follows.skip ⟨by decide, by decide⟩).sequence fun _ middle => ?_
  refine (inside middle).sequence fun value last => ?_
  exact (Follows.skip ⟨by decide, by decide⟩).sequence fun _ _ => .pure _

theorem declarations_follows {block : Rule σ (List Tree × List Tree)}
    (inside : ∀ session, Follows (part .block) block session) (steps : Nat)
    (session : Session σ) : Follows (part .declarations) (declarations block steps) session := by
  refine .part (.current (.note fun session => ?_))
  refine (variableSection_follows steps session).sequence fun vars middle => ?_
  refine (Follows.repetition (fun session _ => procedure_follows inside session) steps
    middle).sequence fun procedures last => ?_
  cases vars ++ procedures <;> exact .pure _

theorem block_follows (steps : Nat) (session : Session σ) :
    Follows (part .block) (block steps : Rule σ (List Tree × List Tree)) session := by
  induction steps generalizing session with
  | zero =>
      have shortest : Derives .block ([] ++ [.beginWord, .endWord]) :=
        .block (.withoutVariables .noProcedure) (.compound (.lastStatement .emptyStatement))
      exact .mismatch ⟨[.endWord], shortest⟩
  | succ steps ih =>
      refine .part ((declarations_follows ih steps session).sequence fun declared middle => ?_)
      exact (compound_follows (steps + 1) middle).sequence fun body _ => .pure (declared, body)

theorem headedOrHeadless_follows (steps : Nat) (session : Session σ) :
    Follows
      (.choice (inOrder [token .programWord, token .identifier, token .semicolon, part .block])
        (part .compoundStatement))
      (headedOrHeadless steps : Rule σ Tree) session := by
  apply Follows.sees
  by_cases headed : (session.current.kind == Kind.programWord) = true
  · rw [if_pos headed]
    refine Follows.imply ?_ fun _ headed => Or.inl headed
    refine (Follows.skip ⟨by decide, by decide⟩).sequence fun _ middle => ?_
    refine (identifierName_follows middle).sequence fun name next => .note fun session => ?_
    refine (Follows.skip ⟨by decide, by decide⟩).sequence fun _ middle => ?_
    exact (block_follows steps middle).sequence fun value _ => .pure _
  · rw [if_neg headed]
    refine Follows.imply ?_ fun _ headless => Or.inr headless
    exact (compound_follows steps session).andThen fun body _ => .pure _

theorem program_follows (steps : Nat) (session : Session σ) :
    Follows (part .program) (program steps : Rule σ Tree) session := by
  have ended : ∀ (tree : Tree) (middle : Session σ), Follows (token .period)
      (do skip .period; return tree : Rule σ Tree) middle :=
    fun tree _ => (Follows.skip ⟨by decide, by decide⟩).andThen fun _ _ => .pure tree
  refine .part (((headedOrHeadless_follows steps session).sequence ended).imply ?_)
  rintro _ ⟨_, _, rfl, headed | headless, rfl⟩
  · rcases headed with ⟨_, _, rfl, rfl, _, _, rfl, rfl, _, _, rfl, rfl, block, _, rfl, derived, rfl⟩
    refine .inl ⟨[.programWord], _, rfl, rfl, [.identifier], _, rfl, rfl, [.semicolon], _, rfl, rfl,
      block, [.period], ?_, derived, [.period], [], rfl, rfl, rfl⟩
    simp
  · exact .inr ⟨_, [.period], rfl, headless, [.period], [], rfl, rfl, rfl⟩

end Rule

end PascalFrontEnd
