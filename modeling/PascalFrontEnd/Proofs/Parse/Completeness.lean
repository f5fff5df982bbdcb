import PascalFrontEnd.Proofs.Parse.Soundness

namespace PascalFrontEnd

namespace Session

variable {σ : Type} [TokenStream σ]

theorem Shows.head {session : Session σ} {token : Token} {tokens : List Token}
    (shown : session.Shows (token :: tokens)) : session.current = token :=
  shown.1

end Session

namespace Rule

variable {σ α β : Type} [TokenStream σ]

/-- On a session that shows the tokens and then one of a kind at which to stop,
the rule passes the tokens and returns the value. -/
def Finishes (rule : Rule σ α) (stop : Kind → Prop) (tokens : List Token) (value : α) : Prop :=
  ∀ session next, session.Shows (tokens ++ [next]) → stop next.kind →
    ∃ after, rule session = .ok value after ∧ session.Passes tokens after

def Anywhere (_ : Kind) : Prop := True

/-- A rule that stops at the given kinds may be followed by the tokens. -/
def Fits (stop : Kind → Prop) (rest : List Token) (final : Kind → Prop) : Prop :=
  match rest with
  | [] => ∀ kind, final kind → stop kind
  | token :: _ => stop token.kind

theorem fits_nil {stop : Kind → Prop} : Fits stop [] stop :=
  fun _ stops => stops

theorem fits_anywhere {rest : List Token} {final : Kind → Prop} :
    Fits Anywhere rest final := by
  cases rest with
  | nil => exact fun _ _ => trivial
  | cons token rest => trivial

theorem Finishes.weaken {rule : Rule σ α} {stop final : Kind → Prop} {tokens : List Token}
    {value : α} (finishes : rule.Finishes stop tokens value)
    (stronger : ∀ kind, final kind → stop kind) : rule.Finishes final tokens value :=
  fun session next shown stops => finishes session next shown (stronger _ stops)

theorem Finishes.pure (value : α) (stop : Kind → Prop) :
    (Pure.pure value : Rule σ α).Finishes stop [] value :=
  fun session _ _ _ => ⟨session, rfl, .done session⟩

theorem Finishes.bind {rule : Rule σ α} {follow : α → Rule σ β} {stop final : Kind → Prop}
    {tokens rest : List Token} {value : α} {result : β}
    (first : rule.Finishes stop tokens value)
    (fits : Fits stop rest final)
    (second : (follow value).Finishes final rest result) :
    (rule >>= follow).Finishes final (tokens ++ rest) result := by
  intro session next shown stops
  rw [List.append_assoc] at shown
  have stopsFirst : ∃ head more, rest ++ [next] = head :: more ∧ stop head.kind := by
    cases rest with
    | nil => exact ⟨next, [], rfl, fits _ stops⟩
    | cons head more => exact ⟨head, more ++ [next], rfl, fits⟩
  rcases stopsFirst with ⟨head, more, shape, stopsHead⟩
  have shownFirst : session.Shows (tokens ++ [head] ++ more) := by
    rw [List.append_assoc, List.singleton_append, ← shape]
    exact shown
  obtain ⟨middle, ran, passed⟩ := first session head shownFirst.of_append stopsHead
  obtain ⟨after, ranRest, passedRest⟩ := second middle next (passed.shows shown) stops
  exact ⟨after, by rw [bind_of_ok ran, ranRest], passed.trans passedRest⟩

theorem Finishes.andThen {rule : Rule σ α} {follow : α → Rule σ β} {stop : Kind → Prop}
    {tokens : List Token} {value : α} {result : β} (first : rule.Finishes stop tokens value)
    (second : (follow value).Finishes stop [] result) :
    (rule >>= follow).Finishes stop tokens result := by
  have whole := first.bind fits_nil second
  rwa [List.append_nil] at whole

theorem Finishes.note {event : Event} {follow : Unit → Rule σ β} {stop : Kind → Prop}
    {tokens : List Token} {result : β} (second : (follow ()).Finishes stop tokens result) :
    (Rule.note event >>= follow).Finishes stop tokens result := by
  intro session next shown stops
  obtain ⟨after, ran, passed⟩ := second (session.note event) next (shown.note event) stops
  exact ⟨after, ran, .note event passed⟩

theorem Finishes.current {follow : Token → Rule σ β} {stop : Kind → Prop}
    {tokens : List Token} {result : β}
    (second : ∀ token, (follow token).Finishes stop tokens result) :
    (Rule.current >>= follow).Finishes stop tokens result :=
  fun session next shown stops => second session.current session next shown stops

theorem take_finishes {kind : Kind} {token : Token} (plain : Plain kind)
    (known : kind ≠ .unknown) (here : token.kind = kind) :
    (take kind : Rule σ Token).Finishes Anywhere [token] token := by
  intro session next shown _
  have head : session.current = token := shown.head
  have ran := take_of_kind (head ▸ here) known
  rw [head] at ran
  exact ⟨session.advance, ran, (take_passes plain ran).1⟩

theorem skip_finishes {kind : Kind} {token : Token} (plain : Plain kind)
    (known : kind ≠ .unknown) (here : token.kind = kind) :
    (skip kind : Rule σ Unit).Finishes Anywhere [token] () := by
  rw [skip_eq_bind]
  exact (take_finishes plain known here).andThen (.pure _ _)

theorem repeatWhile_ends {admits : Kind → Bool} (rule : Rule σ α) {final : Kind → Prop}
    (ends : ∀ kind, final kind → admits kind = false) (steps : Nat) :
    (repeatWhile admits rule steps).Finishes final [] [] := by
  intro session next shown stops
  refine ⟨session, ?_, .done session⟩
  cases steps with
  | zero => rfl
  | succ steps =>
      have refused : ¬ admits session.current.kind = true := by
        rw [shown.head, ends _ stops]
        exact Bool.false_ne_true
      rw [repeatWhile, currentKind_bind, if_neg refused]
      rfl

theorem repeatWhile_again {admits : Kind → Bool} {rule : Rule σ α} {stop final : Kind → Prop}
    {head : Token} {part rest : List Token} {value : α} {others : List α} {steps : Nat}
    (admitted : admits head.kind = true) (once : rule.Finishes stop (head :: part) value)
    (fits : Fits stop rest final)
    (loop : (repeatWhile admits rule steps).Finishes final rest others) :
    (repeatWhile admits rule (steps + 1)).Finishes final (head :: part ++ rest)
      (value :: others) := by
  have whole : (do
      let first ← rule
      let others ← repeatWhile admits rule steps
      return first :: others : Rule σ (List α)).Finishes final _ _ :=
    once.bind fits (loop.andThen (.pure (value :: others) final))
  intro session next shown stops
  obtain ⟨after, ran, passed⟩ := whole session next shown stops
  refine ⟨after, ?_, passed⟩
  rw [repeatWhile, currentKind_bind, shown.head, if_pos admitted]
  exact ran

/-- Parts that each begin with an admitted token, and an end that is not. -/
theorem repeatWhile_finishes {admits : Kind → Bool} {rule : Rule σ α}
    {reads : List Token → α → Prop} {stop final : Kind → Prop} {tokens : List Token}
    {values : List α} (bound : Nat)
    (once : ∀ part value, reads part value → part.length ≤ bound →
      (∃ head rest, part = head :: rest ∧ admits head.kind = true) ∧
      rule.Finishes stop part value)
    (between : ∀ kind, admits kind = true → stop kind)
    (ends : ∀ kind, final kind → stop kind ∧ admits kind = false)
    (repeated : Repeated reads tokens values) (short : tokens.length ≤ bound) (steps : Nat)
    (enough : tokens.length ≤ steps) :
    (repeatWhile admits rule steps).Finishes final tokens values := by
  induction repeated generalizing steps with
  | none => exact repeatWhile_ends rule (fun kind stops => (ends kind stops).2) steps
  | @more part rest value others read repeated ih =>
      rw [List.length_append] at short enough
      obtain ⟨⟨head, more, rfl, admitted⟩, first⟩ := once part value read (by omega)
      rw [List.length_cons] at short enough
      have fits : Fits stop rest final := by
        cases repeated with
        | none => exact fun kind stops => (ends kind stops).1
        | more second _ =>
            rw [List.length_append] at short
            obtain ⟨head', more', rfl, admitted'⟩ := (once _ _ second (by omega)).1
            exact between _ admitted'
      cases steps with
      | zero => omega
      | succ steps => exact repeatWhile_again admitted first fits (ih (by omega) steps (by omega))

/-! ### Expressions -/

def EndsTerm (kind : Kind) : Prop :=
  kind.isMultiplicative = false

def EndsExpression (kind : Kind) : Prop :=
  kind.isAdditive = false ∧ kind.isMultiplicative = false

theorem literal_finishes {kind : Kind} {token : Token} (plain : Plain kind)
    (known : kind ≠ .unknown) (here : token.kind = kind) :
    (literal kind : Rule σ Tree).Finishes Anywhere [token] (.number token) :=
  (take_finishes plain known here).andThen (.pure _ _)

theorem variableRef_finishes {token : Token} (here : token.kind = .identifier) :
    (variableRef : Rule σ Tree).Finishes Anywhere [token] (.varRef token) :=
  (take_finishes ⟨by decide, by decide⟩ (by decide) here).andThen (.pure _ _)

theorem parenthesised_finishes {inner : Rule σ Tree} {first last : Token}
    {tokens : List Token} {tree : Tree} (opening : first.kind = .openParen)
    (inside : inner.Finishes EndsExpression tokens tree) (closing : last.kind = .closeParen) :
    (parenthesised inner).Finishes Anywhere (first :: tokens ++ [last]) tree := by
  have closes : EndsExpression last.kind := by
    rw [closing]
    exact ⟨rfl, rfl⟩
  have rest : (do let tree ← inner; skip .closeParen; return tree : Rule σ Tree).Finishes
      Anywhere (tokens ++ [last]) tree :=
    inside.bind closes
      ((skip_finishes ⟨by decide, by decide⟩ (by decide) closing).andThen (.pure _ _))
  intro session next shown stops
  have here : session.current.kind = .openParen := by
    rw [shown.head]
    exact opening
  obtain ⟨after, ran, passed⟩ := rest session.pass next shown.2 stops
  refine ⟨after, ?_, ?_⟩
  · rw [parenthesised, announceBracket_bind, bind_of_ok (skip_announced here)]
    exact ran
  · rw [← shown.head]
    refine .token ?_ ?_ passed
    · rw [here]; decide
    · rw [here]; decide

theorem unsignedFactor_finishes {inner : Rule σ Tree} (bound : Nat)
    (inside : ∀ tokens tree, Reads .expression tokens tree → tokens.length < bound →
      inner.Finishes EndsExpression tokens tree)
    {tokens : List Token} {tree : Tree} (unsigned : Unsigned tokens tree)
    (short : tokens.length ≤ bound) :
    (unsignedFactor inner).Finishes Anywhere tokens tree := by
  intro session next shown stops
  rcases unsigned with ⟨read, unsignedHead⟩
  cases read with
  | @signed sign _ _ kind _ => exact absurd kind (unsignedHead sign rfl)
  | integer kind =>
      have run : unsignedFactor inner session = literal .integerLiteral session := by
        simp only [unsignedFactor, currentKind_bind, shown.head, kind]
      rw [run]
      exact literal_finishes ⟨by decide, by decide⟩ (by decide) kind session next shown stops
  | real kind =>
      have run : unsignedFactor inner session = literal .realLiteral session := by
        simp only [unsignedFactor, currentKind_bind, shown.head, kind]
      rw [run]
      exact literal_finishes ⟨by decide, by decide⟩ (by decide) kind session next shown stops
  | parenthesised opening read closing =>
      have run : unsignedFactor inner session = parenthesised inner session := by
        simp only [unsignedFactor, currentKind_bind, shown.head, opening]
      simp only [List.length_append, List.length_cons] at short
      rw [run]
      exact parenthesised_finishes opening (inside _ _ read (by omega)) closing session next
        shown stops
  | reference kind =>
      have run : unsignedFactor inner session = variableRef session := by
        simp only [unsignedFactor, currentKind_bind, shown.head, kind]
      rw [run]
      exact variableRef_finishes kind session next shown stops

theorem factor_finishes {inner : Rule σ Tree} (bound : Nat)
    (inside : ∀ tokens tree, Reads .expression tokens tree → tokens.length < bound →
      inner.Finishes EndsExpression tokens tree)
    {tokens : List Token} {tree : Tree} (read : Reads .factor tokens tree)
    (short : tokens.length ≤ bound) :
    (factor inner bound).Finishes Anywhere tokens tree := by
  rcases read.parts with ⟨front, back, signs, operand, rfl, repeated, unsigned, rfl⟩
  rw [List.length_append] at short
  -- Behind the signs stands a token that is not a sign.
  have fits : Fits (· ≠ .unarySign) back Anywhere := by
    rcases unsigned with ⟨read, unsignedHead⟩
    cases back with
    | nil => cases read
    | cons head rest => exact unsignedHead head rfl
  have loop : (repeatWhile (· == .unarySign) (take .unarySign) bound : Rule σ (List Token)).Finishes
      (· ≠ .unarySign) front signs := by
    refine repeatWhile_finishes bound ?_ (fun _ _ => trivial) ?_ repeated (by omega) bound
      (by omega)
    · rintro part token ⟨rfl, kind⟩ _
      exact ⟨⟨token, [], rfl, by rw [kind]; rfl⟩,
        take_finishes ⟨by decide, by decide⟩ (by decide) kind⟩
    · intro kind other
      exact ⟨trivial, by simpa using other⟩
  exact loop.bind fits
    ((unsignedFactor_finishes bound inside unsigned (by omega)).andThen (.pure _ _))

theorem operation_finishes {operand : Rule σ Tree} {stop : Kind → Prop} {op : Token}
    {tokens : List Token} {right : Tree} (plain : Plain op.kind) (known : op.kind ≠ .unknown)
    (part : operand.Finishes stop tokens right) :
    (operation operand).Finishes stop (op :: tokens) (op, right) := by
  intro session next shown stops
  have last : (do return (op, ← operand) : Rule σ (Token × Tree)).Finishes stop tokens
      (op, right) := part.andThen (.pure _ _)
  have whole : (do
      let op ← take op.kind
      return (op, ← operand) : Rule σ (Token × Tree)).Finishes stop ([op] ++ tokens)
      (op, right) := (take_finishes plain known rfl).bind fits_anywhere last
  rw [operation, currentKind_bind, shown.head]
  exact whole session next shown stops

/-- Operands joined by operators: each operand stops at the next operator, and
the last one where the chain ends. -/
theorem chain_finishes {joins : Kind → Bool} {operand : Rule σ Tree}
    {reads : List Token → Tree → Prop} {stop final : Kind → Prop} (bound : Nat)
    (plain : ∀ kind, joins kind = true → Plain kind ∧ kind ≠ .unknown)
    (part : ∀ tokens tree, reads tokens tree → tokens.length ≤ bound →
      operand.Finishes stop tokens tree)
    (between : ∀ kind, joins kind = true → stop kind)
    (ends : ∀ kind, final kind → stop kind ∧ joins kind = false)
    {tokens : List Token} {tree : Tree} (chained : Chained joins reads tokens tree)
    (short : tokens.length ≤ bound) :
    (chain joins operand bound).Finishes final tokens tree := by
  rcases chained with ⟨front, back, first, operations, rfl, read, repeated, rfl⟩
  rw [List.length_append] at short
  have once : ∀ tokens operationTree, Operation joins reads tokens operationTree →
      tokens.length ≤ bound → (∃ head rest, tokens = head :: rest ∧ joins head.kind = true) ∧
        (operation operand).Finishes stop tokens operationTree := by
    rintro _ ⟨op, right⟩ ⟨rest, rfl, joined, readRest⟩ shortRest
    rw [List.length_cons] at shortRest
    exact ⟨⟨op, rest, rfl, joined⟩, operation_finishes (plain _ joined).1 (plain _ joined).2
      (part rest right readRest (by omega))⟩
  have fits : Fits stop back final := by
    cases repeated with
    | none => exact fun kind stops => (ends kind stops).1
    | more second _ =>
        rcases second with ⟨rest, rfl, joined, _⟩
        exact between _ joined
  exact (part front first read (by omega)).bind fits
    ((repeatWhile_finishes bound once between ends repeated (by omega) bound
      (by omega)).andThen (.pure _ _))

theorem term_finishes {inner : Rule σ Tree} (bound : Nat)
    (inside : ∀ tokens tree, Reads .expression tokens tree → tokens.length < bound →
      inner.Finishes EndsExpression tokens tree)
    {tokens : List Token} {tree : Tree} (read : Reads .term tokens tree)
    (short : tokens.length ≤ bound) :
    (term inner bound).Finishes EndsTerm tokens tree := by
  refine chain_finishes bound ?_ (fun _ _ => factor_finishes bound inside) (fun _ _ => trivial)
    ?_ read.parts short
  · intro kind joined
    exact ⟨Kind.plain_of_isMultiplicative joined, by rintro rfl; cases joined⟩
  · intro kind stops
    exact ⟨trivial, stops⟩

theorem expression_finishes (steps : Nat) {tokens : List Token} {tree : Tree}
    (read : Reads .expression tokens tree) (short : tokens.length < steps) :
    (expression steps : Rule σ Tree).Finishes EndsExpression tokens tree := by
  induction steps generalizing tokens tree with
  | zero => omega
  | succ steps ih =>
      refine chain_finishes steps ?_ (fun _ _ => term_finishes steps fun _ _ => ih) ?_ ?_
        read.parts (by omega)
      · intro kind joined
        exact ⟨Kind.plain_of_isAdditive joined, by rintro rfl; cases joined⟩
      · intro kind joined
        rcases Kind.eq_of_isAdditive joined with rfl | rfl <;> rfl
      · intro kind stops
        exact ⟨stops.2, stops.1⟩

/-! ### Statements -/

def EndsStatement (kind : Kind) : Prop :=
  kind = .semicolon ∨ kind = .endWord

theorem EndsStatement.endsExpression {kind : Kind} (ends : EndsStatement kind) :
    EndsExpression kind := by
  rcases ends with rfl | rfl <;> exact ⟨rfl, rfl⟩

theorem assignment_finishes {target becomes : Token} {tokens : List Token} {value : Tree}
    (targetKind : target.kind = .identifier) (becomesKind : becomes.kind = .becomes)
    (read : Reads .expression tokens value) (steps : Nat) (short : tokens.length < steps) :
    (assignment steps : Rule σ Tree).Finishes EndsExpression (target :: becomes :: tokens)
      (.assign target value) := by
  unfold assignment
  refine (take_finishes ⟨by decide, by decide⟩ (by decide) targetKind).bind
    fits_anywhere ?_
  refine (skip_finishes ⟨by decide, by decide⟩ (by decide) becomesKind).bind
    fits_anywhere ?_
  exact (expression_finishes steps read short).andThen (.pure _ _)

theorem statement_finishes {compound : Rule σ (List Tree)} (bound : Nat)
    (inside : ∀ tokens body, Reads .compound tokens body → tokens.length < bound →
      compound.Finishes Anywhere tokens body)
    {tokens : List Token} {tree : Tree} (read : Reads .statement tokens tree)
    (short : tokens.length < bound) :
    (statement compound bound).Finishes EndsStatement tokens tree := by
  intro session next shown stops
  cases read with
  | nested read =>
      have whole : (do return .compound (← compound) : Rule σ Tree).Finishes Anywhere tokens _ :=
        (inside _ _ read short).andThen (.pure _ _)
      have run : statement compound bound session = (compound >>= fun body => pure (.compound body)) session := by
        cases read with
        | compound kind _ _ =>
            simp only [statement, currentKind_bind, shown.head, kind]
      rw [run]
      exact whole session next shown trivial
  | assignment targetKind becomesKind read =>
      have run : statement compound bound session = assignment bound session := by
        simp only [statement, currentKind_bind, shown.head, targetKind]
      simp only [List.length_cons] at short
      rw [run]
      exact assignment_finishes targetKind becomesKind read bound (by omega) session next shown
        stops.endsExpression
  | emptyStatement =>
      have run : statement compound bound session = .ok .noOp session := by
        have head : session.current = next := shown.head
        rcases stops with kind | kind <;>
          simp only [statement, currentKind_bind, head, kind] <;> rfl
      exact ⟨session, run, .done session⟩

theorem separated_finishes (values : List Tree) :
    (do
      if ← sees .identifier then fail (.missingSeparator (← Rule.current))
      else return values : Rule σ (List Tree)).Finishes (· = .endWord) [] values := by
  intro session next shown stops
  refine ⟨session, ?_, .done session⟩
  rw [sees_bind, shown.head, stops]
  rfl

theorem statements_finishes {one : Rule σ Tree} (bound : Nat)
    (inside : ∀ tokens tree, Reads .statement tokens tree → tokens.length < bound →
      one.Finishes EndsStatement tokens tree)
    (steps : Nat) {tokens : List Token} {values : List Tree}
    (read : Reads .statements tokens values) (short : tokens.length < bound)
    (enough : tokens.length < steps) :
    (statements one steps).Finishes (· = .endWord) tokens values := by
  induction steps generalizing tokens values with
  | zero => omega
  | succ steps ih =>
      unfold statements
      cases read with
      | @lastStatement _ first readFirst =>
          refine ((inside _ _ readFirst short).weaken fun _ => .inr).andThen ?_
          refine (repeatWhile_ends _ ?_ steps).andThen (separated_finishes [first])
          rintro kind rfl
          rfl
      | @moreStatements semicolon front back first others readFirst kind readRest =>
          simp only [List.length_append, List.length_cons, List.length_nil] at short enough
          rw [List.append_assoc]
          have fits : Fits EndsStatement ([semicolon] ++ back) (· = .endWord) := .inl kind
          apply (inside _ _ readFirst (by omega)).bind fits
          have once : (do skip .semicolon; statements one steps : Rule σ (List Tree)).Finishes
              (· = .endWord) ([semicolon] ++ back) others :=
            (skip_finishes ⟨by decide, by decide⟩ (by decide) kind).bind fits_anywhere
              (ih readRest (by omega) (by omega))
          have behind : ∀ kind : Kind, kind = .endWord → (kind == .semicolon) = false := by
            rintro kind rfl
            rfl
          cases steps with
          | zero => omega
          | succ steps =>
              have loop := repeatWhile_again (by rw [kind]; rfl) once fits_nil
                (repeatWhile_ends _ behind steps)
              rw [List.append_nil] at loop
              have values : first :: others = first :: [others].flatten := by simp
              rw [values]
              exact loop.andThen (separated_finishes _)

theorem compound_finishes (steps : Nat) {tokens : List Token} {body : List Tree}
    (read : Reads .compound tokens body) (short : tokens.length < steps) :
    (compound steps : Rule σ (List Tree)).Finishes Anywhere tokens body := by
  induction steps generalizing tokens body with
  | zero => omega
  | succ steps ih =>
      cases read with
      | @compound first last inner _ opening read closing =>
          simp only [List.length_append, List.length_cons, List.length_nil] at short
          unfold compound
          refine .current fun _ => .note ?_
          refine (skip_finishes ⟨by decide, by decide⟩ (by decide) opening).bind
            fits_anywhere ?_
          have inside := statements_finishes steps
            (fun _ _ => statement_finishes steps fun _ _ => ih) steps read (by omega) (by omega)
          refine inside.bind closing ?_
          exact (skip_finishes ⟨by decide, by decide⟩ (by decide) closing).andThen (.pure _ _)

/-! ### Declarations and programs -/

theorem identifierName_finishes {tokens : List Token} {name : String}
    (named : Named tokens name) :
    (identifierName : Rule σ String).Finishes Anywhere tokens name := by
  rcases named with ⟨token, ⟨rfl, kind⟩, rfl⟩
  exact (take_finishes ⟨by decide, by decide⟩ (by decide) kind).andThen (.pure _ _)

theorem variableList_finishes (steps : Nat) {tokens : List Token} {vars : List Tree}
    (read : Reads .variableList tokens vars) (short : tokens.length ≤ steps) :
    (variableList steps : Rule σ (List Tree)).Finishes Anywhere tokens vars := by
  cases read with
  | @variableList colon type names _ readNames colonKind typeKind =>
      rcases readNames.parts with ⟨front, back, name, others, rfl, named, repeated, rfl⟩
      simp only [List.length_append] at short
      have once : ∀ part value, Led .comma Named part value → part.length ≤ steps →
          (∃ head rest, part = head :: rest ∧ (head.kind == .comma) = true) ∧
          (do skip .comma; identifierName : Rule σ String).Finishes Anywhere part value := by
        rintro _ value ⟨comma, rest, rfl, kind, namedRest⟩ _
        refine ⟨⟨comma, rest, rfl, by rw [kind]; rfl⟩, ?_⟩
        exact (skip_finishes ⟨by decide, by decide⟩ (by decide) kind).bind fits_anywhere
          (identifierName_finishes namedRest)
      have loop : (repeatWhile (· == .comma) (do skip .comma; identifierName) steps :
          Rule σ (List String)).Finishes (· ≠ .comma) back others := by
        refine repeatWhile_finishes steps once (fun _ _ => trivial) ?_ repeated (by omega) steps
          (by omega)
        intro kind other
        exact ⟨trivial, by simpa using other⟩
      rw [List.append_assoc]
      unfold variableList
      apply (identifierName_finishes named).bind fits_anywhere
      have noComma : colon.kind ≠ .comma := by
        rw [colonKind]
        decide
      refine loop.bind noComma ?_
      show Finishes _ Anywhere ([colon] ++ [type]) _
      refine (skip_finishes ⟨by decide, by decide⟩ (by decide) colonKind).bind fits_anywhere ?_
      exact (take_finishes ⟨by decide, by decide⟩ (by decide) typeKind).andThen (.pure _ _)

theorem variableGroup_finishes (steps : Nat) {tokens : List Token} {vars : List Tree}
    (group : Group tokens vars) (short : tokens.length ≤ steps) :
    (variableGroup steps : Rule σ (List Tree)).Finishes Anywhere tokens vars := by
  rcases group with ⟨list, semicolon, rfl, kind, read⟩
  rw [List.length_append] at short
  unfold variableGroup
  apply (variableList_finishes steps read (by omega)).bind fits_anywhere
  exact (skip_finishes ⟨by decide, by decide⟩ (by decide) kind).andThen (.pure _ _)

theorem Group.begins {tokens : List Token} {vars : List Tree} (group : Group tokens vars) :
    ∃ head rest, tokens = head :: rest ∧ head.kind = .identifier := by
  rcases group with ⟨list, semicolon, rfl, _, read⟩
  cases read with
  | variableList names _ _ =>
      cases names with
      | lastName kind => exact ⟨_, _, rfl, kind⟩
      | moreNames kind _ _ => exact ⟨_, _, rfl, kind⟩

def EndsVariables (kind : Kind) : Prop :=
  kind ≠ .varWord ∧ kind ≠ .identifier

theorem variableSection_finishes (steps : Nat) {tokens : List Token} {vars : List Tree}
    (leading : Variables tokens vars) (short : tokens.length ≤ steps) :
    (variableSection steps : Rule σ (List Tree)).Finishes EndsVariables tokens vars := by
  intro session next shown stops
  rcases leading with ⟨rfl, rfl⟩ | ⟨word, groups, rfl, wordKind, read⟩
  · refine ⟨session, ?_, .done session⟩
    have noWord : ¬ (session.current.kind == Kind.varWord) = true := by
      rw [shown.head]
      simpa using stops.1
    rw [variableSection, sees_bind, if_neg noWord]
    rfl
  · rcases read.parts with ⟨front, back, first, others, rfl, group, repeated, rfl⟩
    simp only [List.length_cons, List.length_append] at short
    have loop : (repeatWhile (· == .identifier) (variableGroup steps) steps :
        Rule σ (List (List Tree))).Finishes EndsVariables back others := by
      refine repeatWhile_finishes steps ?_ (fun _ _ => trivial) ?_ repeated (by omega) steps
        (by omega)
      · intro part value once shortPart
        obtain ⟨head, rest, shape, kind⟩ := Group.begins once
        exact ⟨⟨head, rest, shape, by rw [kind]; rfl⟩, variableGroup_finishes steps once shortPart⟩
      · intro kind ends
        exact ⟨trivial, by simpa using ends.2⟩
    have whole : (do
        skip .varWord
        let first ← variableGroup steps
        let others ← repeatWhile (· == .identifier) (variableGroup steps) steps
        return first ++ others.flatten : Rule σ (List Tree)).Finishes EndsVariables
        ([word] ++ (front ++ back)) (first ++ others.flatten) := by
      refine (skip_finishes ⟨by decide, by decide⟩ (by decide) wordKind).bind
        fits_anywhere ?_
      exact (variableGroup_finishes steps group (by omega)).bind fits_anywhere
        (loop.andThen (.pure _ _))
    have opened : (session.current.kind == Kind.varWord) = true := by
      rw [shown.head, wordKind]
      rfl
    rw [variableSection, sees_bind, if_pos opened]
    exact whole session next shown stops

theorem procedure_finishes {block : Rule σ (List Tree × List Tree)} (bound : Nat)
    (inside : ∀ tokens value, Reads .block tokens value → tokens.length < bound →
      block.Finishes Anywhere tokens value)
    {tokens : List Token} {tree : Tree} (read : Procedure tokens tree)
    (short : tokens.length ≤ bound) : (procedure block).Finishes Anywhere tokens tree := by
  rcases read with ⟨word, name, semicolon, body, last, declared, statements, rfl, wordKind,
    nameKind, semicolonKind, lastKind, readBlock, rfl⟩
  simp only [List.length_append, List.length_cons, List.length_nil] at short
  rw [List.append_assoc]
  unfold procedure
  show Finishes _ Anywhere ([word] ++ ([name] ++ ([semicolon] ++ (body ++ [last])))) _
  refine (skip_finishes ⟨by decide, by decide⟩ (by decide) wordKind).bind fits_anywhere ?_
  refine (identifierName_finishes ⟨name, ⟨rfl, nameKind⟩, rfl⟩).bind fits_anywhere ?_
  refine .current fun _ => .note ?_
  refine (skip_finishes ⟨by decide, by decide⟩ (by decide) semicolonKind).bind fits_anywhere ?_
  apply (inside _ _ readBlock (by omega)).bind fits_anywhere
  exact (skip_finishes ⟨by decide, by decide⟩ (by decide) lastKind).andThen (.pure _ _)

theorem declarations_finishes {block : Rule σ (List Tree × List Tree)} (bound : Nat)
    (inside : ∀ tokens value, Reads .block tokens value → tokens.length < bound →
      block.Finishes Anywhere tokens value)
    {tokens : List Token} {declared : List Tree} (read : Reads .declarations tokens declared)
    (short : tokens.length ≤ bound) :
    (declarations block bound).Finishes (· = .beginWord) tokens declared := by
  rcases read.sections with ⟨front, back, vars, procedures, rfl, leading, repeated, rfl⟩
  rw [List.length_append] at short
  have once : ∀ part value, Procedure part value → part.length ≤ bound →
      (∃ head rest, part = head :: rest ∧ (head.kind == .procedureWord) = true) ∧
      (procedure block).Finishes Anywhere part value := by
    intro part value read shortPart
    refine ⟨?_, procedure_finishes bound inside read shortPart⟩
    rcases read with ⟨word, _, _, _, _, _, _, rfl, wordKind, _⟩
    exact ⟨word, _, rfl, by rw [wordKind]; rfl⟩
  have loop : (repeatWhile (· == .procedureWord) (procedure block) bound).Finishes
      (· = .beginWord) back procedures := by
    refine repeatWhile_finishes bound once (fun _ _ => trivial) ?_ repeated (by omega) bound
      (by omega)
    rintro kind rfl
    exact ⟨trivial, rfl⟩
  have fits : Fits EndsVariables back (· = .beginWord) := by
    cases repeated with
    | none =>
        rintro kind rfl
        exact ⟨by decide, by decide⟩
    | more first _ =>
        rcases first with ⟨word, _, _, _, _, _, _, rfl, wordKind, _⟩
        show word.kind ≠ .varWord ∧ word.kind ≠ .identifier
        rw [wordKind]
        exact ⟨by decide, by decide⟩
  unfold declarations
  refine .current fun _ => .note ?_
  apply (variableSection_finishes bound leading (by omega)).bind fits
  apply loop.andThen
  cases vars ++ procedures <;> exact .pure _ _

theorem block_finishes (steps : Nat) {tokens : List Token} {value : List Tree × List Tree}
    (read : Reads .block tokens value) (short : tokens.length < steps) :
    (block steps : Rule σ (List Tree × List Tree)).Finishes Anywhere tokens value := by
  induction steps generalizing tokens value with
  | zero => omega
  | succ steps ih =>
      cases read with
      | @block front back declared statements readDeclarations readCompound =>
          rw [List.length_append] at short
          unfold block
          have begins : Fits (· = .beginWord) back Anywhere := by
            cases readCompound with
            | compound kind _ _ => exact kind
          refine (declarations_finishes steps (fun _ _ => ih) readDeclarations (by omega)).bind
            begins ?_
          exact (compound_finishes (steps + 1) readCompound (by omega)).andThen (.pure _ _)

theorem headedProgram_finishes (steps : Nat) {word name semicolon : Token} {body : List Token}
    {declared statements : List Tree} (wordKind : word.kind = .programWord)
    (nameKind : name.kind = .identifier) (semicolonKind : semicolon.kind = .semicolon)
    (read : Reads .block body (declared, statements)) (short : body.length < steps) :
    (headedProgram steps : Rule σ Tree).Finishes Anywhere ([word, name, semicolon] ++ body)
      (.program name.name declared statements) := by
  unfold headedProgram
  show Finishes _ Anywhere ([word] ++ ([name] ++ ([semicolon] ++ body))) _
  refine (skip_finishes ⟨by decide, by decide⟩ (by decide) wordKind).bind fits_anywhere ?_
  refine (identifierName_finishes ⟨name, ⟨rfl, nameKind⟩, rfl⟩).bind fits_anywhere (.note ?_)
  refine (skip_finishes ⟨by decide, by decide⟩ (by decide) semicolonKind).bind fits_anywhere ?_
  exact (block_finishes steps read short).andThen (.pure _ _)

theorem headlessProgram_finishes (steps : Nat) {tokens : List Token} {statements : List Tree}
    (read : Reads .compound tokens statements) (short : tokens.length < steps) :
    (headlessProgram steps : Rule σ Tree).Finishes Anywhere tokens (.block [.noOp] statements) :=
  (compound_finishes steps read short).andThen (.pure _ _)

theorem program_finishes (steps : Nat) {tokens : List Token} {tree : Tree}
    (read : Reads .program tokens tree) (short : tokens.length < steps) :
    (program steps : Rule σ Tree).Finishes Anywhere tokens tree := by
  have ended : ∀ body period, period.kind = .period →
      (headedOrHeadless steps : Rule σ Tree).Finishes Anywhere body tree →
      (program steps : Rule σ Tree).Finishes Anywhere (body ++ [period]) tree := by
    intro body period kind finishes
    exact finishes.bind fits_anywhere
      ((skip_finishes ⟨by decide, by decide⟩ (by decide) kind).andThen (.pure _ _))
  cases read with
  | headed wordKind nameKind semicolonKind readBlock periodKind =>
      simp only [List.length_append, List.length_cons, List.length_nil] at short
      apply ended _ _ periodKind
      intro session next shown stops
      rw [headedOrHeadless, sees_bind, shown.head, wordKind]
      exact headedProgram_finishes steps wordKind nameKind semicolonKind readBlock (by omega)
        session next shown stops
  | headless readCompound periodKind =>
      simp only [List.length_append, List.length_cons, List.length_nil] at short
      apply ended _ _ periodKind
      intro session next shown stops
      have noWord : ¬ (session.current.kind == Kind.programWord) = true := by
        cases readCompound with
        | compound kind _ _ =>
            rw [shown.head, kind]
            decide
      rw [headedOrHeadless, sees_bind, if_neg noWord]
      exact headlessProgram_finishes steps readCompound (by omega) session next shown stops

end Rule

end PascalFrontEnd
