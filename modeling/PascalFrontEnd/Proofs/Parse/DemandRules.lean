import PascalFrontEnd.Proofs.Parse.Demand

namespace PascalFrontEnd.Rule

variable {σ : Type} {session : Session σ}

abbrev listEnd (values : List Tree) : Rule σ (List Tree) := do
  if ← sees .identifier then fail (.missingSeparator (← Rule.current))
  else return values

theorem listEnd_refuses (values : List Tree) (found : session.current.kind = .identifier) :
    listEnd values session = .error (.missingSeparator session.current)
      (session.note (.failed (.missingSeparator session.current))) := by
  rw [listEnd, sees_bind, beq_iff_eq.mpr found]
  rfl

theorem listEnd_accepts (values : List Tree) (other : session.current.kind ≠ .identifier) :
    listEnd values session = .ok values session := by
  rw [listEnd, sees_bind, beq_false_of_ne other]
  rfl

variable [TokenStream σ] {limit steps : Nat}

/-! ### Expressions -/

theorem literal_opens {kind : Kind} (plain : Plain kind) (asked : kind.isQuiet = false)
    (session : Session σ) : Opens kind limit (literal kind : Rule σ Tree) session :=
  (Opens.take plain asked).map Tree.number

theorem variableRef_decided (session : Session σ) :
    Decided False limit (variableRef : Rule σ Tree) session :=
  (Decided.take ⟨by decide, by decide⟩ rfl).map Tree.varRef

theorem closing_decided {inner : Rule σ Tree}
    (inside : ∀ session, Decided False limit inner session) (session : Session σ) :
    Decided False limit (do
      let tree ← inner
      skip .closeParen
      return tree : Rule σ Tree) session :=
  (inside session).bind fun _ _ => .past ⟨by decide, by decide⟩ rfl fun _ => .pure _

theorem unsignedFactor_decided {inner : Rule σ Tree}
    (inside : ∀ session, Decided False (limit - 1) inner session) (session : Session σ) :
    Decided False limit (unsignedFactor inner) session := by
  unfold unsignedFactor
  apply Decided.currentKind
  · cases here : session.current.kind with
    | integerLiteral | realLiteral =>
        exact (literal_opens ⟨by decide, by decide⟩ rfl session).decided
    | openParen => exact .announced here (closing_decided inside _)
    | _ => exact variableRef_decided session
  · cases here : session.current.kind with
    | integerLiteral | realLiteral =>
        exact .inr ((literal_opens ⟨by decide, by decide⟩ rfl session).starts here)
    | openParen => exact .inr (announced_starts here (closing_decided inside _).walks)
    | _ =>
        refine .inl fun kind quiet => ?_
        rcases Kind.eq_of_isQuiet quiet with rfl | rfl <;> rfl

theorem unsignedFactor_starts {inner : Rule σ Tree}
    (inside : ∀ session, Decided False (limit - 1) inner session)
    (leads : session.current.kind.leadsExpression = true)
    (unsigned : session.current.kind ≠ .unarySign) : Starts limit (unsignedFactor inner) session := by
  unfold unsignedFactor Starts
  rw [currentKind_bind]
  cases here : session.current.kind with
  | integerLiteral | realLiteral =>
      exact (literal_opens ⟨by decide, by decide⟩ rfl session).starts here
  | openParen => exact announced_starts here (closing_decided inside _).walks
  | unarySign => exact absurd here unsigned
  | _ =>
      rw [here] at leads
      cases leads

theorem signs_opens (enough : limit ≤ steps) (session : Session σ) :
    Opens .unarySign limit
      (repeatWhile (· == .unarySign) (take .unarySign) steps : Rule σ (List Token)) session := by
  have once : ∀ session : Session σ, Opens .unarySign limit (take .unarySign) session :=
    fun _ => .take ⟨by decide, by decide⟩ rfl
  constructor
  · refine .repeatWhile (fun session _ => (once session).decided) ?_ ?_ enough session
    · exact fun session sign => (once session).starts (eq_of_beq sign)
    · exact fun kind quiet => beq_false_of_ne (Kind.ne_of_isQuiet quiet rfl)
  · intro here
    refine repeatWhile_starts (fun session _ => (once session).decided.walks) ?_
      ((once session).starts here) enough
    exact beq_iff_eq.mpr here

theorem factor_decided {inner : Rule σ Tree}
    (inside : ∀ session, Decided False (limit - 1) inner session) (enough : limit ≤ steps)
    (session : Session σ) : Decided False limit (factor inner steps) session :=
  (signs_opens enough session).decided.bind fun _ middle =>
    (unsignedFactor_decided inside middle).map _

theorem factor_starts {inner : Rule σ Tree}
    (inside : ∀ session, Decided False (limit - 1) inner session) (enough : limit ≤ steps)
    (leads : session.current.kind.leadsExpression = true) :
    Starts limit (factor inner steps) session := by
  have operand : ∀ (signs : List Token) (middle : Session σ), Decided False limit
      (do return signs.foldr .unaryOp (← unsignedFactor inner) : Rule σ Tree) middle :=
    fun signs middle => (unsignedFactor_decided inside middle).map _
  by_cases signed : session.current.kind = .unarySign
  · exact ((signs_opens enough session).bind operand).starts signed
  · have refused : (fun kind => kind == Kind.unarySign) session.current.kind = false :=
      beq_false_of_ne signed
    have unsigned : Starts limit (do return [].foldr .unaryOp (← unsignedFactor inner)) session :=
      (unsignedFactor_starts inside leads signed).bind (unsignedFactor_decided inside session).walks
        fun _ _ => ⟨[], .done _⟩
    intro tokens passed short
    rw [factor, bind_of_ok (repeatWhile_refuses _ refused steps)] at passed
    exact unsigned tokens passed short

theorem sums_asked (kind : Kind) (joins : kind.isAdditive = true) :
    Plain kind ∧ kind.isQuiet = false := by
  have plain : Plain kind := Kind.plain_of_isAdditive joins
  have asked : kind.isQuiet = false := by
    rcases Kind.eq_of_isAdditive joins with rfl | rfl <;> rfl
  exact ⟨plain, asked⟩

theorem products_asked (kind : Kind) (joins : kind.isMultiplicative = true) :
    Plain kind ∧ kind.isQuiet = false := by
  have plain : Plain kind := Kind.plain_of_isMultiplicative joins
  have asked : kind.isQuiet = false := by
    rcases Kind.eq_of_isMultiplicative joins with rfl | rfl | rfl <;> rfl
  exact ⟨plain, asked⟩

theorem operation_opens {operand : Rule σ Tree}
    (part : ∀ session, Decided False limit operand session)
    (asked : Plain session.current.kind ∧ session.current.kind.isQuiet = false) :
    Opens session.current.kind limit (operation operand) session := by
  have taken : Opens session.current.kind limit (do
      let op ← take session.current.kind
      return (op, ← operand) : Rule σ (Token × Tree)) session :=
    (Opens.take asked.1 asked.2).bind fun op middle => (part middle).map (op, ·)
  refine ⟨?_, taken.starts⟩
  unfold operation
  apply Decided.currentKind
  · exact taken.decided
  · exact .inr (taken.starts rfl)

theorem operations_decided {joins : Kind → Bool} {operand : Rule σ Tree}
    (asked : ∀ kind, joins kind = true → Plain kind ∧ kind.isQuiet = false)
    (part : ∀ session, Decided False limit operand session) (enough : limit ≤ steps)
    (session : Session σ) :
    Decided False limit (repeatWhile joins (operation operand) steps) session := by
  refine .repeatWhile ?_ ?_ ?_ enough session
  · exact fun session joined => (operation_opens part (asked _ joined)).decided
  · exact fun session joined => (operation_opens part (asked _ joined)).starts rfl
  · intro kind quiet
    rw [← Bool.not_eq_true]
    intro joined
    exact Kind.ne_of_isQuiet quiet (asked kind joined).2 rfl

theorem chain_decided {joins : Kind → Bool} {operand : Rule σ Tree}
    (asked : ∀ kind, joins kind = true → Plain kind ∧ kind.isQuiet = false)
    (part : ∀ session, Decided False limit operand session) (enough : limit ≤ steps)
    (session : Session σ) : Decided False limit (chain joins operand steps) session :=
  (part session).bind fun _ middle => (operations_decided asked part enough middle).map _

theorem chain_starts {joins : Kind → Bool} {operand : Rule σ Tree}
    (asked : ∀ kind, joins kind = true → Plain kind ∧ kind.isQuiet = false)
    (part : ∀ session, Decided False limit operand session) (enough : limit ≤ steps)
    (starts : Starts limit operand session) : Starts limit (chain joins operand steps) session :=
  starts.bind (part session).walks fun _ middle =>
    ((operations_decided asked part enough middle).map _).walks

theorem term_decided {inner : Rule σ Tree}
    (inside : ∀ session, Decided False (limit - 1) inner session) (enough : limit ≤ steps)
    (session : Session σ) : Decided False limit (term inner steps) session :=
  chain_decided products_asked (factor_decided inside enough) enough session

theorem expression_decided (enough : limit ≤ steps - 1) (session : Session σ) :
    Decided False limit (expression steps : Rule σ Tree) session := by
  induction steps generalizing limit session with
  | zero => exact .vacuous ⟨[], .note _ (.done _)⟩ (by omega)
  | succ steps ih =>
      refine chain_decided sums_asked ?_ (by omega) session
      exact term_decided (fun session => ih (by omega) session) (by omega)

theorem expression_starts (enough : limit ≤ steps - 1)
    (leads : session.current.kind.leadsExpression = true) :
    Starts limit (expression steps : Rule σ Tree) session := by
  cases steps with
  | zero => exact fun tokens _ short => by omega
  | succ steps =>
      have inside : ∀ session, Decided False (limit - 1) (expression steps : Rule σ Tree) session :=
        fun session => expression_decided (by omega) session
      have enough : limit ≤ steps := enough
      refine chain_starts sums_asked (term_decided inside enough) enough ?_
      exact chain_starts products_asked (factor_decided inside enough) enough
        (factor_starts inside enough leads)

/-! ### Statements -/

theorem assignment_opens (enough : limit ≤ steps - 1) (session : Session σ) :
    Opens .identifier limit (assignment steps : Rule σ Tree) session := by
  refine (Opens.take ⟨by decide, by decide⟩ rfl).bind fun target middle => ?_
  refine .past ⟨by decide, by decide⟩ rfl fun last => ?_
  exact ((expression_decided enough last).weaken (Nat.sub_le _ _)).map (Tree.assign target)

theorem statement_decided {compound : Rule σ (List Tree)}
    (inside : ∀ session, Opens .beginWord limit compound session) (enough : limit ≤ steps - 1)
    (session : Session σ) : Decided False limit (statement compound steps) session := by
  have nested := (inside session).map Tree.compound
  unfold statement
  apply Decided.currentKind
  · cases here : session.current.kind with
    | beginWord => exact nested.decided
    | identifier => exact (assignment_opens enough session).decided
    | _ => exact .pure Tree.noOp
  · cases here : session.current.kind with
    | beginWord => exact .inr (nested.starts here)
    | identifier => exact .inr ((assignment_opens enough session).starts here)
    | _ =>
        refine .inl fun kind quiet => ?_
        rcases Kind.eq_of_isQuiet quiet with rfl | rfl <;> rfl

theorem listEnd_finishes (values : List Tree) {stop : Kind → Prop}
    (other : ∀ kind, stop kind → kind ≠ .identifier) :
    (listEnd values : Rule σ (List Tree)).Finishes stop [] values := by
  intro session next shown stops
  have elsewhere : session.current.kind ≠ .identifier := by
    rw [shown.head]
    exact other _ stops
  exact ⟨session, listEnd_accepts values elsewhere, .done session⟩

theorem listEnd_couldEnd (values : List Tree) :
    (listEnd values : Rule σ (List Tree)).CouldEnd [] where
  ends := ⟨values, listEnd_finishes values fun _ quiet => Kind.ne_of_isQuiet quiet rfl⟩
  breaks := by
    intro session next shown found
    rw [← shown.head] at found ⊢
    exact ⟨_, listEnd_refuses values found, .note _ (.done _)⟩

theorem listEnd_decided (values : List Tree) (session : Session σ) :
    Decided True limit (listEnd values) session := by
  by_cases found : session.current.kind = .identifier
  · have refused := listEnd_refuses values found
    refine ⟨separated_walks values session, ?_, ?_⟩
    · intro tokens value after ran
      rw [refused] at ran
      cases ran
    · intro tokens error after ran passed _
      rw [refused, EStateM.Result.error.injEq] at ran
      rcases ran with ⟨rfl, rfl⟩
      rw [passed.unique (.note _ (.done _))]
      exact .inr ⟨trivial, found, rfl, listEnd_couldEnd values⟩
  · have accepted := listEnd_accepts values found
    refine ⟨separated_walks values session, ?_, ?_⟩
    · intro tokens value after ran passed _
      rw [accepted, EStateM.Result.ok.injEq] at ran
      rcases ran with ⟨rfl, rfl⟩
      rw [passed.unique (.done _)]
      refine listEnd_finishes values fun kind stops => ?_
      rcases stops with rfl | quiet
      · exact found
      · exact Kind.ne_of_isQuiet quiet rfl
    · intro tokens error after ran
      rw [accepted] at ran
      cases ran

theorem statements_decided {one : Rule σ Tree}
    (inside : ∀ session, Decided False limit one session) (enough : limit ≤ steps - 1)
    (session : Session σ) : Decided True limit (statements one steps) session := by
  have walks := statements_walks fun session => (inside session).walks
  induction steps generalizing limit session with
  | zero => exact .vacuous (walks 0 session) (by omega)
  | succ steps ih =>
      have again : ∀ session, Decided True limit
          (do skip .semicolon; statements one steps : Rule σ (List Tree)) session :=
        fun session => .past ⟨by decide, by decide⟩ rfl fun middle =>
          ih (fun session => (inside session).weaken (Nat.sub_le _ _)) (by omega) middle
      have starts : ∀ session : Session σ, (session.current.kind == .semicolon) = true →
          Starts limit (do skip .semicolon; statements one steps : Rule σ (List Tree)) session :=
        fun session semicolon => skip_starts ⟨by decide, by decide⟩ rfl (eq_of_beq semicolon)
          fun middle => walks steps middle
      unfold statements
      refine (inside session).bind fun first middle => ?_
      have loop := Decided.repeatWhile (fun session _ => again session) starts
        (fun kind quiet => beq_false_of_ne (Kind.ne_of_isQuiet quiet rfl))
        (show limit ≤ steps by omega) middle
      refine loop.bindPast 0 (fun _ _ _ _ _ _ => Nat.zero_le _) ?_ fun others last _ =>
        listEnd_decided (first :: others.flatten) last
      -- A list that could end in the loop could end behind it.
      refine fun _ tokens couldEnd => .inl ⟨trivial, couldEnd.bind fun others => ?_⟩
      exact ⟨_, listEnd_finishes _ fun _ quiet => Kind.ne_of_isQuiet quiet rfl⟩

theorem statements_over {one : Rule σ Tree} {values : List Tree} {after : Session σ}
    (ran : statements one (steps + 1) session = .ok values after) :
    after.current.kind ≠ .identifier := by
  unfold statements at ran
  obtain ⟨first, middle, -, ran⟩ := bind_ok.mp ran
  obtain ⟨others, last, -, ran⟩ := bind_ok.mp ran
  have ran : listEnd (first :: others.flatten) last = .ok values after := ran
  intro found
  by_cases here : last.current.kind = .identifier
  · rw [listEnd_refuses _ here] at ran
    cases ran
  · rw [listEnd_accepts _ here] at ran
    cases ran
    exact here found

theorem compound_opens (enough : limit ≤ steps - 1) (session : Session σ) :
    Opens .beginWord limit (compound steps : Rule σ (List Tree)) session := by
  induction steps generalizing limit session with
  | zero => exact ⟨.vacuous ⟨[], .note _ (.done _)⟩ (by omega), fun _ _ _ short => by omega⟩
  | succ steps ih =>
      refine .noteCurrent fun session => .skip ⟨by decide, by decide⟩ rfl fun middle => ?_
      have one : ∀ session, Decided False (limit - 1)
          (statement (compound steps) steps : Rule σ Tree) session :=
        statement_decided (fun session => ih (by omega) session) (by omega)
      refine (statements_decided one (by omega) middle).closed fun some body last ran => ?_
      cases steps with
      | zero => omega
      | succ steps => exact statements_over ran

/-! ### Declarations -/

theorem identifierName_opens (session : Session σ) :
    Opens .identifier limit (identifierName : Rule σ String) session :=
  (Opens.take ⟨by decide, by decide⟩ rfl).map Token.name

theorem variableList_opens (enough : limit ≤ steps) (session : Session σ) :
    Opens .identifier limit (variableList steps : Rule σ (List Tree)) session := by
  refine (identifierName_opens session).bind fun first middle => ?_
  have once : ∀ session, Opens .comma limit (do skip .comma; identifierName : Rule σ String)
      session :=
    fun session => .skip ⟨by decide, by decide⟩ rfl fun middle => (identifierName_opens middle).decided
  have names : Decided False limit
      (repeatWhile (· == .comma) (do skip .comma; identifierName) steps : Rule σ (List String))
      middle := by
    refine .repeatWhile (fun session _ => (once session).decided) ?_ ?_ enough middle
    · exact fun session comma => (once session).starts (eq_of_beq comma)
    · exact fun kind quiet => beq_false_of_ne (Kind.ne_of_isQuiet quiet rfl)
  refine names.bind fun others next => .past ⟨by decide, by decide⟩ rfl fun last => ?_
  exact (Decided.take ⟨by decide, by decide⟩ rfl).map _

theorem variableGroup_opens (enough : limit ≤ steps) (session : Session σ) :
    Opens .identifier limit (variableGroup steps : Rule σ (List Tree)) session :=
  (variableList_opens enough session).bind fun _ _ =>
    .past ⟨by decide, by decide⟩ rfl fun _ => .pure _

theorem variableSection_decided (enough : limit ≤ steps) (session : Session σ) :
    Decided False limit (variableSection steps : Rule σ (List Tree)) session := by
  have groups : ∀ session, Decided False (limit - 1)
      (repeatWhile (· == .identifier) (variableGroup steps) steps : Rule σ (List (List Tree)))
      session := by
    have once : ∀ session, Opens .identifier (limit - 1)
        (variableGroup steps : Rule σ (List Tree)) session :=
      fun session => variableGroup_opens (by omega) session
    refine .repeatWhile (fun session _ => (once session).decided) ?_ ?_ (by omega)
    · exact fun session named => (once session).starts (eq_of_beq named)
    · exact fun kind quiet => beq_false_of_ne (Kind.ne_of_isQuiet quiet rfl)
  have opened : Opens .varWord limit (do
      skip .varWord
      let first ← variableGroup steps
      let others ← repeatWhile (· == .identifier) (variableGroup steps) steps
      return first ++ others.flatten : Rule σ (List Tree)) session := by
    refine .skip ⟨by decide, by decide⟩ rfl fun middle => ?_
    exact (variableGroup_opens (by omega) middle).decided.bind fun first next =>
      (groups next).map (first ++ ·.flatten)
  unfold variableSection
  apply Decided.sees rfl
  · by_cases here : (session.current.kind == Kind.varWord) = true
    · rw [if_pos here]
      exact opened.decided
    · rw [if_neg here]
      exact .pure []
  · exact opened.starts

theorem procedure_opens {block : Rule σ (List Tree × List Tree)}
    (inside : ∀ session, Decided False (limit - 1) block session) (session : Session σ) :
    Opens .procedureWord limit (procedure block) session := by
  refine .skip ⟨by decide, by decide⟩ rfl fun middle => ?_
  refine (identifierName_opens middle).decided.bind fun name next => .noteCurrent fun session => ?_
  refine .past ⟨by decide, by decide⟩ rfl fun middle => ?_
  refine ((inside middle).weaken (Nat.sub_le _ _)).bind fun parts last => ?_
  exact .past ⟨by decide, by decide⟩ rfl fun _ => .pure _

theorem declarations_decided {block : Rule σ (List Tree × List Tree)}
    (inside : ∀ session, Decided False (limit - 1) block session) (enough : limit ≤ steps)
    (session : Session σ) : Decided False limit (declarations block steps) session := by
  refine .noteCurrent fun session => ?_
  refine (variableSection_decided enough session).bind fun vars middle => ?_
  have procedures : Decided False limit
      (repeatWhile (· == .procedureWord) (procedure block) steps) middle := by
    refine .repeatWhile (fun session _ => (procedure_opens inside session).decided) ?_ ?_ enough
      middle
    · exact fun session word => (procedure_opens inside session).starts (eq_of_beq word)
    · exact fun kind quiet => beq_false_of_ne (Kind.ne_of_isQuiet quiet rfl)
  refine procedures.bind fun procedures last => ?_
  cases vars ++ procedures <;> exact .pure _

theorem block_decided (enough : limit ≤ steps - 1) (session : Session σ) :
    Decided False limit (block steps : Rule σ (List Tree × List Tree)) session := by
  induction steps generalizing limit session with
  | zero => exact .vacuous ⟨[], .note _ (.done _)⟩ (by omega)
  | succ steps ih =>
      refine (declarations_decided (fun session => ih (by omega) session) (by omega) session).bind
        fun declared middle => ?_
      exact (compound_opens (by omega) middle).decided.map (declared, ·)

/-! ### Programs -/

theorem headedProgram_opens (enough : limit ≤ steps - 1) (session : Session σ) :
    Opens .programWord limit (headedProgram steps : Rule σ Tree) session := by
  refine .skip ⟨by decide, by decide⟩ rfl fun middle => ?_
  refine (identifierName_opens middle).decided.bind fun name next => .note fun session => ?_
  refine .past ⟨by decide, by decide⟩ rfl fun middle => ?_
  exact (block_decided (by omega) middle).map _

theorem program_decided (enough : limit ≤ steps - 1) (session : Session σ) :
    Opens .programWord limit (program steps : Rule σ Tree) session := by
  have headed := headedProgram_opens enough session
  refine Opens.bind ⟨?_, ?_⟩ fun _ _ => .past ⟨by decide, by decide⟩ rfl fun _ => .pure _
  · apply Decided.sees rfl
    · by_cases here : (session.current.kind == Kind.programWord) = true
      · rw [if_pos here]
        exact headed.decided
      · rw [if_neg here]
        exact (compound_opens enough session).decided.map (Tree.block [.noOp])
    · exact headed.starts
  · intro here
    have run : headedOrHeadless steps session = headedProgram steps session := by
      rw [headedOrHeadless, sees_bind, beq_iff_eq.mpr here]
      rfl
    unfold Starts
    rw [run]
    exact headed.starts here

theorem phrase_decided (enough : limit ≤ steps - 1) (session : Session σ) :
    Decided False limit (phrase steps : Rule σ Tree) session := by
  have nested := (compound_opens enough session).map Tree.compound
  unfold phrase
  apply Decided.currentKind
  · cases here : session.current.kind with
    | integerLiteral | realLiteral | openParen | unarySign =>
        exact expression_decided enough session
    | programWord => exact (program_decided enough session).decided
    | beginWord => exact nested.decided
    | _ => exact .mismatch Kind.noConfusion
  · cases here : session.current.kind with
    | integerLiteral | realLiteral | openParen | unarySign =>
        exact .inr (expression_starts enough (by rw [here]; rfl))
    | programWord => exact .inr ((program_decided enough session).starts here)
    | beginWord => exact .inr (nested.starts here)
    | _ =>
        refine .inl fun kind quiet => ?_
        rcases Kind.eq_of_isQuiet quiet with rfl | rfl <;> rfl

/-! ### Entry points -/

variable {tokens : List Token} {error : ParseError} {after : Session σ}

theorem loose_decided (enough : limit ≤ steps - 1) (session : Session σ) :
    Decided False limit (loose steps : Rule σ Tree) session :=
  .noteCurrent fun session => (phrase_decided enough session).bind fun _ _ => .note fun _ => .pure _

/-- Parsed as a whole, a program fails as a part does, or at what stands behind it. -/
theorem wholeProgram_error (ran : wholeProgram steps session = .error error after)
    (passed : session.Passes tokens after) :
    (program steps (session.note .startedProgram) = .error error after ∧
      (session.note .startedProgram).Passes tokens after) ∨
    ∃ tree middle, program steps (session.note .startedProgram) = .ok tree middle ∧
      (session.note .startedProgram).Passes tokens middle ∧
      middle.current = after.current ∧ error = .trailing after.current := by
  have decided := (program_decided (Nat.zero_le (steps - 1)) (session.note .startedProgram)).decided
  obtain ⟨front, passedFront⟩ := decided.walks
  rw [wholeProgram, note_bind] at ran
  rcases bind_error.mp ran with ranProgram | ⟨tree, middle, ranProgram, ranEnd⟩
  · rw [ranProgram] at passedFront
    rw [passed.unique (.note _ passedFront)]
    exact .inl ⟨ranProgram, passedFront⟩
  · rw [ranProgram] at passedFront
    rw [sees_bind] at ranEnd
    by_cases ended : (middle.current.kind == Kind.endOfInput) = true
    · rw [if_pos ended] at ranEnd
      cases ranEnd
    · rw [if_neg ended, current_bind, fail_run, EStateM.Result.error.injEq] at ranEnd
      rcases ranEnd with ⟨rfl, rfl⟩
      have passedAll := Session.Passes.note .startedProgram
        (passedFront.trans (.note (.failed (.trailing middle.current)) (.done _)))
      rw [List.append_nil] at passedAll
      rw [passed.unique passedAll]
      exact .inr ⟨tree, middle, ranProgram, passedFront, rfl, rfl⟩

theorem wholeProgram_trailing {tree : Tree} (read : Reads .program tokens tree)
    (short : tokens.length < steps) (ran : wholeProgram steps session = .error error after)
    (passed : session.Passes tokens after) : error = .trailing after.current := by
  rcases wholeProgram_error ran passed with ⟨ranProgram, -⟩ | ⟨_, _, _, _, _, isTrailing⟩
  · obtain ⟨middle, finished, -⟩ := program_finishes steps read short
      (session.note .startedProgram) after.current (passed.shown.note _) trivial
    rw [finished] at ranProgram
    cases ranProgram
  · exact isTrailing

/-- What an entry point fails at was demanded, or it stands behind a whole program. -/
theorem inMode_demands (mode : Mode) (short : tokens.length < steps - 1)
    (ran : inMode mode steps session = .error error after)
    (passed : session.Passes tokens after) :
    (∃ expected, error = .demanded expected after.current ∧
      (inMode mode steps : Rule σ Tree).Demands after.Beside tokens expected) ∨
    (mode = .wholeProgram ∧ ∃ tree, Reads .program tokens tree) := by
  cases mode with
  | loose =>
      rcases (loose_decided (Nat.le_refl _) session).error ran passed short with
        demanded | ⟨inList, -⟩
      · exact .inl demanded
      · exact inList.elim
  | wholeProgram =>
      rcases wholeProgram_error ran passed with
        ⟨ranProgram, passedProgram⟩ | ⟨tree, middle, ranProgram, passedProgram, -, -⟩
      · have decided := (program_decided (Nat.le_refl (steps - 1))
          (session.note .startedProgram)).decided
        rcases decided.error ranProgram passedProgram short with
          ⟨expected, isDemanded, demands⟩ | ⟨inList, -⟩
        · exact .inl ⟨expected, isDemanded, (demands.bind _).note _⟩
        · exact inList.elim
      · obtain ⟨front, passedFront, read⟩ := program_yields steps _ _ _ ranProgram
        rw [passedProgram.unique passedFront]
        exact .inr ⟨rfl, tree, read⟩

end PascalFrontEnd.Rule
