import PascalFrontEnd.Proofs.Run.CorrectPrefix

namespace PascalFrontEnd

/-- What loose mode takes from in front of the other tokens: an expression that
no operator extends, a headed program or a compound statement. -/
inductive OnePhrase : List Token → List Token → Prop where
  | expression {phrase behind : List Token} {head : Token} :
      (Ebnf.part .expr).Matches (Token.kinds phrase) → head ∈ phrase.head? →
      head.kind.leadsExpression = true →
      (∀ next ∈ behind.head?, next.kind.isAdditive = false ∧ next.kind.isMultiplicative = false) →
      OnePhrase phrase behind
  | program {phrase behind : List Token} {head : Token} :
      (Ebnf.part .program).Matches (Token.kinds phrase) → head ∈ phrase.head? →
      head.kind = .programWord → OnePhrase phrase behind
  | compound {phrase behind : List Token} :
      (Ebnf.part .compoundStatement).Matches (Token.kinds phrase) → OnePhrase phrase behind

theorem Derives.joined {kinds : List Kind} {op : Kind} (derived : Derives .expression kinds)
    (joins : op.isAdditive = true ∨ op.isMultiplicative = true) :
    Derives .expression (kinds ++ [op, .identifier]) := by
  have operand : Derives .factor [.identifier] := .reference
  have whole : kinds ++ [op, .identifier] = kinds ++ [op] ++ [.identifier] := by simp
  rcases joins with additive | multiplicative
  · rw [whole]
    exact derived.sum additive (.lastFactor operand)
  · generalize shape : Nonterminal.expression = symbol at derived
    clear whole
    induction derived with
    | lastTerm term =>
        have longer := term.product multiplicative operand
        simp only [List.append_assoc] at longer
        exact .lastTerm longer
    | moreTerms term additive _ _ ih =>
        have longer := Derives.moreTerms term additive (ih rfl)
        simpa only [List.append_assoc] using longer
    | _ => cases shape

namespace Session

variable {σ : Type} [TokenStream σ] [LawfulTokenStream σ] {session after : Session σ}
  {phrase : List Token} {next : Token} {tree : Tree}

theorem parse_phrase (shown : session.Shows (phrase ++ [next]))
    (read : Mode.loose.Reads phrase tree) (stops : Mode.EndsPhrase phrase next.kind) :
    ∃ after, session.parse .loose = (.ok tree, after) ∧ session.Passes phrase after := by
  have short := shown.of_append.length_lt_budget fun _ present => (read.known present).1
  have enough : phrase.length < session.budget := by omega
  rcases Rule.loose_finishes session.budget read enough session next shown stops with
    ⟨after, ran, passed⟩
  exact ⟨after, parse_ok.mpr ran, passed⟩

/-- An expression is passed up to the last operator that goes it on. On a list
that goes on with an operand the parse would have gone on as well. -/
theorem parse_stops (parsed : session.parse .loose = (.ok tree, after))
    (passed : session.Passes phrase after) (read : Reads .expression phrase tree)
    (leads : ∃ head ∈ phrase.head?, head.kind.leadsExpression = true) :
    Rule.EndsExpression after.current.kind := by
  by_contra goesOn
  have joins : after.current.kind.isAdditive = true ∨
      after.current.kind.isMultiplicative = true := by
    by_contra neither
    simp only [not_or, Bool.not_eq_true] at neither
    exact goesOn neither
  -- The same tokens with an operand behind the operator are an expression too.
  let longer := phrase ++ [after.current, tokenOf .identifier]
  have kinds : Token.kinds longer = Token.kinds phrase ++ [after.current.kind, .identifier] :=
    Token.kinds_append _ _
  obtain ⟨value, readLonger⟩ := Derives.reads (read.derives.joined joins) kinds
  have leadsLonger : ∃ head ∈ longer.head?, head.kind.leadsExpression = true := by
    rcases leads with ⟨head, first, leads⟩
    refine ⟨head, ?_, leads⟩
    cases phrase with
    | nil => cases first
    | cons token rest => exact first
  have reads : Mode.loose.Reads longer value := .inl ⟨readLonger, leadsLonger⟩
  have shown := Replay.shows_tokens longer
  obtain ⟨last, parsedLonger, passedLonger⟩ :=
    parse_of_reads shown reads Mode.loose.stops_endOfInput
  -- But up to the operator both parses do the same.
  have shownFirst : (Session.start (Replay.ofTokens longer)).Shows (phrase ++ [after.current]) := by
    have split : longer = phrase ++ [after.current] ++ [tokenOf .identifier] := by simp [longer]
    rw [split] at shown ⊢
    exact shown.of_append.of_append
  obtain ⟨last', parsedFirst, passedFirst⟩ := parse_same parsed passed shownFirst
  rw [parsedLonger, Prod.mk.injEq] at parsedFirst
  rw [← parsedFirst.2] at passedFirst
  have same := congrArg List.length (passedFirst.unique passedLonger)
  rw [List.length_append] at same
  simp at same

theorem onePhrase_of_parse {behind : List Token} {last : Token}
    (parsed : session.parse .loose = (.ok tree, after)) (passed : session.Passes phrase after)
    (shown : after.Shows (behind ++ [last])) : OnePhrase phrase behind := by
  obtain ⟨tokens, passes, read⟩ := Rule.inMode_yields .loose _ _ _ _ (parse_ok.mp parsed)
  rcases passes.unique passed with rfl
  rcases read with ⟨read, head, first, leads⟩ | ⟨read, head, first, heads⟩ | ⟨body, read, -⟩
  · have denoted : (Ebnf.part .expr).Denotes (Token.kinds tokens) := read.derives
    refine .expression denoted.matches first leads fun next here => ?_
    have current : after.current = next := by
      cases behind with
      | nil => cases here
      | cons token behind =>
          cases here
          exact shown.1
    rw [← current]
    exact parse_stops parsed passed read ⟨head, first, leads⟩
  · have denoted : (Ebnf.part .program).Denotes (Token.kinds tokens) := read.derives
    exact .program denoted.matches first heads
  · have denoted : (Ebnf.part .compoundStatement).Denotes (Token.kinds tokens) := read.derives
    exact .compound denoted.matches

theorem parse_of_onePhrase {behind : List Token} {last : Token} (ended : last.kind = .endOfInput)
    (shown : session.Shows (phrase ++ behind ++ [last])) (one : OnePhrase phrase behind) :
    ∃ tree after, session.parse .loose = (.ok tree, after) ∧ session.Passes phrase after := by
  obtain ⟨next, rest, shape, here⟩ : ∃ next rest, behind ++ [last] = next :: rest ∧
      (next ∈ behind.head? ∨ next = last) := by
    cases behind with
    | nil => exact ⟨last, [], rfl, .inr rfl⟩
    | cons token behind => exact ⟨token, behind ++ [last], rfl, .inl rfl⟩
  rw [List.append_assoc, shape, ← List.singleton_append, ← List.append_assoc] at shown
  cases one with
  | expression matched first leads stops =>
      obtain ⟨tree, read⟩ := Derives.reads matched.denotes rfl
      refine ⟨tree, parse_phrase shown.of_append (.inl ⟨read, _, first, leads⟩) fun _ => ?_⟩
      rcases here with here | rfl
      · exact stops next here
      · rw [ended]
        exact ⟨rfl, rfl⟩
  | program matched first heads =>
      obtain ⟨tree, read⟩ := Derives.reads matched.denotes rfl
      refine ⟨tree, parse_phrase shown.of_append (.inr (.inl ⟨read, _, first, heads⟩)) ?_⟩
      rintro ⟨head, first', leads⟩
      rw [Option.mem_unique first' first, heads] at leads
      cases leads
  | compound matched =>
      obtain ⟨body, read⟩ := Derives.reads matched.denotes rfl
      refine ⟨_, parse_phrase shown.of_append (.inr (.inr ⟨body, read, rfl⟩)) ?_⟩
      rintro ⟨head, first, leads⟩
      cases read with
      | compound begins =>
          cases first
          rw [begins] at leads
          cases leads

/-- In loose mode the session takes the one phrase that the unread tokens begin
with, and fails if they begin with none. -/
structure TakesOnePhrase (session : Session σ) (unread : List Token) : Prop where
  passes_iff (phrase : List Token) :
    (∃ tree after, session.parse .loose = (.ok tree, after) ∧ session.Passes phrase after) ↔
      ∃ behind, unread = phrase ++ behind ∧ OnePhrase phrase behind
  unique {phrase behind phrase' behind' : List Token} :
    unread = phrase ++ behind → OnePhrase phrase behind →
    unread = phrase' ++ behind' → OnePhrase phrase' behind' → phrase = phrase'
  fails : (∀ phrase behind, unread = phrase ++ behind → ¬ OnePhrase phrase behind) →
    ∃ error after, session.parse .loose = (.error error, after)

/-- Whatever a session has in front of it up to the end of input, a parse in
loose mode takes one phrase of it. -/
theorem parse_loose_takesOnePhrase {unread : List Token} {last : Token}
    (shown : session.Shows (unread ++ [last])) (ended : last.kind = .endOfInput) :
    session.TakesOnePhrase unread := by
  have taken : ∀ {phrase tree after}, session.parse .loose = (.ok tree, after) →
      session.Passes phrase after → ∃ behind, unread = phrase ++ behind ∧ OnePhrase phrase behind := by
    intro phrase tree after parsed passed
    obtain ⟨behind, shape, shownBehind⟩ := passed.split_shown shown ended
    exact ⟨behind, shape, onePhrase_of_parse parsed passed shownBehind⟩
  have given : ∀ {phrase behind}, unread = phrase ++ behind → OnePhrase phrase behind →
      ∃ tree after, session.parse .loose = (.ok tree, after) ∧ session.Passes phrase after := by
    intro phrase behind shape one
    rw [shape] at shown
    exact parse_of_onePhrase ended shown one
  constructor
  · intro phrase
    constructor
    · rintro ⟨tree, after, parsed, passed⟩
      exact taken parsed passed
    · rintro ⟨behind, shape, one⟩
      exact given shape one
  · intro phrase behind phrase' behind' shape one shape' one'
    obtain ⟨tree, after, parsed, passed⟩ := given shape one
    obtain ⟨tree', after', parsed', passed'⟩ := given shape' one'
    rw [parsed, Prod.mk.injEq] at parsed'
    rw [← parsed'.2] at passed'
    exact passed.unique passed'
  · intro none
    cases parsed : session.parse .loose with
    | mk result after =>
        cases result with
        | error error => exact ⟨error, after, rfl⟩
        | ok tree =>
            obtain ⟨phrase, passed⟩ := session.parse_passes .loose
            rw [parsed] at passed
            obtain ⟨behind, shape, one⟩ := taken parsed passed
            exact absurd one (none phrase behind shape)

def product : List Token :=
  [⟨.integerLiteral, "2", some (.integer 2), 1⟩, ⟨.times, "*", none, 1⟩,
    ⟨.identifier, "x", some (.name "x"), 1⟩, ⟨.closeParen, ")", none, 1⟩]

def behindCompound : Session Replay :=
  ((Session.start (Replay.ofTokens
    ([⟨.beginWord, "BEGIN", none, 1⟩, ⟨.endWord, "END", none, 1⟩] ++ product))).parse .loose).2

theorem behindCompound_takesOnePhrase :
    behindCompound.Shows (product ++ [Token.endOfInput 1]) ∧
    (Token.endOfInput 1).kind = .endOfInput ∧ behindCompound.TakesOnePhrase product := by
  have shown : behindCompound.Shows (product ++ [Token.endOfInput 1]) :=
    ⟨rfl, rfl, rfl, rfl, rfl, trivial⟩
  exact ⟨shown, rfl, parse_loose_takesOnePhrase shown rfl⟩

end Session

end PascalFrontEnd
