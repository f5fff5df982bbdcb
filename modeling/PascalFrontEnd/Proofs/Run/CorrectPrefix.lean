import PascalFrontEnd.Proofs.Parse.LockstepRules
import PascalFrontEnd.Proofs.Parse.Viability

namespace PascalFrontEnd

namespace Mode

/-- The sentences of a mode, by the documented grammar. A program parsed as a
whole ends with the end of input. -/
def Sentence : Mode → List Kind → Prop
  | wholeProgram, kinds =>
      ∃ program, (Ebnf.part .program).Matches program ∧ kinds = program ++ [.endOfInput]
  | loose, kinds =>
      ((Ebnf.part .expr).Matches kinds ∧
        ∃ head ∈ kinds.head?, head.leadsExpression = true) ∨
      ((Ebnf.part .program).Matches kinds ∧ ∃ head ∈ kinds.head?, head = .programWord) ∨
      (Ebnf.part .compoundStatement).Matches kinds

def ending : Mode → List Kind
  | wholeProgram => [.endOfInput]
  | loose => []

/-- A kind in a sentence goes on the phrase in front of it, or it is the end of
input behind the whole phrase. -/
theorem ends_or_extends (mode : Mode) {front phrase rest : List Kind} {kind : Kind}
    (shape : front ++ kind :: rest = phrase ++ mode.ending) :
    (kind = .endOfInput ∧ front = phrase) ∨ ∃ more, phrase = front ++ kind :: more := by
  have short : ∀ {before : List Kind}, mode.ending = before ++ kind :: rest →
      before = [] ∧ kind = .endOfInput := by
    intro before ending
    cases mode with
    | loose => cases List.append_eq_nil_iff.mp ending.symm |>.2
    | wholeProgram =>
        cases before with
        | nil =>
            rw [List.nil_append] at ending
            exact ⟨rfl, (List.cons.inj ending).1.symm⟩
        | cons first before =>
            have nothing := (List.cons.inj ending).2.symm
            cases (List.append_eq_nil_iff.mp nothing).2
  rcases List.append_eq_append_iff.mp shape with ⟨more, rfl, behind⟩ | ⟨more, rfl, behind⟩
  · cases more with
    | nil =>
        have whole : mode.ending = [] ++ kind :: rest := behind.symm
        exact .inl ⟨(short whole).2, (List.append_nil front).symm⟩
    | cons next more =>
        rw [List.cons_append, List.cons.injEq] at behind
        exact .inr ⟨more, by rw [behind.1]⟩
  · obtain ⟨rfl, ended⟩ := short behind
    exact .inl ⟨ended, List.append_nil phrase⟩

theorem Sentence.phrase {mode : Mode} {kinds : List Kind} (sentence : mode.Sentence kinds) :
    ∃ phrase, kinds = phrase ++ mode.ending ∧
      ∀ tokens, Token.kinds tokens = phrase → ∃ tree, mode.Reads tokens tree := by
  cases mode with
  | wholeProgram =>
      rcases sentence with ⟨program, matched, rfl⟩
      exact ⟨program, rfl, fun tokens spells => Derives.reads matched.denotes spells⟩
  | loose =>
      refine ⟨kinds, (List.append_nil kinds).symm, ?_⟩
      rintro tokens rfl
      have head : ∀ kind ∈ (Token.kinds tokens).head?,
          ∃ token ∈ tokens.head?, token.kind = kind := by
        cases tokens <;> simp [Token.kinds]
      rcases sentence with ⟨matched, kind, first, leads⟩ | ⟨matched, kind, first, leads⟩ | matched
      · obtain ⟨tree, read⟩ := Derives.reads matched.denotes rfl
        obtain ⟨token, here, rfl⟩ := head kind first
        exact ⟨tree, .inl ⟨read, token, here, leads⟩⟩
      · obtain ⟨tree, read⟩ := Derives.reads matched.denotes rfl
        obtain ⟨token, here, rfl⟩ := head kind first
        exact ⟨tree, .inr (.inl ⟨read, token, here, leads⟩)⟩
      · obtain ⟨body, read⟩ := Derives.reads matched.denotes rfl
        exact ⟨_, .inr (.inr ⟨body, read, rfl⟩)⟩

theorem stops_endOfInput (mode : Mode) : mode.Stops .endOfInput := by
  cases mode with
  | wholeProgram => rfl
  | loose => exact ⟨rfl, rfl⟩

theorem exists_sentence (mode : Mode) : ∃ kinds, mode.Sentence kinds := by
  cases mode with
  | wholeProgram =>
      obtain ⟨program, denoted⟩ := Ebnf.inhabited (.part .program)
      exact ⟨_, program, denoted.matches, rfl⟩
  | loose =>
      obtain ⟨compound, denoted⟩ := Ebnf.inhabited (.part .compoundStatement)
      exact ⟨compound, .inr (.inr denoted.matches)⟩

end Mode

namespace Rule

variable {σ : Type} [TokenStream σ] {session after : Session σ} {error : ParseError}

def Blamed (mode : Mode) (session : Session σ) (error : ParseError) (after : Session σ) : Prop :=
  ∃ tokens expected, session.Passes tokens after ∧ Blames error expected after.current ∧
    ∃ rest, mode.Sentence (Token.kinds tokens ++ rest)

theorem head_append {tokens : List Token} {token : Token} (head : token ∈ tokens.head?)
    (rest : List Kind) : token.kind ∈ (Token.kinds tokens ++ rest).head? := by
  cases tokens with
  | nil => cases head
  | cons first tokens =>
      cases head
      rfl

theorem phrase_blamed (steps : Nat) (ran : phrase steps session = .error error after) :
    Blamed .loose session error after := by
  -- Before the first token any sentence is still possible.
  have any : ∀ tokens : List Token, tokens = [] →
      ∃ rest, Mode.loose.Sentence (Token.kinds tokens ++ rest) := by
    rintro _ rfl
    exact Mode.loose.exists_sentence
  rcases phrase_cases steps session with
    ⟨leads, run⟩ | ⟨leads, run⟩ | ⟨-, run⟩ | ⟨-, -, -, run⟩ <;> rw [run] at ran
  · rcases (expression_follows steps session).error ran with
      ⟨tokens, expected, passed, blames, rest, denoted⟩
    refine ⟨tokens, expected, passed, blames, ?_⟩
    by_cases empty : tokens = []
    · exact any tokens empty
    · have head := head_append (head_of_passes passed empty) (expected :: rest)
      rw [List.append_assoc] at denoted
      exact ⟨expected :: rest, .inl ⟨denoted.matches, _, head, leads⟩⟩
  · rcases (program_follows steps session).error ran with
      ⟨tokens, expected, passed, blames, rest, denoted⟩
    refine ⟨tokens, expected, passed, blames, ?_⟩
    by_cases empty : tokens = []
    · exact any tokens empty
    · have head := head_append (head_of_passes passed empty) (expected :: rest)
      rw [List.append_assoc] at denoted
      exact ⟨expected :: rest, .inr (.inl ⟨denoted.matches, _, head, leads⟩)⟩
  · have follows : Follows (.part .compoundStatement)
        (compound steps >>= fun body => pure (.compound body) : Rule σ Tree) session :=
      (compound_follows steps session).andThen fun body _ => .pure _
    obtain ⟨tokens, expected, passed, blames, rest, denoted⟩ := follows.error ran
    rw [List.append_assoc] at denoted
    exact ⟨tokens, expected, passed, blames, expected :: rest, .inr (.inr denoted.matches)⟩
  · rw [mismatch_run, EStateM.Result.error.injEq] at ran
    rcases ran with ⟨rfl, rfl⟩
    exact ⟨[], .beginWord, .note _ (.done _), .mismatch _ _, any [] rfl⟩

theorem inMode_blamed (mode : Mode) (steps : Nat)
    (ran : inMode mode steps session = .error error after) :
    Blamed mode session error after := by
  cases mode with
  | loose =>
      have ran : loose steps session = .error error after := ran
      rw [loose, current_bind, note_bind] at ran
      rcases bind_error.mp ran with ran | ⟨tree, middle, _, ran⟩
      · obtain ⟨tokens, expected, passed, rest⟩ := phrase_blamed steps ran
        exact ⟨tokens, expected, .note _ passed, rest⟩
      · cases ran
  | wholeProgram =>
      have ran : wholeProgram steps session = .error error after := ran
      rw [wholeProgram, note_bind] at ran
      rcases bind_error.mp ran with ran | ⟨tree, middle, ranProgram, ran⟩
      · rcases (program_follows steps _).error ran with
          ⟨tokens, expected, passed, blames, rest, denoted⟩
        rw [List.append_assoc] at denoted
        refine ⟨tokens, expected, .note _ passed, blames, expected :: rest ++ [.endOfInput],
          _, denoted.matches, ?_⟩
        simp
      · obtain ⟨tokens, passed, denoted⟩ := (program_follows steps _).ok ranProgram
        rw [sees_bind] at ran
        by_cases ended : (middle.current.kind == Kind.endOfInput) = true
        · rw [if_pos ended] at ran
          cases ran
        · rw [if_neg ended, current_bind, fail_run, EStateM.Result.error.injEq] at ran
          rcases ran with ⟨rfl, rfl⟩
          have passedAll := Session.Passes.note .startedProgram
            (passed.trans (.note (.failed (.trailing middle.current)) (.done _)))
          rw [List.append_nil] at passedAll
          exact ⟨tokens, .endOfInput, passedAll, .trailing _, [.endOfInput], _, denoted.matches,
            rfl⟩

end Rule

namespace Session

variable {σ : Type} [TokenStream σ] [LawfulTokenStream σ] {session after : Session σ}
  {mode : Mode} {error : ParseError} {tokens : List Token}

def tokenOf (kind : Kind) : Token :=
  ⟨kind, kind.label, none, 1⟩

theorem kinds_map_tokenOf (kinds : List Kind) : Token.kinds (kinds.map tokenOf) = kinds := by
  induction kinds with
  | nil => rfl
  | cons kind kinds ih =>
      rw [List.map_cons]
      exact congrArg (kind :: ·) ih

theorem no_sentence_of_error (failed : session.parse mode = (.error error, after))
    (passed : session.Passes tokens after) (rest : List Kind) :
    ¬ mode.Sentence (Token.kinds tokens ++ after.current.kind :: rest) := by
  intro sentence
  rcases sentence.phrase with ⟨phrase, shape, reads⟩
  have stopped : (session.parse mode).2 = after := by rw [failed]
  rcases mode.ends_or_extends shape with ⟨ended, rfl⟩ | ⟨more, rfl⟩
  · -- The phrase has been passed, and would have been the result.
    obtain ⟨tree, read⟩ := reads tokens rfl
    have stops : mode.Stops after.current.kind := ended ▸ mode.stops_endOfInput
    obtain ⟨last, parsed, _⟩ := parse_of_reads passed.shown read stops
    rw [failed] at parsed
    cases parsed
  · -- The phrase can be written out behind the same tokens, and parses there.
    have spells : Token.kinds (tokens ++ [after.current] ++ more.map tokenOf) =
        Token.kinds tokens ++ after.current.kind :: more := by
      rw [Token.kinds_append, Token.kinds_append, kinds_map_tokenOf, List.append_assoc]
      rfl
    obtain ⟨tree, read⟩ := reads _ spells
    have shown := Replay.shows_tokens (tokens ++ [after.current] ++ more.map tokenOf)
    obtain ⟨last, parsed, _⟩ := parse_of_reads shown read mode.stops_endOfInput
    have copied : (Session.start (Replay.ofTokens
        (tokens ++ [after.current] ++ more.map tokenOf))).Copies Eq
        (tokens ++ [(session.parse mode).2.current]) := by
      rw [stopped]
      exact shown.of_append.of_append.copies (List.forall₂_same.mpr fun _ _ => rfl)
    have alike := (parse_lockstep (by rw [stopped]; exact passed) copied).1
    rw [failed, parsed] at alike
    cases alike

end Session

namespace Replay

/-- Where a parse of a list of tokens fails, the tokens it has passed begin a
sentence, no sentence begins with them and the token behind them, and the error
names the line of that token. -/
theorem parse_error_earliest {tokens : List Token} {mode : Mode} {error : ParseError}
    {after : Session Replay}
    (failed : (Session.start (ofTokens tokens)).parse mode = (.error error, after)) :
    ∃ passed unread, tokens = passed ++ unread ∧
      (Session.start (ofTokens tokens)).Passes passed after ∧
      after.Shows (unread ++ [(ofTokens tokens).closing]) ∧
      (∃ rest, mode.Sentence (Token.kinds passed ++ rest)) ∧
      (∀ rest, ¬ mode.Sentence (Token.kinds passed ++ after.current.kind :: rest)) ∧
      error.line = after.current.line := by
  rcases Rule.inMode_blamed mode _ (Session.parse_error.mp failed) with
    ⟨passed, expected, passes, blames, begins⟩
  obtain ⟨unread, shape, shown⟩ := passes.split_shown (shows_tokens tokens) rfl
  exact ⟨passed, unread, shape, passes, shown, begins,
    Session.no_sentence_of_error failed passes, blames.line⟩

def brokenOff : List Token :=
  [⟨.beginWord, "BEGIN", none, 1⟩, ⟨.identifier, "x", some (.name "x"), 1⟩,
    ⟨.endWord, "END", none, 2⟩]

def afterBrokenOff : Session Replay :=
  ((Session.start (ofTokens brokenOff)).parse .loose).2

theorem parse_brokenOff_earliest :
    (Session.start (ofTokens brokenOff)).parse .loose =
      (.error (.unexpected .becomes ⟨.endWord, "END", none, 2⟩), afterBrokenOff) ∧
    ∃ passed unread, brokenOff = passed ++ unread ∧
      (Session.start (ofTokens brokenOff)).Passes passed afterBrokenOff ∧
      afterBrokenOff.Shows (unread ++ [(ofTokens brokenOff).closing]) ∧
      (∃ rest, Mode.loose.Sentence (Token.kinds passed ++ rest)) ∧
      (∀ rest, ¬ Mode.loose.Sentence
        (Token.kinds passed ++ afterBrokenOff.current.kind :: rest)) ∧
      (ParseError.unexpected .becomes ⟨.endWord, "END", none, 2⟩).line =
        afterBrokenOff.current.line :=
  ⟨rfl, parse_error_earliest rfl⟩

end Replay

end PascalFrontEnd
