import PascalFrontEnd.Proofs.Run.SideBySide
import PascalFrontEnd.Proofs.Token.Scanning

namespace PascalFrontEnd

namespace Session

structure Sight where
  current : Token
  pulls : Nat
  brackets : Array Nat
  deriving DecidableEq, Repr

variable {σ : Type}

def sight (session : Session σ) : Sight :=
  ⟨session.current, session.pulls, session.brackets⟩

def trace [TokenStream σ] (session : Session σ) :
    List Mode → List (Except ParseError Tree × Sight)
  | [] => []
  | mode :: modes =>
      let (result, after) := session.parse mode
      (result, after.sight) :: after.trace modes

theorem trace_cons [TokenStream σ] (session : Session σ) (mode : Mode) (modes : List Mode) :
    session.trace (mode :: modes) =
      ((session.parse mode).1, (session.parse mode).2.sight) ::
        (session.parse mode).2.trace modes := rfl

theorem SideBySide.trace_eq {τ : Type} [TokenStream σ] [TokenStream τ] [LawfulTokenStream σ]
    [LawfulTokenStream τ] {session : Session σ} {session' : Session τ}
    (beside : session.SideBySide Eq session') (modes : List Mode) :
    session.sight = session'.sight ∧ session.trace modes = session'.trace modes := by
  have sights : ∀ {session : Session σ} {session' : Session τ},
      session.SideBySide Eq session' → session.sight = session'.sight := by
    intro session session' beside
    unfold sight
    rw [beside.current, beside.pulls, beside.brackets]
  refine ⟨sights beside, ?_⟩
  induction modes generalizing session session' with
  | nil => rfl
  | cons mode modes ih =>
      obtain ⟨alike, after⟩ := beside.parse mode
      have same : (session.parse mode).1 = (session'.parse mode).1 := by
        generalize (session.parse mode).1 = result at alike ⊢
        generalize (session'.parse mode).1 = result' at alike ⊢
        cases alike with
        | ok alike => rw [Tree.eq_of_alike alike]
        | error alike => rw [alike.eq]
      rw [trace_cons, trace_cons, same, sights after, ih after]

/-- The lexer behind a session has handed out the current token last, and no
bracket has been announced since. -/
def Attuned (session : Session Lexer) : Prop :=
  session.stream.previous = some session.current.kind ∧ session.stream.bracketed = false

/-- Announced or not, a parenthesis does not change what the lexer reads next. -/
theorem Attuned.pass {session : Session Lexer} (attuned : session.Attuned) :
    session.pass.current = session.stream.next.1 ∧ session.pass.stream = session.stream.next.2 := by
  by_cases bracket : session.current.kind = .openParen
  · rw [pass_of_openParen bracket]
    have opens : session.stream.previous = some .openParen := by rw [attuned.1, bracket]
    have next := Lexer.next_enterBracket opens
    show session.stream.enterBracket.next.1 = _ ∧ session.stream.enterBracket.next.2 = _
    rw [next]
    exact ⟨rfl, rfl⟩
  · rw [pass_of_ne_openParen bracket]
    exact ⟨rfl, rfl⟩

theorem Attuned.pass_attuned {session : Session Lexer} (attuned : session.Attuned) :
    session.pass.Attuned := by
  rcases attuned.pass with ⟨current, stream⟩
  unfold Attuned
  rw [current, stream]
  exact ⟨rfl, rfl⟩

theorem Attuned.shows {session : Session Lexer} {lexer : Lexer} (attuned : session.Attuned)
    (here : session.stream = lexer) : session.Shows (session.current :: lexer.tokens) := by
  induction lexer using Lexer.tokens.induct generalizing session with
  | case1 lexer ended =>
      rw [Lexer.tokens_last ended]
      refine ⟨rfl, ?_, trivial⟩
      rw [attuned.pass.1, here]
  | case2 lexer more ih =>
      rw [Lexer.tokens_cons more]
      have shown := ih attuned.pass_attuned (by rw [attuned.pass.2, here])
      rw [attuned.pass.1, here] at shown
      exact ⟨rfl, shown⟩

theorem start_attuned (lexer : Lexer) : (Session.start lexer).Attuned :=
  ⟨rfl, rfl⟩

theorem start_shows (lexer : Lexer) : (Session.start lexer).Shows lexer.tokens := by
  by_cases ended : lexer.next.1.kind = .endOfInput
  · rw [Lexer.tokens_last ended]
    exact ⟨rfl, trivial⟩
  · rw [Lexer.tokens_cons ended]
    exact (start_attuned lexer).shows rfl

/-- A session on a lexer has passed the first tokens of its text, and the next one is
current. -/
theorem Passes.tokens_eq {lexer : Lexer} {tokens : List Token} {after : Session Lexer}
    (passed : (Session.start lexer).Passes tokens after) :
    ∃ behind, lexer.tokens = tokens ++ after.current :: behind := by
  obtain ⟨front, last, shape, ended, -⟩ := lexer.tokens_split
  have shown : (Session.start lexer).Shows (front ++ [last]) := shape ▸ start_shows lexer
  obtain ⟨rest, rfl, shownRest⟩ := passed.split_shown shown ended
  obtain ⟨behind, begins⟩ := shownRest.begins
  exact ⟨behind, by rw [shape, List.append_assoc, begins]⟩

/-- For every text and every sequence of parses, a session that lexes on demand
and a session that replays the tokens of the text show the same throughout. -/
theorem lexing_trace_eq_replay_trace (source : String) (modes : List Mode) :
    (Session.start (Lexer.ofSource source)).sight =
        (Session.start (Replay.ofTokens (tokenize source))).sight ∧
      (Session.start (Lexer.ofSource source)).trace modes =
        (Session.start (Replay.ofTokens (tokenize source))).trace modes := by
  obtain ⟨front, last, shape, ended, -⟩ := (Lexer.ofSource source).tokens_split
  have shape : tokenize source = front ++ [last] := shape
  have shown : (Session.start (Lexer.ofSource source)).Shows (front ++ [last]) :=
    shape ▸ start_shows (Lexer.ofSource source)
  have copied : (Session.start (Replay.ofTokens (tokenize source))).Copies Eq (front ++ [last]) := by
    have replayed := (Replay.shows_tokens (tokenize source)).of_append
    rw [shape] at replayed ⊢
    exact replayed.copies (List.forall₂_same.mpr fun _ _ => rfl)
  have beside : (Session.start (Lexer.ofSource source)).SideBySide Eq
      (Session.start (Replay.ofTokens (tokenize source))) :=
    ⟨rfl, rfl, front, last, ended, shown, copied⟩
  exact beside.trace_eq modes

end Session

end PascalFrontEnd
