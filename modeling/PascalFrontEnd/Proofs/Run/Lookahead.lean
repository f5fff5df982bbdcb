import PascalFrontEnd.Proofs.Run.Bookkeeping

namespace PascalFrontEnd

namespace Session

variable {σ τ : Type} [TokenStream σ] [TokenStream τ] {session after : Session σ}
  {session' after' : Session τ} {tokens : List Token}

/-- Sessions that look the same, pass the same tokens and stop at the same one look
the same again. -/
theorem Passes.sight_congr (passed : session.Passes tokens after)
    (passed' : session'.Passes tokens after') (same : session.sight = session'.sight)
    (stops : after.current = after'.current) : after.sight = after'.sight := by
  have pulls : session.pulls = session'.pulls := congrArg Sight.pulls same
  have brackets : session.brackets = session'.brackets := congrArg Sight.brackets same
  have drawn : after.pulls = after'.pulls := by
    rw [passed.pulls, passed'.pulls, pulls]
  have announced : after.brackets = after'.brackets := by
    apply Array.toList_inj.mp
    rw [passed.brackets, passed'.brackets, pulls, brackets]
  simp only [sight, stops, drawn, announced]

theorem Shows.upTo {front back : List Token} {last : Token}
    (shown : session'.Shows (front ++ (back ++ [last]))) (here : session.Shows (back ++ [last])) :
    session'.Shows (front ++ [session.current]) := by
  obtain ⟨rest, shape⟩ := here.begins
  rw [shape, ← List.singleton_append, ← List.append_assoc] at shown
  exact shown.of_append

/-- A session that shows what another one passes and stops at goes through the same
parses with the same results. -/
theorem trace_of_shows [LawfulTokenStream σ] [LawfulTokenStream τ] (modes : List Mode)
    (same : session.sight = session'.sight) (passed : session.Passes tokens (session.run modes))
    (shown : session'.Shows (tokens ++ [(session.run modes).current])) :
    session'.trace modes = session.trace modes := by
  induction modes generalizing session session' tokens with
  | nil => rfl
  | cons mode modes ih =>
      obtain ⟨front, passedFront⟩ := session.parse_passes mode
      obtain ⟨back, passedBack⟩ := (session.parse mode).2.run_passes modes
      rw [passed.unique (passedFront.trans passedBack), List.append_assoc] at shown
      have stops : session'.Shows (front ++ [(session.parse mode).2.current]) :=
        shown.upTo passedBack.shown
      have whole : session.parse mode = ((session.parse mode).1, (session.parse mode).2) := rfl
      obtain ⟨last, parsed, passedLast⟩ := parse_same whole passedFront stops
      have results : (session'.parse mode).1 = (session.parse mode).1 := by rw [parsed]
      have middle : (session'.parse mode).2 = last := by rw [parsed]
      have sights : (session.parse mode).2.sight = last.sight :=
        passedFront.sight_congr passedLast same (passedLast.shows stops).1.symm
      rw [trace_cons, trace_cons, results, middle, ← sights,
        ih sights passedBack (passedLast.shows shown)]

end Session

namespace Replay

theorem shows_calls {session : Session Replay} {replay : Replay} (here : session.stream = replay)
    (calls : Nat) : session.Shows (session.current :: (List.range calls).map replay.handed) := by
  induction calls generalizing session replay with
  | zero => exact ⟨rfl, trivial⟩
  | succ calls ih =>
      have next : session.pass.stream = replay.next.2 := by rw [pass_stream, here]
      have head : session.pass.current = replay.handed 0 := by
        rw [pass_current, here]
        rfl
      have shown := ih next
      rw [head] at shown
      rw [List.range_succ_eq_map, List.map_cons, List.map_map]
      exact ⟨rfl, shown⟩

theorem start_shows_handed (tokens : List Token) (calls : Nat) :
    (Session.start (ofTokens tokens)).Shows ((List.range calls).map (ofTokens tokens).handed) := by
  cases calls with
  | zero => trivial
  | succ calls =>
      rw [List.range_succ_eq_map, List.map_cons, List.map_map]
      exact shows_calls rfl calls

/-- On lists of tokens that agree as far as tokens are drawn, whatever stands behind
that, a session begins alike, and all parses have the same results and leave the same
to be seen. -/
theorem trace_of_drawn (tokens others : List Token) (modes : List Mode)
    (agree : ∀ call < ((Session.start (ofTokens tokens)).run modes).pulls,
      (ofTokens others).handed call = (ofTokens tokens).handed call) :
    (Session.start (ofTokens others)).sight = (Session.start (ofTokens tokens)).sight ∧
      (Session.start (ofTokens others)).trace modes =
        (Session.start (ofTokens tokens)).trace modes := by
  obtain ⟨consumed, passed⟩ := (Session.start (ofTokens tokens)).run_passes modes
  obtain ⟨_, books⟩ := books_of_passes passed
  generalize stopped : (Session.start (ofTokens tokens)).run modes = last at agree books passed
  rw [books.pulls] at agree
  -- What is consumed, and the token it stops at, is all that has been drawn.
  have drawn : consumed ++ [last.current] =
      (List.range (consumed.length + 1)).map (ofTokens tokens).handed :=
    passed.shown.eq_of_length (start_shows_handed tokens _) (by simp)
  have shared : (List.range (consumed.length + 1)).map (ofTokens tokens).handed =
      (List.range (consumed.length + 1)).map (ofTokens others).handed := by
    apply List.map_congr_left
    intro call early
    exact (agree call (List.mem_range.mp early)).symm
  have shown : (Session.start (ofTokens others)).Shows (consumed ++ [last.current]) := by
    rw [drawn, shared]
    exact start_shows_handed others _
  have first : (ofTokens others).handed 0 = (ofTokens tokens).handed 0 :=
    agree 0 (Nat.succ_pos _)
  have begun : (Session.start (ofTokens others)).sight = (Session.start (ofTokens tokens)).sight :=
    congrArg (fun token => Session.Sight.mk token 1 #[]) first
  subst stopped
  exact ⟨begun, Session.trace_of_shows modes begun.symm passed shown⟩

def bracketedOne (behind : List Token) : List Token :=
  [⟨.openParen, "(", none, 1⟩, ⟨.integerLiteral, "1", some (.integer 1), 1⟩,
    ⟨.closeParen, ")", none, 1⟩, ⟨.semicolon, ";", none, 2⟩] ++ behind

/-- The semicolon is the last token drawn: nobody sees whether an unknown token comes
behind it. -/
theorem trace_bracketedOne_drawn :
    (∀ call < ((Session.start (ofTokens (bracketedOne []))).run [.loose, .loose]).pulls,
      (ofTokens (bracketedOne [⟨.unknown, "?", none, 7⟩])).handed call =
        (ofTokens (bracketedOne [])).handed call) ∧
    (Session.start (ofTokens (bracketedOne [⟨.unknown, "?", none, 7⟩]))).sight =
        (Session.start (ofTokens (bracketedOne []))).sight ∧
    (Session.start (ofTokens (bracketedOne [⟨.unknown, "?", none, 7⟩]))).trace [.loose, .loose] =
      (Session.start (ofTokens (bracketedOne []))).trace [.loose, .loose] := by
  have agree : ∀ call < ((Session.start (ofTokens (bracketedOne []))).run [.loose, .loose]).pulls,
      (ofTokens (bracketedOne [⟨.unknown, "?", none, 7⟩])).handed call =
        (ofTokens (bracketedOne [])).handed call := by
    decide
  exact ⟨agree, trace_of_drawn _ _ _ agree⟩

end Replay

end PascalFrontEnd
