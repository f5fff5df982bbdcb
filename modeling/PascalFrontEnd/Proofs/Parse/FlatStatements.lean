import PascalFrontEnd.Proofs.Parse.DemandRules

/-!
What follows a semicolon is parsed as a list of its own, inside a loop over the
semicolons. The loop outside never goes round again.
-/

namespace PascalFrontEnd.Rule

variable {σ α : Type} [TokenStream σ] {session middle after : Session σ} {one : Rule σ Tree}
  {first : Tree} {values : List Tree} {rounds steps limit : Nat}

def flatStatements (one : Rule σ Tree) (rounds : Nat) : Rule σ (List Tree) := do
  let first ← one
  let others ← repeatWhile (· == .semicolon) (do skip .semicolon; one) rounds
  if ← sees .identifier then
    fail (.missingSeparator (← current))
  else
    return first :: others

/-- The rule of lists of statements, with its loop broken off after a number of
rounds. -/
def statementsWithin (limit : Nat) (one : Rule σ Tree) (steps : Nat) : Rule σ (List Tree) := do
  let first ← one
  let others ← repeatWhile (· == .semicolon) (do skip .semicolon; statements one steps) limit
  if ← sees .identifier then
    fail (.missingSeparator (← current))
  else
    return first :: others.flatten

omit [TokenStream σ] in
theorem repeatWhile_noSemicolon (rule : Rule σ α) (ends : session.current.kind ≠ .semicolon)
    (rounds : Nat) : repeatWhile (· == .semicolon) rule rounds session = .ok [] session := by
  apply repeatWhile_refuses
  exact beq_false_of_ne ends

theorem repeatWhile_semicolon (rule : Rule σ α) (here : session.current.kind = .semicolon)
    (rounds : Nat) :
    repeatWhile (· == .semicolon) (do skip .semicolon; rule) (rounds + 1) session =
      (do
        let first ← rule
        let others ← repeatWhile (· == .semicolon) (do skip .semicolon; rule) rounds
        return first :: others : Rule σ (List α)) session.pass := by
  have skipped : skip .semicolon session = .ok () session.pass := by
    rw [skip_of_kind here (by decide), Session.pass_of_ne_openParen (by rw [here]; decide)]
  rw [repeatWhile, currentKind_bind, here]
  simp only [beq_self_eq_true, if_true, bind_assoc]
  exact bind_of_ok skipped _

theorem repeatWhile_semicolon_ends [LawfulTokenStream σ] {rule : Rule σ α}
    {reads : List Token → α → Prop} (yields : rule.Yields reads) {results : List α}
    (enough : session.supply ≤ rounds)
    (ran : repeatWhile (· == .semicolon) (do skip .semicolon; rule) rounds session =
      .ok results after) : after.current.kind ≠ .semicolon := by
  induction rounds generalizing session results with
  | zero =>
      obtain ⟨-, rfl⟩ := pure_ok.mp ran
      intro here
      have positive : session.pass.supply < session.supply :=
        Session.supply_pass (by rw [here]; decide)
      omega
  | succ rounds ih =>
      by_cases here : session.current.kind = .semicolon
      · rw [repeatWhile_semicolon rule here] at ran
        simp only [bind_ok, pure_ok] at ran
        obtain ⟨first, middle, ranFirst, others, last, ranOthers, -, rfl⟩ := ran
        obtain ⟨tokens, passed, -⟩ := yields _ _ _ ranFirst
        have lower : session.pass.supply < session.supply :=
          Session.supply_pass (by rw [here]; decide)
        have notMore := passed.supply_le
        exact ih (by omega) ranOthers
      · rw [repeatWhile_noSemicolon _ here] at ran
        cases ran
        exact here

omit [TokenStream σ] in
theorem bind_of_eq {β : Type} {rule rule' : Rule σ α} (same : rule session = rule' middle)
    (next : α → Rule σ β) : (rule >>= next) session = (rule' >>= next) middle := by
  show EStateM.bind rule next session = EStateM.bind rule' next middle
  simp only [EStateM.bind, same]

omit [TokenStream σ] in
theorem listEnd_cons (first : Tree) (values : List Tree) :
    (listEnd (first :: values) : Rule σ (List Tree)) =
      (do return first :: (← listEnd values)) := by
  funext session
  by_cases found : session.current.kind = .identifier
  · rw [listEnd_refuses _ found, bind_of_error (listEnd_refuses _ found)]
  · rw [listEnd_accepts _ found, bind_of_ok (listEnd_accepts _ found)]
    rfl

section

variable (ran : one session = .ok first middle)
include ran

theorem flatStatements_last (ends : middle.current.kind ≠ .semicolon) :
    flatStatements one rounds session = listEnd [first] middle := by
  rw [flatStatements, bind_of_ok ran, bind_of_ok (repeatWhile_noSemicolon _ ends rounds)]

theorem statementsWithin_last (ends : middle.current.kind ≠ .semicolon) :
    statementsWithin limit one steps session = listEnd [first] middle := by
  rw [statementsWithin, bind_of_ok ran, bind_of_ok (repeatWhile_noSemicolon _ ends limit)]
  rfl

/-- Behind a semicolon the loop goes on as for the list that stands there. -/
theorem flatStatements_again (more : middle.current.kind = .semicolon) :
    flatStatements one (rounds + 1) session =
      (do return first :: (← flatStatements one rounds) : Rule σ (List Tree)) middle.pass := by
  have loop := repeatWhile_semicolon one more rounds
  rw [flatStatements, bind_of_ok ran, bind_of_eq loop, flatStatements]
  simp only [bind_assoc, pure_bind]
  refine congrArg (fun next : Tree → Rule σ (List Tree) => (one >>= next) middle.pass)
    (funext fun second => bind_congr fun others => ?_)
  rw [← bind_assoc]
  exact listEnd_cons first (second :: others)

theorem statementsWithin_again (more : middle.current.kind = .semicolon) :
    statementsWithin (limit + 1) one steps session =
      (do
        let list ← statements one steps
        let others ← repeatWhile (· == .semicolon) (do skip .semicolon; statements one steps) limit
        listEnd (first :: (list ++ others.flatten)) : Rule σ (List Tree)) middle.pass := by
  have loop := repeatWhile_semicolon (statements one steps) more limit
  rw [statementsWithin, bind_of_ok ran, bind_of_eq loop]
  simp only [bind_assoc, pure_bind]
  rfl

end

variable [LawfulTokenStream σ] {reads : List Token → Tree → Prop}

/-- A list of statements ends before what is neither a semicolon nor, as it has
been accepted, an identifier. -/
theorem flatStatements_ends (yields : one.Yields reads) (enough : session.supply ≤ rounds)
    (ran : flatStatements one rounds session = .ok values after) :
    after.current.kind ≠ .semicolon ∧ after.current.kind ≠ .identifier := by
  rw [flatStatements, bind_ok] at ran
  obtain ⟨first, middle, ranFirst, ran⟩ := ran
  rw [bind_ok] at ran
  obtain ⟨others, last, ranOthers, ran⟩ := ran
  have accepted : listEnd (first :: others) last = .ok values after := ran
  obtain ⟨tokens, passed, -⟩ := yields _ _ _ ranFirst
  have ends := repeatWhile_semicolon_ends yields (Nat.le_trans passed.supply_le enough) ranOthers
  by_cases found : last.current.kind = .identifier
  · rw [listEnd_refuses _ found] at accepted
    cases accepted
  · rw [listEnd_accepts _ found] at accepted
    cases accepted
    exact ⟨ends, found⟩

/-- Broken off behind its first round or later, the loop over semicolons comes
to what the plain loop over statements comes to. -/
theorem statementsWithin_eq_flat (yields : one.Yields reads) (enough : session.supply ≤ steps)
    (enough' : session.supply ≤ rounds) (once : 0 < session.supply → 0 < limit) :
    statementsWithin limit one steps session = flatStatements one rounds session := by
  induction measure : session.supply using Nat.strongRecOn
    generalizing session limit steps rounds with
  | ind supply ih =>
      cases ran : one session with
      | error error middle =>
          rw [statementsWithin, flatStatements, bind_of_error ran, bind_of_error ran]
      | ok first middle =>
          -- A semicolon is a token that is passed, so that there are steps left for the list.
          by_cases more : middle.current.kind = .semicolon
          · obtain ⟨tokens, passed, -⟩ := yields _ _ _ ran
            have notMore := passed.supply_le
            have lower : middle.pass.supply < middle.supply :=
              Session.supply_pass (by rw [more]; decide)
            obtain ⟨limit, rfl⟩ := Nat.exists_eq_add_one.mpr (once (by omega))
            obtain ⟨steps, rfl⟩ := Nat.exists_eq_add_one.mpr (show 0 < steps by omega)
            obtain ⟨rounds, rfl⟩ := Nat.exists_eq_add_one.mpr (show 0 < rounds by omega)
            have list : statements one (steps + 1) middle.pass =
                flatStatements one rounds middle.pass :=
              ih middle.pass.supply (by omega) (by omega) (by omega) (by omega) rfl
            rw [statementsWithin_again ran more, flatStatements_again ran more]
            cases ranList : flatStatements one rounds middle.pass with
            | error error last =>
                rw [bind_of_error (list.trans ranList), bind_of_error ranList]
            | ok values last =>
                -- The list has gone on to its end, so that there is no second round.
                obtain ⟨ends, accepted⟩ := flatStatements_ends yields (by omega) ranList
                rw [bind_of_ok (list.trans ranList), bind_of_ok ranList,
                  bind_of_ok (repeatWhile_noSemicolon _ ends limit), listEnd_accepts _ accepted,
                  List.flatten_nil, List.append_nil]
                rfl
          · rw [statementsWithin_last ran more, flatStatements_last ran more]

theorem statements_eq_flat (yields : one.Yields reads) (enough : session.supply < steps)
    (enough' : session.supply ≤ rounds) :
    statements one steps session = flatStatements one rounds session := by
  cases steps with
  | zero => omega
  | succ steps =>
      exact statementsWithin_eq_flat yields (Nat.le_of_lt_succ enough) enough' (by omega)

end PascalFrontEnd.Rule
