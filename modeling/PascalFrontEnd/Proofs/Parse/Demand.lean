import PascalFrontEnd.Proofs.Parse.LockstepRules

/-!
No rule looks for the end of a list or for an unknown token before it has to pass one.
Where a rule stops at some token, it stops at such a token as well, and with the same
expectation; so an expectation is a fact about the tokens passed.
-/

namespace PascalFrontEnd

def Kind.isQuiet : Kind → Bool
  | endWord | unknown => true
  | _ => false

/-- The error of a token that is not of the expected kind. Where a list of
statements could end, an identifier is an error of its own. -/
def ParseError.demanded (expected : Kind) (found : Token) : ParseError :=
  if expected = .endWord ∧ found.kind = .identifier then .missingSeparator found
  else .ofMismatch expected found

theorem ParseError.demanded_eq {expected : Kind} {found : Token}
    (unlisted : expected = .endWord → found.kind ≠ .identifier) :
    demanded expected found = .ofMismatch expected found :=
  if_neg fun missing => unlisted missing.1 missing.2

theorem ParseError.demanded_of_isQuiet (expected : Kind) {found : Token}
    (quiet : found.kind.isQuiet = true) : demanded expected found = .ofMismatch expected found := by
  refine demanded_eq fun _ listed => ?_
  rw [listed] at quiet
  cases quiet

theorem Kind.eq_of_isQuiet {kind : Kind} (quiet : kind.isQuiet = true) :
    kind = .endWord ∨ kind = .unknown := by
  cases kind with
  | endWord => exact .inl rfl
  | unknown => exact .inr rfl
  | _ => cases quiet

theorem Kind.ne_of_isQuiet {kind other : Kind} (quiet : kind.isQuiet = true)
    (asked : other.isQuiet = false) : kind ≠ other := by
  rintro rfl
  rw [quiet] at asked
  cases asked

namespace Session

variable {σ : Type} [TokenStream σ]

def Beside (session : Session σ) (kind : Kind) : Prop :=
  kind = session.current.kind ∨ kind.isQuiet = true

theorem Passes.current_eq {session after : Session σ} (passed : session.Passes [] after) :
    session.current = after.current :=
  passed.shown.1

end Session

namespace Rule

variable {σ α β : Type} [TokenStream σ]

def Fails (rule : Rule σ α) (stop : Kind → Prop) (tokens : List Token)
    (error : Token → ParseError) : Prop :=
  ∀ session next, session.Shows (tokens ++ [next]) → stop next.kind →
    ∃ after, rule session = .error (error next) after ∧ session.Passes tokens after

/-- The rule demands the kind behind the tokens: any other kind makes it fail. -/
def Demands (rule : Rule σ α) (stop : Kind → Prop) (tokens : List Token) (expected : Kind) :
    Prop :=
  rule.Fails (fun kind => stop kind ∧ kind ≠ expected) tokens (.demanded expected)

/-- A list of statements could end behind the tokens, but not before an
identifier. -/
structure CouldEnd (rule : Rule σ α) (tokens : List Token) : Prop where
  ends : ∃ value, rule.Finishes (fun kind => kind.isQuiet = true) tokens value
  breaks : rule.Fails (· = .identifier) tokens .missingSeparator

theorem Fails.bind {rule : Rule σ α} {stop : Kind → Prop} {tokens : List Token}
    {error : Token → ParseError} (fails : rule.Fails stop tokens error) (follow : α → Rule σ β) :
    (rule >>= follow).Fails stop tokens error := by
  intro session next shown stops
  obtain ⟨after, ran, passed⟩ := fails session next shown stops
  exact ⟨after, bind_of_error ran follow, passed⟩

theorem Fails.note {follow : Unit → Rule σ β} {stop : Kind → Prop} {tokens : List Token}
    {error : Token → ParseError} (fails : (follow ()).Fails stop tokens error) (event : Event) :
    (Rule.note event >>= follow).Fails stop tokens error := by
  intro session next shown stops
  obtain ⟨after, ran, passed⟩ := fails _ next (shown.note event) stops
  exact ⟨after, ran, .note event passed⟩

theorem Finishes.goesOn {rule : Rule σ α} {stop final : Kind → Prop} {tokens rest : List Token}
    {value : α} (first : rule.Finishes stop tokens value) (follow : α → Rule σ β)
    (fits : Fits stop rest final) {session : Session σ} {next : Token}
    (shown : session.Shows (tokens ++ rest ++ [next])) (stops : final next.kind) :
    ∃ middle, (rule >>= follow) session = follow value middle ∧ session.Passes tokens middle ∧
      middle.Shows (rest ++ [next]) := by
  have ahead : ∃ head more, rest ++ [next] = head :: more ∧ stop head.kind := by
    cases rest with
    | nil => exact ⟨next, [], rfl, fits _ stops⟩
    | cons head more => exact ⟨head, more ++ [next], rfl, fits⟩
  rcases ahead with ⟨head, more, shape, stopsHead⟩
  rw [List.append_assoc] at shown
  have shownHead : session.Shows (tokens ++ [head] ++ more) := by
    rw [List.append_assoc, List.singleton_append, ← shape]
    exact shown
  obtain ⟨middle, ran, passed⟩ := first session head shownHead.of_append stopsHead
  exact ⟨middle, bind_of_ok ran follow, passed, passed.shows shown⟩

theorem Finishes.fails {rule : Rule σ α} {stop final : Kind → Prop} {tokens rest : List Token}
    {value : α} {error : Token → ParseError} (first : rule.Finishes stop tokens value)
    (follow : α → Rule σ β) (fits : Fits stop rest final)
    (second : (follow value).Fails final rest error) :
    (rule >>= follow).Fails final (tokens ++ rest) error := by
  intro session next shown stops
  obtain ⟨middle, run, passed, shownRest⟩ := first.goesOn follow fits shown stops
  obtain ⟨after, ran, passedRest⟩ := second middle next shownRest stops
  exact ⟨after, run.trans ran, passed.trans passedRest⟩

/-- From the session on, for fewer tokens than the limit, what the rule does
depends on no more of the token it stops at than whether this goes on. A rule
for a list of statements (`lists`) may also fail because a separator is missing. -/
structure Decided (lists : Prop) (limit : Nat) (rule : Rule σ α) (session : Session σ) : Prop where
  walks : rule.Walks session
  ok {tokens : List Token} {value : α} {after : Session σ} :
    rule session = .ok value after → session.Passes tokens after → tokens.length < limit →
    rule.Finishes after.Beside tokens value
  error {tokens : List Token} {error : ParseError} {after : Session σ} :
    rule session = .error error after → session.Passes tokens after → tokens.length < limit →
    (∃ expected, error = .demanded expected after.current ∧
      rule.Demands after.Beside tokens expected) ∨
    (lists ∧ after.current.kind = .identifier ∧ error = .missingSeparator after.current ∧
      rule.CouldEnd tokens)

def Starts (limit : Nat) (rule : Rule σ α) (session : Session σ) : Prop :=
  ∀ tokens, session.Passes tokens (left (rule session)) → tokens.length < limit → tokens ≠ []

variable {lists lists' : Prop} {limit : Nat} {session : Session σ}

theorem Decided.weaken {rule : Rule σ α} {lower : Nat} (decided : Decided lists limit rule session)
    (below : lower ≤ limit) : Decided lists lower rule session where
  walks := decided.walks
  ok ran passed short := decided.ok ran passed (Nat.lt_of_lt_of_le short below)
  error ran passed short := decided.error ran passed (Nat.lt_of_lt_of_le short below)

theorem Decided.vacuous {rule : Rule σ α} (walks : rule.Walks session) (none : limit = 0) :
    Decided lists limit rule session where
  walks := walks
  ok _ _ short := by omega
  error _ _ short := by omega

theorem Decided.pure (value : α) :
    Decided lists limit (Pure.pure value : Rule σ α) session where
  walks := ⟨[], .done _⟩
  ok ran passed _ := by
    obtain ⟨rfl, rfl⟩ := pure_ok.mp ran
    rw [passed.unique (.done _)]
    exact .pure value _
  error ran := absurd ran pure_error

theorem mismatch_demands {expected : Kind} {stop : Kind → Prop}
    (unlisted : ∀ kind, stop kind → expected = .endWord → kind ≠ .identifier) :
    (mismatch expected : Rule σ α).Demands stop [] expected := by
  intro session next shown stops
  rw [ParseError.demanded_eq (unlisted _ stops.1), mismatch_run, shown.head]
  exact ⟨_, rfl, .note _ (.done _)⟩

theorem Decided.mismatch {expected : Kind} (proper : expected ≠ .endWord) :
    Decided lists limit (Rule.mismatch expected : Rule σ α) session where
  walks := ⟨[], .note _ (.done _)⟩
  ok ran := by
    rw [mismatch_run] at ran
    cases ran
  error ran passed _ := by
    rw [mismatch_run, EStateM.Result.error.injEq] at ran
    rcases ran with ⟨rfl, rfl⟩
    rw [passed.unique (.note _ (.done _))]
    refine .inl ⟨expected, (ParseError.demanded_eq fun isEnd => ?_).symm,
      mismatch_demands fun _ _ isEnd => ?_⟩
    · exact absurd isEnd proper
    · exact absurd isEnd proper

/-- A token is taken or asked for, but the end of a list of statements not of an
identifier. -/
theorem Decided.takeUnlisted {kind : Kind} (plain : Plain kind) (known : kind ≠ .unknown)
    (unlisted : kind = .endWord → session.current.kind ≠ .identifier) :
    Decided lists limit (Rule.take kind : Rule σ Token) session where
  walks := take_walks plain session
  ok ran passed _ := by
    obtain ⟨passed', here⟩ := take_passes plain ran
    rw [passed.unique passed']
    exact (take_finishes plain known here).weaken fun _ _ => trivial
  error {tokens error after} ran passed _ := by
    obtain ⟨rfl, nothing, same⟩ := take_rejects ran
    rw [passed.unique nothing, ← same]
    rw [← same] at unlisted
    refine .inl ⟨kind, (ParseError.demanded_eq unlisted).symm, ?_⟩
    intro session next shown stops
    have demands : (Rule.mismatch kind : Rule σ Token).Demands after.Beside [] kind := by
      refine mismatch_demands fun kind' stops isEnd => ?_
      rcases stops with rfl | quiet
      · exact unlisted isEnd
      · exact Kind.ne_of_isQuiet quiet rfl
    obtain ⟨last, ran, passed⟩ := demands session next shown stops
    refine ⟨last, ?_, passed⟩
    rw [take_of_other (shown.head ▸ stops.2), ran]

theorem Decided.take {kind : Kind} (plain : Plain kind) (asked : kind.isQuiet = false) :
    Decided lists limit (Rule.take kind : Rule σ Token) session := by
  refine .takeUnlisted plain ?_ ?_
  · rintro rfl
    cases asked
  · rintro rfl
    cases asked

theorem fits_beside {middle after : Session σ} {tokens : List Token} {final : Kind → Prop}
    (passed : middle.Passes tokens after) (stronger : ∀ kind, final kind → after.Beside kind) :
    Fits middle.Beside tokens final := by
  cases tokens with
  | nil =>
      intro kind stops
      unfold Session.Beside
      rw [passed.current_eq]
      exact stronger kind stops
  | cons head tokens =>
      cases head_of_passes passed (List.cons_ne_nil _ _)
      exact .inl rfl

/-- Behind a first rule, in the part of the limit that it leaves. What becomes of
the end of a list in the first rule is up to the second one. -/
theorem Decided.bindPast (past : Nat) {first : Rule σ α} {follow : α → Rule σ β}
    (decided : Decided lists limit first session)
    (least : ∀ value middle front, first session = .ok value middle →
      session.Passes front middle → front.length < limit → past ≤ front.length)
    (resolves : lists → ∀ tokens, first.CouldEnd tokens →
      (lists' ∧ (first >>= follow).CouldEnd tokens) ∨
        (first >>= follow).Demands (fun kind => kind = .identifier ∨ kind.isQuiet = true) tokens
          .endWord)
    (rest : ∀ value middle, first session = .ok value middle →
      Decided lists' (limit - past) (follow value) middle) :
    Decided lists' limit (first >>= follow) session := by
  have split : ∀ {value middle after tokens}, first session = .ok value middle →
      left (follow value middle) = after → session.Passes tokens after → tokens.length < limit →
      ∃ front back, tokens = front ++ back ∧ first.Finishes middle.Beside front value ∧
        middle.Passes back after ∧ back.length < limit - past := by
    intro value middle after tokens ran behind passed short
    obtain ⟨front, passedFront⟩ := decided.walks
    obtain ⟨back, passedBack⟩ := (rest value middle ran).walks
    rw [ran] at passedFront
    rw [behind] at passedBack
    have shape := passed.unique (passedFront.trans passedBack)
    rw [shape, List.length_append] at short
    have enough := least value middle front ran passedFront (by omega)
    exact ⟨front, back, shape, decided.ok ran passedFront (by omega), passedBack, by omega⟩
  refine ⟨decided.walks.bind fun value middle ran => (rest value middle ran).walks, ?_, ?_⟩
  · intro tokens result after ran passed short
    obtain ⟨value, middle, ranFirst, ranRest⟩ := bind_ok.mp ran
    obtain ⟨front, back, rfl, finishes, passedBack, shortBack⟩ :=
      split ranFirst (by rw [ranRest]; rfl) passed short
    exact finishes.bind (fits_beside passedBack fun _ stops => stops)
      ((rest value middle ranFirst).ok ranRest passedBack shortBack)
  · intro tokens error after ran passed short
    rcases bind_error.mp ran with ranFirst | ⟨value, middle, ranFirst, ranRest⟩
    · rcases decided.error ranFirst passed short with
        ⟨expected, rfl, demands⟩ | ⟨inList, found, rfl, couldEnd⟩
      · exact .inl ⟨expected, rfl, demands.bind follow⟩
      · rcases resolves inList tokens couldEnd with ⟨inList', couldEnd'⟩ | demands
        · exact .inr ⟨inList', found, rfl, couldEnd'⟩
        · refine .inl ⟨.endWord, (if_pos ⟨rfl, found⟩).symm, fun other next shown stops => ?_⟩
          exact demands other next shown (by rw [← found]; exact stops)
    · obtain ⟨front, back, rfl, finishes, passedBack, shortBack⟩ :=
        split ranFirst (by rw [ranRest]; rfl) passed short
      rcases (rest value middle ranFirst).error ranRest passedBack shortBack with
        ⟨expected, rfl, demands⟩ | ⟨inList, found, rfl, couldEnd⟩
      · refine .inl ⟨expected, rfl, finishes.fails follow ?_ demands⟩
        exact fits_beside passedBack fun _ stops => stops.1
      · obtain ⟨result, ends⟩ := couldEnd.ends
        refine .inr ⟨inList, found, rfl, ⟨result, finishes.bind ?_ ends⟩,
          finishes.fails follow ?_ couldEnd.breaks⟩
        · exact fits_beside passedBack fun _ quiet => .inr quiet
        · exact fits_beside passedBack fun _ same => .inl (same.trans found.symm)

theorem Decided.bind {first : Rule σ α} {follow : α → Rule σ β}
    (decided : Decided False limit first session)
    (rest : ∀ value middle, Decided lists limit (follow value) middle) :
    Decided lists limit (first >>= follow) session :=
  decided.bindPast 0 (fun _ _ _ _ _ _ => Nat.zero_le _) (fun inList => inList.elim)
    fun value middle _ => rest value middle

theorem Decided.past {kind : Kind} {follow : Unit → Rule σ β} (plain : Plain kind)
    (asked : kind.isQuiet = false)
    (rest : ∀ middle, Decided lists (limit - 1) (follow ()) middle) :
    Decided lists limit (skip kind >>= follow) session := by
  have skipped : Decided False limit (skip kind : Rule σ Unit) session := by
    rw [skip_eq_bind]
    exact (Decided.take plain asked).bind fun _ _ => .pure ()
  refine skipped.bindPast 1 ?_ (fun inList => inList.elim) fun _ middle _ => rest middle
  intro value middle front ran passed _
  obtain ⟨token, taken, _⟩ := skip_passes plain ran
  rw [passed.unique taken]
  exact Nat.le_refl 1

theorem CouldEnd.bind {first : Rule σ α} {follow : α → Rule σ β} {tokens : List Token}
    (couldEnd : first.CouldEnd tokens)
    (settles : ∀ value, ∃ result,
      (follow value).Finishes (fun kind => kind.isQuiet = true) [] result) :
    (first >>= follow).CouldEnd tokens := by
  obtain ⟨value, ends⟩ := couldEnd.ends
  obtain ⟨result, settled⟩ := settles value
  exact ⟨⟨result, ends.andThen settled⟩, couldEnd.breaks.bind follow⟩

theorem Decided.map {rule : Rule σ α} (decided : Decided lists limit rule session) (f : α → β) :
    Decided lists limit (rule >>= fun value => Pure.pure (f value)) session :=
  decided.bindPast 0 (fun _ _ _ _ _ _ => Nat.zero_le _)
    (fun inList _ couldEnd => .inl ⟨inList, couldEnd.bind fun _ => ⟨_, .pure _ _⟩⟩)
    fun _ _ _ => .pure _

/-- Where the list is over, the end of a list is demanded. -/
theorem CouldEnd.demands {first : Rule σ α} {tokens : List Token}
    (couldEnd : first.CouldEnd tokens) (follow : α → Rule σ β) :
    (first >>= fun value => skip .endWord >>= fun _ => follow value).Demands
      (fun kind => kind = .identifier ∨ kind.isQuiet = true) tokens .endWord := by
  rintro session next shown ⟨found | quiet, other⟩
  · obtain ⟨after, ran, passed⟩ := couldEnd.breaks session next shown found
    rw [ParseError.demanded, if_pos ⟨rfl, found⟩]
    exact ⟨after, bind_of_error ran _, passed⟩
  · obtain ⟨value, ends⟩ := couldEnd.ends
    have refuses : (mismatch .endWord : Rule σ Token).Demands (fun kind => kind.isQuiet = true) []
        .endWord := mismatch_demands fun _ quiet _ => Kind.ne_of_isQuiet quiet rfl
    have asks : (skip .endWord >>= fun _ => follow value).Demands
        (fun kind => kind.isQuiet = true) [] .endWord := by
      rw [skip_eq_bind]
      refine Fails.bind (Fails.bind ?_ _) _
      intro session next shown stops
      rw [take_of_other (shown.head ▸ stops.2)]
      exact refuses session next shown stops
    have fits : Fits (fun kind => kind.isQuiet = true) []
        (fun kind => kind.isQuiet = true ∧ kind ≠ .endWord) := fun _ stops => stops.1
    have whole := ends.fails (fun value => skip .endWord >>= fun _ => follow value) fits asks
    rw [List.append_nil] at whole
    exact whole session next shown ⟨quiet, other⟩

theorem Decided.closed {first : Rule σ α} (decided : Decided True limit first session)
    (closing : 0 < limit → ∀ value middle, first session = .ok value middle →
      middle.current.kind ≠ .identifier) :
    Decided False limit (first >>= fun value => skip .endWord >>= fun _ => Pure.pure value)
      session := by
  rcases Nat.eq_zero_or_pos limit with none | some
  · refine .vacuous (decided.walks.bind fun value middle _ => ?_) none
    exact (skip_walks ⟨by decide, by decide⟩ middle).bind fun _ _ _ => ⟨[], .done _⟩
  · refine decided.bindPast 0 (fun _ _ _ _ _ _ => Nat.zero_le _)
      (fun _ _ couldEnd => .inr (couldEnd.demands _)) fun value middle ran => ?_
    rw [skip_eq_bind]
    have taken : Decided False (limit - 0) (Rule.take .endWord : Rule σ Token) middle :=
      .takeUnlisted ⟨by decide, by decide⟩ (by decide) fun _ => closing some value middle ran
    exact (taken.bind fun _ _ => .pure ()).bind fun _ _ => .pure value

/-- A rule that comes to do what another rule does behind the tokens `front`, on
every session that shows the same tokens and then a kind at which to stop. -/
theorem Decided.through {rule follow : Rule σ α} {middle : Session σ} (front : List Token)
    (rest : Decided lists (limit - front.length) follow middle)
    (run : rule session = follow middle)
    (entry : ∀ {back after}, middle.Passes back after → session.Passes (front ++ back) after)
    (enters : ∀ {back after other next}, left (follow middle) = after → middle.Passes back after →
      (front ++ back).length < limit → other.Shows (front ++ back ++ [next]) →
      after.Beside next.kind →
      ∃ inner, rule other = follow inner ∧ inner.Shows (back ++ [next]) ∧
        ∀ {last}, inner.Passes back last → other.Passes (front ++ back) last) :
    Decided lists limit rule session := by
  have split : ∀ {after tokens}, left (follow middle) = after → session.Passes tokens after →
      tokens.length < limit → ∃ back, tokens = front ++ back ∧ middle.Passes back after ∧
        back.length < limit - front.length := by
    intro after tokens ran passed short
    obtain ⟨back, passedBack⟩ := rest.walks
    rw [ran] at passedBack
    have shape := passed.unique (entry passedBack)
    rw [shape, List.length_append] at short
    exact ⟨back, shape, passedBack, by omega⟩
  refine ⟨?_, ?_, ?_⟩
  · obtain ⟨back, passedBack⟩ := rest.walks
    unfold Walks
    rw [run]
    exact ⟨front ++ back, entry passedBack⟩
  · intro tokens value after ran passed short
    rw [run] at ran
    obtain ⟨back, rfl, passedBack, shortBack⟩ := split (by rw [ran]; rfl) passed short
    intro other next shown stops
    obtain ⟨inner, same, shownBack, leave⟩ :=
      enters (by rw [ran]; rfl) passedBack short shown stops
    obtain ⟨last, ranBack, passedLast⟩ :=
      rest.ok ran passedBack shortBack inner next shownBack stops
    exact ⟨last, same.trans ranBack, leave passedLast⟩
  · intro tokens error after ran passed short
    rw [run] at ran
    obtain ⟨back, rfl, passedBack, shortBack⟩ := split (by rw [ran]; rfl) passed short
    have fails : ∀ {stop error}, follow.Fails stop back error →
        (∀ kind, stop kind → after.Beside kind) → rule.Fails stop (front ++ back) error := by
      intro stop error fails beside other next shown stops
      obtain ⟨inner, same, shownBack, leave⟩ :=
        enters (by rw [ran]; rfl) passedBack short shown (beside _ stops)
      obtain ⟨last, ranBack, passedLast⟩ := fails inner next shownBack stops
      exact ⟨last, same.trans ranBack, leave passedLast⟩
    rcases rest.error ran passedBack shortBack with
      ⟨expected, rfl, demands⟩ | ⟨inList, found, rfl, ⟨value, ends⟩, breaks⟩
    · exact .inl ⟨expected, rfl, fails demands fun _ stops => stops.1⟩
    · refine .inr ⟨inList, found, rfl, ⟨value, fun other next shown stops => ?_⟩,
        fails breaks fun _ same => .inl (same.trans found.symm)⟩
      obtain ⟨inner, same, shownBack, leave⟩ :=
        enters (by rw [ran]; rfl) passedBack short shown (.inr stops)
      obtain ⟨last, ranBack, passedLast⟩ := ends inner next shownBack stops
      exact ⟨last, same.trans ranBack, leave passedLast⟩

theorem Decided.noted (event : Session σ → Event) (rule : Rule σ β)
    (rest : ∀ session, Decided lists limit rule session) :
    Decided lists limit (fun session => rule (session.note (event session))) session := by
  refine .through [] (rest (session.note (event session))) rfl (.note _) ?_
  intro back after other next _ _ _ shown _
  exact ⟨other.note (event other), rfl, shown.note _, .note _⟩

theorem Decided.note {follow : Unit → Rule σ β} {event : Event}
    (rest : ∀ session, Decided lists limit (follow ()) session) :
    Decided lists limit (Rule.note event >>= follow) session :=
  .noted (fun _ => event) (follow ()) rest

theorem Decided.noteCurrent {follow : Unit → Rule σ β} {event : Token → Event}
    (rest : ∀ session, Decided lists limit (follow ()) session) :
    Decided lists limit (Rule.current >>= fun token => Rule.note (event token) >>= follow) session :=
  .noted (fun session => event session.current) (follow ()) rest

/-- A rule that looks at the current token first. It would do the same at a
quiet token, or it passes the current one. -/
theorem Decided.looks (view : Kind → Rule σ α)
    (rest : Decided lists limit (view session.current.kind) session)
    (quiet : (∀ kind, kind.isQuiet = true → view kind = view session.current.kind) ∨
      Starts limit (view session.current.kind) session) :
    Decided lists limit (fun session => view session.current.kind session) session := by
  refine .through [] rest rfl id ?_
  intro back after other next ran passed short shown stops
  have same : view other.current.kind = view session.current.kind := by
    cases back with
    | cons head back =>
        cases head_of_passes passed (List.cons_ne_nil _ _)
        rw [shown.head]
    | nil =>
        rw [shown.head]
        rcases stops with stops | stops
        · rw [stops, ← passed.current_eq]
        · rcases quiet with quiet | starts
          · rw [quiet _ stops]
          · subst ran
            exact absurd rfl (starts [] passed short)
  refine ⟨other, ?_, shown, id⟩
  show view other.current.kind other = _
  rw [same]

theorem Decided.currentKind {follow : Kind → Rule σ β}
    (rest : Decided lists limit (follow session.current.kind) session)
    (quiet : (∀ kind, kind.isQuiet = true → follow kind = follow session.current.kind) ∨
      Starts limit (follow session.current.kind) session) :
    Decided lists limit (Rule.currentKind >>= follow) session :=
  .looks follow rest quiet

theorem Decided.sees {kind : Kind} {follow : Bool → Rule σ β} (asked : kind.isQuiet = false)
    (rest : Decided lists limit (follow (session.current.kind == kind)) session)
    (starts : session.current.kind = kind → Starts limit (follow true) session) :
    Decided lists limit (Rule.sees kind >>= follow) session := by
  refine .looks (fun other => follow (other == kind)) rest ?_
  by_cases here : session.current.kind = kind
  · refine .inr ?_
    rw [beq_iff_eq.mpr here]
    exact starts here
  · refine .inl fun other quiet => ?_
    rw [beq_false_of_ne here, beq_false_of_ne (Kind.ne_of_isQuiet quiet asked)]

theorem Decided.announced {follow : Rule σ β} (here : session.current.kind = .openParen)
    (rest : Decided lists (limit - 1) follow session.pass) :
    Decided lists limit (do announceBracket; skip .openParen; follow : Rule σ β) session := by
  have known : ∀ {token : Token}, token.kind = .openParen →
      token.kind ≠ .unknown ∧ token.kind ≠ .endOfInput := by
    intro token opens
    rw [opens]
    exact ⟨by decide, by decide⟩
  refine .through [session.current] rest (announced_run here) ?_ ?_
  · exact fun passed => .token (known here).1 (known here).2 passed
  · intro back after other next _ _ _ shown _
    have same : other.current = session.current := shown.1
    have opens : other.current.kind = .openParen := by rw [same, here]
    refine ⟨other.pass, announced_run opens, shown.2, fun passed => ?_⟩
    rw [← same]
    exact .token (known opens).1 (known opens).2 passed

theorem Starts.bind {first : Rule σ α} {follow : α → Rule σ β}
    (starts : Starts limit first session) (walks : first.Walks session)
    (rest : ∀ value middle, (follow value).Walks middle) :
    Starts limit (first >>= follow) session := by
  intro tokens passed short
  cases ran : first session with
  | error error after =>
      rw [bind_of_error ran follow] at passed
      refine starts tokens ?_ short
      rw [ran]
      exact passed
  | ok value middle =>
      rw [bind_of_ok ran follow] at passed
      obtain ⟨front, passedFront⟩ := walks
      obtain ⟨back, passedBack⟩ := rest value middle
      have passedFirst := passedFront
      rw [ran] at passedFirst
      have shape := passed.unique (passedFirst.trans passedBack)
      rw [shape, List.length_append] at short
      rw [shape]
      exact List.append_ne_nil_of_left_ne_nil (starts front passedFront (by omega)) back

theorem take_starts {kind : Kind} (plain : Plain kind) (asked : kind.isQuiet = false)
    (here : session.current.kind = kind) : Starts limit (take kind : Rule σ Token) session := by
  intro tokens passed _
  have ran := take_of_kind here (by rintro rfl; cases asked)
  rw [ran] at passed
  rw [passed.unique (take_passes plain ran).1]
  exact List.cons_ne_nil _ _

structure Opens (kind : Kind) (limit : Nat) (rule : Rule σ α) (session : Session σ) : Prop where
  decided : Decided False limit rule session
  starts : session.current.kind = kind → Starts limit rule session

theorem Opens.bind {kind : Kind} {first : Rule σ α} {follow : α → Rule σ β}
    (opens : Opens kind limit first session)
    (rest : ∀ value middle, Decided False limit (follow value) middle) :
    Opens kind limit (first >>= follow) session where
  decided := opens.decided.bind rest
  starts here := (opens.starts here).bind opens.decided.walks fun value middle =>
    (rest value middle).walks

theorem Opens.map {kind : Kind} {rule : Rule σ α} (opens : Opens kind limit rule session)
    (f : α → β) : Opens kind limit (rule >>= fun value => Pure.pure (f value)) session :=
  opens.bind fun _ _ => .pure _

theorem Opens.take {kind : Kind} (plain : Plain kind) (asked : kind.isQuiet = false) :
    Opens kind limit (Rule.take kind : Rule σ Token) session :=
  ⟨.take plain asked, take_starts plain asked⟩

theorem skip_starts {kind : Kind} {follow : Unit → Rule σ β} (plain : Plain kind)
    (asked : kind.isQuiet = false) (here : session.current.kind = kind)
    (rest : ∀ middle, (follow ()).Walks middle) :
    Starts limit (Rule.skip kind >>= follow) session := by
  have starts : Starts limit (Rule.skip kind : Rule σ Unit) session := by
    rw [skip_eq_bind]
    exact (take_starts plain asked here).bind (take_walks plain session) fun _ _ => ⟨[], .done _⟩
  exact starts.bind (skip_walks plain session) fun _ => rest

theorem Opens.skip {kind : Kind} {follow : Unit → Rule σ β} (plain : Plain kind)
    (asked : kind.isQuiet = false)
    (rest : ∀ middle, Decided False (limit - 1) (follow ()) middle) :
    Opens kind limit (Rule.skip kind >>= follow) session where
  decided := .past plain asked rest
  starts here := skip_starts plain asked here fun middle => (rest middle).walks

theorem Opens.noteCurrent {kind : Kind} {follow : Unit → Rule σ β} {event : Token → Event}
    (opens : ∀ session, Opens kind limit (follow ()) session) :
    Opens kind limit (Rule.current >>= fun token => Rule.note (event token) >>= follow) session where
  decided := .noteCurrent fun session => (opens session).decided
  starts here tokens passed short := by
    have opened := opens (session.note (event session.current))
    obtain ⟨others, passed'⟩ := opened.decided.walks
    rw [passed.unique (.note _ passed')] at short ⊢
    exact opened.starts here others passed' short

theorem announced_starts {follow : Rule σ β} (here : session.current.kind = .openParen)
    (walks : follow.Walks session.pass) :
    Starts limit (do announceBracket; skip .openParen; follow : Rule σ β) session := by
  intro tokens passed _
  obtain ⟨back, passedBack⟩ := walks
  rw [announced_run here] at passed
  rw [passed.unique (.token ?_ ?_ passedBack)]
  · exact List.cons_ne_nil _ _
  · rw [here]
    decide
  · rw [here]
    decide

theorem Decided.repeatWhile {admits : Kind → Bool} {rule : Rule σ α}
    (once : ∀ session : Session σ, admits session.current.kind = true →
      Decided lists limit rule session)
    (starts : ∀ session : Session σ, admits session.current.kind = true →
      Starts limit rule session)
    (quiet : ∀ kind, kind.isQuiet = true → admits kind = false)
    {steps : Nat} (enough : limit ≤ steps) (session : Session σ) :
    Decided lists limit (Rule.repeatWhile admits rule steps) session := by
  have walks := repeatWhile_walks fun session admitted => (once session admitted).walks
  induction steps generalizing limit session with
  | zero => exact .vacuous (walks 0 session) (by omega)
  | succ steps ih =>
      have settles : ∀ first : α, ∃ result, (do
          let others ← Rule.repeatWhile admits rule steps
          return first :: others : Rule σ (List α)).Finishes (fun kind => kind.isQuiet = true) []
            result := fun first => ⟨_, (repeatWhile_ends rule quiet steps).andThen (.pure _ _)⟩
      refine .looks (fun kind => if admits kind then (do
        let first ← rule
        let others ← Rule.repeatWhile admits rule steps
        return first :: others) else return []) ?_ ?_
      · by_cases admitted : admits session.current.kind = true
        · rw [if_pos admitted]
          refine (once session admitted).bindPast 1 ?_ ?_ ?_
          · intro value middle front ran passed short
            have proper := starts session admitted front (by rw [ran]; exact passed) short
            exact List.length_pos_iff.mpr proper
          · exact fun inList tokens couldEnd => .inl ⟨inList, couldEnd.bind settles⟩
          · intro first middle _
            refine (ih (fun session admitted => (once session admitted).weaken (Nat.sub_le _ _))
              ?_ (by omega) middle).map (first :: ·)
            intro session admitted tokens passed short
            exact starts session admitted tokens passed (by omega)
        · rw [if_neg admitted]
          exact .pure []
      · by_cases admitted : admits session.current.kind = true
        · rw [if_pos admitted]
          refine .inr ((starts session admitted).bind (once session admitted).walks ?_)
          exact fun first middle => (walks steps middle).bind fun _ _ _ => ⟨[], .done _⟩
        · refine .inl fun kind isQuiet => ?_
          rw [if_neg admitted, quiet kind isQuiet]
          rfl

theorem repeatWhile_refuses {τ : Type} {session : Session τ} {admits : Kind → Bool}
    (rule : Rule τ α) (refused : admits session.current.kind = false) (steps : Nat) :
    Rule.repeatWhile admits rule steps session = .ok [] session := by
  cases steps with
  | zero => rfl
  | succ steps =>
      rw [Rule.repeatWhile, currentKind_bind, refused]
      rfl

theorem repeatWhile_starts {admits : Kind → Bool} {rule : Rule σ α}
    (walks : ∀ session : Session σ, admits session.current.kind = true → rule.Walks session)
    (admitted : admits session.current.kind = true) (starts : Starts limit rule session)
    {steps : Nat} (enough : limit ≤ steps) :
    Starts limit (Rule.repeatWhile admits rule steps) session := by
  cases steps with
  | zero => exact fun tokens _ short => by omega
  | succ steps =>
      have entered : Starts limit (do
          let first ← rule
          let others ← Rule.repeatWhile admits rule steps
          return first :: others) session :=
        starts.bind (walks session admitted) fun _ middle =>
          (repeatWhile_walks walks steps middle).bind fun _ _ _ => ⟨[], .done _⟩
      intro tokens passed short
      rw [Rule.repeatWhile, currentKind_bind, if_pos admitted] at passed
      exact entered tokens passed short

end Rule

end PascalFrontEnd
