import PascalFrontEnd.Proofs.Parse.Lockstep

namespace PascalFrontEnd

namespace Rule

open PascalFrontEnd.Tree

variable {σ τ : Type} [TokenStream σ] [TokenStream τ] {T : Token → Token → Prop} [Likeness T]
  {limit steps steps' : Nat}

/-! ### Expressions -/

theorem literal_lockstep {kind : Kind} (plain : Plain kind) (session : Session σ) :
    Lockstep T limit (Alike T) (literal kind : Rule σ Tree) (literal kind : Rule τ Tree)
      session :=
  Lockstep.taken plain fun _ _ _ like => .pure like

theorem variableRef_lockstep (session : Session σ) :
    Lockstep T limit (Alike T) (variableRef : Rule σ Tree) (variableRef : Rule τ Tree)
      session :=
  Lockstep.taken ⟨by decide, by decide⟩ fun _ _ _ like => .pure like

theorem parenthesised_lockstep {inner : Rule σ Tree} {inner' : Rule τ Tree}
    (inside : ∀ session, Lockstep T (limit - 1) (Alike T) inner inner' session)
    {session : Session σ} (here : session.current.kind = .openParen) :
    Lockstep T limit (Alike T) (parenthesised inner) (parenthesised inner') session := by
  unfold parenthesised
  refine .announced here ?_
  apply (inside session.pass).bind alike_refl
  intro tree tree' middle alike
  exact .past ⟨by decide, by decide⟩ fun _ => .pure alike

theorem unsignedFactor_lockstep {inner : Rule σ Tree} {inner' : Rule τ Tree}
    (inside : ∀ session, Lockstep T (limit - 1) (Alike T) inner inner' session)
    (session : Session σ) :
    Lockstep T limit (Alike T) (unsignedFactor inner) (unsignedFactor inner') session := by
  unfold unsignedFactor
  apply Lockstep.currentKind
  cases here : session.current.kind with
  | integerLiteral => exact literal_lockstep ⟨by decide, by decide⟩ session
  | realLiteral => exact literal_lockstep ⟨by decide, by decide⟩ session
  | openParen => exact parenthesised_lockstep inside here
  | _ => exact variableRef_lockstep session

theorem factor_lockstep {inner : Rule σ Tree} {inner' : Rule τ Tree}
    (inside : ∀ session, Lockstep T (limit - 1) (Alike T) inner inner' session)
    (enough : limit ≤ steps) (enough' : limit ≤ steps') (session : Session σ) :
    Lockstep T limit (Alike T) (factor inner steps) (factor inner' steps') session := by
  unfold factor
  have signs : Lockstep T limit (List.Forall₂ T)
      (repeatWhile (· == .unarySign) (take .unarySign) steps : Rule σ (List Token))
      (repeatWhile (· == .unarySign) (take .unarySign) steps' : Rule τ (List Token)) session := by
    refine repeatWhile_lockstep Likeness.refl ?_ ?_ enough enough' session
    · exact fun _ _ => take_lockstep ⟨by decide, by decide⟩
    · exact fun session _ => take_moves _ session
  refine signs.bind (fun tokens => List.forall₂_same.mpr fun token _ => Likeness.refl token) ?_
  intro tokens tokens' middle like
  apply (unsignedFactor_lockstep inside middle).bind alike_refl
  intro tree tree' last alike
  exact .pure (List.rel_foldr (fun _ _ op _ _ operand => ⟨op, operand⟩) alike like)

def OperationsAlike (T : Token → Token → Prop) (operation operation' : Token × Tree) : Prop :=
  T operation.1 operation'.1 ∧ operation.2.Alike T operation'.2

theorem chain_lockstep {joins : Kind → Bool} {operand : Rule σ Tree} {operand' : Rule τ Tree}
    (plain : ∀ kind, joins kind = true → Plain kind)
    (part : ∀ session, Lockstep T limit (Alike T) operand operand' session)
    (enough : limit ≤ steps) (enough' : limit ≤ steps') (session : Session σ) :
    Lockstep T limit (Alike T) (chain joins operand steps) (chain joins operand' steps')
      session := by
  have once : ∀ session : Session σ, joins session.current.kind = true →
      Lockstep T limit (OperationsAlike T) (operation operand) (operation operand') session := by
    intro session joined
    refine .currentKind (.taken (plain _ joined) ?_)
    intro op op' middle like
    exact (part middle).bind alike_refl fun _ _ _ alike => .pure ⟨like, alike⟩
  have moves : ∀ session : Session σ, joins session.current.kind = true →
      (operation operand).Moves 1 session := by
    intro session _
    have behind : ∀ op middle, (do return (op, ← operand) : Rule σ (Token × Tree)).Walks middle :=
      fun op middle => (part middle).walks.bind fun _ _ _ => ⟨[], .done _⟩
    exact (take_moves _ session).bind behind
  unfold chain
  refine (part session).bind alike_refl fun first first' middle alike => ?_
  have loop := repeatWhile_lockstep (fun _ => ⟨Likeness.refl _, alike_refl _⟩) once moves enough
    enough' middle
  refine loop.bind ?_ fun operations operations' last alikes => .pure ?_
  · exact fun operations => List.forall₂_same.mpr fun _ _ => ⟨Likeness.refl _, alike_refl _⟩
  · exact List.rel_foldl (fun _ _ left _ _ operation => ⟨left, operation.1, operation.2⟩) alike
      alikes

theorem term_lockstep {inner : Rule σ Tree} {inner' : Rule τ Tree}
    (inside : ∀ session, Lockstep T (limit - 1) (Alike T) inner inner' session)
    (enough : limit ≤ steps) (enough' : limit ≤ steps') (session : Session σ) :
    Lockstep T limit (Alike T) (term inner steps) (term inner' steps') session :=
  chain_lockstep (fun _ => Kind.plain_of_isMultiplicative) (factor_lockstep inside enough enough')
    enough enough' session

theorem expression_lockstep (enough : limit ≤ steps - 1) (enough' : limit ≤ steps' - 1)
    (session : Session σ) :
    Lockstep T limit (Alike T) (expression steps : Rule σ Tree) (expression steps' : Rule τ Tree)
      session := by
  induction steps generalizing limit steps' session with
  | zero => exact .vacuous _ ⟨[], .note _ (.done _)⟩ (by omega)
  | succ steps ih =>
      have main : ∀ other, limit ≤ other → Lockstep T limit (Alike T)
          (expression (steps + 1) : Rule σ Tree) (expression (other + 1) : Rule τ Tree) session := by
        intro other enoughOther
        refine chain_lockstep (fun _ => Kind.plain_of_isAdditive) ?_ (by omega) enoughOther session
        refine term_lockstep ?_ (by omega) enoughOther
        exact fun session => ih (by omega) (by omega) session
      cases steps' with
      | zero => exact .vacuous _ (main limit (Nat.le_refl _)).walks (by omega)
      | succ steps' => exact main steps' (by omega)

/-! ### Statements -/

theorem assignment_lockstep (enough : limit ≤ steps - 1) (enough' : limit ≤ steps' - 1)
    (session : Session σ) :
    Lockstep T limit (Alike T) (assignment steps : Rule σ Tree) (assignment steps' : Rule τ Tree)
      session := by
  unfold assignment
  refine .taken ⟨by decide, by decide⟩ fun target target' middle like => ?_
  refine .past ⟨by decide, by decide⟩ fun last => ?_
  apply ((expression_lockstep enough enough' last).weaken (Nat.sub_le _ _)).bind alike_refl
  exact fun value value' _ alike => .pure ⟨like, alike⟩

theorem allAlike_forall₂ : ∀ trees : List Tree, List.Forall₂ (Alike T) trees trees :=
  fun _ => List.forall₂_same.mpr fun tree _ => alike_refl tree

theorem statement_lockstep {compound : Rule σ (List Tree)} {compound' : Rule τ (List Tree)}
    (inside : ∀ session, Lockstep T limit (List.Forall₂ (Alike T)) compound compound' session)
    (enough : limit ≤ steps - 1) (enough' : limit ≤ steps' - 1) (session : Session σ) :
    Lockstep T limit (Alike T) (statement compound steps) (statement compound' steps')
      session := by
  unfold statement
  apply Lockstep.currentKind
  cases session.current.kind with
  | beginWord =>
      apply (inside session).bind allAlike_forall₂
      exact fun body body' _ alike => .pure (allAlike_iff.mpr alike)
  | identifier => exact assignment_lockstep enough enough' session
  | _ => exact .pure trivial

theorem separated_lockstep {values values' : List Tree}
    (alike : List.Forall₂ (Alike T) values values') (session : Session σ) :
    Lockstep T limit (List.Forall₂ (Alike T))
      (do
        if ← sees .identifier then fail (.missingSeparator (← Rule.current))
        else return values : Rule σ (List Tree))
      (do
        if ← sees .identifier then fail (.missingSeparator (← Rule.current))
        else return values' : Rule τ (List Tree)) session := by
  apply Lockstep.sees
  by_cases missing : (session.current.kind == Kind.identifier) = true
  · rw [if_pos missing, if_pos missing]
    exact .fail fun _ _ like => .missingSeparator like
  · rw [if_neg missing, if_neg missing]
    exact .pure alike

theorem separated_walks (values : List Tree) (session : Session σ) :
    (do
      if ← sees .identifier then fail (.missingSeparator (← Rule.current))
      else return values : Rule σ (List Tree)).Walks session := by
  unfold Walks
  rw [sees_bind]
  by_cases missing : (session.current.kind == Kind.identifier) = true
  · rw [if_pos missing]
    exact ⟨[], .note _ (.done _)⟩
  · rw [if_neg missing]
    exact ⟨[], .done _⟩

theorem statements_walks {one : Rule σ Tree} (inside : ∀ session, one.Walks session)
    (steps : Nat) (session : Session σ) : (statements one steps).Walks session := by
  induction steps generalizing session with
  | zero => exact ⟨[], .done _⟩
  | succ steps ih =>
      unfold statements
      refine (inside session).bind fun first middle _ => ?_
      refine (repeatWhile_walks ?_ steps middle).bind fun others last _ => ?_
      · intro session semicolon
        exact (skip_walks ⟨by decide, by decide⟩ session).bind fun _ middle _ => ih middle
      · exact separated_walks (first :: others.flatten) last

theorem statements_lockstep {one : Rule σ Tree} {one' : Rule τ Tree}
    (inside : ∀ session, Lockstep T limit (Alike T) one one' session)
    (enough : limit ≤ steps - 1) (enough' : limit ≤ steps' - 1) (session : Session σ) :
    Lockstep T limit (List.Forall₂ (Alike T)) (statements one steps) (statements one' steps')
      session := by
  have walks := statements_walks (fun session => (inside session).walks)
  induction steps generalizing limit steps' session with
  | zero => exact .vacuous _ (walks 0 session) (by omega)
  | succ steps ih =>
      cases steps' with
      | zero => exact .vacuous _ (walks (steps + 1) session) (by omega)
      | succ steps' =>
          have again : ∀ session, Lockstep T limit (List.Forall₂ (Alike T))
              (do skip .semicolon; statements one steps : Rule σ (List Tree))
              (do skip .semicolon; statements one' steps' : Rule τ (List Tree)) session := by
            intro session
            refine .past ⟨by decide, by decide⟩ fun middle => ?_
            refine ih (fun session => (inside session).weaken (Nat.sub_le _ _)) ?_ ?_ middle
            · omega
            · omega
          have moves : ∀ session : Session σ,
              (do skip .semicolon; statements one steps : Rule σ (List Tree)).Moves 1 session :=
            fun session => (skip_moves _ session).bind fun _ middle => walks steps middle
          unfold statements
          refine (inside session).bind alike_refl fun first first' middle alike => ?_
          refine (repeatWhile_lockstep allAlike_forall₂ (fun session _ => again session)
            (fun session _ => moves session) (by omega) (by omega) middle).bind ?_ ?_
          · exact fun others => List.forall₂_same.mpr fun trees _ => allAlike_forall₂ trees
          · intro others others' last alikes
            exact separated_lockstep (.cons alike (List.rel_flatten alikes)) last

theorem compound_lockstep (enough : limit ≤ steps - 1) (enough' : limit ≤ steps' - 1)
    (session : Session σ) :
    Lockstep T limit (List.Forall₂ (Alike T)) (compound steps : Rule σ (List Tree))
      (compound steps' : Rule τ (List Tree)) session := by
  induction steps generalizing limit steps' session with
  | zero => exact .vacuous _ ⟨[], .note _ (.done _)⟩ (by omega)
  | succ steps ih =>
      have main : ∀ other, limit ≤ other → Lockstep T limit (List.Forall₂ (Alike T))
          (compound (steps + 1) : Rule σ (List Tree))
          (compound (other + 1) : Rule τ (List Tree)) session := by
        intro other enoughOther
        unfold compound
        refine .current fun _ _ => .note fun session => ?_
        refine .past ⟨by decide, by decide⟩ fun middle => ?_
        have single : ∀ session, Lockstep T (limit - 1) (Alike T)
            (statement (compound steps) steps : Rule σ Tree)
            (statement (compound other) other : Rule τ Tree) session := by
          refine statement_lockstep ?_ (by omega) (by omega)
          exact fun session => ih (by omega) (by omega) session
        apply (statements_lockstep single (by omega) (by omega) middle).bind allAlike_forall₂
        intro body body' last alike
        exact .past ⟨by decide, by decide⟩ fun _ => .pure alike
      cases steps' with
      | zero => exact .vacuous _ (main limit (Nat.le_refl _)).walks (by omega)
      | succ steps' => exact main steps' (by omega)

/-! ### Declarations -/

theorem namesAlike_forall₂ : ∀ names : List String, List.Forall₂ (NamesAlike T) names names :=
  fun _ => List.forall₂_same.mpr fun name _ => namesAlike_refl name

theorem identifierName_lockstep (session : Session σ) :
    Lockstep T limit (NamesAlike T) (identifierName : Rule σ String)
      (identifierName : Rule τ String) session :=
  .taken ⟨by decide, by decide⟩ fun _ _ _ like => .pure ⟨_, _, like, rfl, rfl⟩

theorem identifierName_walks (session : Session σ) :
    (identifierName : Rule σ String).Walks session :=
  (take_walks ⟨by decide, by decide⟩ session).bind fun _ _ _ => ⟨[], .done _⟩

theorem variableList_lockstep (enough : limit ≤ steps) (enough' : limit ≤ steps')
    (session : Session σ) :
    Lockstep T limit (List.Forall₂ (Alike T)) (variableList steps : Rule σ (List Tree))
      (variableList steps' : Rule τ (List Tree)) session := by
  unfold variableList
  apply (identifierName_lockstep session).bind namesAlike_refl
  intro first first' middle alike
  have once : ∀ session, Lockstep T limit (NamesAlike T)
      (do skip .comma; identifierName : Rule σ String)
      (do skip .comma; identifierName : Rule τ String) session :=
    fun session => .past ⟨by decide, by decide⟩ identifierName_lockstep
  have moves : ∀ session : Session σ,
      (do skip .comma; identifierName : Rule σ String).Moves 1 session :=
    fun session => (skip_moves _ session).bind fun _ middle => identifierName_walks middle
  refine (repeatWhile_lockstep namesAlike_refl (fun session _ => once session)
    (fun session _ => moves session) enough enough' middle).bind namesAlike_forall₂ ?_
  intro others others' next alikes
  refine .past ⟨by decide, by decide⟩ fun last => .taken ⟨by decide, by decide⟩ ?_
  intro type type' _ like
  have typed : NamesAlike T type.name type'.name := ⟨type, type', like, rfl, rfl⟩
  exact .pure (List.rel_map (fun _ _ named => ⟨named, typed⟩) (.cons alike alikes))

theorem variableGroup_lockstep (enough : limit ≤ steps) (enough' : limit ≤ steps')
    (session : Session σ) :
    Lockstep T limit (List.Forall₂ (Alike T)) (variableGroup steps : Rule σ (List Tree))
      (variableGroup steps' : Rule τ (List Tree)) session := by
  unfold variableGroup
  apply (variableList_lockstep enough enough' session).bind allAlike_forall₂
  exact fun declared declared' middle alike =>
    .past ⟨by decide, by decide⟩ fun _ => .pure alike

theorem variableGroup_moves (session : Session σ) :
    (variableGroup steps : Rule σ (List Tree)).Moves 1 session := by
  intro vars after ran
  obtain ⟨tokens, passed, group⟩ := variableGroup_yields steps _ _ _ ran
  obtain ⟨head, rest, rfl, _⟩ := Group.begins group
  have pulls := passed.pulls
  rw [List.length_cons] at pulls
  omega

theorem variableSection_lockstep (enough : limit ≤ steps) (enough' : limit ≤ steps')
    (session : Session σ) :
    Lockstep T limit (List.Forall₂ (Alike T)) (variableSection steps : Rule σ (List Tree))
      (variableSection steps' : Rule τ (List Tree)) session := by
  unfold variableSection
  apply Lockstep.sees
  by_cases opened : (session.current.kind == Kind.varWord) = true
  · rw [if_pos opened, if_pos opened]
    refine .past ⟨by decide, by decide⟩ fun middle => ?_
    apply (variableGroup_lockstep (by omega) (by omega) middle).bind allAlike_forall₂
    intro first first' next alike
    refine (repeatWhile_lockstep allAlike_forall₂
      (fun session _ => variableGroup_lockstep (by omega) (by omega) session)
      (fun session _ => variableGroup_moves session) (by omega) (by omega) next).bind ?_ ?_
    · exact fun others => List.forall₂_same.mpr fun vars _ => allAlike_forall₂ vars
    · exact fun others others' last alikes =>
        .pure (List.rel_append alike (List.rel_flatten alikes))
  · rw [if_neg opened, if_neg opened]
    exact .pure .nil

def BlocksAlike (T : Token → Token → Prop) (block block' : List Tree × List Tree) : Prop :=
  List.Forall₂ (Alike T) block.1 block'.1 ∧ List.Forall₂ (Alike T) block.2 block'.2

theorem blocksAlike_refl (block : List Tree × List Tree) : BlocksAlike T block block :=
  ⟨allAlike_forall₂ block.1, allAlike_forall₂ block.2⟩

theorem procedure_lockstep {block : Rule σ (List Tree × List Tree)}
    {block' : Rule τ (List Tree × List Tree)}
    (inside : ∀ session, Lockstep T (limit - 1) (BlocksAlike T) block block' session)
    (session : Session σ) :
    Lockstep T limit (Alike T) (procedure block) (procedure block') session := by
  unfold procedure
  refine .past ⟨by decide, by decide⟩ fun middle => ?_
  apply (identifierName_lockstep middle).bind namesAlike_refl
  intro name name' next named
  refine .current fun _ _ => .note fun session => ?_
  refine .past ⟨by decide, by decide⟩ fun middle => ?_
  apply ((inside middle).weaken (Nat.sub_le _ _)).bind blocksAlike_refl
  rintro ⟨declarations, statements⟩ ⟨declarations', statements'⟩ last alike
  refine .past ⟨by decide, by decide⟩ fun _ => .pure ⟨named, ?_, ?_⟩
  · exact allAlike_iff.mpr alike.1
  · exact allAlike_iff.mpr alike.2

theorem procedure_moves {block : Rule σ (List Tree × List Tree)}
    (walks : ∀ session, block.Walks session) (session : Session σ) :
    (procedure block).Moves 1 session := by
  refine (skip_moves _ session).bind fun _ middle => ?_
  refine (identifierName_walks middle).bind fun name next _ => ?_
  refine .current (.note ?_)
  refine (skip_walks ⟨by decide, by decide⟩ _).bind fun _ middle _ => ?_
  refine (walks middle).bind fun _ last _ => ?_
  exact (skip_walks ⟨by decide, by decide⟩ last).bind fun _ _ _ => ⟨[], .done _⟩

theorem declarations_lockstep {block : Rule σ (List Tree × List Tree)}
    {block' : Rule τ (List Tree × List Tree)}
    (inside : ∀ session, Lockstep T (limit - 1) (BlocksAlike T) block block' session)
    (enough : limit ≤ steps) (enough' : limit ≤ steps') (session : Session σ) :
    Lockstep T limit (List.Forall₂ (Alike T)) (declarations block steps)
      (declarations block' steps') session := by
  unfold declarations
  refine .current fun _ _ => .note fun session => ?_
  apply (variableSection_lockstep enough enough' session).bind allAlike_forall₂
  intro vars vars' middle alike
  refine (repeatWhile_lockstep alike_refl (fun session _ => procedure_lockstep inside session)
    (fun session _ => procedure_moves (fun session => (inside session).walks) session)
    enough enough' middle).bind allAlike_forall₂ ?_
  intro procedures procedures' last alikes
  have declared : List.Forall₂ (Alike T) (vars ++ procedures) (vars' ++ procedures') :=
    List.rel_append alike alikes
  generalize vars ++ procedures = all at declared ⊢
  generalize vars' ++ procedures' = all' at declared ⊢
  cases declared with
  | nil => exact .pure (.cons trivial .nil)
  | cons first rest => exact .pure (.cons first rest)

theorem block_lockstep (enough : limit ≤ steps - 1) (enough' : limit ≤ steps' - 1)
    (session : Session σ) :
    Lockstep T limit (BlocksAlike T) (block steps : Rule σ (List Tree × List Tree))
      (block steps' : Rule τ (List Tree × List Tree)) session := by
  induction steps generalizing limit steps' session with
  | zero => exact .vacuous _ ⟨[], .note _ (.done _)⟩ (by omega)
  | succ steps ih =>
      have main : ∀ other, limit ≤ other → Lockstep T limit (BlocksAlike T)
          (block (steps + 1) : Rule σ (List Tree × List Tree))
          (block (other + 1) : Rule τ (List Tree × List Tree)) session := by
        intro other enoughOther
        unfold block
        have inside : ∀ session, Lockstep T (limit - 1) (BlocksAlike T)
            (block steps : Rule σ (List Tree × List Tree))
            (block other : Rule τ (List Tree × List Tree)) session :=
          fun session => ih (by omega) (by omega) session
        refine (declarations_lockstep inside (by omega) enoughOther session).bind
          allAlike_forall₂ ?_
        intro declared declared' middle alike
        apply (compound_lockstep (by omega) (by omega) middle).bind allAlike_forall₂
        exact fun body body' _ alikes => .pure ⟨alike, alikes⟩
      cases steps' with
      | zero => exact .vacuous _ (main limit (Nat.le_refl _)).walks (by omega)
      | succ steps' => exact main steps' (by omega)

/-! ### Programs -/

theorem headedProgram_lockstep (enough : limit ≤ steps - 1) (enough' : limit ≤ steps' - 1)
    (session : Session σ) :
    Lockstep T limit (Alike T) (headedProgram steps : Rule σ Tree)
      (headedProgram steps' : Rule τ Tree) session := by
  unfold headedProgram
  refine .past ⟨by decide, by decide⟩ fun middle => ?_
  apply (identifierName_lockstep middle).bind namesAlike_refl
  intro name name' next named
  refine .note fun session => .past ⟨by decide, by decide⟩ fun middle => ?_
  apply (block_lockstep (by omega) (by omega) middle).bind blocksAlike_refl
  rintro ⟨declarations, statements⟩ ⟨declarations', statements'⟩ last alike
  exact .pure ⟨named, allAlike_iff.mpr alike.1, allAlike_iff.mpr alike.2⟩

theorem headlessProgram_lockstep (enough : limit ≤ steps - 1) (enough' : limit ≤ steps' - 1)
    (session : Session σ) :
    Lockstep T limit (Alike T) (headlessProgram steps : Rule σ Tree)
      (headlessProgram steps' : Rule τ Tree) session := by
  unfold headlessProgram
  apply (compound_lockstep enough enough' session).bind allAlike_forall₂
  exact fun body body' _ alikes => .pure ⟨allAlike_refl [.noOp], allAlike_iff.mpr alikes⟩

theorem program_lockstep (enough : limit ≤ steps - 1) (enough' : limit ≤ steps' - 1)
    (session : Session σ) :
    Lockstep T limit (Alike T) (program steps : Rule σ Tree) (program steps' : Rule τ Tree)
      session := by
  have body : Lockstep T limit (Alike T) (headedOrHeadless steps : Rule σ Tree)
      (headedOrHeadless steps' : Rule τ Tree) session := by
    apply Lockstep.sees
    by_cases headed : (session.current.kind == Kind.programWord) = true
    · rw [if_pos headed, if_pos headed]
      exact headedProgram_lockstep enough enough' session
    · rw [if_neg headed, if_neg headed]
      exact headlessProgram_lockstep enough enough' session
  exact body.bind alike_refl fun tree tree' middle alike =>
    .past ⟨by decide, by decide⟩ fun _ => .pure alike

theorem phrase_lockstep (enough : limit ≤ steps - 1) (enough' : limit ≤ steps' - 1)
    (session : Session σ) :
    Lockstep T limit (Alike T) (phrase steps : Rule σ Tree) (phrase steps' : Rule τ Tree)
      session := by
  unfold phrase
  apply Lockstep.currentKind
  cases session.current.kind with
  | integerLiteral | realLiteral | openParen | unarySign =>
      exact expression_lockstep enough enough' session
  | programWord => exact program_lockstep enough enough' session
  | beginWord =>
      apply (compound_lockstep enough enough' session).bind allAlike_forall₂
      exact fun body body' _ alikes => .pure (allAlike_iff.mpr alikes)
  | _ => exact .mismatch _

theorem inMode_lockstep (mode : Mode) (enough : limit ≤ steps - 1)
    (enough' : limit ≤ steps' - 1) (session : Session σ) :
    Lockstep T limit (Alike T) (inMode mode steps : Rule σ Tree)
      (inMode mode steps' : Rule τ Tree) session := by
  cases mode with
  | loose =>
      refine .current fun _ _ => .note fun session => ?_
      apply (phrase_lockstep enough enough' session).bind alike_refl
      exact fun tree tree' middle alike => .note fun _ => .pure alike
  | wholeProgram =>
      refine .note fun session => ?_
      apply (program_lockstep enough enough' session).bind alike_refl
      intro tree tree' middle alike
      apply Lockstep.sees
      by_cases ended : (middle.current.kind == Kind.endOfInput) = true
      · rw [if_pos ended, if_pos ended]
        exact .note fun _ => .pure alike
      · rw [if_neg ended, if_neg ended]
        exact .fail fun _ _ like => .trailing like

end Rule

inductive ResultsAlike (T : Token → Token → Prop) :
    Except ParseError Tree → Except ParseError Tree → Prop where
  | ok {tree tree' : Tree} : tree.Alike T tree' → ResultsAlike T (.ok tree) (.ok tree')
  | error {error error' : ParseError} :
      error.Alike T error' → ResultsAlike T (.error error) (.error error')

theorem ResultsAlike.eq {result other : Except ParseError Tree}
    (alike : ResultsAlike Eq result other) : result = other := by
  cases alike with
  | ok alike => rw [Tree.eq_of_alike alike]
  | error alike => rw [alike.eq]

namespace Session

variable {σ τ : Type} [TokenStream σ] [TokenStream τ] {T : Token → Token → Prop} [Likeness T]

theorem parse_eq (session : Session σ) (mode : Mode) :
    session.parse mode =
      match Rule.inMode mode session.budget session with
      | .ok tree after => (.ok tree, after)
      | .error error after => (.error error, after) := rfl

theorem parse_left (session : Session σ) (mode : Mode) :
    (session.parse mode).2 = Rule.left (Rule.inMode mode session.budget session) := by
  rw [parse_eq]
  cases Rule.inMode mode session.budget session <;> rfl

theorem parse_passes (session : Session σ) (mode : Mode) :
    ∃ tokens, session.Passes tokens (session.parse mode).2 := by
  have lockstep : Rule.Lockstep Eq 0 (Tree.Alike Eq)
      (Rule.inMode mode session.budget : Rule σ Tree)
      (Rule.inMode mode session.budget : Rule σ Tree) session :=
    Rule.inMode_lockstep mode (Nat.zero_le _) (Nat.zero_le _) session
  rw [parse_left]
  exact lockstep.walks

/-- A parse depends on nothing but the tokens it passes and the one it stops
at: on tokens like these another parse passes as many, with a result alike. -/
theorem parse_lockstep [LawfulTokenStream σ] [LawfulTokenStream τ] {session : Session σ}
    {session' : Session τ} {mode : Mode} {tokens : List Token}
    (passed : session.Passes tokens (session.parse mode).2)
    (copied : session'.Copies T (tokens ++ [(session.parse mode).2.current])) :
    ResultsAlike T (session.parse mode).1 (session'.parse mode).1 ∧
      session'.PassesLike T tokens (session'.parse mode).2 := by
  have short := passed.length_lt_budget
  have short' := copied.of_append.length_lt_budget fun token present =>
    (passed.kind_ne token present).2
  have lockstep : Rule.Lockstep T (tokens.length + 1) (Tree.Alike T)
      (Rule.inMode mode session.budget : Rule σ Tree)
      (Rule.inMode mode session'.budget : Rule τ Tree) session :=
    Rule.inMode_lockstep mode (by omega) (by omega) session
  rw [parse_left] at passed copied
  rw [parse_left]
  obtain ⟨alike, passed'⟩ := lockstep.agrees passed (Nat.lt_succ_self _) copied
  refine ⟨?_, passed'⟩
  rw [parse_eq, parse_eq]
  generalize Rule.inMode mode session.budget session = result at alike ⊢
  generalize Rule.inMode mode session'.budget session' = result' at alike ⊢
  cases alike with
  | ok _ _ alike => exact .ok alike
  | error _ _ alike => exact .error alike

/-- On the same tokens, up to the one it stops at, another parse does the same. -/
theorem parse_same [LawfulTokenStream σ] [LawfulTokenStream τ] {session after : Session σ}
    {session' : Session τ} {mode : Mode} {tokens : List Token} {result : Except ParseError Tree}
    (parsed : session.parse mode = (result, after)) (passed : session.Passes tokens after)
    (shown : session'.Shows (tokens ++ [after.current])) :
    ∃ last, session'.parse mode = (result, last) ∧ session'.Passes tokens last := by
  have stopped : (session.parse mode).2 = after := by rw [parsed]
  have copied := shown.copies (List.forall₂_same.mpr fun token _ => (rfl : token = token))
  rw [← stopped] at passed copied
  obtain ⟨alike, others, same, passed'⟩ := parse_lockstep passed copied
  rw [List.forall₂_eq_eq_eq] at same
  have results := alike.eq
  rw [parsed] at results
  exact ⟨(session'.parse mode).2, Prod.ext results.symm rfl, same ▸ passed'⟩

end Session

end PascalFrontEnd
