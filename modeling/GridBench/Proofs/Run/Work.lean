/-
  GridBench.Proofs.Run.Work

  The program of a partition's worker in three parts: it enters by acquiring
  its map (`enter`), works its rounds, and leaves by giving the handle back
  (`leave`).  Each round is an `iteration`, whose end is then entered into the
  counts (`account`).  The rounds are routine on the map: they only call, with
  the handle, on keys of the partition's own elements, and publish nothing but
  the partition's own counts.  `work_keeps` says what the whole program may do
  and when, with the handle it has at hand as its state.
-/
import GridBench.Proofs.Run.Routine

namespace GridBench

namespace Partition

open Proc

variable (p : Partition)

/-! ## What a partition's worker deals with -/

/-- The keys of the partition's elements. -/
def Owns (key : String) : Prop := ∃ e ∈ p.config.elements, p.key e = .ok key

/-- The updates that carry one of the partition's counts. -/
def Tells (u : StatusUpdate) : Prop :=
  ∃ n : Nat, u = .update (completedKey p.number) (.ofNat n) ∨
    u = .update (failedKey p.number) (.ofNat n)

/-- The effects a round may have on the map of a handle. -/
def Attends (h : Handle) : Effect → Prop
  | .ask (.call h' c) withinMs => h' = h ∧ withinMs = none ∧ p.Owns c.key
  | .pause _ | .pick _ | .log _ => True
  | _ => False

/-- The effects of all rounds: those of each round, and publishing the partition's counts. -/
def Minds (h : Handle) (e : Effect) : Prop := p.Attends h e ∨ ∃ u, e = .publish u ∧ p.Tells u

variable {p}

/-! ## Rounds are routine -/

theorem say_routine (severity : Severity) (message : String) :
    Routine p.Attends fun _ => say severity message :=
  .lift _ rfl fun _ => trivial

theorem tell_routine (severity : Severity) (message : String) :
    Routine p.Attends fun _ => p.tell severity message :=
  say_routine _ _

theorem rest_routine (s : SleepPolicy) : Routine p.Attends fun _ => rest s := by
  unfold rest
  split
  · refine .op _ rfl (fun _ => trivial) fun ms => ?_
    exact (say_routine _ _).bind fun _ => .lift _ rfl fun _ => trivial
  · exact .done ()

theorem announce_routine (run : Nat) : Routine p.Attends fun _ => p.announce run := by
  unfold announce
  split
  · exact (tell_routine _ _).bind fun _ => tell_routine _ _
  · exact tell_routine _ _

theorem ingest_routine {es : List Element} (hes : ∀ e ∈ es, e ∈ p.config.elements) (n : Nat) :
    Routine p.Attends fun h => (p.ingest h es n).run := by
  induction es generalizing n with
  | nil =>
    simp only [ingest]
    exact .attempt_bind (.attempt_lift (say_routine _ _)) fun _ => .done _
  | cons e es ih =>
    have ih := ih fun e' he' => hes e' (List.mem_cons_of_mem _ he')
    cases hk : p.key e with
    -- An element whose key cannot be computed ends the batch before any call is made for it.
    | error message =>
      simp only [ingest, keyOf, hk]
      exact .done _
    | ok key =>
      have howns : p.Owns key := ⟨e, hes e List.mem_cons_self, hk⟩
      simp only [ingest, keyOf, hk, pure_bind]
      refine .attempt_bind (.attempt_call _ fun h => ⟨rfl, rfl, howns⟩) fun present => ?_
      split
      · exact ih n
      · refine .attempt_bind (.attempt_ofExcept _) fun value => ?_
        exact .attempt_bind (.attempt_call _ fun h => ⟨rfl, rfl, howns⟩) fun _ => ih (n + 1)

theorem readAll_routine {es : List Element} (hes : ∀ e ∈ es, e ∈ p.config.elements) :
    Routine p.Attends fun h => (p.readAll h es).run := by
  induction es with
  | nil =>
    simp only [readAll]
    exact .attempt_bind (.attempt_lift (say_routine _ _)) fun _ => .done _
  | cons e es ih =>
    have ih := ih fun e' he' => hes e' (List.mem_cons_of_mem _ he')
    cases hk : p.key e with
    | error message =>
      simp only [readAll, keyOf, hk]
      exact .done _
    | ok key =>
      have howns : p.Owns key := ⟨e, hes e List.mem_cons_self, hk⟩
      simp only [readAll, keyOf, hk, pure_bind]
      refine .attempt_bind (.attempt_call _ fun h => ⟨rfl, rfl, howns⟩) fun answer => ?_
      match answer with
      | none => exact .done _
      | some v => exact .attempt_bind (.attempt_ofExcept _) fun _ => ih

theorem remove_routine {es : List Element} (hes : ∀ e ∈ es, e ∈ p.config.elements) (n : Nat) :
    Routine p.Attends fun h => (p.remove h es n).run := by
  induction es generalizing n with
  | nil =>
    simp only [remove]
    exact .attempt_bind (.attempt_lift (say_routine _ _)) fun _ => .done _
  | cons e es ih =>
    have ih := ih fun e' he' => hes e' (List.mem_cons_of_mem _ he')
    cases hk : p.key e with
    | error message =>
      simp only [remove, keyOf, hk]
      exact .done _
    | ok key =>
      have howns : p.Owns key := ⟨e, hes e List.mem_cons_self, hk⟩
      simp only [remove, keyOf, hk, pure_bind]
      refine .attempt_bind (.attempt_call _ fun h => ⟨rfl, rfl, howns⟩) fun present => ?_
      split
      · exact .attempt_bind (.attempt_call _ fun h => ⟨rfl, rfl, howns⟩) fun _ => ih (n + 1)
      · exact ih n

theorem removeSome_routine : Routine p.Attends fun h => (p.removeSome h).run := by
  unfold removeSome
  refine .attempt_bind (.attempt_lift (.lift _ rfl fun _ => trivial)) fun count => ?_
  -- Whatever number is drawn, only elements of the partition are gone through.
  exact remove_routine (fun e he => List.mem_of_mem_take he) 0

theorem attempt_routine {α : Type} (action : Action) {F : Handle → Attempt α}
    {G : Handle → Proc RoundEnd} (hF : Routine p.Attends fun h => (F h).run)
    (hG : Routine p.Attends G) : Routine p.Attends fun h => attempt action (F h) (G h) := by
  refine hF.bind fun r => ?_
  match r with
  | .ok _ => exact hG
  | .error (.failed cause) => exact .done _
  | .error (.crashed message) => exact .done _

theorem round_routine : Routine p.Attends p.round := by
  -- The three batches are nested, so they are put together from the last to the first.
  have hremove := attempt_routine .remove (removeSome_routine (p := p)) (.done RoundEnd.completed)
  have hread := attempt_routine .read (readAll_routine (p := p) fun _ he => he)
    ((rest_routine p.config.plan.betweenActionBatches).bind fun _ => hremove)
  exact attempt_routine .ingest (ingest_routine (fun _ he => he) 0)
    ((rest_routine p.config.plan.betweenActionBatches).bind fun _ => hread)

/-! ## Iterations and their accounts -/

/-- One iteration: the pause before the round, and the round itself. -/
def iteration (p : Partition) (h : Handle) (run : Nat) : Proc RoundEnd := do
  rest p.config.plan.betweenRuns
  p.announce run
  p.round h

/-- What a worker does about the end of a round: it reports a failure and publishes the count. -/
def account (p : Partition) (run completed failed : Nat) : RoundEnd → Proc Unit
  | .completed => publish (completedKey p.number) (completed + 1)
  | .failed action cause => do
    p.report run action cause
    publish (failedKey p.number) (failed + 1)
  | .crashed _ => pure ()

/-- The rounds after the given end of one. -/
def proceed (p : Partition) (h : Handle) (left run completed failed : Nat) :
    RoundEnd → Proc (Option String)
  | .completed => p.rounds h left (run + 1) (completed + 1) failed
  | .failed .. => p.rounds h left (run + 1) completed (failed + 1)
  | .crashed message => pure (some message)

theorem rounds_succ (h : Handle) (left run completed failed : Nat) :
    p.rounds h (left + 1) run completed failed = (do
      let roundEnd ← p.iteration h run
      p.account run completed failed roundEnd
      p.proceed h left run completed failed roundEnd) := by
  simp only [rounds, iteration, Proc.bind_assoc]
  refine congrArg _ (funext fun _ => congrArg _ (funext fun _ => congrArg _ (funext fun e => ?_)))
  cases e with
  | completed => rfl
  | failed action cause => exact (Proc.bind_assoc _ _ _).symm
  | crashed message => rfl

theorem iteration_routine (run : Nat) : Routine p.Attends fun h => p.iteration h run :=
  (rest_routine _).bind fun _ => (announce_routine run).bind fun _ => round_routine

theorem publish_routine {key : String} {n : Nat} (h : p.Tells (.update key (.ofNat n))) :
    Routine p.Minds fun _ => publish key n :=
  .lift _ rfl fun _ => .inr ⟨_, rfl, h⟩

theorem account_routine (run completed failed : Nat) (e : RoundEnd) :
    Routine p.Minds fun _ => p.account run completed failed e := by
  cases e with
  | completed => exact publish_routine ⟨_, .inl rfl⟩
  | failed action cause =>
    refine ((say_routine _ _).mono fun _ _ => Or.inl).bind fun _ => ?_
    exact publish_routine ⟨_, .inr rfl⟩
  | crashed message => exact .done ()

theorem rounds_routine (left run completed failed : Nat) :
    Routine p.Minds fun h => p.rounds h left run completed failed := by
  induction left generalizing run completed failed with
  | zero =>
    simp only [rounds]
    exact ((tell_routine _ _).mono fun _ _ => Or.inl).bind fun _ => .done none
  | succ left ih =>
    simp only [rounds_succ]
    refine ((iteration_routine run).mono fun _ _ => Or.inl).bind fun e => ?_
    refine (account_routine run completed failed e).bind fun _ => ?_
    cases e with
    | completed => exact ih _ _ _
    | failed action cause => exact ih _ _ _
    | crashed message => exact .done _

/-! ## Entering and leaving -/

/-- Everything up to the first round: the worker acquires its map and says so. -/
def enter (p : Partition) : Proc (Except Fault Handle) := do
  p.tell .info ("using map name '" ++ p.mapName ++ "' in partition " ++ toString p.number)
  let start : Nat ← .lift .clock
  match ← p.acquire with
  | .error f =>
    say .error ("unable to retrieve map, aborting partition" ++ p.members [("error", f.message)])
    pure (.error f)
  | .ok h =>
    let now : Nat ← .lift .clock
    p.tell .info ("get_map() on '" ++ p.mapName ++ "' took " ++ toString (now - start) ++ " ms")
    pure (.ok h)

/-- What a worker does after its rounds, whatever became of them. -/
def leave (p : Partition) (h : Handle) (crash : Option String) : Proc (Option String) := do
  p.release h
  pure crash

/-- What a worker does once it knows whether it has its map. -/
def stay (p : Partition) : Except Fault Handle → Proc (Option String)
  | .error _ => pure none
  | .ok h => p.rounds h p.config.plan.numRuns.toNat 0 0 0 >>= p.leave h

theorem work_eq : p.work = p.enter >>= p.stay := by
  simp only [work, enter, Proc.bind_assoc]
  refine congrArg _ (funext fun _ => congrArg _ (funext fun start => ?_))
  refine congrArg _ (funext fun a => ?_)
  cases a with
  | error f => rfl
  | ok h => rfl

/-- Where a worker stands, by what it did: before its rounds, in them, behind them, or at its end
    because it got no map. -/
theorem plays_work_cases {ds : List Deed} {q : Proc (Option String)} (h : Plays p.work ds q) :
    (∃ e k, Plays p.enter ds (.op e k) ∧ q = (.op e k >>= p.stay)) ∨
    (∃ f, Plays p.enter ds (.done (.error f)) ∧ q = .done none) ∨
    (∃ ds₁ ds₂ m e k, ds = ds₁ ++ ds₂ ∧ Plays p.enter ds₁ (.done (.ok m)) ∧
      Plays (p.rounds m p.config.plan.numRuns.toNat 0 0 0) ds₂ (.op e k) ∧
      q = (.op e k >>= p.leave m)) ∨
    ∃ ds₁ ds₂ ds₃ m crash, ds = ds₁ ++ (ds₂ ++ ds₃) ∧ Plays p.enter ds₁ (.done (.ok m)) ∧
      Plays (p.rounds m p.config.plan.numRuns.toNat 0 0 0) ds₂ (.done crash) ∧
      Plays (p.leave m crash) ds₃ q := by
  -- The worker's program is a sequence of two programs, and what follows `enter` is one again.
  rw [work_eq] at h
  rcases h.of_bind with h | ⟨ds₁, ds', a, rfl, henter, h⟩
  · exact .inl h
  · match a with
    | .error f =>
      obtain ⟨rfl, rfl⟩ := h.done_nil
      exact .inr (.inl ⟨f, by simpa using henter, rfl⟩)
    | .ok m =>
      rcases Plays.of_bind h with ⟨e, k, hrounds, rfl⟩ | ⟨ds₂, ds₃, crash, rfl, hrounds, hleave⟩
      · exact .inr (.inr (.inl ⟨ds₁, ds', m, e, k, rfl, henter, hrounds, rfl⟩))
      · exact .inr (.inr (.inr ⟨ds₁, ds₂, ds₃, m, crash, rfl, henter, hrounds, hleave⟩))

/-! ## Terms of the whole worker -/

/-- The handle a worker was given, and whether it has given it back. -/
structure Hand where
  held : Option Handle := none
  released : Bool := false
deriving DecidableEq, Repr

/-- The terms of a partition's worker.  It asks for its own map, calls on its own keys while it
    has the handle, gives the handle back once, and publishes its own counts. -/
def terms (p : Partition) : Terms Hand where
  may t
    | .ask (.acquire m) _ => m = p.mapName ∧ t.held = none
    | .ask (.call h c) withinMs =>
      t.held = some h ∧ t.released = false ∧ withinMs = none ∧ p.Owns c.key
    | .ask (.release h) withinMs => t.held = some h ∧ t.released = false ∧ withinMs = none
    | .publish u => p.Tells u
    | _ => True
  admits _ _ := True
  after t
    | ⟨.ask (.acquire _) _, .ok h⟩ => { t with held := some h }
    | ⟨.ask (.release _) _, _⟩ => { t with released := true }
    | _ => t

theorem terms_grants (t : Hand) (ds : List Deed) : p.terms.Grants t ds :=
  Terms.grants_of_admits (fun _ _ => trivial) t ds

theorem enter_keeps :
    p.enter.Keeps p.terms
      (fun t a => match a with
        | .ok h => t = ⟨some h, false⟩
        | .error _ => t = ⟨none, false⟩) {} := by
  refine ⟨trivial, fun _ _ => ⟨trivial, fun start _ => ⟨⟨rfl, rfl⟩, fun a _ => ?_⟩⟩⟩
  match a with
  | .error f => exact ⟨trivial, fun _ _ => rfl⟩
  | .ok h => exact ⟨trivial, fun _ _ => ⟨trivial, fun _ _ => rfl⟩⟩

theorem rounds_keeps (h : Handle) (left run completed failed : Nat) :
    (p.rounds h left run completed failed).Keeps p.terms (fun t _ => t = ⟨some h, false⟩)
      ⟨some h, false⟩ := by
  refine (rounds_routine left run completed failed).keeps (fun e he => ?_) fun e r he => ?_
  -- What the rounds do is allowed while the worker has the handle.
  · rcases he with he | ⟨u, rfl, hu⟩
    · match e with
      | .ask (.call _ c) _ =>
        obtain ⟨rfl, rfl, howns⟩ := he
        exact ⟨rfl, rfl, rfl, howns⟩
      | .ask (.acquire _) _ | .ask (.release _) _ | .clock | .publish _ => exact he.elim
      | .pause _ | .pick _ | .log _ => trivial
    · exact hu
  -- Only acquiring and releasing change what is at hand, and the rounds do neither.
  · rcases he with he | ⟨u, rfl, hu⟩
    · match e with
      | .ask (.acquire _) _ | .ask (.release _) _ | .clock | .publish _ => exact he.elim
      | .ask (.call ..) _ | .pause _ | .pick _ | .log _ => rfl
    · rfl

theorem leave_keeps (h : Handle) (crash : Option String) :
    (p.leave h crash).Keeps p.terms (fun t r => t = ⟨some h, true⟩ ∧ r = crash)
      ⟨some h, false⟩ := by
  refine ⟨⟨rfl, rfl, rfl⟩, fun a _ => ?_⟩
  match a with
  | .ok () => exact ⟨rfl, rfl⟩
  | .error f => exact ⟨trivial, fun _ _ => ⟨rfl, rfl⟩⟩

theorem work_keeps : p.work.Keeps p.terms (fun _ _ => True) {} := by
  rw [work_eq]
  refine enter_keeps.bind fun t a ht => ?_
  match a with
  | .error f => trivial
  | .ok h =>
    subst ht
    refine (rounds_keeps h _ _ _ _).bind fun t crash ht => ?_
    subst ht
    exact (leave_keeps h crash).mono fun _ _ _ => trivial

/-- What a worker does next is in accordance with its terms. -/
theorem may_of_plays_work {ds : List Deed} {e : Effect} {k : e.Reply → Proc (Option String)}
    (h : Plays p.work ds (.op e k)) : p.terms.may (p.terms.afterAll {} ds) e :=
  (h.keeps (terms_grants _ _) work_keeps).1

end Partition

end GridBench
