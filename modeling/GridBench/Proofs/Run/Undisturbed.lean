/-
  GridBench.Proofs.Run.Undisturbed

  The outcome of a run that nothing disturbs: the store is calm, the run is not
  cancelled, and only time passes around it.  Whatever its plan, its draws and
  the order of its steps, the run finishes, every round of every partition is
  completed, and the store holds what the last removals left, and is otherwise
  as it was.  The workers of one run are at peace, since a client's keys tell
  its partitions apart even in one map.
-/
import GridBench.Proofs.Run.Counts
import GridBench.Proofs.Run.Ending
import GridBench.Proofs.Run.Round
import GridBench.Proofs.Settings.Plan

namespace GridBench

namespace RunPlan

/-- What the table holds when a run has finished without a failure. -/
def finalStatus (plan : RunPlan) : List (String × Json) :=
  [(numMapsKey, .ofNat plan.numMaps.toNat), (numRunsKey, .ofNat plan.numRuns.toNat),
    (totalRunsKey, .ofNat (plan.numMaps.toNat * plan.numRuns.toNat)),
    (runnerFinishedKey, .bool true)]
    ++ plan.partitions.map fun p => (completedKey p, .ofNat plan.numRuns.toNat)

end RunPlan

namespace Watched

variable {config : LoopConfig} {s s' : Watched MemoryStore} {s₀ : MemoryStore}

/-- What holds of a run at any time if nothing disturbs it. -/
structure Undisturbed (config : LoopConfig) (s₀ : MemoryStore) (s : Watched MemoryStore) :
    Prop where
  sound : s.Sound config
  running : s.world.cancelled = false
  unpanicked : ∀ p, s.panicked p = false
  peace : Peace (teamOf config) s₀ s.world.grid s.world.clock (workerOf config s.run.workers)
    s.diary

/-- Two partitions of a run have no key in common. -/
theorem apart_teamOf {items : List (String × Json)}
    (helements : config.elements = items.map fun i => ⟨.ok i.1, .ok i.2⟩) (p q : Nat)
    (hpq : p ≠ q) : (teamOf config p).Apart (teamOf config q) := by
  intro key _ hp hq
  obtain ⟨i, _, rfl⟩ := (Partition.owns_iff helements).mp hp
  obtain ⟨j, _, hkey⟩ := (Partition.owns_iff helements).mp hq
  exact hpq (storageKey_inj_of_client hkey).1

theorem undisturbed_start {w : World MemoryStore} (hcalm : w.grid.Calm) (htidy : w.grid.Tidy)
    (hrun : w.cancelled = false) : Undisturbed config w.grid (start config w) where
  sound := sound_start config w
  running := hrun
  unpanicked _ := rfl
  peace := .start hcalm htidy

/-- The workers and the store stay as they are. -/
theorem Undisturbed.aside (h : Undisturbed config s₀ s) (hsound : s'.Sound config)
    (hworkers : workerOf config s'.run.workers = workerOf config s.run.workers)
    (hgrid : s'.world.grid = s.world.grid)
    (hclock : s.world.clock ≤ s'.world.clock) (hrun : s'.world.cancelled = s.world.cancelled)
    (hdiary : s'.diary = s.diary) (hpanicked : s'.panicked = s.panicked) :
    Undisturbed config s₀ s' where
  sound := hsound
  running := hrun.trans h.running
  unpanicked p := (congrFun hpanicked p).trans (h.unpanicked p)
  peace := by
    rw [hworkers, hgrid, hdiary]
    exact h.peace.wait hclock

/-- A step of a task disturbs nothing. -/
theorem Undisturbed.turn {task : LoopTask}
    (hapart : ∀ p q, p ≠ q → (teamOf config p).Apart (teamOf config q))
    (h : Undisturbed config s₀ s) (hturn : Turn MemoryStore.grid s task s') :
    Undisturbed config s₀ s' := by
  have hsound := h.sound.turn hturn
  cases hturn with
  | begun hphase hl =>
    obtain ⟨hrun, _⟩ := h.sound.run_eq hphase
    have hworkers : s.run.workers = #[] := congrArg LoopRun.workers hrun
    rw [hrun, LoopRun.begin_fresh] at hl
    cases hl
    exact h.aside hsound (congrArg _ hworkers.symm) rfl (Nat.le_refl _) rfl rfl rfl
  | launched _ _ =>
    refine h.aside hsound ?_ rfl (Nat.le_refl _) rfl rfl rfl
    rw [h.sound.config_eq]
    exact workerOf_push s.run.workers
  | joins | stops | finishes | writes | closes | deserted =>
    exact h.aside hsound rfl rfl (Nat.le_refl _) rfl rfl rfl
  | @works p t t' w ds ht hmove =>
    have hp : p < s.run.workers.size := (Array.getElem?_eq_some_iff.mp ht).1
    have hcurrent : workerOf config s.run.workers p = t := workerOf_of_getElem? ht
    -- Of all the turns, only a worker's move changes the store.
    have hpeace := h.peace.move hapart h.running (hcurrent ▸ hmove)
    have hdiary : (s.note p ds).diary = Function.update s.diary p (s.diary p ++ ds) := by
      rw [note, h.unpanicked p]
      rfl
    refine ⟨hsound, hmove.world.1.trans h.running, h.unpanicked, ?_⟩
    show Peace _ _ _ _ (workerOf config (s.run.workers.setIfInBounds p t')) (s.note p ds).diary
    rw [hdiary, workerOf_setIfInBounds hp]
    exact hpeace

theorem Undisturbed.step (hapart : ∀ p q, p ≠ q → (teamOf config p).Apart (teamOf config q))
    (h : Undisturbed config s₀ s) (hstep : Step MemoryStore.grid (.still _) s s') :
    Undisturbed config s₀ s' := by
  cases hstep with
  | move hmove => exact h.turn hapart (turn_of_advance hmove)
  | stir hstir =>
    obtain ⟨moment, rfl⟩ := hstir
    exact h.aside (h.sound.stir _) rfl rfl (Nat.le_max_left _ _) rfl rfl rfl
  | panic hpanics => exact hpanics.elim

theorem Undisturbed.reaches (hapart : ∀ p q, p ≠ q → (teamOf config p).Apart (teamOf config q))
    (h : Undisturbed config s₀ s) (hs : Reaches MemoryStore.grid (.still _) s s') :
    Undisturbed config s₀ s' := by
  induction hs with
  | refl => exact h
  | tail _ hstep ih => exact ih.step hapart hstep

theorem Undisturbed.moves (hapart : ∀ p q, p ≠ q → (teamOf config p).Apart (teamOf config q))
    (h : Undisturbed config s₀ s) (hmove : Moves MemoryStore.grid (.still _) s s') :
    Undisturbed config s₀ s' := h.reaches hapart hmove.reaches

/-! ## The outcome for one partition -/

variable {items : List (String × Json)}

theorem picked_sight (e : Entries) (ds : List Deed) :
    (Partition.sight e ds).picked = lastPick? ds := by
  have hfold : ∀ t : Sight, (Terms.seen.afterAll t ds).picked = (lastPick? ds).or t.picked := by
    induction ds with
    | nil => exact fun _ => rfl
    | cons d ds ih =>
      intro t
      have hrest := ih (t.after d)
      match d with
      | ⟨.pick p, n⟩ =>
        refine hrest.trans ?_
        have hlast : lastPick? (⟨.pick p, n⟩ :: ds) = some ((lastPick? ds).getD (p, n)) :=
          List.getLast?_cons
        rw [hlast]
        cases lastPick? ds <;> rfl
      | ⟨.ask (.call ..) _, _⟩ | ⟨.ask (.acquire _) _, _⟩ | ⟨.ask (.release _) _, _⟩
      | ⟨.pause _, _⟩ | ⟨.clock, _⟩ | ⟨.log _, _⟩ | ⟨.publish _, _⟩ => exact hrest
  exact (hfold ⟨e, none⟩).trans (Option.or_none)

/-- What the worker of a partition has done when the run has finished. -/
structure Outcome (config : LoopConfig) (items : List (String × Json)) (s₀ : MemoryStore)
    (s : Watched MemoryStore) (p : Nat) : Prop where
  worker : ∃ t, s.run.workers[p]? = some t ∧ t.hasEnded = true ∧ t.crash? = none
  acquired : s.Acquired p
  drawn : (teamOf config p).Drawn items
    (Partition.sight (s₀.entries (teamOf config p).mapName) (s.diary p))
  thrives : ∀ u ∈ published (s.diary p), ∃ n : Nat, u = .update (completedKey p) (.ofNat n)

/-- The worker of a partition of a finished run has ended. -/
theorem Undisturbed.ended (h : Undisturbed config s₀ s) (hphase : s.run.phase = .finished)
    {p : Nat} (hp : p < config.plan.numMaps.toNat) :
    ∃ t, s.run.workers[p]? = some t ∧ t.hasEnded = true ∧
      Proc.Plays (teamOf config p).work (s.diary p) (.done t.crash?) := by
  obtain ⟨t, ht, hended⟩ := h.sound.exists_ended hphase hp
  have hsteady := h.peace.steady p
  rw [workerOf_of_getElem? ht] at hsteady
  exact ⟨t, ht, hended, Worker.program_of_hasEnded hended ▸ hsteady.plays⟩

/-- It was given its map. -/
theorem Undisturbed.acquired (h : Undisturbed config s₀ s) (hphase : s.run.phase = .finished)
    {p : Nat} (hp : p < config.plan.numMaps.toNat) : s.Acquired p := by
  obtain ⟨_, _, _, hplays⟩ := h.ended hphase hp
  obtain ⟨m, ds₁, ds₂, ds₃, hparts⟩ :=
    Partition.parts_of_plays hplays (h.peace.steady p).grants
  refine ⟨m, ?_⟩
  rw [hparts.eq, Partition.acquisitions_append, Partition.acquisitions_enter hparts.enter]
  exact List.mem_append_left _ (List.mem_singleton_self _)

theorem Undisturbed.outcome (h : Undisturbed config s₀ s) (hphase : s.run.phase = .finished)
    {p : Nat} (hp : p < config.plan.numMaps.toNat) (hruns : config.plan.numRuns.toNat ≠ 0)
    (hstock : (teamOf config p).Stock items)
    (hsane : (teamOf config p).Sane items (s₀.entries (teamOf config p).mapName)) :
    Outcome config items s₀ s p := by
  obtain ⟨t, hget, hended, hplays⟩ := h.ended hphase hp
  -- The worker has done all that its program does with truthful replies.
  have hwork := Partition.work_fair hstock hruns (t := ⟨_, none⟩) hsane
  have hgrants := Terms.grants_truthful (P := (teamOf config p).Thrives) (h.peace.steady p).grants
  obtain ⟨hcrash, hdrawn⟩ := hplays.result hgrants hwork
  have hthrives := hplays.forall_may (fun _ _ he => he) hgrants hwork
  refine ⟨⟨t, hget, hended, hcrash⟩, h.acquired hphase hp, hdrawn, fun u hu => ?_⟩
  · obtain ⟨⟨e, reply⟩, hd, hud⟩ := List.mem_flatMap.mp hu
    have hmay := hthrives _ hd
    cases e with
    | publish v =>
      rw [Deed.published, List.mem_singleton] at hud
      exact hud ▸ hmay
    | ask | pause | clock | pick | log => cases hud

/-! ## The table at the end -/

/-- A worker that publishes no failure has completed all its rounds. -/
theorem Outcome.counts (h : s.Sound config) (hphase : s.run.phase = .finished) {p : Nat}
    (hp : Outcome config items s₀ s p) :
    s.completed p = config.plan.numRuns.toNat ∧ s.failed p = 0 := by
  obtain ⟨t, ht, _, hcrash⟩ := hp.worker
  have hsum := h.counts_complete hphase hp.acquired fun t' ht' => by
    rw [ht] at ht'
    cases ht'
    exact hcrash
  have hfailed : s.failed p = 0 := by
    -- An update of the failures would have been published by the worker.
    rw [(h.counts_eq p).2, List.countP_eq_zero]
    intro u hu hw
    have habout := u.isAbout_of_writes (.inr rfl) hw
    have hsent : u ∈ published (s.diary p) := by
      rw [← h.sent_filter p]
      exact List.mem_filter.mpr ⟨h.stage.applied_prefix.subset hu, habout⟩
    obtain ⟨n, rfl⟩ := hp.thrives u hsent
    have hkeys : completedKey p = failedKey p := by simpa [Progress.writes] using hw
    exact completedKey_ne_failedKey p p hkeys
  exact ⟨by omega, hfailed⟩

/-- What the table holds under the key of a partition's counts when nothing failed. -/
theorem Outcome.table (h : s.Sound config) (hphase : s.run.phase = .finished)
    (hruns : config.plan.numRuns.toNat ≠ 0) {p : Nat} (hp : Outcome config items s₀ s p) :
    s.run.gatherer.table[completedKey p]? = some (.ofNat config.plan.numRuns.toNat) ∧
      s.run.gatherer.table[failedKey p]? = none := by
  obtain ⟨hcompleted, hfailed⟩ := hp.counts h hphase
  obtain ⟨m, hm, _⟩ := h.applied_filter p
  obtain ⟨hc, hf⟩ := h.shows_counts hm
  have hc' := hc.shows_count
  have hf' := hf.shows_count
  rw [show s.run.gatherer.table.count (completedKey p) = config.plan.numRuns.toNat from hcompleted,
    Progress.Shows, if_neg hruns] at hc'
  rw [show s.run.gatherer.table.count (failedKey p) = 0 from hfailed] at hf'
  exact ⟨hc', hf'⟩

/-- The table of a run without failures, in full. -/
theorem table_of_outcomes (h : s.Sound config) (hphase : s.run.phase = .finished)
    (hruns : config.plan.numRuns.toNat ≠ 0)
    (hall : ∀ p < config.plan.numMaps.toNat, Outcome config items s₀ s p) (key : String)
    (value : Json) :
    s.run.gatherer.table[key]? = some value ↔ (key, value) ∈ config.plan.finalStatus := by
  have hbegun : s.run.phase ≠ .bound := by
    rw [hphase]
    decide
  have hannounced := h.announced hbegun
  rw [h.config_eq] at hannounced
  have hfinished := h.finished_of_phase hphase
  simp only [RunPlan.finalStatus, RunPlan.partitions, List.mem_append, List.mem_cons,
    List.not_mem_nil, or_false, List.mem_map, List.mem_range, Prod.mk.injEq]
  constructor
  -- A key that is in the table is one of the first status, or one of a partition's counts.
  · intro hv
    by_cases hkey : key ∈ generalKeys
    · simp only [generalKeys, List.mem_cons, List.not_mem_nil, or_false] at hkey
      left
      rcases hkey with rfl | rfl | rfl | rfl
      · exact .inl ⟨rfl, Option.some.inj (hv.symm.trans hannounced.numMaps)⟩
      · exact .inr (.inl ⟨rfl, Option.some.inj (hv.symm.trans hannounced.numRuns)⟩)
      · exact .inr (.inr (.inl ⟨rfl, Option.some.inj (hv.symm.trans hannounced.totalRuns)⟩))
      · exact .inr (.inr (.inr ⟨rfl, Option.some.inj (hv.symm.trans hfinished)⟩))
    · by_cases hcount : ∃ p < config.plan.numMaps.toNat, key = completedKey p ∨ key = failedKey p
      · obtain ⟨p, hp, rfl | rfl⟩ := hcount
        · have htable := ((hall p hp).table h hphase hruns).1
          exact .inr ⟨p, hp, rfl, Option.some.inj (htable.symm.trans hv)⟩
        · rw [((hall p hp).table h hphase hruns).2] at hv
          cases hv
      · rw [h.table_other hkey fun p hp =>
          ⟨fun hk => hcount ⟨p, hp, .inl hk⟩, fun hk => hcount ⟨p, hp, .inr hk⟩⟩] at hv
        cases hv
  · rintro ((⟨rfl, rfl⟩ | ⟨rfl, rfl⟩ | ⟨rfl, rfl⟩ | ⟨rfl, rfl⟩) | ⟨p, hp, rfl, rfl⟩)
    · exact hannounced.numMaps
    · exact hannounced.numRuns
    · exact hannounced.totalRuns
    · exact hfinished
    · exact ((hall p hp).table h hphase hruns).1

/-! ## The outcome of the run -/

/-- The store at the end: each partition's map holds the elements behind the number drawn for the
    last removal, which is the last pick of its worker, and every other entry is as it was. -/
structure Remains (config : LoopConfig) (items : List (String × Json)) (s₀ : MemoryStore)
    (s : Watched MemoryStore) : Prop where
  own : ∀ p < config.plan.numMaps.toNat, ∃ r,
    lastPick? (s.diary p) = some (removalCount items.length, r) ∧ (r = 0 ∨ r < items.length) ∧
    (teamOf config p).Left items r (s.world.grid.entries (teamOf config p).mapName)
  others : ∀ map key, (∀ p < config.plan.numMaps.toNat, ∀ i ∈ items,
      ¬ (map = (teamOf config p).mapName ∧ key = (teamOf config p).place i)) →
    (s.world.grid.entries map)[key]? = (s₀.entries map)[key]?

theorem Undisturbed.remains (h : Undisturbed config s₀ s)
    (hstock : ∀ p, (teamOf config p).Stock items)
    (hall : ∀ p < config.plan.numMaps.toNat, Outcome config items s₀ s p) :
    Remains config items s₀ s := by
  have howns : ∀ p key, (teamOf config p).Owns key ↔
      ∃ i ∈ items, key = (teamOf config p).place i := fun p key =>
    Partition.owns_iff (hstock p).elements
  refine ⟨fun p hp => ?_, fun map key hother => ?_⟩
  · obtain ⟨r, hpicked, hr, hleft⟩ := (hall p hp).drawn
    have hagree : ∀ i ∈ items,
        (s.world.grid.entries (teamOf config p).mapName)[(teamOf config p).place i]? =
          (Partition.sight (s₀.entries (teamOf config p).mapName)
            (s.diary p)).entries[(teamOf config p).place i]? :=
      fun i hi => (h.peace.steady p).agree _ ((howns p _).mpr ⟨i, hi, rfl⟩)
    rw [picked_sight] at hpicked
    refine ⟨r, hpicked, hr, fun i hi => ?_, fun i hi => ?_⟩
    · rw [hagree i (List.mem_of_mem_take hi)]
      exact hleft.removed i hi
    · rw [hagree i (List.mem_of_mem_drop hi)]
      exact hleft.kept i hi
  · by_cases howned : ∃ p, map = (teamOf config p).mapName ∧ (teamOf config p).Owns key
    · -- Only a partition that is not part of the run can own the key, and it has done nothing.
      obtain ⟨p, rfl, hkey⟩ := howned
      obtain ⟨i, hi, rfl⟩ := (howns p key).mp hkey
      have hp : ¬ p < config.plan.numMaps.toNat := fun hp => hother p hp i hi ⟨rfl, rfl⟩
      have hsize := h.sound.size_le
      rw [h.sound.numMaps_eq] at hsize
      have hidle := (h.sound.unlaunched p (Array.getElem?_eq_none (by omega))).1
      have hagree := (h.peace.steady p).agree _ hkey
      rw [hidle] at hagree
      exact hagree
    · exact h.peace.others map key fun p hp => howned ⟨p, hp⟩

/-- A plan that was resolved has rounds to work. -/
theorem numRuns_ne_zero {settings : RunnerSection} {path base : String} {plan : RunPlan}
    (h : settings.resolve path base = .ok plan) : plan.numRuns.toNat ≠ 0 :=
  (RunnerSection.workable_of_resolve h).runs

/-- The exact outcome of a run that nothing disturbs.  For any plan that was resolved, any elements
    with distinct identifiers that pass their check, any draws, and any calm store that does not
    hold the keys of the elements, the run finishes, whatever the order of its steps: no worker has
    crashed, the table is that of a run without failures, and the store holds what the last
    removals left. -/
theorem undisturbed_run {settings : RunnerSection} {path base : String} {w : World MemoryStore}
    (hplan : settings.resolve path base = .ok config.plan)
    (helements : config.elements = items.map fun i => ⟨.ok i.1, .ok i.2⟩)
    (hdistinct : (items.map Prod.fst).Nodup)
    (hcheck : ∀ i ∈ items, config.check i.2 = .ok ())
    (hcalm : w.grid.Calm) (htidy : w.grid.Tidy) (hrun : w.cancelled = false)
    (habsent : ∀ p < config.plan.numMaps.toNat, ∀ i ∈ items,
      (w.grid.entries (teamOf config p).mapName)[(teamOf config p).place i]? = none) :
    Inevitable (Moves MemoryStore.grid (.still _))
      (fun s => s.run.phase = .finished ∧
        (∀ (p : Nat) (t : Worker), s.run.workers[p]? = some t → t.crash? = none) ∧
        (∀ key value, s.run.gatherer.table[key]? = some value ↔
          (key, value) ∈ config.plan.finalStatus) ∧
        Remains config items w.grid s)
      (start config w) := by
  have hruns := numRuns_ne_zero hplan
  have hstock : ∀ p, (teamOf config p).Stock items := fun p => ⟨helements, hdistinct, hcheck⟩
  have hstart : Undisturbed config w.grid (start config w) := undisturbed_start hcalm htidy hrun
  have hfinish := ((sound_start config w).inevitable_finished
    (g := MemoryStore.grid) (S := .still _)).and_invariant hstart
      fun s s' => Undisturbed.moves (apart_teamOf helements)
  refine hfinish.mono fun s hs => ?_
  obtain ⟨⟨hphase, _⟩, h⟩ := hs
  have hall : ∀ p < config.plan.numMaps.toNat, Outcome config items w.grid s p := fun p hp =>
    h.outcome hphase hp hruns (hstock p) fun i hi => .inl (habsent p hp i hi)
  refine ⟨hphase, fun p t ht => ?_, table_of_outcomes h.sound hphase hruns hall,
    h.remains hstock hall⟩
  have hp : p < config.plan.numMaps.toNat := by
    have hlt := (Array.getElem?_eq_some_iff.mp ht).1
    have hsize := h.sound.size_le
    rw [h.sound.numMaps_eq] at hsize
    omega
  obtain ⟨t', ht', _, hcrash⟩ := (hall p hp).worker
  rw [ht] at ht'
  cases ht'
  exact hcrash

/-- The sample run, on an empty store. -/
theorem undisturbed_run_sample :
    ∃ plan, sampleSettings.resolve "map-tests.load" "load" = .ok plan ∧
      Inevitable (Moves MemoryStore.grid (.still _))
        (fun s => s.run.phase = .finished ∧
          (∀ (p : Nat) (t : Worker), s.run.workers[p]? = some t → t.crash? = none) ∧
          (∀ key value, s.run.gatherer.table[key]? = some value ↔
            (key, value) ∈ plan.finalStatus) ∧
          Remains (sampleConfig plan) sampleItems {} s)
        (start (sampleConfig plan) { grid := {} }) := by
  obtain ⟨plan, hplan⟩ := exists_samplePlan
  have hcheck : ∀ i ∈ sampleItems, LoadElement.shape.check i.2 = .ok () := by decide
  have hdistinct : (sampleItems.map Prod.fst).Nodup := by decide
  have hcalm : ({} : MemoryStore).Calm := rfl
  have htidy : ({} : MemoryStore).Tidy := fun n hn => by cases hn
  refine ⟨plan, hplan, @undisturbed_run (sampleConfig plan) sampleItems _ _ _ { grid := {} } hplan
    rfl hdistinct hcheck hcalm htidy rfl fun p _ i _ => ?_⟩
  simp [MemoryStore.entries]

end Watched

end GridBench
