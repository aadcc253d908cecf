/-
  GridBench.Proofs.Run.Ledger

  The counters of a store during a run that nothing disturbs.  A request for a
  map is counted when it is sent, every other request when it is answered; hence
  what the counters show, together with what they still owe to the workers that
  wait, is what has been sent (`Billed`).  Each worker sends a request for its
  map, the calls of its rounds and the release.  Main statement:
  `calls_accounted`, which gives all six counters of a finished run.
-/
import GridBench.Proofs.Run.Bill
import GridBench.Proofs.Run.Tolls

namespace GridBench

/-! ## One step of a worker -/

namespace Worker

/-- What a counter still owes to a worker that waits. -/
def owed (c : Counter) (t : Worker) : Nat := if c = .getMap then 0 else tolled c t.pending

theorem owed_of_hasEnded {t : Worker} (h : t.hasEnded = true) (c : Counter) : t.owed c = 0 := by
  rw [owed, pending_of_hasEnded h]
  split <;> rfl

/-- In a world that is not cancelled, what a worker sends is counted or owed to it, and what was owed
    is counted, unless its answer comes late. -/
theorem Move.shown {w w' : World MemoryStore} {t t' : Worker} {ds : List Deed}
    (h : t.Move MemoryStore.grid w w' t' ds) (hrun : w.cancelled = false)
    (hpunctual : ∀ r f k, t = .waiting r f k → f.due ≤ w.clock) (c : Counter) :
    w'.grid.calls.shown c + t'.owed c =
      w.grid.calls.shown c + t.owed c + tolled c (t.sends w) := by
  cases h with
  | refused hc => exact absurd hc (by simp [hrun])
  | abandoned hc => exact absurd hc (by simp [hrun])
  | late _ hdue => exact absurd (hpunctual _ _ _ rfl) (by omega)
  | @sent r withinMs k hc =>
    have hsends : (Worker.running (.op (.ask r withinMs) k)).sends w = [r] := by
      simp [sends, hc]
    rw [MemoryStore.shown_start, hsends]
    by_cases hmap : c = .getMap
    · simp [owed, hmap, tolled, List.countP_singleton]
    · simp [owed, hmap, tolled, pending, List.countP_singleton]
  | paused | clocked | picked | logged | published | woken => rfl
  | @answered r f k _ =>
    rw [MemoryStore.shown_finish]
    by_cases hmap : c = .getMap
    · simp [owed, hmap, tolled, sends]
    · simp [owed, hmap, tolled, pending, sends, List.countP_singleton]

end Worker

/-- What a worker sends in all that has a handle, makes some calls and gives the handle back. -/
theorem tolled_visit (m : String) (h : Handle) (xs : List MadeCall) (c : Counter) :
    tolled c (.acquire m :: (xs.map (fun x => Request.call h x.1) ++ [.release h])) =
      (if c = .getMap then 1 else 0) + Partition.spent c xs + if c = .destroy then 1 else 0 := by
  have hcalls : tolled c (xs.map fun x => Request.call h x.1) = Partition.spent c xs :=
    List.countP_map
  have hfirst : tolled c [.acquire m] = if c = .getMap then 1 else 0 := by
    cases c <;> rfl
  have hlast : tolled c [.release h] = if c = .destroy then 1 else 0 := by
    cases c <;> rfl
  rw [← List.singleton_append, tolled_append, tolled_append, hfirst, hcalls, hlast, Nat.add_assoc]

/-! ## The ledger of a run -/

namespace Watched

variable {config : LoopConfig} {s s' : Watched MemoryStore} {log : Log MemoryStore}
variable {s₀ : MemoryStore} {items : List (String × Json)} {w : World MemoryStore}

/-- What holds of the counters at any time of a run that nothing disturbs. -/
structure Billed (config : LoopConfig) (s₀ : MemoryStore) (log : Log MemoryStore)
    (s : Watched MemoryStore) : Prop where
  undisturbed : Undisturbed config s₀ s
  ledger : ∀ c, s.world.grid.calls.shown c +
      ∑ p ∈ Finset.range config.plan.numMaps.toNat, (workerOf config s.run.workers p).owed c =
    s₀.calls.shown c +
      ∑ p ∈ Finset.range config.plan.numMaps.toNat, tolled c (requestsOf (log p))

theorem billed_start (hcalm : w.grid.Calm) (htidy : w.grid.Tidy) (hrun : w.cancelled = false) :
    Billed config w.grid (fun _ => []) (start config w) where
  undisturbed := undisturbed_start hcalm htidy hrun
  ledger c := by
    have howed : ∀ p, (workerOf config (start config w).run.workers p).owed c = 0 := fun p => by
      show (if c = .getMap then 0 else 0) = 0
      split <;> rfl
    have hsent : ∀ p ∈ Finset.range config.plan.numMaps.toNat,
        tolled c (requestsOf ([] : List (Entry MemoryStore))) = 0 := fun _ _ => rfl
    rw [Finset.sum_eq_zero fun p _ => howed p, Finset.sum_eq_zero hsent]
    rfl

/-- What one step of a task preserves. -/
theorem Billed.move {task : LoopTask} (h : Billed config s₀ log s)
    (hapart : ∀ p q, p ≠ q → (teamOf config p).Apart (teamOf config q))
    (hmove : s.advance MemoryStore.grid task = some s') :
    Billed config s₀ (s.logged task s'.world log) s' := by
  refine ⟨h.undisturbed.turn hapart (turn_of_advance hmove), fun c => ?_⟩
  have hsound := h.undisturbed.sound
  by_cases htask : ∃ p, task = .worker p
  · obtain ⟨p, rfl⟩ := htask
    obtain ⟨t, t', us, ht, hstep, hworkers, -⟩ := step?_of_advance hmove
    have hlt : p < s.run.workers.size := (Array.getElem?_eq_some_iff.mp ht).1
    have hp : p < config.plan.numMaps.toNat := by
      rw [← hsound.numMaps_eq]
      exact Nat.lt_of_lt_of_le hlt hsound.size_le
    have hcurrent : workerOf config s.run.workers p = t := workerOf_of_getElem? ht
    have hpunctual := (h.undisturbed.peace.steady p).punctual
    rw [hcurrent] at hpunctual
    have hshown := (Worker.move_of_step? hstep).1.shown h.undisturbed.running hpunctual c
    -- One worker and its log change, and with them one summand on each side of the ledger.
    have howed := sum_update_add hp (fun _ => Worker.owed c) (workerOf config s.run.workers) t'
    have hsent := sum_update_add hp (fun _ L => tolled c (requestsOf L)) log
      (log p ++ [⟨t, s.world, s'.world⟩])
    simp only [requestsOf_append, requestsOf_singleton, tolled_append] at hsent
    rw [hcurrent] at howed
    have hledger := h.ledger c
    rw [logged_worker ht, hworkers, workerOf_setIfInBounds hlt]
    omega
  · have htask : ∀ p, task ≠ .worker p := fun p hp => htask ⟨p, hp⟩
    obtain ⟨hworkers, -, -, hgrid, -⟩ := hsound.aside_of_advance hmove htask
    rw [logged_of_ne htask, hworkers, hgrid]
    exact h.ledger c

/-- What a whole run preserves. -/
theorem ReachesBy.billed (hapart : ∀ p q, p ≠ q → (teamOf config p).Apart (teamOf config q))
    (hcalm : w.grid.Calm) (htidy : w.grid.Tidy) (hrun : w.cancelled = false)
    (hs : ReachesBy MemoryStore.grid (.still _) (start config w) log s) :
    Billed config w.grid log s := by
  induction hs with
  | refl => exact billed_start hcalm htidy hrun
  | move _ hmove ih => exact ih.move hapart hmove
  | stir _ hstir ih =>
    obtain ⟨moment, rfl⟩ := hstir
    refine ⟨?_, ih.ledger⟩
    exact ih.undisturbed.aside (ih.undisturbed.sound.stir _) rfl rfl (Nat.le_max_left _ _) rfl rfl
      rfl
  | panic _ hpanics => exact hpanics.elim

/-- What the requests of one partition show on the counters when the run has finished, by the
    numbers drawn for its removals. -/
theorem Billed.tolled_eq (h : Billed config w.grid log s)
    (hs : ReachesBy MemoryStore.grid (.still _) (start config w) log s)
    (hphase : s.run.phase = .finished) (hruns : config.plan.numRuns.toNat ≠ 0) {p : Nat}
    (hp : p < config.plan.numMaps.toNat) (hstock : (teamOf config p).Stock items)
    (habsent : ∀ i ∈ items,
      (w.grid.entries (teamOf config p).mapName)[(teamOf config p).place i]? = none) :
    ∃ rs : List Nat, rs.length = config.plan.numRuns.toNat ∧
      (∃ h ls, (teamOf config p).Worked h (actsOf MemoryStore.grid (log p)) ls ∧
        (ls.map fun l => lastPick? (deedsOf l.acts)) =
          rs.map fun r => some (removalCount items.length, r)) ∧
      ∀ c, tolled c (requestsOf (log p)) = (if c = .getMap then 1 else 0) +
        Partition.roundsCost items.length items.length rs c + if c = .destroy then 1 else 0 := by
  have houtcome := h.undisturbed.outcome hphase hp hruns hstock fun i hi => .inl (habsent i hi)
  obtain ⟨t, ht, hended, hcrash⟩ := houtcome.worker
  obtain ⟨m, ls, hworked, -⟩ := hs.exists_laps ht hended hcrash houtcome.acquired
  obtain ⟨hpath, hdiary⟩ := hs.chronicled.path (h.undisturbed.unpanicked p)
  have hgrants := (h.undisturbed.peace.steady p).grants
  rw [hdiary] at hgrants
  obtain ⟨rs, hpicks, hspent⟩ := hworked.spent hstock hgrants habsent
  have hended' : (workerOf config s.run.workers p).hasEnded = true := by
    rw [workerOf_of_getElem? ht]
    exact hended
  have hrequests := (hs.chronicled p).requestsOf_eq hended' hworked.handed
    (hpath.filterMap_requestsOf hended')
  rw [Partition.callsMade_of_told hpath.genuine (Partition.told_of_grants hgrants)] at hrequests
  have hlength : rs.length = ls.length := by
    simpa using (congrArg List.length hpicks).symm
  refine ⟨rs, hlength.trans hworked.length, ⟨m, ls, hworked, hpicks⟩, fun c => ?_⟩
  rw [hrequests, tolled_visit, hspent]

/-! ## The counters at the end -/

/-- The counters have grown by no more than the requests sent. -/
theorem Billed.total_le (h : Billed config s₀ log s) : s.world.grid.calls.total ≤
    s₀.calls.total +
      ∑ p ∈ Finset.range config.plan.numMaps.toNat, (requestsOf (log p)).length := by
  have hle (c : Counter) : s.world.grid.calls.shown c ≤ s₀.calls.shown c +
      ∑ p ∈ Finset.range config.plan.numMaps.toNat, tolled c (requestsOf (log p)) :=
    Nat.le_of_add_right_le (h.ledger c).le
  simp only [← sum_tolled, Finset.sum_add_distrib, CallCounts.total_eq_shown]
  have hgetMap := hle .getMap
  have hcontainsKey := hle .containsKey
  have hget := hle .get
  have hset := hle .set
  have hremove := hle .remove
  have hdestroy := hle .destroy
  omega

/-- The sum of a list, by its places. -/
theorem sum_eq_sum_range (l : List Nat) : l.sum = ∑ i ∈ Finset.range l.length, l[i]?.getD 0 := by
  induction l with
  | nil => rfl
  | cons a l ih =>
    rw [List.sum_cons, ih, List.length_cons, Finset.sum_range_succ', Nat.add_comm]
    rfl

/-- Without the last place. -/
theorem sum_dropLast_eq (l : List Nat) :
    l.dropLast.sum = ∑ i ∈ Finset.range (l.length - 1), l[i]?.getD 0 := by
  rw [sum_eq_sum_range, List.length_dropLast]
  refine Finset.sum_congr rfl fun i hi => ?_
  rw [List.getElem?_dropLast, if_pos (Finset.mem_range.mp hi)]

/-- The calls of `m` partitions with `runs` rounds each on `n` elements, where round `i` of partition
    `p` draws the number `r p i` for its removal. -/
def expectedCalls (m runs n : Nat) (r : Nat → Nat → Nat) : CallCounts where
  getMap := m
  destroy := m
  get := m * runs * n
  set := ∑ p ∈ Finset.range m, (n + ∑ i ∈ Finset.range (runs - 1), r p i)
  remove := ∑ p ∈ Finset.range m, ∑ i ∈ Finset.range runs, r p i
  containsKey := m * runs * n + ∑ p ∈ Finset.range m, ∑ i ∈ Finset.range runs, r p i

/-- The calls of all partitions, summed up. -/
theorem sum_roundsCost {m runs n : Nat} (hruns : runs ≠ 0) {rs : Nat → List Nat}
    (hrs : ∀ p < m, (rs p).length = runs) (c : Counter) :
    ∑ p ∈ Finset.range m, ((if c = .getMap then 1 else 0) + Partition.roundsCost n n (rs p) c +
      if c = .destroy then 1 else 0) =
      (expectedCalls m runs n fun p i => (rs p)[i]?.getD 0).shown c := by
  have hsum : ∀ p ∈ Finset.range m, (rs p).sum = ∑ i ∈ Finset.range runs, (rs p)[i]?.getD 0 :=
    fun p hp => by rw [sum_eq_sum_range, hrs p (Finset.mem_range.mp hp)]
  cases c with
  | getMap | destroy =>
    simp [Partition.roundsCost, expectedCalls, CallCounts.shown]
  | containsKey =>
    have hcost : ∀ p ∈ Finset.range m, 0 + ((rs p).length * n + (rs p).sum) + 0 =
        runs * n + ∑ i ∈ Finset.range runs, (rs p)[i]?.getD 0 := fun p hp => by
      rw [hrs p (Finset.mem_range.mp hp), hsum p hp]
      omega
    refine (Finset.sum_congr rfl hcost).trans ?_
    rw [Finset.sum_add_distrib, Finset.sum_const, Finset.card_range, smul_eq_mul, ← Nat.mul_assoc]
    rfl
  | get =>
    have hcost : ∀ p ∈ Finset.range m, 0 + (rs p).length * n + 0 = runs * n := fun p hp => by
      rw [hrs p (Finset.mem_range.mp hp)]
      omega
    refine (Finset.sum_congr rfl hcost).trans ?_
    rw [Finset.sum_const, Finset.card_range, smul_eq_mul, ← Nat.mul_assoc]
    rfl
  | set =>
    refine Finset.sum_congr rfl fun p hp => ?_
    have hlength := hrs p (Finset.mem_range.mp hp)
    have hne : rs p ≠ [] := fun hnil => hruns (by rw [← hlength, hnil, List.length_nil])
    show 0 + (n :: rs p).dropLast.sum + 0 = n + ∑ i ∈ Finset.range (runs - 1), (rs p)[i]?.getD 0
    rw [List.dropLast_cons_of_ne_nil hne, List.sum_cons, sum_dropLast_eq, hlength]
    omega
  | remove =>
    refine Finset.sum_congr rfl fun p hp => ?_
    exact (Nat.zero_add _).trans (hsum p hp)

/-- The remote calls of a run that nothing disturbs.  For any plan that was resolved, any elements
    with distinct identifiers that pass their check, any draws, and any calm store that does not
    hold the keys of the elements, the run finishes.  Whatever the order of its steps, when it has
    finished, the counters of the store have grown by exactly the expected calls, where the number
    `r p i` is the one that partition `p` picked last in its round `i`.  All the time the counters
    are 64-bit words, as long as the requests counted before and those sent since are fewer than
    there are such words. -/
theorem calls_accounted {settings : RunnerSection} {path base : String}
    (hplan : settings.resolve path base = .ok config.plan)
    (helements : config.elements = items.map fun i => ⟨.ok i.1, .ok i.2⟩)
    (hdistinct : (items.map Prod.fst).Nodup)
    (hcheck : ∀ i ∈ items, config.check i.2 = .ok ())
    (hcalm : w.grid.Calm) (htidy : w.grid.Tidy) (hrun : w.cancelled = false)
    (habsent : ∀ p < config.plan.numMaps.toNat, ∀ i ∈ items,
      (w.grid.entries (teamOf config p).mapName)[(teamOf config p).place i]? = none) :
    Inevitable (Moves MemoryStore.grid (.still _)) (fun s => s.run.phase = .finished)
      (start config w) ∧
    ∀ log s, ReachesBy MemoryStore.grid (.still _) (start config w) log s →
      (w.grid.calls.total + ∑ p ∈ Finset.range config.plan.numMaps.toNat,
          (requestsOf (log p)).length < UInt64.size → s.world.grid.calls.Fits) ∧
      (s.run.phase = .finished → ∃ r : Nat → Nat → Nat,
        (∀ p < config.plan.numMaps.toNat, ∃ h ls,
          (teamOf config p).Worked h (actsOf MemoryStore.grid (log p)) ls ∧
          ∀ i < config.plan.numRuns.toNat, (ls[i]?).bind (fun l => lastPick? (deedsOf l.acts)) =
            some (removalCount items.length, r p i)) ∧
        s.world.grid.calls = w.grid.calls.add
          (expectedCalls config.plan.numMaps.toNat config.plan.numRuns.toNat items.length r)) := by
  have hstock : ∀ p, (teamOf config p).Stock items := fun p => ⟨helements, hdistinct, hcheck⟩
  have hruns := numRuns_ne_zero hplan
  refine ⟨(sound_start config w).inevitable_finished.mono fun _ hs => hs.1, fun log s hs => ?_⟩
  have h := hs.billed (apart_teamOf helements) hcalm htidy hrun
  refine ⟨fun hfew => CallCounts.fits_of_total_lt (Nat.lt_of_le_of_lt h.total_le hfew),
    fun hphase => ?_⟩
  have hbill := fun p (hp : p < config.plan.numMaps.toNat) =>
    h.tolled_eq hs hphase hruns hp (hstock p) (habsent p hp)
  choose! rs hlength hworked htolled using hbill
  refine ⟨fun p i => (rs p)[i]?.getD 0, fun p hp => ?_, CallCounts.ext_shown fun c => ?_⟩
  · obtain ⟨m, ls, hls, hpicks⟩ := hworked p hp
    refine ⟨m, ls, hls, fun i hi => ?_⟩
    have hpick := congrArg (fun l => l[i]?) hpicks
    have hlt : i < (rs p).length := (hlength p hp).symm ▸ hi
    rw [List.getElem?_map, List.getElem?_map, List.getElem?_eq_getElem hlt] at hpick
    obtain ⟨l, hl, hl'⟩ := Option.map_eq_some_iff.mp hpick
    have hget : (rs p)[i]?.getD 0 = (rs p)[i] := by
      rw [List.getElem?_eq_getElem hlt]
      rfl
    rw [hl, Option.bind_some, hl']
    exact congrArg (fun r => some (removalCount items.length, r)) hget.symm
  · -- When the run has finished, no counter owes anything to anyone.
    have howed : ∀ p ∈ Finset.range config.plan.numMaps.toNat,
        (workerOf config s.run.workers p).owed c = 0 := by
      intro p hp
      obtain ⟨t, ht, hended⟩ := hs.sound.exists_ended hphase (Finset.mem_range.mp hp)
      rw [workerOf_of_getElem? ht]
      exact Worker.owed_of_hasEnded hended c
    have hledger := h.ledger c
    rw [Finset.sum_eq_zero howed, Nat.add_zero, Finset.sum_congr rfl fun p hp =>
      htolled p (Finset.mem_range.mp hp) c, sum_roundsCost hruns hlength] at hledger
    rw [hledger, CallCounts.shown_add]

/-- The counters of the sample run, on an empty store. -/
theorem calls_accounted_sample :
    ∃ plan log s r, sampleSettings.resolve "map-tests.load" "load" = .ok plan ∧
      ReachesBy MemoryStore.grid (.still _) (start (sampleConfig plan) { grid := {} }) log s ∧
      s.run.phase = .finished ∧ s.world.grid.calls = expectedCalls 2 2 2 r := by
  obtain ⟨plan, hplan⟩ := exists_samplePlan
  have hmaps : (sampleConfig plan).plan.numMaps.toNat = 2 := by
    cases hplan
    rfl
  have hruns : (sampleConfig plan).plan.numRuns.toNat = 2 := by
    cases hplan
    rfl
  have hcheck : ∀ i ∈ sampleItems, LoadElement.shape.check i.2 = .ok () := by decide
  have hcalm : ({} : MemoryStore).Calm := rfl
  have htidy : ({} : MemoryStore).Tidy := fun n hn => by cases hn
  obtain ⟨-, hall⟩ := @calls_accounted (sampleConfig plan) sampleItems { grid := {} } _ _ _ hplan rfl
    (by decide) hcheck hcalm htidy rfl fun p _ i _ => by simp [MemoryStore.entries]
  obtain ⟨log, s, hs, hphase⟩ := exists_finished_by MemoryStore.grid (.still _) (sampleConfig plan)
    { grid := {} }
  obtain ⟨r, -, hcalls⟩ := (hall log s hs).2 hphase
  refine ⟨plan, log, s, r, hplan, hs, hphase, hcalls.trans ?_⟩
  rw [hmaps, hruns]
  refine CallCounts.ext_shown fun c => (CallCounts.shown_add _ _ c).trans ?_
  cases c <;> exact Nat.zero_add _

end Watched

/-! ## An element that cannot be written -/

namespace Partition

open Proc

variable {p : Partition} {t : Sight}

/-- Effects that read no value. -/
def Unread : Effect → Prop
  | .ask (.call _ (.get _)) _ => False
  | _ => True

/-- A program that asks for nothing leaves the entries alone. -/
theorem truthful_of_unasked {α : Type} {F : Proc α} {Q : Unit → α → Prop}
    (h : F.Keeps (.plain fun e => e.isAsk = false) Q ()) (t : Sight) :
    F.Keeps (.truthful Unread) (fun t' _ => t'.entries = t.entries) t := by
  induction F generalizing t with
  | done a => rfl
  | op e k ih =>
    match e with
    | .ask _ _ => cases h.1
    | .pause _ | .clock | .log _ | .publish _ => exact ⟨trivial, fun r _ => ih r (h.2 r trivial) t⟩
    | .pick q => exact ⟨trivial, fun n _ => ih n (h.2 n trivial) ⟨t.entries, some (q, n)⟩⟩

/-- If the first element cannot be written and is not in the map, a round fails before it reads. -/
theorem round_unread {id : String} {f : Fault} {es : List Element}
    (helements : p.config.elements = ⟨.ok id, .error f⟩ :: es) (h : Handle)
    (ht : t.entries[storageKey p.config.client p.number id]? = none) :
    (p.round h).Keeps (.truthful Unread) (fun t' e => t' = t ∧ e = .failed .ingest f) t := by
  have hkey : p.keyOf ⟨.ok id, .error f⟩ = pure (storageKey p.config.client p.number id) := rfl
  rw [round, ingestAll, helements]
  simp only [ingest, hkey, pure_bind]
  refine ⟨trivial, fun a ha => ?_⟩
  obtain rfl : a = .ok (t.entries.contains (storageKey p.config.client p.number id)) := ha
  rw [Std.ExtTreeMap.contains_eq_isSome_getElem?, ht]
  exact ⟨rfl, rfl⟩

theorem rounds_unread {id : String} {f : Fault} {es : List Element}
    (helements : p.config.elements = ⟨.ok id, .error f⟩ :: es) (h : Handle)
    (left run completed failed : Nat)
    (ht : t.entries[storageKey p.config.client p.number id]? = none) :
    (p.rounds h left run completed failed).Keeps (.truthful Unread) (fun _ _ => True) t := by
  induction left generalizing run completed failed t with
  | zero =>
    have hend := truthful_of_unasked (p.conclusion_unasked h run completed failed) t
    exact hend.mono fun _ _ _ => trivial
  | succ left ih =>
    rw [rounds_succ, iteration_eq, Proc.bind_assoc]
    refine (truthful_of_unasked (lead_unasked run) t).bind fun t₁ _ ht₁ => ?_
    refine (round_unread helements h (ht₁ ▸ ht)).bind fun t₂ e h₂ => ?_
    obtain ⟨rfl, rfl⟩ := h₂
    refine (truthful_of_unasked (account_unasked run completed failed _) _).bind fun t₃ _ ht₃ => ?_
    exact ih _ _ _ (by rw [ht₃, ht₁, ht])

/-- The worker of such a partition reads nothing, if its map does not hold the element. -/
theorem work_unread {id : String} {f : Fault} {es : List Element}
    (helements : p.config.elements = ⟨.ok id, .error f⟩ :: es)
    (ht : t.entries[storageKey p.config.client p.number id]? = none) :
    p.work.Keeps (.truthful Unread) (fun _ _ => True) t := by
  have haside : ∀ e, Aside e → Unread e := fun e he => by
    match e, he with
    | .ask (.acquire _) _, _ | .ask (.release _) _, _ | .pause _, _ | .clock, _ | .log _, _ => trivial
  rw [work_eq]
  refine (enter_truthful Unread haside t).bind fun t₁ a h₁ => ?_
  obtain ⟨rfl, n, rfl⟩ := h₁
  refine (rounds_unread helements _ _ 0 0 0 ht).bind fun t₂ crash _ => ?_
  refine ⟨trivial, fun a ha => ?_⟩
  obtain rfl : a = .ok () := ha
  trivial

end Partition

/-- A worker that has ended did the deed of each request it sent. -/
theorem Worker.Path.exists_deed {σ : Type} {g : Grid σ} {q : Proc (Option String)}
    {L : List (Entry σ)} {t : Worker} (h : Worker.Path g (.running q) L t)
    (hended : t.hasEnded = true) {r : Request} (hr : r ∈ requestsOf L) :
    ∃ withinMs a, ⟨.ask r withinMs, a⟩ ∈ deedsOf (actsOf g L) := by
  have hsent := h.requestsOf_eq
  rw [Worker.pending_of_hasEnded hended, List.append_nil] at hsent
  have hanswered : r ∈ answered (actsOf g L) := hsent ▸ hr
  obtain ⟨a, ha, hra⟩ := List.mem_flatMap.mp hanswered
  have hdeed := List.mem_map_of_mem (f := Act.deed) ha
  cases h.genuine a ha with
  | answered _ =>
    obtain rfl := List.mem_singleton.mp hra
    exact ⟨_, _, hdeed⟩
  | refused | other => cases hra

namespace Watched

/-- An element that cannot be serialised is never read, so that the counters of a run with it are not
    the expected ones, although nothing disturbs it. -/
theorem calls_accounted_unwritable :
    ∃ plan log s, sampleSettings.resolve "map-tests.load" "load" = .ok plan ∧
      ReachesBy MemoryStore.grid (.still _) (start (unwritableConfig plan) { grid := {} }) log s ∧
      s.run.phase = .finished ∧ s.world.grid.calls.get = 0 ∧
      ∀ r, s.world.grid.calls ≠ ({ : CallCounts }).add (expectedCalls 2 2 1 r) := by
  obtain ⟨plan, hplan⟩ := exists_samplePlan
  obtain ⟨log, s, hs, hphase⟩ := exists_finished_by MemoryStore.grid (.still _)
    (unwritableConfig plan) { grid := {} }
  have hapart : ∀ p q, p ≠ q →
      (teamOf (unwritableConfig plan) p).Apart (teamOf (unwritableConfig plan) q) := by
    rintro p q hpq key - ⟨e, he, hkey⟩ ⟨e', he', hkey'⟩
    obtain rfl := List.mem_singleton.mp he
    obtain rfl := List.mem_singleton.mp he'
    cases hkey
    exact hpq (storageKey_inj_of_client (Except.ok.inj hkey').symm).1
  have hcalm : ({} : MemoryStore).Calm := rfl
  have htidy : ({} : MemoryStore).Tidy := fun n hn => by cases hn
  have h := hs.billed hapart hcalm htidy rfl
  have hnone : ∀ p ∈ Finset.range (unwritableConfig plan).plan.numMaps.toNat,
      tolled .get (requestsOf (log p)) = 0 := by
    intro p hp
    obtain ⟨t, ht, hended⟩ := hs.sound.exists_ended hphase (Finset.mem_range.mp hp)
    obtain ⟨hpath, hdiary⟩ := hs.chronicled.path (h.undisturbed.unpanicked p)
    rw [workerOf_of_getElem? ht] at hpath
    have hgrants := (h.undisturbed.peace.steady p).grants
    rw [hdiary] at hgrants
    have helements : (teamOf (unwritableConfig plan) p).config.elements =
        [⟨.ok "1", .error (.json "odd id 1")⟩] := rfl
    have hwork := Partition.work_unread (t := ⟨∅, none⟩) helements (by simp)
    refine List.countP_eq_zero.mpr fun r hr hget => ?_
    obtain ⟨withinMs, a, hmem⟩ := hpath.exists_deed hended hr
    have hunread := hpath.plays.forall_may (fun _ _ he => he) (Terms.grants_truthful hgrants) hwork
      _ hmem
    match r with
    | .call _ (.get _) => exact hunread
    | .call _ (.containsKey _) | .call _ (.set ..) | .call _ (.remove _) | .acquire _
    | .release _ => cases of_decide_eq_true hget
  have hledger := h.ledger .get
  rw [Finset.sum_eq_zero hnone] at hledger
  have hget : s.world.grid.calls.get = 0 := Nat.eq_zero_of_add_eq_zero_right hledger
  refine ⟨plan, log, s, hplan, hs, hphase, hget, fun r hr => ?_⟩
  rw [hr] at hget
  cases hget

end Watched

end GridBench
