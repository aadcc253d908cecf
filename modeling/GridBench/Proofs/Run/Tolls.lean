/-
  GridBench.Proofs.Run.Tolls

  What becomes of the calls of a store that are set to misbehave.  Each of them
  fails one round: a step of a worker uses up as many of them as it gets
  answers that are not good (`Partition.Pays`), and a round gets one such answer
  if it fails and none if it is completed.  The ledger of a run
  (`Watched.Besieged`) says that those used up are the blows in the diaries of
  its workers, whatever the order of their steps.  Main statement:
  `each_fault_fails_one_round`.
-/
import Mathlib.Algebra.BigOperators.Group.Finset.Basic
import Mathlib.Algebra.BigOperators.Group.Finset.Piecewise
import GridBench.Proofs.Run.Calls
import GridBench.Proofs.Run.Siege

namespace GridBench

/-! ## Load elements -/

namespace LoadElement

/-- An element with its serialised form. -/
def item (e : LoadElement) : String × Json := (e.key, e.toJson)

/-- The serialised form of an element passes the check. -/
theorem check_toJson (e : LoadElement) : shape.check e.toJson = .ok () := rfl

/-- What a corrupted read answers does not. -/
theorem check_corrupted : (shape.check MemoryStore.corrupted).isOk = false := rfl

theorem map_element (es : List LoadElement) :
    es.map LoadElement.element = Partition.listed (es.map item) := by
  rw [Partition.listed, List.map_map]
  rfl

end LoadElement

/-! ## Tolls -/

/-- How many of the calls set to misbehave a step uses up. -/
def Entry.toll (e : Entry MemoryStore) : Nat := e.before.grid.units - e.after.grid.units

/-- How many of them are used up in a round and what comes before it. -/
def Lap.toll (l : Lap MemoryStore) : Nat := ((l.lead ++ l.acts).map fun a => a.entry.toll).sum

namespace Partition

open Proc

variable {p : Partition} {items : List (String × Json)} {as : List (Act MemoryStore)}

/-- A step uses up as many of the calls set to misbehave as it gets answers that are not good. -/
def Pays (p : Partition) (e : Entry MemoryStore) : Prop :=
  e.after.grid.units + p.blows (e.worker.deeds MemoryStore.grid e.before) = e.before.grid.units

/-- A step completes one deed at most, so what it uses up is due to this one. -/
theorem Pays.toll_eq {L : List (Entry MemoryStore)} (hL : ∀ e ∈ L, p.Pays e)
    (hstep : ∀ e ∈ L, (e.worker.deeds MemoryStore.grid e.before).length ≤ 1)
    {a : Act MemoryStore} (ha : a ∈ actsOf MemoryStore.grid L) :
    a.entry.toll = p.blows [a.deed] := by
  obtain ⟨e, he, hae⟩ := List.mem_flatMap.mp ha
  obtain ⟨d, hd, rfl⟩ := List.mem_map.mp hae
  have hdeeds : e.worker.deeds MemoryStore.grid e.before = [d] := by
    obtain ⟨d', hd'⟩ := List.length_eq_one_iff.mp
      (Nat.le_antisymm (hstep e he) (List.length_pos_of_mem hd))
    rw [hd'] at hd ⊢
    rw [List.mem_singleton.mp hd]
  have hpays := hL e he
  rw [Pays, hdeeds] at hpays
  show e.before.grid.units - e.after.grid.units = p.blows [d]
  omega

theorem sum_toll (has : ∀ a ∈ as, a.entry.toll = p.blows [a.deed]) :
    (as.map fun a => a.entry.toll).sum = p.blows (deedsOf as) := by
  induction as with
  | nil => rfl
  | cons a as ih =>
    have hdeeds : deedsOf (a :: as) = [a.deed] ++ deedsOf as := rfl
    rw [List.map_cons, List.sum_cons, has a List.mem_cons_self,
      ih fun b hb => has b (List.mem_cons_of_mem _ hb), hdeeds, blows_append]

/-! ## Rounds -/

/-- A round gets one answer that is not good if it fails, and none if it is completed. -/
theorem blows_round (helements : p.config.elements = listed items) {h : Handle} {ds : List Deed}
    {e : RoundEnd} (hplays : Plays (p.round h) ds (.done e)) (hdrawn : ∀ d ∈ ds, d.IsDrawn) :
    p.blows ds = if e.isFailed then 1 else 0 := by
  have hgood : ∀ xs : List MadeCall, (∀ x ∈ xs, p.verdict x = .ok ()) →
      (xs.countP fun x => !(p.verdict x).isOk) = 0 := by
    intro xs hxs
    refine List.countP_eq_zero.mpr fun x hx => ?_
    rw [hxs x hx]
    exact Bool.false_ne_true
  obtain ⟨r, -, ⟨rfl, htracks⟩ | ⟨action, f, rfl, htracks⟩, -⟩ := round_goes helements hplays hdrawn
  · exact hgood _ htracks.of_none.2
  · rw [blows]
    generalize callsOf ds = ys at htracks
    cases htracks with
    | broken _ hwell hbad =>
      rw [List.countP_append, hgood _ hwell, List.countP_singleton, hbad]
      rfl

theorem toll_of_plays (helements : p.config.elements = listed items) {h : Handle} {n : Nat}
    {l : Lap MemoryStore} (hlead : Plays (p.lead n) (deedsOf l.lead) (.done ()))
    (hround : Plays (p.round h) (deedsOf l.acts) (.done l.roundEnd))
    (hgenuine : ∀ a ∈ l.acts, a.Genuine MemoryStore.grid)
    (htoll : ∀ a ∈ l.lead ++ l.acts, a.entry.toll = p.blows [a.deed]) :
    l.toll = if l.roundEnd.isFailed then 1 else 0 := by
  have hnone : p.blows (deedsOf l.lead) = 0 :=
    blows_of_unasked (hlead.forall_effect (lead_unasked n))
  rw [Lap.toll, sum_toll htoll, deedsOf_append, blows_append, hnone, Nat.zero_add]
  exact blows_round helements hround (forall_isDrawn hgenuine)

/-- The answers that are not good in the diary of a worker are as many as the rounds that failed. -/
theorem Worked.blows_eq (helements : p.config.elements = listed items) {h : Handle}
    {ls : List (Lap MemoryStore)} (hworked : p.Worked h as ls)
    (hgenuine : ∀ a ∈ as, a.Genuine MemoryStore.grid) :
    p.blows (deedsOf as) = (ls.map Lap.roundEnd).countP RoundEnd.isFailed := by
  have hround : ∀ l ∈ ls, p.blows (deedsOf l.acts) = if l.roundEnd.isFailed then 1 else 0 := by
    intro l hl
    obtain ⟨hpiece, -, hplays, -⟩ := hworked.forall_laps l hl
    exact blows_round helements hplays (forall_isDrawn fun a ha =>
      hgenuine a (hpiece.subset (List.mem_append_right _ ha)))
  rw [blows, hworked.callsOf_eq, List.countP_flatMap, List.countP_map]
  clear hworked
  induction ls with
  | nil => rfl
  | cons l ls ih =>
    rw [List.map_cons, List.sum_cons, List.countP_cons,
      ih fun l' hl' => hround l' (List.mem_cons_of_mem _ hl'), Nat.add_comm]
    exact congrArg _ (hround l List.mem_cons_self)

end Partition

/-! ## The ledger of a run -/

/-- A sum in which the place `p` is filled anew. -/
theorem sum_update_add {β : Type} {n p : Nat} (hp : p < n) (f : Nat → β → Nat) (x : Nat → β)
    (v : β) :
    ∑ q ∈ Finset.range n, f q (Function.update x p v q) + f p (x p) =
      ∑ q ∈ Finset.range n, f q (x q) + f p v := by
  have hmem : p ∈ Finset.range n := Finset.mem_range.mpr hp
  have hupdate := Function.apply_update f x p v
  rw [Finset.sum_congr rfl fun q _ => hupdate q, Finset.sum_update_of_mem hmem,
    Finset.sum_eq_add_sum_sdiff_singleton_of_mem hmem]
  omega

namespace Watched

variable {config : LoopConfig} {s s' : Watched MemoryStore} {log : Log MemoryStore}
variable {s₀ : MemoryStore} {items : List (String × Json)} {w : World MemoryStore}

/-- What is asked of a run on a store whose calls may misbehave: its elements can be computed and
    pass the check, which what is corrupted does not, and so does whatever the store already has
    under their keys. -/
structure Sturdy (config : LoopConfig) (items : List (String × Json)) (s₀ : MemoryStore) :
    Prop where
  elements : config.elements = Partition.listed items
  check : ∀ i ∈ items, config.check i.2 = .ok ()
  tells : (config.check MemoryStore.corrupted).isOk = false
  fit : ∀ p < config.plan.numMaps.toNat,
    (teamOf config p).Fit items (s₀.entries (teamOf config p).mapName)

/-- What holds of such a run at any time. -/
structure Besieged (config : LoopConfig) (s₀ : MemoryStore) (log : Log MemoryStore)
    (s : Watched MemoryStore) : Prop where
  running : s.world.cancelled = false
  siege : Siege (teamOf config) s₀ s.world.grid (workerOf config s.run.workers) s.diary
  pays : ∀ p, ∀ e ∈ log p, (teamOf config p).Pays e
  ledger : s.world.grid.units +
    ∑ p ∈ Finset.range config.plan.numMaps.toNat, (teamOf config p).blows (s.diary p) = s₀.units

theorem besieged_start (hwilling : w.grid.faults.failGetMap = false)
    (hprompt : w.grid.faults.getMapDelayMs ≤ config.getMapTimeoutMs) (htidy : w.grid.Tidy)
    (hrun : w.cancelled = false) : Besieged config w.grid (fun _ => []) (start config w) where
  running := hrun
  siege := .start hwilling (fun _ => hprompt) htidy
  pays _ _ he := absurd he List.not_mem_nil
  ledger := Nat.add_eq_left.mpr (Finset.sum_eq_zero fun _ _ => rfl)

/-- The blows of all workers when one of them gets some more. -/
theorem sum_blows_update {n p : Nat} (hp : p < n) (diary : Nat → List Deed) (ds : List Deed) :
    ∑ q ∈ Finset.range n, (teamOf config q).blows (Function.update diary p (diary p ++ ds) q) =
      (teamOf config p).blows ds + ∑ q ∈ Finset.range n, (teamOf config q).blows (diary q) := by
  have hsum := sum_update_add hp (fun q => (teamOf config q).blows) diary (diary p ++ ds)
  rw [Partition.blows_append] at hsum
  omega

/-- What one step of a task preserves. -/
theorem Besieged.move {task : LoopTask} (h : Besieged config s₀ log s) (hsound : s.Sound config)
    (hcalm : ∀ p, s.panicked p = false) (hsturdy : Sturdy config items s₀)
    (hmove : s.advance MemoryStore.grid task = some s') :
    Besieged config s₀ (s.logged task s'.world log) s' := by
  by_cases htask : ∃ p, task = .worker p
  · obtain ⟨p, rfl⟩ := htask
    obtain ⟨t, t', us, ht, hstep, hworkers, -, -, hdiary⟩ := step?_of_advance hmove
    have hlt : p < s.run.workers.size := (Array.getElem?_eq_some_iff.mp ht).1
    have hp : p < config.plan.numMaps.toNat := by
      rw [← hsound.numMaps_eq]
      exact Nat.lt_of_lt_of_le hlt hsound.size_le
    have hmoves := (Worker.move_of_step? hstep).1
    have hcurrent : workerOf config s.run.workers p = t := workerOf_of_getElem? ht
    rw [← hcurrent] at hmoves
    obtain ⟨hsiege, hunits⟩ := h.siege.move ⟨hsturdy.elements, hsturdy.check⟩ (hsturdy.fit p hp)
      hsturdy.tells (apart_teamOf hsturdy.elements) h.running hmoves
    rw [hcurrent] at hsiege hunits
    have hnote : s'.diary =
        Function.update s.diary p (s.diary p ++ t.deeds MemoryStore.grid s.world) := by
      rw [hdiary, note, hcalm p]
      rfl
    rw [logged_worker ht]
    refine ⟨hmoves.world.1.trans h.running, ?_, forall_mem_update h.pays hunits, ?_⟩
    · rw [hworkers, workerOf_setIfInBounds hlt, hnote]
      exact hsiege
    -- What the step uses up goes from one side of the ledger to the other.
    · have hledger := h.ledger
      rw [hnote, sum_blows_update hp]
      omega
  · have htask : ∀ p, task ≠ .worker p := fun p hp => htask ⟨p, hp⟩
    obtain ⟨hworkers, hdiary, -, hgrid, -, hcancelled⟩ := hsound.aside_of_advance hmove htask
    rw [logged_of_ne htask]
    refine ⟨hcancelled.trans h.running, ?_, h.pays, ?_⟩
    · rw [hworkers, hdiary, hgrid]
      exact h.siege
    · rw [hdiary, hgrid]
      exact h.ledger

/-- What a whole run preserves, around which only time passes. -/
theorem ReachesBy.besieged (hsturdy : Sturdy config items w.grid)
    (hwilling : w.grid.faults.failGetMap = false)
    (hprompt : w.grid.faults.getMapDelayMs ≤ config.getMapTimeoutMs) (htidy : w.grid.Tidy)
    (hrun : w.cancelled = false)
    (hs : ReachesBy MemoryStore.grid (.still _) (start config w) log s) :
    Besieged config w.grid log s := by
  induction hs with
  | refl => exact besieged_start hwilling hprompt htidy hrun
  | move hs hmove ih => exact ih.move hs.sound (congrFun (hs.panicked_eq id)) hsturdy hmove
  | stir _ hstir ih =>
    obtain ⟨moment, rfl⟩ := hstir
    exact ⟨ih.running, ih.siege, ih.pays, ih.ledger⟩
  | panic _ hpanics => exact hpanics.elim

/-! ## The outcome -/

/-- The laps of a worker on a store whose calls may misbehave, and what they cost. -/
structure Weathered (config : LoopConfig) (log : Log MemoryStore) (s : Watched MemoryStore)
    (p : Nat) (h : Handle) (ls : List (Lap MemoryStore)) : Prop where
  worked : (teamOf config p).Worked h (actsOf MemoryStore.grid (log p)) ls
  completed : s.completed p = (ls.map Lap.roundEnd).countP RoundEnd.isCompleted
  failed : s.failed p = (ls.map Lap.roundEnd).countP RoundEnd.isFailed
  counts : s.completed p + s.failed p = config.plan.numRuns.toNat
  toll : ∀ l ∈ ls, l.toll ≤ 1 ∧ (l.roundEnd.isFailed = true ↔ l.toll = 1) ∧
    (l.roundEnd.isCompleted = true ↔ l.toll = 0)

/-- Every partition weathers the run. -/
theorem Besieged.weathered (h : Besieged config s₀ log s)
    (hs : ReachesBy MemoryStore.grid (.still _) (start config w) log s)
    (helements : config.elements = Partition.listed items) (hphase : s.run.phase = .finished)
    {p : Nat} (hp : p < config.plan.numMaps.toNat) :
    (∃ h ls, Weathered config log s p h ls) ∧ s.failed p = (teamOf config p).blows (s.diary p) := by
  have hcalm : ∀ t : Worker, s.run.workers[p]? = some t → t.crash? = none := fun t ht =>
    hs.uncrashed id helements ht
  obtain ⟨t, ht, hended⟩ := hs.sound.exists_ended hphase hp
  have hacquired : s.Acquired p := by
    refine (h.siege.braving p).acquired ?_
    rw [workerOf_of_getElem? ht]
    exact hended
  obtain ⟨m, ls, hworked, hends⟩ := hs.exists_laps ht hended (hcalm t ht) hacquired
  obtain ⟨hpath, hdiary⟩ := hs.chronicled.path (congrFun (hs.panicked_eq id) p)
  obtain ⟨hcompleted, hfailed⟩ := hs.sound.counts_of_ends hphase hacquired hcalm
  rw [hends] at hcompleted hfailed
  have hblows := hworked.blows_eq helements hpath.genuine
  rw [← hdiary, ← hfailed] at hblows
  refine ⟨⟨m, ls, hworked, hcompleted, hfailed, hs.sound.counts_complete hphase hacquired hcalm,
    fun l hl => ?_⟩, hblows.symm⟩
  obtain ⟨hpiece, ⟨n, hlead⟩, hround, hcrash⟩ := hworked.forall_laps l hl
  have hsingle : ∀ e ∈ log p, (e.worker.deeds MemoryStore.grid e.before).length ≤ 1 := by
    intro e he
    obtain ⟨t₁, us, hstep⟩ := hpath.step_of_mem he
    exact (Worker.move_of_step? hstep).1.length_le
  have htoll := Partition.toll_of_plays helements hlead hround
    (fun a ha => hpath.genuine a (hpiece.subset (List.mem_append_right _ ha)))
    fun a ha => Partition.Pays.toll_eq (h.pays p) hsingle (hpiece.subset ha)
  cases he : l.roundEnd with
  | completed => simp [htoll, he, RoundEnd.isFailed, RoundEnd.isCompleted]
  | failed action cause => simp [htoll, he, RoundEnd.isFailed, RoundEnd.isCompleted]
  | crashed message =>
    rw [he] at hcrash
    cases hcrash

/-- Each call that is set to misbehave fails one round.  For any load elements, any plan, any draws,
    any store that gives its maps in time and has only values that pass the check under the keys of
    the elements, and any order of the steps: the steps that complete nothing use up none of these
    calls; a round uses up one at most, and it fails if and only if it uses up one.  So when the run
    has finished, the failures of all partitions are the calls used up, and the completed rounds are
    all the others.  And the run finishes. -/
theorem each_fault_fails_one_round {es : List LoadElement}
    (helements : config.elements = es.map LoadElement.element)
    (hcheck : config.check = LoadElement.shape.check) (hrun : w.cancelled = false)
    (hwilling : w.grid.faults.failGetMap = false)
    (hprompt : w.grid.faults.getMapDelayMs ≤ config.getMapTimeoutMs) (htidy : w.grid.Tidy)
    (hfit : ∀ p < config.plan.numMaps.toNat, ∀ e ∈ es, ∀ v,
      (w.grid.entries (teamOf config p).mapName)[storageKey config.client p e.key]? = some v →
        LoadElement.shape.check v = .ok ())
    (hs : ReachesBy MemoryStore.grid (.still _) (start config w) log s) :
    (∀ p, ∀ e ∈ log p, e.after.grid.units + e.toll = e.before.grid.units ∧
      (e.worker.deeds MemoryStore.grid e.before = [] → e.toll = 0)) ∧
    (s.run.phase = .finished →
      (∀ p < config.plan.numMaps.toNat, ∃ h ls, Weathered config log s p h ls) ∧
      s.world.grid.units ≤ w.grid.units ∧
      ∑ p ∈ Finset.range config.plan.numMaps.toNat, s.failed p =
        w.grid.units - s.world.grid.units ∧
      ∑ p ∈ Finset.range config.plan.numMaps.toNat, s.completed p +
        (w.grid.units - s.world.grid.units) = config.plan.totalRuns.toNat) ∧
    Inevitable (Moves MemoryStore.grid (.still _)) (fun s => s.run.phase = .finished) s := by
  have hlisted := helements.trans (LoadElement.map_element es)
  have hsturdy : Sturdy config (es.map LoadElement.item) w.grid := by
    refine ⟨hlisted, fun i hi => ?_, hcheck ▸ LoadElement.check_corrupted, fun p hp i hi v hv => ?_⟩
    · obtain ⟨e, _, rfl⟩ := List.mem_map.mp hi
      exact hcheck ▸ e.check_toJson
    · obtain ⟨e, he, rfl⟩ := List.mem_map.mp hi
      exact hcheck ▸ hfit p hp e he v hv
  have h := hs.besieged hsturdy hwilling hprompt htidy hrun
  refine ⟨fun p e he => ?_, fun hphase => ?_, hs.sound.inevitable_finished.mono fun _ hs => hs.1⟩
  · have hpays := h.pays p e he
    refine ⟨?_, fun hnone => ?_⟩
    · rw [Entry.toll]
      rw [Partition.Pays] at hpays
      omega
    · rw [Partition.Pays, hnone] at hpays
      exact Nat.sub_eq_zero_of_le (Nat.le_of_eq hpays.symm)
  · have hall := fun p (hp : p < config.plan.numMaps.toNat) => h.weathered hs hlisted hphase hp
    have hfailed : ∑ p ∈ Finset.range config.plan.numMaps.toNat, s.failed p =
        ∑ p ∈ Finset.range config.plan.numMaps.toNat, (teamOf config p).blows (s.diary p) :=
      Finset.sum_congr rfl fun p hp => (hall p (Finset.mem_range.mp hp)).2
    -- The counts of each partition account for all its rounds.
    have htotal : ∑ p ∈ Finset.range config.plan.numMaps.toNat, (s.completed p + s.failed p) =
        config.plan.totalRuns.toNat := by
      rw [config.plan.toNat_totalRuns, Finset.sum_congr rfl fun p hp => ?_, Finset.sum_const,
        Finset.card_range, smul_eq_mul]
      obtain ⟨⟨_, _, hweathered⟩, _⟩ := hall p (Finset.mem_range.mp hp)
      exact hweathered.counts
    have hledger := h.ledger
    rw [Finset.sum_add_distrib] at htotal
    exact ⟨fun p hp => (hall p hp).1, by omega, by omega, by omega⟩

/-- A store that holds the first element of a sample run.  Of its next calls, a read is answered
    nothing, another one something corrupted, and a write is rejected. -/
def shakyStore (config : LoopConfig) : MemoryStore :=
  MemoryStore.withEntries { faults := { evictGets := 1, corruptGets := 1, failSets := 1 } }
    (teamOf config 0).mapName
    ((∅ : Entries).insert (storageKey config.client 0 "0") (LoadElement.toJson ⟨"0", "x"⟩))

/-- The sample run on such a store. -/
theorem each_fault_fails_one_round_sample :
    ∃ plan log s, sampleSettings.resolve "map-tests.load" "load" = .ok plan ∧
      ReachesBy MemoryStore.grid (.still _)
        (start (sampleConfig plan) { grid := shakyStore (sampleConfig plan) }) log s ∧
      s.run.phase = .finished ∧ s.failed 0 + s.failed 1 = 3 - s.world.grid.units ∧
      s.completed 0 + s.completed 1 + (3 - s.world.grid.units) = 4 := by
  obtain ⟨plan, hplan⟩ := exists_samplePlan
  have hmaps : (sampleConfig plan).plan.numMaps.toNat = 2 := by
    cases hplan
    rfl
  have hruns : (sampleConfig plan).plan.totalRuns.toNat = 4 := by
    cases hplan
    rfl
  have helements : (sampleConfig plan).elements =
      [⟨"0", "x"⟩, ⟨"1", "x"⟩].map LoadElement.element := rfl
  -- The store holds no other value than that of the first element.
  have hfit : ∀ (p : Nat) (key : String) (v : Json), ((shakyStore (sampleConfig plan)).entries
      (teamOf (sampleConfig plan) p).mapName)[key]? = some v →
        LoadElement.shape.check v = .ok () := by
    intro p key v hv
    rw [shakyStore, MemoryStore.entries_withEntries] at hv
    split at hv
    · rw [Std.ExtTreeMap.getElem?_insert] at hv
      split at hv
      · cases hv
        exact LoadElement.check_toJson _
      · simp at hv
    · simp [MemoryStore.entries] at hv
  obtain ⟨log, s, hs, hphase⟩ := exists_finished_by MemoryStore.grid (.still _) (sampleConfig plan)
    { grid := shakyStore (sampleConfig plan) }
  have hrun := each_fault_fails_one_round helements rfl rfl rfl (Nat.zero_le _)
    (fun n hn => by cases hn) (fun p _ e _ v => hfit p _ v) hs
  obtain ⟨-, -, hfailed, hcompleted⟩ := hrun.2.1 hphase
  rw [hmaps, Finset.sum_range_succ, Finset.sum_range_one] at hfailed hcompleted
  rw [hruns] at hcompleted
  exact ⟨plan, log, s, hplan, hs, hphase, hfailed, hcompleted⟩

end Watched

end GridBench
