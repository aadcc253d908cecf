/-
  GridBench.Proofs.Run.Maps

  The maps that a run leaves behind.  A store has a map from the time at which
  somebody asked for it; a request brings in no map but its own, and none goes
  away again (`MemoryStore.grows_finish`).  So a run that nothing disturbs
  leaves in an empty store the maps of its partitions and no others
  (`mem_maps_of_finished`): one for each partition, or one for all of them.
-/
import GridBench.Proofs.Run.Undisturbed

namespace GridBench

/-! ## Workers and maps -/

namespace Partition

variable {p : Partition} {t t' : Worker} {ds es : List Deed} {w w' : World MemoryStore}

/-- All requests of a worker are about its own map. -/
theorem request_map {r : Request} {withinMs : Option Nat}
    {k : Except Fault r.Answer → Proc (Option String)}
    (hplays : Proc.Plays p.work ds (.op (.ask r withinMs) k))
    (hheld : ∀ h, (p.hand ds).held = some h → h.map = p.mapName) : r.map = p.mapName := by
  have hmay := may_of_plays_work hplays
  cases r with
  | acquire m => exact hmay.1
  | call h c => exact hheld h hmay.1
  | release h => exact hheld h hmay.1

/-- A move of a worker brings in no map but its own. -/
theorem grows_of_move (hplays : Proc.Plays p.work ds t.program)
    (hheld : ∀ h, (p.hand ds).held = some h → h.map = p.mapName)
    (hmove : t.Move MemoryStore.grid w w' t' es) :
    MemoryStore.Grows p.mapName w.grid w'.grid ∧
      ∀ h, .ok h ∈ acquisitions es → p.mapName ∈ w'.grid.maps := by
  cases hmove with
  | @sent r withinMs k _ =>
    refine ⟨.of_eq ?_, fun h hh => by cases hh⟩
    cases r <;> rfl
  | woken => exact ⟨.of_eq rfl, fun h hh => by cases hh⟩
  | paused | clocked | picked | logged | published =>
    exact ⟨.of_eq rfl, fun h hh => by cases hh⟩
  | @refused r | @abandoned r | @late r =>
    refine ⟨.of_eq rfl, fun h hh => ?_⟩
    cases r with
    | acquire m => simp [acquisitions, Deed.acquired?] at hh
    | call | release => cases hh
  | @answered r f k _ =>
    rw [← request_map hplays hheld]
    refine ⟨w.grid.grows_finish f.ticket r, fun h hh => ?_⟩
    cases r with
    | acquire m =>
      have hok : .ok h = (w.grid.acquire m).1 := List.mem_singleton.mp hh
      exact MemoryStore.mem_maps_acquire hok.symm
    | call | release => cases hh

end Partition

/-! ## Runs and maps -/

namespace Watched

variable {config : LoopConfig} {s s' : Watched MemoryStore} {s₀ : MemoryStore}

/-- What holds of the maps of a store at any time of a run, if there were none at first. -/
structure Mapped (config : LoopConfig) (s : Watched MemoryStore) : Prop where
  named : ∀ m ∈ s.world.grid.maps,
    ∃ p < config.plan.numMaps.toNat, m = (teamOf config p).mapName
  kept : ∀ p, s.Acquired p → (teamOf config p).mapName ∈ s.world.grid.maps

/-- The store and the diaries stay as they are. -/
theorem Mapped.aside (h : s.Mapped config) (hgrid : s'.world.grid = s.world.grid)
    (hdiary : s'.diary = s.diary) : s'.Mapped config where
  named m hm := h.named m (hgrid ▸ hm)
  kept p hp := by
    rw [Acquired, hdiary] at hp
    exact hgrid ▸ h.kept p hp

/-- A step of a task. -/
theorem Mapped.turn {task : LoopTask} (h : s.Mapped config) (hs : Undisturbed config s₀ s)
    (hturn : Turn MemoryStore.grid s task s') : s'.Mapped config := by
  cases hturn with
  | begun | launched | joins | stops | finishes | writes | closes | deserted =>
    exact h.aside rfl rfl
  | @works p t t' w ds ht hmove =>
    have hsteady := hs.peace.steady p
    rw [workerOf_of_getElem? ht] at hsteady
    obtain ⟨hgrows, hgiven⟩ :=
      Partition.grows_of_move hsteady.plays (fun hd hh => (hsteady.holds hd hh).1) hmove
    have hdiary : (s.note p ds).diary = Function.update s.diary p (s.diary p ++ ds) := by
      rw [note, hs.unpanicked p]
      rfl
    refine ⟨fun m hm => ?_, fun q hq => ?_⟩
    · rcases hgrows.named m hm with rfl | hm
      · have hp : p < s.run.workers.size := (Array.getElem?_eq_some_iff.mp ht).1
        have hsize := hs.sound.size_le
        rw [hs.sound.numMaps_eq] at hsize
        exact ⟨p, Nat.lt_of_lt_of_le hp hsize, rfl⟩
      · exact h.named m hm
    -- Whoever has its map was given it before, or is given it now.
    · obtain ⟨hd, hh⟩ := hq
      change .ok hd ∈ Partition.acquisitions ((s.note p ds).diary q) at hh
      rw [hdiary] at hh
      by_cases hqp : q = p
      · subst hqp
        rw [Function.update_self, Partition.acquisitions_append, List.mem_append] at hh
        rcases hh with hh | hh
        · exact hgrows.kept _ (h.kept q ⟨hd, hh⟩)
        · exact hgiven hd hh
      · rw [Function.update_of_ne hqp] at hh
        exact hgrows.kept _ (h.kept q ⟨hd, hh⟩)

/-- In a finished run that nothing disturbed, the store has the maps of the partitions, and no
    others. -/
theorem mem_maps_of_finished {w : World MemoryStore} {items : List (String × Json)}
    (helements : config.elements = items.map fun i => ⟨.ok i.1, .ok i.2⟩)
    (hcalm : w.grid.Calm) (htidy : w.grid.Tidy) (hrun : w.cancelled = false)
    (hempty : ∀ m, m ∉ w.grid.maps)
    (hs : Reaches MemoryStore.grid (.still _) (start config w) s) (hphase : s.run.phase = .finished)
    (m : String) :
    m ∈ s.world.grid.maps ↔ ∃ p < config.plan.numMaps.toNat, m = (teamOf config p).mapName := by
  have hapart := apart_teamOf helements
  have hboth : Undisturbed config w.grid s ∧ s.Mapped config := by
    clear hphase
    induction hs with
    | refl =>
      exact ⟨undisturbed_start hcalm htidy hrun, fun m hm => absurd hm (hempty m),
        fun p hp => by obtain ⟨h, hh⟩ := hp; cases hh⟩
    | tail _ hstep ih =>
      obtain ⟨hs, hmapped⟩ := ih
      refine ⟨hs.step hapart hstep, ?_⟩
      cases hstep with
      | move hmove => exact hmapped.turn hs (turn_of_advance hmove)
      | stir hstir =>
        obtain ⟨moment, rfl⟩ := hstir
        exact hmapped.aside rfl rfl
      | panic hpanics => exact hpanics.elim
  obtain ⟨hs, hmapped⟩ := hboth
  refine ⟨hmapped.named m, ?_⟩
  rintro ⟨p, hp, rfl⟩
  exact hmapped.kept p (hs.acquired hphase hp)

/-- How many maps there are: one for each partition if the map index is part of the names, and else
    one for all of them. -/
theorem mapNames_length_of_mem {store : MemoryStore} (hmaps : config.plan.numMaps.toNat ≠ 0)
    (hmem : ∀ m, m ∈ store.maps ↔
      ∃ p < config.plan.numMaps.toNat, m = (teamOf config p).mapName) :
    store.mapNames.length =
      if config.plan.appendMapIndex then config.plan.numMaps.toNat else 1 := by
  have hnodup : store.mapNames.Nodup := Std.ExtTreeMap.nodup_keys
  have hnames (m : String) : m ∈ store.mapNames ↔
      ∃ p < config.plan.numMaps.toNat, m = (teamOf config p).mapName :=
    Std.ExtTreeMap.mem_keys.trans (hmem m)
  split
  · rename_i hindex
    let all := (List.range config.plan.numMaps.toNat).map fun p => (teamOf config p).mapName
    have hall : all.Nodup := List.nodup_range.map fun p q h => mapName_inj hindex h
    have hperm : store.mapNames.Perm all :=
      (List.perm_ext_iff_of_nodup hnodup hall).mpr fun m => by
        simp only [hnames, all, List.mem_map, List.mem_range, eq_comm]
    rw [hperm.length_eq, List.length_map, List.length_range]
  · rename_i hindex
    have hone (p : Nat) : (teamOf config p).mapName = (teamOf config 0).mapName := by
      rw [Partition.mapName, mapName, Partition.mapName, mapName, if_neg hindex, if_neg hindex]
    have hperm : store.mapNames.Perm [(teamOf config 0).mapName] :=
      (List.perm_ext_iff_of_nodup hnodup (List.nodup_singleton _)).mpr fun m => by
        simp only [hnames, List.mem_singleton, hone]
        refine ⟨?_, fun hm => ⟨0, Nat.pos_of_ne_zero hmaps, hm⟩⟩
        rintro ⟨_, _, hm⟩
        exact hm
    exact hperm.length_eq

end Watched

end GridBench
