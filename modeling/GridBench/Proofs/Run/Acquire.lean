/-
  GridBench.Proofs.Run.Acquire

  What becomes of a request for a map.  Three moments decide it: when the store
  answers, how long the worker waits for it, and when the run is cancelled.  The
  request ends at the first of them, with the store's answer if it comes no later
  than the time limit (`MemoryStore.AcquireEnds`).  Main statements:
  `Lone.acquire_outcome`, and for a worker that gets no map
  `Lone.work_without_map`.
-/
import GridBench.Store.Memory
import GridBench.Proofs.Run.Drift

namespace GridBench

/-! ## How a request for a map ends -/

/-- The end of a request for a map: how long after the request, whether the run is cancelled by
    then, the answer, and the store. -/
structure AcquireEnd where
  afterMs : Nat
  cancelled : Bool
  answer : Except Fault Handle
  store : MemoryStore

namespace MemoryStore

/-- How a request for a map ends that waits for a given time, in a run that is cancelled a given
    time after the request, if it is at all.  The first of the three moments decides; an answer
    that comes when the time is just over is in time. -/
inductive AcquireEnds (s : MemoryStore) (map : String) (timeoutMs : Nat) :
    Option Nat → AcquireEnd → Prop
  | cancelled {c : Nat} : c < min s.faults.getMapDelayMs timeoutMs →
      AcquireEnds s map timeoutMs (some c) ⟨c, true, .error .cancelled, s.noteAcquire⟩
  | granted {cancelAfter : Option Nat} : s.faults.getMapDelayMs ≤ timeoutMs →
      (∀ c ∈ cancelAfter, s.faults.getMapDelayMs < c) → s.faults.failGetMap = false →
      AcquireEnds s map timeoutMs cancelAfter ⟨s.faults.getMapDelayMs, false, .ok ⟨s.issued, map⟩,
        (s.noteAcquire.acquire map).2⟩
  | refused {cancelAfter : Option Nat} : s.faults.getMapDelayMs ≤ timeoutMs →
      (∀ c ∈ cancelAfter, s.faults.getMapDelayMs < c) → s.faults.failGetMap = true →
      AcquireEnds s map timeoutMs cancelAfter ⟨s.faults.getMapDelayMs, false,
        .error (.remote ("unable to acquire map '" ++ map ++ "'")), s.noteAcquire⟩
  | late {cancelAfter : Option Nat} : timeoutMs < s.faults.getMapDelayMs →
      (∀ c ∈ cancelAfter, timeoutMs < c) →
      AcquireEnds s map timeoutMs cancelAfter ⟨timeoutMs, false,
        .error (.timeout timeoutMs ("get_map(" ++ map ++ ")")), s.noteAcquire⟩

variable {s : MemoryStore} {map : String} {timeoutMs : Nat} {cancelAfter : Option Nat}
variable {e : AcquireEnd}

/-- A request has an end, unless the run is cancelled in the very moment in which it ends. -/
theorem exists_acquireEnds (s : MemoryStore) (map : String) (timeoutMs : Nat)
    (hc : ∀ c ∈ cancelAfter, c ≠ s.faults.getMapDelayMs ∧ c ≠ timeoutMs) :
    ∃ e, s.AcquireEnds map timeoutMs cancelAfter e := by
  by_cases hfirst : ∃ c ∈ cancelAfter, c < min s.faults.getMapDelayMs timeoutMs
  · obtain ⟨c, rfl, hlt⟩ := hfirst
    exact ⟨_, .cancelled hlt⟩
  have hbehind : ∀ c ∈ cancelAfter, min s.faults.getMapDelayMs timeoutMs < c := by
    intro c hmem
    have hle : ¬c < min s.faults.getMapDelayMs timeoutMs := fun hlt => hfirst ⟨c, hmem, hlt⟩
    have hne := hc c hmem
    omega
  by_cases hdelay : s.faults.getMapDelayMs ≤ timeoutMs
  · rw [Nat.min_eq_left hdelay] at hbehind
    cases hfails : s.faults.failGetMap with
    | true => exact ⟨_, .refused hdelay hbehind hfails⟩
    | false => exact ⟨_, .granted hdelay hbehind hfails⟩
  · rw [Nat.min_eq_right (by omega)] at hbehind
    exact ⟨_, .late (by omega) hbehind⟩

/-- A map that is granted is there from then on. -/
theorem mem_mapNames_acquire (hwilling : s.faults.failGetMap = false) (name : String) :
    name ∈ (s.acquire map).2.mapNames ↔ name ∈ s.mapNames ∨ name = map := by
  have hmaps : (s.acquire map).2.maps = s.maps.insert map (s.entries map) := by
    rw [acquire, if_neg (by simp [hwilling])]
    rfl
  rw [mapNames, mapNames, Std.ExtTreeMap.mem_keys, Std.ExtTreeMap.mem_keys, mem_maps_insert hmaps,
    or_comm]

/-- Whatever its end, a request for a map is counted once, and the store knows the map from then on
    exactly if a handle is returned. -/
theorem AcquireEnds.store (h : s.AcquireEnds map timeoutMs cancelAfter e) :
    e.store.calls = { s.calls with getMap := s.calls.getMap + 1 } ∧
      ∀ name, name ∈ e.store.mapNames ↔ name ∈ s.mapNames ∨ name = map ∧ ∃ m, e.answer = .ok m := by
  have hnone (f : Fault) (name : String) : name ∈ s.noteAcquire.mapNames ↔
      name ∈ s.mapNames ∨ name = map ∧ ∃ m, (.error f : Except Fault Handle) = .ok m := by
    refine ⟨.inl, ?_⟩
    rintro (hname | ⟨-, m, hm⟩)
    · exact hname
    · cases hm
  cases h with
  | cancelled _ | refused _ _ _ | late _ _ => exact ⟨rfl, hnone _⟩
  | granted _ _ hwilling =>
    refine ⟨?_, fun name => ?_⟩
    · show (s.noteAcquire.acquire map).2.calls = _
      rw [acquire, if_neg (by simp [noteAcquire, hwilling])]
      rfl
    · refine (mem_mapNames_acquire (s := s.noteAcquire) hwilling name).trans (or_congr_right ?_)
      exact ⟨fun hname => ⟨hname, _, rfl⟩, fun hname => hname.1⟩

/-- Where no handle is returned, the store has the maps it had. -/
theorem AcquireEnds.mapNames_eq (h : s.AcquireEnds map timeoutMs cancelAfter e)
    (hnone : ∀ m, e.answer ≠ .ok m) : e.store.mapNames = s.mapNames := by
  cases h with
  | cancelled _ | refused _ _ _ | late _ _ => rfl
  | granted _ _ _ => exact absurd rfl (hnone _)

/-- A handle that is returned is one to the map, and it is live. -/
theorem AcquireEnds.live (h : s.AcquireEnds map timeoutMs cancelAfter e) (htidy : s.Tidy)
    {m : Handle} (hm : e.answer = .ok m) : m.map = map ∧ e.store.isReleased m = false := by
  cases h with
  | cancelled _ | refused _ _ _ | late _ _ => cases hm
  | granted _ _ hwilling =>
    cases hm
    refine ⟨rfl, ?_⟩
    have hreleased := (acquire_willing (s := s.noteAcquire) hwilling map).2.2.2.2
    rw [isReleased, hreleased, List.contains_eq_mem, decide_eq_false_iff_not]
    exact fun hold => Nat.lt_irrefl _ (htidy _ hold)

end MemoryStore

/-! ## Asking for a map -/

/-- Asks for a map and waits for it for a given time. -/
def acquireMap (map : String) (timeoutMs : Nat) : Proc (Except Fault Handle) :=
  .lift (.ask (.acquire map) (some timeoutMs))

theorem Partition.acquire_eq (p : Partition) :
    p.acquire = acquireMap p.mapName p.config.getMapTimeoutMs := rfl

namespace Lone

variable {w : World MemoryStore} {map : String} {timeoutMs : Nat} {cancelAfter : Option Nat}
variable {k : Except Fault Handle → Proc (Option String)} {us : List StatusUpdate}
variable {P : Lone MemoryStore → Prop}

/-- The worker that has asked for a map, in the store that has counted the request. -/
def asked (w : World MemoryStore) (map : String) (timeoutMs : Nat)
    (k : Except Fault Handle → Proc (Option String)) (us : List StatusUpdate) : Lone MemoryStore :=
  ⟨{ w with grid := w.grid.noteAcquire },
    .waiting (.acquire map)
      ⟨0, w.clock, w.clock + w.grid.faults.getMapDelayMs, some timeoutMs⟩ k, us⟩

/-- The worker behind its request for a map. -/
def behind (w : World MemoryStore) (k : Except Fault Handle → Proc (Option String))
    (us : List StatusUpdate) (e : AcquireEnd) : Lone MemoryStore :=
  ⟨{ w with clock := w.clock + e.afterMs, cancelled := e.cancelled, grid := e.store },
    .running (k e.answer), us⟩

/-- In a cancelled run nobody is asked. -/
theorem step?_acquireMap_refused (hc : w.cancelled = true) :
    (Worker.running (acquireMap map timeoutMs >>= k)).step? MemoryStore.grid w =
      some (w, .running (k (.error .cancelled)), []) := by
  have hrefused : (w.cancelled && (Request.acquire map).isCancellable) = true := by rw [hc]; rfl
  have hsend (k' : Except Fault Handle → Proc (Option String)) :
      Worker.send MemoryStore.grid w (.acquire map) (some timeoutMs) k' =
        (w, .running (k' (.error .cancelled))) := if_pos hrefused
  show some ((Worker.send MemoryStore.grid w (.acquire map) (some timeoutMs) _).1,
    (Worker.send MemoryStore.grid w (.acquire map) (some timeoutMs) _).2, []) = _
  rw [hsend]
  rfl

/-- Otherwise the store counts the request at once. -/
theorem step?_acquireMap_sent (us : List StatusUpdate) (hrun : w.cancelled = false) :
    (Worker.running (acquireMap map timeoutMs >>= k)).step? MemoryStore.grid w =
      some ((asked w map timeoutMs k us).world, (asked w map timeoutMs k us).worker, []) := by
  have hsent : ¬(w.cancelled && (Request.acquire map).isCancellable) = true := by simp [hrun]
  have hsend (k' : Except Fault Handle → Proc (Option String)) :
      Worker.send MemoryStore.grid w (.acquire map) (some timeoutMs) k' =
        ((asked w map timeoutMs k' us).world, (asked w map timeoutMs k' us).worker) :=
    if_neg hsent
  show some ((Worker.send MemoryStore.grid w (.acquire map) (some timeoutMs) _).1,
    (Worker.send MemoryStore.grid w (.acquire map) (some timeoutMs) _).2, []) = _
  rw [hsend]
  rfl

theorem step_asked {cancelAt : Option Nat} (hrun : w.cancelled = false) :
    Step MemoryStore.grid cancelAt ⟨w, .running (acquireMap map timeoutMs >>= k), us⟩
      (asked w map timeoutMs k us) := by
  have hsent : asked w map timeoutMs k us = ⟨(asked w map timeoutMs k us).world,
      (asked w map timeoutMs k us).worker, us ++ []⟩ := by
    rw [List.append_nil]
    rfl
  rw [hsent]
  exact .move (step?_acquireMap_sent us hrun)

/-- A worker does nothing else, unless it is cancelled in the moment of its request. -/
theorem eq_asked_of_step (hrun : w.cancelled = false) (hc : cancelAfter ≠ some 0)
    {s : Lone MemoryStore} (h : Step MemoryStore.grid (cancelAfter.map (w.clock + ·))
      ⟨w, .running (acquireMap map timeoutMs >>= k), us⟩ s) : s = asked w map timeoutMs k us := by
  rcases h.eq_of_step? (step?_acquireMap_sent us hrun) with rfl | ⟨-, hnow, -⟩
  · rw [List.append_nil]
    rfl
  · obtain ⟨c, hmem, hclock⟩ := Option.map_eq_some_iff.mp hnow
    have hzero : c = 0 := Nat.add_left_cancel (k := 0) hclock
    exact absurd (hzero ▸ hmem) hc

theorem inevitable_of_cancelled (hc : w.cancelled = true) {cancelAt : Option Nat}
    (hnext : Inevitable (Step MemoryStore.grid cancelAt) P
      ⟨w, .running (k (.error .cancelled)), us⟩) :
    Inevitable (Step MemoryStore.grid cancelAt) P
      ⟨w, .running (acquireMap map timeoutMs >>= k), us⟩ := by
  refine inevitable_of_step (step?_acquireMap_refused hc) ?_ fun hrun _ => ?_
  · simpa using hnext
  · have hrun : w.cancelled = false := hrun
    rw [hc] at hrun
    cases hrun

/-- The moments of a request, in the order in which they come. -/
theorem wakeTime_asked (start delay timeoutMs : Nat) :
    (⟨0, start, start + delay, some timeoutMs⟩ : Flight).wakeTime =
      start + min delay timeoutMs := by
  rw [Flight.wakeTime]
  exact Nat.add_min_add_left start delay timeoutMs

/-- The moments of the run behind a request. -/
theorem forall_cancelAt {start ms : Nat} (hc : ∀ c ∈ cancelAfter, ms < c) :
    ∀ c ∈ cancelAfter.map (start + ·), start + ms < c := by
  intro c' hmem
  obtain ⟨c, hc', rfl⟩ := Option.mem_map.mp hmem
  exact Nat.add_lt_add_left (hc c hc') _

/-- The world once the store has answered a request, or the worker has given it up. -/
theorem world_behind (hrun : w.cancelled = false) (ms : Nat) (store : MemoryStore) :
    ({ ({ w with grid := w.grid.noteAcquire } : World MemoryStore).passUntil (w.clock + ms) with
        grid := store } : World MemoryStore) =
      { w with clock := w.clock + ms, cancelled := false, grid := store } := by
  simp [World.passUntil, hrun]

/-- The store answers in time. -/
theorem inevitable_answered (hrun : w.cancelled = false) {a : Except Fault Handle}
    {store : MemoryStore} (hdelay : w.grid.faults.getMapDelayMs ≤ timeoutMs)
    (hc : ∀ c ∈ cancelAfter, w.grid.faults.getMapDelayMs < c)
    (hanswer : w.grid.noteAcquire.acquire map = (a, store))
    (hnext : Inevitable (Step MemoryStore.grid (cancelAfter.map (w.clock + ·))) P
      (behind w k us ⟨w.grid.faults.getMapDelayMs, false, a, store⟩)) :
    Inevitable (Step MemoryStore.grid (cancelAfter.map (w.clock + ·))) P
      (asked w map timeoutMs k us) := by
  have hwake := wakeTime_asked w.clock w.grid.faults.getMapDelayMs timeoutMs
  rw [Nat.min_eq_left hdelay] at hwake
  refine inevitable_landed hrun (Nat.le_add_right _ _) hwake (forall_cancelAt hc) ?_ hnext
  refine (if_neg (Nat.not_lt.mpr (Nat.le_max_right _ _))).trans (Prod.ext ?_ ?_)
  · show (w.grid.noteAcquire.acquire map).1 = a
    rw [hanswer]
  · refine (world_behind hrun _ (w.grid.noteAcquire.acquire map).2).trans ?_
    rw [hanswer]

/-- The store does not answer in time. -/
theorem inevitable_late (hrun : w.cancelled = false)
    (hdelay : timeoutMs < w.grid.faults.getMapDelayMs) (hc : ∀ c ∈ cancelAfter, timeoutMs < c)
    (hnext : Inevitable (Step MemoryStore.grid (cancelAfter.map (w.clock + ·))) P
      (behind w k us ⟨timeoutMs, false, .error (.timeout timeoutMs ("get_map(" ++ map ++ ")")),
        w.grid.noteAcquire⟩)) :
    Inevitable (Step MemoryStore.grid (cancelAfter.map (w.clock + ·))) P
      (asked w map timeoutMs k us) := by
  have hwake := wakeTime_asked w.clock w.grid.faults.getMapDelayMs timeoutMs
  rw [Nat.min_eq_right (Nat.le_of_lt hdelay)] at hwake
  have hclock : (({ w with grid := w.grid.noteAcquire } : World MemoryStore).passUntil
      (w.clock + timeoutMs)).clock < w.clock + w.grid.faults.getMapDelayMs := by
    rw [World.clock_passUntil (Nat.le_add_right _ _)]
    exact Nat.add_lt_add_left hdelay _
  refine inevitable_landed hrun (Nat.le_add_right _ _) hwake (forall_cancelAt hc) ?_ hnext
  refine (if_pos hclock).trans (Prod.ext rfl ?_)
  exact world_behind hrun timeoutMs w.grid.noteAcquire

/-- A request under way comes to its end. -/
theorem inevitable_of_asked (hrun : w.cancelled = false) {e : AcquireEnd}
    (hend : w.grid.AcquireEnds map timeoutMs cancelAfter e)
    (hnext : Inevitable (Step MemoryStore.grid (cancelAfter.map (w.clock + ·))) P
      (behind w k us e)) :
    Inevitable (Step MemoryStore.grid (cancelAfter.map (w.clock + ·))) P
      (asked w map timeoutMs k us) := by
  cases hend with
  | @cancelled c hlt =>
    have hwake := wakeTime_asked w.clock w.grid.faults.getMapDelayMs timeoutMs
    refine inevitable_given_up (w.clock + c) rfl hrun (Nat.le_add_right _ _) ?_ rfl ?_
    · rw [hwake]
      exact Nat.add_lt_add_left hlt _
    · have hworld := congrArg World.cancel (world_behind hrun c w.grid.noteAcquire)
      rw [behind] at hnext
      exact hworld ▸ hnext
  | granted hdelay hc hwilling =>
    have hanswer := (MemoryStore.acquire_willing (s := w.grid.noteAcquire) hwilling map).1
    exact inevitable_answered hrun hdelay hc (Prod.ext hanswer rfl) hnext
  | refused hdelay hc hfails => exact inevitable_answered hrun hdelay hc (if_pos hfails) hnext
  | late hdelay hc => exact inevitable_late hrun hdelay hc hnext

/-! ## A worker without a map -/

/-- The worker has ended without having published anything, and the store has the given maps. -/
structure EndedUnheard (us : List StatusUpdate) (names : List String) (s : Lone MemoryStore) :
    Prop where
  worker : s.worker = .running (.done none)
  sent : s.sent = us
  mapNames : s.world.grid.mapNames = names

/-- The program of a worker begins with its request for a map; if there is none, it says so and
    ends. -/
theorem exists_work_eq (p : Partition) :
    ∃ (r : Record) (k : Nat → Except Fault Handle → Proc (Option String)),
      p.work = .op (.log r) (fun _ => .op .clock fun start =>
        acquireMap p.mapName p.config.getMapTimeoutMs >>= k start) ∧
      ∀ start f, ∃ r', k start (.error f) = .op (.log r') fun _ => .done none :=
  ⟨_, _, rfl, fun _ _ => ⟨_, rfl⟩⟩

/-- A worker that is told that it gets no map ends. -/
theorem inevitable_unheard {cancelAt : Option Nat} {r : Record} {names : List String}
    (hnames : w.grid.mapNames = names) :
    Inevitable (Step MemoryStore.grid cancelAt) (EndedUnheard us names)
      ⟨w, .running (.op (.log r) fun _ => .done none), us⟩ := by
  refine inevitable_of_swift (fun v => v.log [r]) (fun v => ⟨rfl, rfl, rfl⟩) (fun v _ => rfl)
    fun v _ hgrid _ => ?_
  exact .here ⟨rfl, rfl, by rw [hgrid, hnames]⟩

section

variable {p : Partition} {k : Except Fault Handle → Proc (Option String)}

/-- A worker whose request is given up ends. -/
theorem inevitable_unheard_of_cancelled {cancelAt : Option Nat} {names : List String}
    (hk : ∀ f, ∃ r, k (.error f) = .op (.log r) fun _ => .done none)
    (hnames : w.grid.mapNames = names) (hc : w.cancelled = true) :
    Inevitable (Step MemoryStore.grid cancelAt) (EndedUnheard us names)
      ⟨w, .running (acquireMap map timeoutMs >>= k), us⟩ := by
  refine inevitable_of_cancelled hc ?_
  obtain ⟨r, hr⟩ := hk .cancelled
  rw [hr]
  exact inevitable_unheard hnames

/-- A worker whose request comes to nothing ends. -/
theorem inevitable_unheard_of_asked (hrun : w.cancelled = false) {e : AcquireEnd}
    (hk : ∀ f, ∃ r, k (.error f) = .op (.log r) fun _ => .done none)
    (hend : w.grid.AcquireEnds map timeoutMs cancelAfter e) (hnone : ∀ m, e.answer ≠ .ok m) :
    Inevitable (Step MemoryStore.grid (cancelAfter.map (w.clock + ·)))
      (EndedUnheard us w.grid.mapNames)
      ⟨w, .running (acquireMap map timeoutMs >>= k), us⟩ := by
  refine inevitable_of_step (step?_acquireMap_sent us hrun) ?_ fun _ _ =>
    inevitable_unheard_of_cancelled hk rfl rfl
  rw [List.append_nil]
  refine inevitable_of_asked hrun hend ?_
  cases ha : e.answer with
  | ok m => exact absurd ha (hnone m)
  | error f =>
    obtain ⟨r, hr⟩ := hk f
    rw [behind, ha, hr]
    exact inevitable_unheard (hend.mapNames_eq hnone)

end

/-- A worker that gets no map ends without having published anything. -/
theorem work_without_map (p : Partition)
    (h : w.cancelled = true ∨ ∃ e, (∀ m, e.answer ≠ .ok m) ∧
      w.grid.AcquireEnds p.mapName p.config.getMapTimeoutMs cancelAfter e) :
    Inevitable (Step MemoryStore.grid (cancelAfter.map (w.clock + ·)))
      (EndedUnheard us w.grid.mapNames) ⟨w, .running p.work, us⟩ := by
  obtain ⟨r, k, hwork, hk⟩ := exists_work_eq p
  rw [hwork]
  -- Two steps lead to the request; the run may be cancelled between them.
  refine inevitable_of_swift (fun v => v.log [r]) (fun v => ⟨rfl, rfl, rfl⟩) (fun v _ => rfl)
    fun v hclock hgrid hcancelled => ?_
  have hclocked (v' : World MemoryStore) (hv' : v'.clock = v.clock) :
      (Worker.running (.op .clock fun start =>
        acquireMap p.mapName p.config.getMapTimeoutMs >>= k start)).step? MemoryStore.grid v' =
      some (v', .running (acquireMap p.mapName p.config.getMapTimeoutMs >>= k v.clock), []) := by
    rw [← hv']
    rfl
  refine inevitable_of_swift id (fun v => ⟨rfl, rfl, rfl⟩) hclocked
    fun v' hclock' hgrid' hcancelled' => ?_
  have hclock : v'.clock = w.clock := hclock'.trans hclock
  have hgrid : v'.grid = w.grid := hgrid'.trans hgrid
  rw [← hclock, ← hgrid]
  cases hc : v'.cancelled with
  | true => exact inevitable_unheard_of_cancelled (hk _) rfl hc
  | false =>
    rcases h with hcancel | ⟨e, hnone, hend⟩
    · rw [hcancelled' (hcancelled hcancel)] at hc
      cases hc
    · rw [← hgrid] at hend
      exact inevitable_unheard_of_asked hc (hk _) hend hnone

/-- The outcome of a request for a map, by the moment of its answer, its time limit and the moment
    of the cancellation.  In a cancelled run nobody is asked.  Otherwise the store counts one
    request; the request comes to the end that the first of the moments decides, at this moment,
    and then the store knows one more map exactly if a handle is returned, which is a live one.  A
    worker to which none is returned ends without having published anything, and leaves the maps
    as they are. -/
theorem acquire_outcome (w : World MemoryStore) (map : String) (timeoutMs : Nat)
    (cancelAfter : Option Nat) (k : Except Fault Handle → Proc (Option String))
    (us : List StatusUpdate) :
    (w.cancelled = true →
      Inevitable (Step MemoryStore.grid (cancelAfter.map (w.clock + ·)))
        (fun s => s = ⟨w, .running (k (.error .cancelled)), us⟩)
        ⟨w, .running (acquireMap map timeoutMs >>= k), us⟩) ∧
    (w.cancelled = false →
      Step MemoryStore.grid (cancelAfter.map (w.clock + ·))
        ⟨w, .running (acquireMap map timeoutMs >>= k), us⟩ (asked w map timeoutMs k us) ∧
      (cancelAfter ≠ some 0 → ∀ s, Step MemoryStore.grid (cancelAfter.map (w.clock + ·))
        ⟨w, .running (acquireMap map timeoutMs >>= k), us⟩ s → s = asked w map timeoutMs k us) ∧
      ((∀ c ∈ cancelAfter, c ≠ w.grid.faults.getMapDelayMs ∧ c ≠ timeoutMs) →
        ∃ e, w.grid.AcquireEnds map timeoutMs cancelAfter e) ∧
      ∀ e, w.grid.AcquireEnds map timeoutMs cancelAfter e →
        Inevitable (Step MemoryStore.grid (cancelAfter.map (w.clock + ·)))
          (fun s => s = behind w k us e) (asked w map timeoutMs k us) ∧
        e.store.calls = { w.grid.calls with getMap := w.grid.calls.getMap + 1 } ∧
        (∀ name, name ∈ e.store.mapNames ↔
          name ∈ w.grid.mapNames ∨ name = map ∧ ∃ m, e.answer = .ok m) ∧
        (w.grid.Tidy → ∀ m, e.answer = .ok m → m.map = map ∧ e.store.isReleased m = false)) ∧
    ∀ p : Partition, p.acquire = acquireMap p.mapName p.config.getMapTimeoutMs ∧
      ((w.cancelled = true ∨ ∃ e, (∀ m, e.answer ≠ .ok m) ∧
          w.grid.AcquireEnds p.mapName p.config.getMapTimeoutMs cancelAfter e) →
        Inevitable (Step MemoryStore.grid (cancelAfter.map (w.clock + ·)))
          (EndedUnheard us w.grid.mapNames) ⟨w, .running p.work, us⟩) := by
  refine ⟨fun hc => inevitable_of_cancelled hc (.here rfl), fun hrun => ?_, fun p =>
    ⟨p.acquire_eq, work_without_map p⟩⟩
  refine ⟨step_asked hrun, fun hc s hs => eq_asked_of_step hrun hc hs,
    MemoryStore.exists_acquireEnds _ _ _, fun e hend => ?_⟩
  obtain ⟨hcalls, hnames⟩ := hend.store
  exact ⟨inevitable_of_asked hrun hend (.here rfl), hcalls, hnames,
    fun htidy m hm => hend.live htidy hm⟩

/-- A store that takes five seconds to answer a request for a map. -/
def slowStore : MemoryStore := { faults := { getMapDelayMs := 5000 } }

/-- A request to a slow store is given up when the run is cancelled after three milliseconds; and a
    worker of the sample run, which waits for a second, ends without a map. -/
theorem acquire_outcome_slow :
    Inevitable (Step MemoryStore.grid (some 3))
      (fun s => s = ⟨{ clock := 3, cancelled := true, grid := slowStore.noteAcquire },
        .running (.done none), []⟩)
      (asked { grid := slowStore } "m" 1000 (fun _ => .done none) []) ∧
    ∃ plan, Watched.sampleSettings.resolve "map-tests.load" "load" = .ok plan ∧
      Inevitable (Step MemoryStore.grid none) (EndedUnheard [] [])
        ⟨{ grid := slowStore }, .running (Partition.work ⟨Watched.sampleConfig plan, 0⟩), []⟩ := by
  constructor
  · obtain ⟨-, hasked, -⟩ :=
      acquire_outcome { grid := slowStore } "m" 1000 (some 3) (fun _ => .done none) []
    obtain ⟨-, -, -, hends⟩ := hasked rfl
    exact (hends _ (.cancelled (by decide))).1
  · obtain ⟨plan, hplan⟩ := Watched.exists_samplePlan
    obtain ⟨-, -, hwork⟩ :=
      acquire_outcome { grid := slowStore } "m" 1000 none (fun _ => .done none) []
    have hlate (map : String) : slowStore.AcquireEnds map 1000 none
        ⟨1000, false, .error (.timeout 1000 ("get_map(" ++ map ++ ")")), slowStore.noteAcquire⟩ :=
      .late (by decide) nofun
    have hnone (f : Fault) (m : Handle) : (.error f : Except Fault Handle) ≠ .ok m := by
      rintro ⟨⟩
    exact ⟨plan, hplan, (hwork ⟨Watched.sampleConfig plan, 0⟩).2 (.inr ⟨_, hnone _, hlate _⟩)⟩

end Lone

end GridBench
