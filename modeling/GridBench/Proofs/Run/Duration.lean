/-
  GridBench.Proofs.Run.Duration

  How long a run takes, and what it takes from the draws.  If time passes only while
  nobody can move, and only acquiring a map takes the grid any time, then each worker
  takes the time in which it waits for its map and that of the sleeps of its rounds,
  and no other (`Partition.Spends`); a run takes as long as the worker that takes
  longest.  Neither depends on a cancellation, but for what it makes of the ends of
  the rounds.  Main statement: `run_duration`.
-/
import Mathlib.Order.ConditionallyCompleteLattice.Basic
import GridBench.Proofs.Run.Prompt

namespace GridBench

variable {σ : Type}

/-! ## The end of a run in which time passes only while nobody can move -/

namespace Watched

variable {config : LoopConfig} {g : Grid σ} {cancelAt : Option Nat} {s : Watched σ}
variable {w : World σ} {x y : Log σ × Watched σ} {moment later : Nat}

theorem canMove_passUntil (h : moment ≤ later) :
    CanMove g { s with world := s.world.passUntil moment } later ↔ s.CanMove g later := by
  rw [CanMove, CanMove]
  simp only [World.passUntil_passUntil h]

/-- How long it takes until somebody can move, if nothing happens until then. -/
noncomputable def idleMs (g : Grid σ) (s : Watched σ) : Nat :=
  sInf { ms | s.CanMove g (s.world.clock + ms) }

theorem Sound.canMove_idleMs (h : s.Sound config) (hphase : s.run.phase ≠ .finished) :
    s.CanMove g (s.world.clock + s.idleMs g) := by
  have hsome : { ms | s.CanMove g (s.world.clock + ms) }.Nonempty := by
    by_cases hidle : s.CanMove g s.world.clock
    · exact ⟨0, hidle⟩
    · obtain ⟨-, p, t, ht, hended⟩ := h.joining_of_idle hphase hidle
      exact ⟨t.wakeTime?.getD 0, canMove_of_worker ht hended (Nat.le_add_left _ _)⟩
  exact Nat.sInf_mem hsome

/-- The time until somebody can move gets less when time passes. -/
theorem Sound.idleMs_lt (h : s.Sound config) (hphase : s.run.phase ≠ .finished)
    (hlt : s.world.clock < moment)
    (hidle : ∀ m, s.world.clock ≤ m → m < moment → ¬s.CanMove g m) :
    idleMs g { s with world := s.world.passUntil moment } < s.idleMs g := by
  have hcan := h.canMove_idleMs (g := g) hphase
  have hlate : moment ≤ s.world.clock + s.idleMs g := by
    by_contra hbefore
    exact hidle _ (Nat.le_add_right _ _) (Nat.lt_of_not_le hbefore) hcan
  have hclock : (s.world.passUntil moment).clock = moment :=
    World.clock_passUntil (Nat.le_of_lt hlt)
  have hleft : s.world.clock + s.idleMs g = moment + (s.world.clock + s.idleMs g - moment) := by
    omega
  have hmem : CanMove g { s with world := s.world.passUntil moment }
      ((s.world.passUntil moment).clock + (s.world.clock + s.idleMs g - moment)) := by
    rw [hclock, ← hleft, canMove_passUntil hlate]
    exact hcan
  have hle : idleMs g { s with world := s.world.passUntil moment } ≤
      s.world.clock + s.idleMs g - moment := Nat.sInf_le hmem
  omega

/-- A run whose cancellation is not past, unless it is cancelled. -/
structure Underway (config : LoopConfig) (cancelAt : Option Nat) (x : Log σ × Watched σ) :
    Prop where
  sound : x.2.Sound config
  ahead : x.2.world.cancelled = false → ∀ c ∈ cancelAt, x.2.world.clock ≤ c

/-- What is still to happen in a run: the steps of its tasks, its cancellation, and that time
    passes. -/
noncomputable def toCome (g : Grid σ) (n : Nat) (x : Log σ × Watched σ) :
    (Nat × (Fin n → Option Worker) × Nat) × Nat × Nat :=
  (x.2.remaining n, if x.2.world.cancelled then 0 else 1, x.2.idleMs g)

/-- What one step preserves; and there is less to come after it. -/
theorem Underway.tick (h : Underway config cancelAt x) (htick : Tick g cancelAt x y) :
    Underway config cancelAt y ∧
      Prod.Lex (Less config.plan.numMaps.toNat) (Prod.Lex (· < ·) (· < ·))
        (toCome g config.plan.numMaps.toNat y) (toCome g config.plan.numMaps.toNat x) := by
  -- The steps of the tasks count first, then the cancellation, and then the time.
  cases htick with
  | move hmove =>
    obtain ⟨hclock, hcancelled⟩ := world_of_advance hmove
    refine ⟨⟨h.sound.step (.move (S := .still σ) hmove), ?_⟩, Prod.Lex.left _ _ ?_⟩
    · rw [hclock, hcancelled]
      exact h.ahead
    · rw [← h.sound.numMaps_eq]
      exact h.sound.less_of_turn (turn_of_advance hmove)
  | drift hphase hdrift =>
    cases hdrift with
    | cancel hrun _ =>
      refine ⟨⟨h.sound.stir _, nofun⟩, Prod.Lex.right _ (Prod.Lex.left _ _ ?_)⟩
      rw [hrun]
      exact Nat.zero_lt_one
    | pass hlt hidle hbound =>
      refine ⟨⟨h.sound.stir _, fun hrun c hc => ?_⟩, ?_⟩
      · show (x.2.world.passUntil _).clock ≤ c
        rw [World.clock_passUntil (Nat.le_of_lt hlt)]
        exact hbound hrun c hc
      · exact Prod.Lex.right _ (Prod.Lex.right _ (h.sound.idleMs_lt hphase hlt hidle))

/-- As long as a run has not finished, something can happen in it. -/
theorem Underway.exists_tick (h : Underway config cancelAt x) :
    x.2.run.phase = .finished ∨ ∃ y, Tick g cancelAt x y := by
  by_cases hphase : x.2.run.phase = .finished
  · exact .inl hphase
  right
  by_cases hbusy : x.2.CanMove g x.2.world.clock
  · obtain ⟨task, hmove⟩ := hbusy
    rw [World.passUntil_self] at hmove
    obtain ⟨s, hs⟩ := Option.isSome_iff_exists.mp hmove
    exact ⟨_, .move hs⟩
  by_cases hdue : x.2.world.cancelled = false ∧ cancelAt = some x.2.world.clock
  · exact ⟨_, .drift hphase (.cancel hdue.1 hdue.2)⟩
  -- Nobody moves now, and so time passes.
  · refine ⟨_, .drift hphase (.pass (Nat.lt_succ_self _) (fun m hle hlt => ?_) fun hrun c hc => ?_)⟩
    · obtain rfl : m = x.2.world.clock := by omega
      exact hbusy
    · have hle := h.ahead hrun c hc
      have hne : x.2.world.clock ≠ c := by
        rintro rfl
        exact hdue ⟨hrun, hc⟩
      omega

/-- A run in which time passes only while nobody can move comes to its end. -/
theorem inevitable_tick (hcancel : w.cancelled = false → ∀ c ∈ cancelAt, w.clock ≤ c) :
    Inevitable (Tick g cancelAt) (fun x => x.2.run.phase = .finished)
      (fun _ => [], start config w) := by
  have hwf := (less_wf config.plan.numMaps.toNat).prod_lex
    (Nat.lt_wfRel.wf.prod_lex Nat.lt_wfRel.wf)
  exact Inevitable.of_wellFounded hwf (toCome g config.plan.numMaps.toNat)
    (⟨sound_start config w, hcancel⟩ : Underway config cancelAt _)
    (fun _ _ h htick => h.tick htick) fun _ h => h.exists_tick

end Watched

/-! ## The draws of a log -/

/-- How many draws were used up in a log. -/
def drawsUsed (L : List (Entry σ)) : Nat :=
  (L.map fun e => e.after.draws.used - e.before.draws.used).sum

namespace Worker

variable {g : Grid σ} {w w' : World σ} {t t' : Worker} {ds : List Deed}

theorem Move.used_eq (h : t.Move g w w' t' ds) :
    w'.draws.used = w.draws.used + drawsOf ds := by
  cases h with
  | picked => exact Pick.used_take _ _
  | refused | sent | paused | clocked | logged | published | woken | abandoned | late | answered =>
    exact (Nat.add_zero _).symm

/-- A worker uses up the draws that its deeds take. -/
theorem Path.drawsUsed_eq {L : List (Entry σ)} (h : Path g t L t') :
    drawsUsed L = drawsOf (deedsOf (actsOf g L)) := by
  induction h with
  | nil => rfl
  | @step L t' t'' w w' us _ hstep ih =>
    have hused := (move_of_step? hstep).1.used_eq
    have hone : drawsUsed [(⟨t', w, w'⟩ : Entry σ)] = drawsOf (t'.deeds g w) := by
      show w'.draws.used - w.draws.used + 0 = _
      omega
    rw [deedsOf_actsOf_concat, drawsOf_append, ← ih, ← hone, drawsUsed, List.map_append,
      List.sum_append]
    rfl

end Worker

/-! ## What a worker spends -/

namespace Partition

open Proc

variable {p : Partition} {g : Grid σ} {L : List (Entry σ)} {es : List RoundEnd} {xs : List Pace}

/-- How a worker that has ended spent its time and its draws, by its log, the ends of its rounds and
    their paces. -/
structure Spends (p : Partition) (g : Grid σ) (start : Nat) (L : List (Entry σ))
    (es : List RoundEnd) (xs : List Pace) : Prop where
  paced : List.Forall₂ p.Paced es xs
  lasts : ∀ x ∈ xs, x.Lasts p
  picked : ∀ a ∈ actsOf g L, ∀ pick n, a.deed = ⟨.pick pick, n⟩ →
    n = (pick.take a.entry.before.draws).1
  /-- All it did, it did when the time it had waited for its map and paused was over. -/
  moments : ∀ as a bs, actsOf g L = as ++ a :: bs →
    a.entry.before.clock = start + acquireMs (as ++ [a]) + pausedMs (deedsOf as)
  /-- It began its rounds when it had its map, and gave it back when their sleeps were over. -/
  rounds : ∀ h, .ok h ∈ acquisitions (deedsOf (actsOf g L)) → ∃ as bs cs crash,
    actsOf g L = as ++ (bs ++ cs) ∧ Plays p.enter (deedsOf as) (.done (.ok h)) ∧
      Plays (p.rounds h p.config.plan.numRuns.toNat 0 0 0) (deedsOf bs) (.done crash) ∧
      p.Strides h 0 (deedsOf bs) es xs ∧
      Plays (p.leave h crash) (deedsOf cs) (.done crash) ∧
      (∀ a ∈ as.getLast?, a.entry.before.clock = start + acquireMs (actsOf g L)) ∧
      ∀ a ∈ cs, a.entry.before.clock =
        start + acquireMs (actsOf g L) + (xs.map Pace.ms).sum
  mapless : (∀ h, .ok h ∉ acquisitions (deedsOf (actsOf g L))) → es = [] ∧ xs = []
  ended : momentOf start L = start + acquireMs (actsOf g L) + (xs.map Pace.ms).sum
  drawn : drawsUsed L = (es.map p.roundDraws).sum

/-- A worker that was given its map entered, worked its rounds, and left. -/
theorem Went.exists_rounds {ds : List Deed} {h : Handle} (hwent : p.Went ds es xs)
    (hmem : .ok h ∈ acquisitions ds) : ∃ ds₁ ds₂ ds₃ crash, ds = ds₁ ++ (ds₂ ++ ds₃) ∧
      Plays p.enter ds₁ (.done (.ok h)) ∧
      Plays (p.rounds h p.config.plan.numRuns.toNat 0 0 0) ds₂ (.done crash) ∧
      p.Strides h 0 ds₂ es xs ∧ Plays (p.leave h crash) ds₃ (.done crash) ∧
      acquisitions (ds₂ ++ ds₃) = [] := by
  cases hwent with
  | unmapped henter =>
    rw [acquisitions_enter henter] at hmem
    cases List.mem_singleton.mp hmem
  | @mapped m ds₁ ds₂ ds₃ crash _ _ henter hrounds hstrides hleave =>
    have hsettled : acquisitions (ds₂ ++ ds₃) = [] := by
      rw [acquisitions_append, acquisitions_rounds hrounds, List.nil_append]
      exact acquisitions_eq_nil fun d hd => (hleave.forall_effect (leave_aside m crash) d hd).2
    rw [acquisitions_append, acquisitions_enter henter, hsettled, List.append_nil] at hmem
    cases List.mem_singleton.mp hmem
    exact ⟨ds₁, ds₂, ds₃, crash, rfl, henter, hrounds, hstrides, hleave, hsettled⟩

theorem Went.eq_nil {ds : List Deed} (hwent : p.Went ds es xs)
    (hnone : ∀ h, .ok h ∉ acquisitions ds) : es = [] ∧ xs = [] := by
  cases hwent with
  | unmapped _ => exact ⟨rfl, rfl⟩
  | @mapped h _ _ _ _ _ _ henter _ _ _ =>
    refine absurd ?_ (hnone h)
    rw [acquisitions_append, acquisitions_enter henter]
    exact List.mem_append_left _ List.mem_cons_self

/-- Deeds without a pace do not pause. -/
theorem pausedMs_eq_zero {ds : List Deed} (h : pacesOf ds = []) : pausedMs ds = 0 := by
  rw [← (sums_pacesOf ds).1, h]
  rfl

/-- The times at which the rounds of a worker begin and end. -/
theorem rounds_moments {start : Nat} {as bs cs : List (Act σ)} {h : Handle}
    {crash : Option String}
    (hmoments : ∀ as₁ a as₂, as ++ (bs ++ cs) = as₁ ++ a :: as₂ →
      a.entry.before.clock = start + acquireMs (as₁ ++ [a]) + pausedMs (deedsOf as₁))
    (henter : Plays p.enter (deedsOf as) (.done (.ok h)))
    (hleave : Plays (p.leave h crash) (deedsOf cs) (.done crash))
    (hwaited : acquireMs (bs ++ cs) = 0) :
    (∀ a ∈ as.getLast?, a.entry.before.clock = start + acquireMs (as ++ (bs ++ cs))) ∧
      ∀ a ∈ cs, a.entry.before.clock = start + acquireMs (as ++ (bs ++ cs)) +
        pausedMs (deedsOf (as ++ (bs ++ cs))) := by
  have hfirst : pausedMs (deedsOf as) = 0 := pausedMs_eq_zero (pacesOf_eq_nil henter enter_paced)
  have hlast : pausedMs (deedsOf cs) = 0 :=
    pausedMs_eq_zero (pacesOf_eq_nil hleave (leave_paced h crash))
  have hacquired : acquireMs (as ++ (bs ++ cs)) = acquireMs as := by
    rw [acquireMs_append, hwaited, Nat.add_zero]
  rw [acquireMs_append] at hwaited
  rw [hacquired, deedsOf_append, deedsOf_append, pausedMs_append, pausedMs_append]
  constructor
  · intro a ha
    obtain ⟨as', rfl⟩ := List.getLast?_eq_some_iff.mp ha
    have hmoment := hmoments as' a (bs ++ cs) (by simp)
    rw [deedsOf_append, pausedMs_append] at hfirst
    omega
  · intro a ha
    obtain ⟨cs₁, cs₂, rfl⟩ := List.append_of_mem ha
    have hsplit : cs₁ ++ a :: cs₂ = cs₁ ++ [a] ++ cs₂ := by simp
    have hmoment := hmoments (as ++ bs ++ cs₁) a cs₂ (by simp)
    rw [hsplit, acquireMs_append, acquireMs_append] at hwaited
    rw [hsplit, deedsOf_append, deedsOf_append, pausedMs_append, pausedMs_append] at hlast ⊢
    rw [acquireMs_append, acquireMs_append, acquireMs_append, deedsOf_append, deedsOf_append,
      pausedMs_append, pausedMs_append] at hmoment
    omega

/-- How a worker that was prompt spent its time and its draws. -/
theorem spends_of_path {start clock : Nat} {t : Worker}
    (hpath : Worker.Path g (.running p.work) L t) (hended : t.hasEnded = true)
    (hprompt : t.Prompt g start clock L) :
    ∃ xs, p.Spends g start L (p.ends (deedsOf (actsOf g L))) xs ∧
      (t.crash? = none → (∃ h, .ok h ∈ acquisitions (deedsOf (actsOf g L))) →
        xs.length = p.config.plan.numRuns.toNat) := by
  have hplays := hpath.plays
  rw [Worker.program_of_hasEnded hended] at hplays
  obtain ⟨xs, hwent, hlength⟩ := work_paced hplays
  generalize p.ends (deedsOf (actsOf g L)) = es at hwent ⊢
  obtain ⟨hpaused, hdraws⟩ := hwent.sums
  have hgenuine := hpath.genuine
  refine ⟨xs, ⟨hwent.paced.1, hwent.lasts (forall_isDrawn hgenuine), fun a ha pick n hpick => ?_,
    hprompt.timed.moments, fun h hh => ?_, hwent.eq_nil, ?_, ?_⟩, hlength⟩
  · cases hgenuine a ha with
    | answered _ | refused _ _ => cases hpick
    | other _ _ hpicked => exact hpicked pick n hpick
  · obtain ⟨ds₁, ds₂, ds₃, crash, hds, henter, hrounds, hstrides, hleave, hsettled⟩ :=
      hwent.exists_rounds hh
    -- The acts fall into the same three parts as the deeds.
    obtain ⟨as, bcs, hacts, rfl, hbcs⟩ := exists_of_deedsOf_eq_append hds
    obtain ⟨bs, cs, rfl, rfl, rfl⟩ := exists_of_deedsOf_eq_append hbcs
    have hwaited : acquireMs (bs ++ cs) = 0 := by
      refine acquireMs_eq_zero (g := g) (fun a ha => hgenuine a ?_) ?_
      · rw [hacts]
        exact List.mem_append_right _ ha
      · rw [deedsOf_append]
        exact hsettled
    have hmoments := hprompt.timed.moments
    rw [hacts] at hmoments hpaused
    obtain ⟨hbegan, hover⟩ := rounds_moments hmoments henter hleave hwaited
    rw [hpaused] at hover
    rw [hacts]
    exact ⟨as, bs, cs, crash, rfl, henter, hrounds, hstrides, hleave, hbegan, hover⟩
  -- A worker that has ended is not due any more: the moment it was due at is that of its last step.
  · have hdue := hprompt.timed.due
    rw [hpaused] at hdue
    match t with
    | .running _ => exact hdue
    | .pausing .. | .waiting .. => cases hended
  · rw [hpath.drawsUsed_eq, hdraws]

end Partition

/-! ## The whole run -/

namespace Watched

variable {config : LoopConfig} {g : Grid σ} {cancelAt : Option Nat} {s : Watched σ}
variable {log : Log σ} {w : World σ}

/-- How long a run takes, and what it takes from the draws, if time passes only while nobody can
    move and only acquiring a map takes the grid any time.  The run comes to its end.  When it has,
    each of its workers has spent its time and its draws for its rounds only, whatever failed and
    whenever the run was cancelled; and it took as long as the worker that waited and slept
    longest. -/
theorem run_duration (hg : g.Immediate)
    (hcancel : w.cancelled = false → ∀ c ∈ cancelAt, w.clock ≤ c) :
    Inevitable (Tick g cancelAt) (fun x => x.2.run.phase = .finished)
        (fun _ => [], start config w) ∧
      ∀ log s, Ticks g cancelAt config w (log, s) → s.run.phase = .finished →
        ∃ xs : Nat → List Pace,
          (∀ p < config.plan.numMaps.toNat,
            (teamOf config p).Spends g w.clock (log p) (s.ends p) (xs p) ∧
              ((workerOf config s.run.workers p).crash? = none → s.Acquired p →
                (xs p).length = config.plan.numRuns.toNat)) ∧
          s.world.clock = w.clock + (Finset.range config.plan.numMaps.toNat).sup fun p =>
            acquireMs (actsOf g (log p)) + ((xs p).map Pace.ms).sum := by
  refine ⟨inevitable_tick hcancel, fun log s hticks hphase => ?_⟩
  have hs := hticks.reachesBy
  have htime := hticks.onTime hg
  have hended : ∀ p < config.plan.numMaps.toNat,
      (workerOf config s.run.workers p).hasEnded = true := by
    intro p hp
    obtain ⟨t, ht, hended⟩ := hs.sound.exists_ended hphase hp
    rwa [workerOf_of_getElem? ht]
  have hworker : ∀ p, ∃ xs, p < config.plan.numMaps.toNat →
      (teamOf config p).Spends g w.clock (log p) (s.ends p) xs ∧
        ((workerOf config s.run.workers p).crash? = none → s.Acquired p →
          xs.length = config.plan.numRuns.toNat) := by
    intro p
    by_cases hp : p < config.plan.numMaps.toNat
    · obtain ⟨hpath, hdiary⟩ := hs.chronicled.path (congrFun (hs.panicked_eq id) p)
      obtain ⟨xs, hspends, hlength⟩ :=
        Partition.spends_of_path hpath (hended p hp) (htime.prompt p hp)
      refine ⟨xs, fun _ => ?_⟩
      rw [ends, Acquired, partition, hs.sound.config_eq, hdiary]
      exact ⟨hspends, hlength⟩
    · exact ⟨[], fun hp' => absurd hp' hp⟩
  choose xs hxs using hworker
  refine ⟨xs, hxs, ?_⟩
  have hlast : ∀ p < config.plan.numMaps.toNat, momentOf w.clock (log p) =
      w.clock + (acquireMs (actsOf g (log p)) + ((xs p).map Pace.ms).sum) := by
    intro p hp
    rw [(hxs p hp).1.ended, Nat.add_assoc]
  apply Nat.le_antisymm
  -- The run has gone on for no longer than one of its workers.
  · rcases htime.reached with hstart | ⟨p, hp, hunended | hle⟩
    · rw [show s.world.clock = w.clock from hstart]
      exact Nat.le_add_right _ _
    · rw [hended p hp] at hunended
      cases hunended
    · refine Nat.le_trans hle ?_
      rw [hlast p hp]
      exact Nat.add_le_add_left (Finset.le_sup (f := fun p =>
        acquireMs (actsOf g (log p)) + ((xs p).map Pace.ms).sum) (Finset.mem_range.mpr hp)) _
  · have hbegan : w.clock ≤ s.world.clock := (hs.timely cancelling_onward).onward.clock_le
    have hsup : (Finset.range config.plan.numMaps.toNat).sup (fun p =>
        acquireMs (actsOf g (log p)) + ((xs p).map Pace.ms).sum) ≤ s.world.clock - w.clock := by
      refine Finset.sup_le fun p hp => ?_
      have hp := Finset.mem_range.mp hp
      have hle : momentOf w.clock (log p) ≤ s.world.clock := (htime.prompt p hp).last_le
      rw [hlast p hp] at hle
      omega
    omega

/-- The settings of the sample run with pauses: a random one between its rounds, and a fixed one
    between the batches of a round. -/
def pacedSettings : RunnerSection :=
  { sampleSettings with
    sleeps := { betweenRuns := .random 20 }
    testLoop := { batch := { sleeps := { betweenActionBatches := .fixed 5 } } } }

/-- On a store that takes a while to give out its maps, and cancelled in the midst of its pauses,
    the sample run takes as long as the slower one of its two workers. -/
theorem run_duration_paced :
    ∃ plan log s, ∃ xs : Nat → List Pace,
      pacedSettings.resolve "map-tests.load" "load" = .ok plan ∧
      Ticks MemoryStore.grid (some 310) (sampleConfig plan)
        { grid := { faults := { getMapDelayMs := 300 } } } (log, s) ∧
      s.run.phase = .finished ∧
      (∀ p < 2, (teamOf (sampleConfig plan) p).Spends MemoryStore.grid 0 (log p) (s.ends p)
        (xs p)) ∧
      s.world.clock = max
        (acquireMs (actsOf MemoryStore.grid (log 0)) + ((xs 0).map Pace.ms).sum)
        (acquireMs (actsOf MemoryStore.grid (log 1)) + ((xs 1).map Pace.ms).sum) := by
  obtain ⟨plan, hplan⟩ : ∃ plan, pacedSettings.resolve "map-tests.load" "load" = .ok plan :=
    ⟨_, rfl⟩
  have hmaps : (sampleConfig plan).plan.numMaps.toNat = 2 := by
    cases hplan
    rfl
  obtain ⟨hfinish, hfinished⟩ := @run_duration _ (sampleConfig plan) MemoryStore.grid (some 310)
    { grid := { faults := { getMapDelayMs := 300 } } } MemoryStore.grid_immediate
    (fun _ c _ => Nat.zero_le c)
  obtain ⟨⟨log, s⟩, hticks, hphase⟩ := hfinish.exists_reaches
  obtain ⟨xs, hworkers, hclock⟩ := hfinished log s hticks hphase
  rw [hmaps] at hworkers hclock
  refine ⟨plan, log, s, xs, hplan, hticks, hphase, fun p hp => (hworkers p hp).1, ?_⟩
  have hrange : Finset.range 2 = {0, 1} := rfl
  rw [hclock, hrange, Finset.sup_insert, Finset.sup_singleton]
  exact Nat.zero_add _

end Watched

end GridBench
