/-
  GridBench.Proofs.Run.Drift

  The passing of time while nobody can move.  What happens to a world between
  the steps of those who are in it is that time passes, as long as none of them
  can move and no longer, and that the run is cancelled at a given moment, if it
  is at all (`World.Drifts`).

  A worker by itself in its world (`Lone`) makes its steps as soon as it can, and
  what it comes to can be told step by step: when it can move it moves
  (`Lone.inevitable_of_step`), and a request it waits for is answered, given up
  for the time it takes, or given up because of a cancellation, whichever is
  first (`Lone.inevitable_landed`, `Lone.inevitable_given_up`).
-/
import GridBench.Proofs.Run.Solo
import GridBench.Proofs.Run.Inevitable
import GridBench.Proofs.Run.Cancellation

namespace GridBench

variable {σ : Type}

/-! ## The passing of time -/

namespace World

/-- What happens to a world between the steps of those who are in it.  Time passes, but not beyond a
    moment at which somebody is busy; and the world is cancelled at one moment, if at all, beyond
    which no time passes before. -/
inductive Drifts (busy : Nat → Prop) (cancelAt : Option Nat) (w : World σ) : World σ → Prop
  | pass {moment : Nat} : w.clock < moment → (∀ m, w.clock ≤ m → m < moment → ¬busy m) →
      (w.cancelled = false → ∀ c ∈ cancelAt, moment ≤ c) →
      Drifts busy cancelAt w (w.passUntil moment)
  | cancel : w.cancelled = false → cancelAt = some w.clock → Drifts busy cancelAt w w.cancel

variable {busy : Nat → Prop} {cancelAt : Option Nat} {w w' : World σ}

/-- Where somebody is busy, no time passes. -/
theorem Drifts.eq_cancel (h : Drifts busy cancelAt w w') (hbusy : busy w.clock) :
    w.cancelled = false ∧ cancelAt = some w.clock ∧ w' = w.cancel := by
  cases h with
  | pass hlt hidle _ => exact absurd hbusy (hidle _ (Nat.le_refl _) hlt)
  | cancel hrun hc => exact ⟨hrun, hc, rfl⟩

theorem passUntil_passUntil {moment later : Nat} (h : moment ≤ later) (w : World σ) :
    (w.passUntil moment).passUntil later = w.passUntil later := by
  simp only [passUntil, Nat.max_assoc, Nat.max_eq_right h]

/-- Nothing but the clock changes when time passes. -/
theorem clock_passUntil {moment : Nat} (h : w.clock ≤ moment) :
    (w.passUntil moment).clock = moment := Nat.max_eq_right h

end World

/-! ## A worker by itself -/

/-- A worker alone in a world, and what it has published. -/
structure Lone (σ : Type) where
  world : World σ
  worker : Worker
  sent : List StatusUpdate

namespace Lone

/-- Whether the worker could move at a moment, if nothing happened until then. -/
def CanMove (g : Grid σ) (s : Lone σ) (moment : Nat) : Prop :=
  (s.worker.step? g (s.world.passUntil moment)).isSome = true

/-- A step of the worker, or what happens in its world while it cannot move. -/
inductive Step (g : Grid σ) (cancelAt : Option Nat) (s : Lone σ) : Lone σ → Prop
  | move {w : World σ} {t : Worker} {us : List StatusUpdate} :
      s.worker.step? g s.world = some (w, t, us) → Step g cancelAt s ⟨w, t, s.sent ++ us⟩
  | drift {w : World σ} : s.world.Drifts (s.CanMove g) cancelAt w →
      Step g cancelAt s { s with world := w }

variable {g : Grid σ} {cancelAt : Option Nat} {s : Lone σ} {P : Lone σ → Prop}

/-- A worker that can move moves, unless the cancellation is due as well; then it may come first. -/
theorem Step.eq_of_step? {s' : Lone σ} {w : World σ} {t : Worker} {us : List StatusUpdate}
    (h : Step g cancelAt s s') (hstep : s.worker.step? g s.world = some (w, t, us)) :
    s' = ⟨w, t, s.sent ++ us⟩ ∨ s.world.cancelled = false ∧ cancelAt = some s.world.clock ∧
      s' = { s with world := s.world.cancel } := by
  cases h with
  | move hstep' =>
    rw [hstep] at hstep'
    cases hstep'
    exact .inl rfl
  | drift hdrift =>
    have hbusy : s.CanMove g s.world.clock := by
      rw [CanMove, World.passUntil_self, hstep]
      rfl
    obtain ⟨hrun, hc, rfl⟩ := hdrift.eq_cancel hbusy
    exact .inr ⟨hrun, hc, rfl⟩

theorem inevitable_of_step {w : World σ} {t : Worker} {us : List StatusUpdate}
    (hstep : s.worker.step? g s.world = some (w, t, us))
    (hnext : Inevitable (Step g cancelAt) P ⟨w, t, s.sent ++ us⟩)
    (hcancel : s.world.cancelled = false → cancelAt = some s.world.clock →
      Inevitable (Step g cancelAt) P { s with world := s.world.cancel }) :
    Inevitable (Step g cancelAt) P s := by
  refine .later ⟨_, .move hstep⟩ fun s' hs' => ?_
  rcases hs'.eq_of_step? hstep with rfl | ⟨hrun, hc, rfl⟩
  · exact hnext
  · exact hcancel hrun hc

/-- A worker that cannot move when the cancellation is due is cancelled. -/
theorem inevitable_of_cancel (hstuck : s.worker.step? g s.world = none)
    (hrun : s.world.cancelled = false) (hc : cancelAt = some s.world.clock)
    (hnext : Inevitable (Step g cancelAt) P { s with world := s.world.cancel }) :
    Inevitable (Step g cancelAt) P s := by
  refine .later ⟨_, .drift (.cancel hrun hc)⟩ fun s' hs' => ?_
  cases hs' with
  | move hstep =>
    rw [hstuck] at hstep
    cases hstep
  | drift hdrift =>
    cases hdrift with
    | pass hlt _ hbound =>
      have hle := hbound hrun _ hc
      omega
    | cancel => exact hnext

/-- A step that takes no time and does not ask the grid happens, before the run is cancelled or
    after it. -/
theorem inevitable_of_swift {w : World σ} {t u : Worker} {us : List StatusUpdate}
    (F : World σ → World σ) (hF : ∀ v, (F v).clock = v.clock ∧ (F v).grid = v.grid ∧
      (F v).cancelled = v.cancelled)
    (hstep : ∀ v : World σ, v.clock = w.clock → t.step? g v = some (F v, u, []))
    (hnext : ∀ v : World σ, v.clock = w.clock → v.grid = w.grid →
      (w.cancelled = true → v.cancelled = true) → Inevitable (Step g cancelAt) P ⟨v, u, us⟩) :
    Inevitable (Step g cancelAt) P ⟨w, t, us⟩ := by
  obtain ⟨hclock, hgrid, hcancelled⟩ := hF w
  obtain ⟨hclock', hgrid', hcancelled'⟩ := hF w.cancel
  refine inevitable_of_step (hstep w rfl) ?_ fun _ _ =>
    inevitable_of_step (hstep w.cancel rfl) ?_ ?_
  · rw [List.append_nil]
    exact hnext _ hclock hgrid fun hc => hcancelled.trans hc
  · rw [List.append_nil]
    exact hnext _ hclock' hgrid' fun _ => hcancelled'
  · intro hrun _
    cases hrun

/-! ## Waiting -/

section

variable {r : Request} {f : Flight} {k : Except Fault r.Answer → Proc (Option String)}

/-- A worker that waits does not move before its time, unless the run is cancelled. -/
theorem step?_waiting_eq_none {w : World σ} (hrun : w.cancelled = false)
    (hlt : w.clock < f.wakeTime) : (Worker.waiting r f k).step? g w = none := by
  have hgo : ¬(w.cancelled && r.isCancellable) = true := by simp [hrun]
  rw [Worker.step?, Flight.answer?, if_neg hgo, if_neg (Nat.not_le.mpr hlt)]
  rfl

theorem step?_waiting_cancelled {w : World σ} (hc : w.cancelled = true)
    (hr : r.isCancellable = true) :
    (Worker.waiting r f k).step? g w = some (w, .running (k (.error .cancelled)), []) := by
  rw [Worker.step?, f.answer?_cancelled hc hr]
  rfl

theorem step?_waiting_landed {w : World σ} (hrun : w.cancelled = false)
    (hle : f.wakeTime ≤ w.clock) : (Worker.waiting r f k).step? g w =
      some ((f.land g w r).2, .running (k (f.land g w r).1), []) := by
  have hgo : ¬(w.cancelled && r.isCancellable) = true := by simp [hrun]
  rw [Worker.step?, Flight.answer?, if_neg hgo, if_pos hle]
  rfl

theorem canMove_waiting_iff {w : World σ} {us : List StatusUpdate} {moment : Nat}
    (hrun : w.cancelled = false) :
    CanMove g ⟨w, .waiting r f k, us⟩ moment ↔ f.wakeTime ≤ (w.passUntil moment).clock := by
  have hrun' : (w.passUntil moment).cancelled = false := hrun
  rw [CanMove]
  constructor
  · intro h
    by_contra hlate
    rw [step?_waiting_eq_none hrun' (by omega)] at h
    cases h
  · intro h
    rw [step?_waiting_landed hrun' h]
    rfl

/-- What happens to the world of a worker that waits: time passes until the worker can go on, or
    the run is cancelled. -/
theorem drift_of_waiting {w w' : World σ} {us : List StatusUpdate} {moment : Nat}
    (hrun : w.cancelled = false) (hlt : w.clock < moment) (hcancel : ∀ c ∈ cancelAt, moment ≤ c)
    (hend : moment = f.wakeTime ∨ cancelAt = some moment)
    (hdrift : w.Drifts (CanMove g ⟨w, .waiting r f k, us⟩) cancelAt w') :
    ∃ later, w.clock < later ∧ later ≤ moment ∧ w' = w.passUntil later := by
  cases hdrift with
  | cancel _ hc =>
    have hpast := hcancel _ hc
    omega
  | @pass later hlater hidle hbound =>
    refine ⟨later, hlater, ?_, rfl⟩
    rcases hend with rfl | hend
    · by_contra hbeyond
      refine hidle _ (Nat.le_of_lt hlt) (by omega) ((canMove_waiting_iff hrun).mpr ?_)
      rw [World.clock_passUntil (Nat.le_of_lt hlt)]
    · exact hbound hrun _ hend

/-- A worker waits until its time has come or the run is cancelled, whichever is first; nothing
    but time passes until then. -/
theorem inevitable_of_waiting {w : World σ} {us : List StatusUpdate} {moment : Nat}
    (hrun : w.cancelled = false) (hle : w.clock ≤ moment) (hwake : moment ≤ f.wakeTime)
    (hcancel : ∀ c ∈ cancelAt, moment ≤ c) (hend : moment = f.wakeTime ∨ cancelAt = some moment)
    (hnext : Inevitable (Step g cancelAt) P ⟨w.passUntil moment, .waiting r f k, us⟩) :
    Inevitable (Step g cancelAt) P ⟨w, .waiting r f k, us⟩ := by
  -- The induction is on the time that is left until the moment.
  obtain ⟨left, hleft⟩ : ∃ left, moment - w.clock = left := ⟨_, rfl⟩
  induction left using Nat.strongRecOn generalizing w with
  | _ left ih =>
    rcases Nat.eq_or_lt_of_le hle with heq | hlt
    · rwa [← heq, World.passUntil_self] at hnext
    have hidle : ∀ m, w.clock ≤ m → m < moment → ¬CanMove g ⟨w, .waiting r f k, us⟩ m := by
      intro m hm hbefore hmove
      have hdue := (canMove_waiting_iff hrun).mp hmove
      rw [World.clock_passUntil hm] at hdue
      omega
    refine .later ⟨_, .drift (.pass hlt hidle fun _ => hcancel)⟩ fun s' hs' => ?_
    cases hs' with
    | move hstep =>
      rw [step?_waiting_eq_none hrun (Nat.lt_of_lt_of_le hlt hwake)] at hstep
      cases hstep
    | drift hdrift =>
      obtain ⟨later, hlater, hbefore, rfl⟩ := drift_of_waiting hrun hlt hcancel hend hdrift
      have hclock : (w.passUntil later).clock = later := World.clock_passUntil (Nat.le_of_lt hlater)
      rw [← World.passUntil_passUntil hbefore] at hnext
      exact ih (moment - later) (by omega) hrun (by rw [hclock]; exact hbefore) hnext
        (by rw [hclock])

/-- A request that is under way when the run is cancelled is given up. -/
theorem inevitable_given_up {w : World σ} {us : List StatusUpdate} (moment : Nat)
    (hr : r.isCancellable = true) (hrun : w.cancelled = false) (hle : w.clock ≤ moment)
    (hwake : moment < f.wakeTime) (hc : cancelAt = some moment)
    (hnext : Inevitable (Step g cancelAt) P
      ⟨(w.passUntil moment).cancel, .running (k (.error .cancelled)), us⟩) :
    Inevitable (Step g cancelAt) P ⟨w, .waiting r f k, us⟩ := by
  have hclock : (w.passUntil moment).clock = moment := World.clock_passUntil hle
  refine inevitable_of_waiting hrun hle (Nat.le_of_lt hwake) (fun c hc' => ?_) (.inr hc) ?_
  · rw [hc] at hc'
    cases hc'
    exact Nat.le_refl _
  · have hstuck := step?_waiting_eq_none (g := g) (k := k) (w := w.passUntil moment) hrun
      (by rw [hclock]; exact hwake)
    refine inevitable_of_cancel hstuck hrun (by rw [hc, hclock]) ?_
    refine inevitable_of_step (step?_waiting_cancelled rfl hr) ?_ fun hrun' => ?_
    · simpa using hnext
    · cases hrun'

/-- A request that is under way comes to its end in time, if the run is not cancelled before. -/
theorem inevitable_landed {w w' : World σ} {us : List StatusUpdate} {moment : Nat}
    {a : Except Fault r.Answer} (hrun : w.cancelled = false) (hle : w.clock ≤ moment)
    (hwake : f.wakeTime = moment) (hc : ∀ c ∈ cancelAt, moment < c)
    (hland : f.land g (w.passUntil moment) r = (a, w'))
    (hnext : Inevitable (Step g cancelAt) P ⟨w', .running (k a), us⟩) :
    Inevitable (Step g cancelAt) P ⟨w, .waiting r f k, us⟩ := by
  have hclock : (w.passUntil moment).clock = moment := World.clock_passUntil hle
  have hstep := step?_waiting_landed (g := g) (k := k) (w := w.passUntil moment) hrun
    (by rw [hwake, hclock])
  rw [hland] at hstep
  refine inevitable_of_waiting hrun hle (Nat.le_of_eq hwake.symm)
    (fun c hc' => Nat.le_of_lt (hc c hc')) (.inl hwake.symm) ?_
  refine inevitable_of_step hstep ?_ ?_
  · simpa using hnext
  · intro _ hdue
    have hlt := hc _ hdue
    rw [hclock] at hlt
    exact absurd hlt (Nat.lt_irrefl _)

end

end Lone

end GridBench
