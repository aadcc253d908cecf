/-
  GridBench.Proofs.Run.Passes

  The iterations that a worker finished.  A `pass` through the loop over the
  rounds is a round and the account of its end; `Partition.passes` replays the
  passes on a worker's diary, and lists how the rounds of those ended that the
  worker came through.  What a worker published is the tally of its passes
  (`passes_of_plays`), and when its run has finished, the table shows them
  (`Sound.shows_passes`).
-/
import GridBench.Proofs.Run.Counts

namespace GridBench

namespace Partition

open Proc

/-- One pass through the loop over the rounds: a round, and the account of its end. -/
def pass (p : Partition) (h : Handle) (run completed failed : Nat) : Proc RoundEnd := do
  let roundEnd ← p.iteration h run
  p.account run completed failed roundEnd
  pure roundEnd

/-- The passes in a diary that starts with round `run`, when `left` rounds are left and the counts
    so far are given.  A round that crashed is none. -/
noncomputable def passesFrom (p : Partition) (h : Handle) :
    Nat → Nat → Nat → Nat → List Deed → List RoundEnd
  | 0, _, _, _, _ => []
  | left + 1, run, completed, failed, ds =>
    match (p.pass h run completed failed).replay ds with
    | (.done .completed, ds) =>
      .completed :: passesFrom p h left (run + 1) (completed + 1) failed ds
    | (.done (.failed action cause), ds) =>
      .failed action cause :: passesFrom p h left (run + 1) completed (failed + 1) ds
    | _ => []

/-- The passes of a partition's worker, by its diary. -/
noncomputable def passes (p : Partition) (ds : List Deed) : List RoundEnd :=
  match p.enter.replay ds with
  | (.done (.ok h), ds) => p.passesFrom h p.config.plan.numRuns.toNat 0 0 0 ds
  | _ => []

variable {p : Partition} {m : Handle} {left run completed failed : Nat} {ds : List Deed}

theorem rounds_succ_pass (m : Handle) (left run completed failed : Nat) :
    p.rounds m (left + 1) run completed failed =
      p.pass m run completed failed >>= p.proceed m left run completed failed := by
  rw [rounds_succ, pass, Proc.bind_assoc]
  refine congrArg _ (funext fun e => ?_)
  rw [Proc.bind_assoc]
  rfl

/-! ## One pass -/

/-- A pass that is under way has published nothing. -/
theorem published_pass_op {e : Effect} {k : e.Reply → Proc RoundEnd}
    (h : Plays (p.pass m run completed failed) ds (.op e k)) : published ds = [] := by
  rcases h.of_bind with ⟨e', k', h₁, -⟩ | ⟨ds₁, ds₂, a, rfl, h₁, h'⟩
  · exact published_iteration h₁
  · rw [published_append, published_iteration h₁, List.nil_append]
    rcases Plays.of_bind h' with ⟨e', k', h₂, -⟩ | ⟨ds₂, ds₃, _, rfl, -, h₃⟩
    · exact published_account_op h₂
    · obtain ⟨-, hq⟩ := Plays.done_nil h₃
      cases hq

/-- The parts of a pass. -/
theorem plays_pass_done {e : RoundEnd} (h : Plays (p.pass m run completed failed) ds (.done e)) :
    ∃ ds₁ ds₂, ds = ds₁ ++ ds₂ ∧ Plays (p.iteration m run) ds₁ (.done e) ∧
      Plays (p.account run completed failed e) ds₂ (.done ()) := by
  obtain ⟨ds₁, ds₂, a, rfl, h₁, h'⟩ := h.of_bind_done
  obtain ⟨ds₃, ds₄, _, rfl, h₂, h₃⟩ := Plays.of_bind_done h'
  obtain ⟨rfl, hq⟩ := Plays.done_nil h₃
  cases hq
  exact ⟨ds₁, ds₃, by rw [List.append_nil], h₁, h₂⟩

/-- The passes from one that was finished on, if it did not crash. -/
theorem passesFrom_succ {ds₁ : List Deed} {e : RoundEnd}
    (h : Plays (p.pass m run completed failed) ds₁ (.done e)) (ds : List Deed) :
    p.passesFrom m (left + 1) run completed failed (ds₁ ++ ds) =
      match e with
      | .completed => .completed :: p.passesFrom m left (run + 1) (completed + 1) failed ds
      | .failed action cause =>
        .failed action cause :: p.passesFrom m left (run + 1) completed (failed + 1) ds
      | .crashed _ => [] := by
  rw [passesFrom, h.replay_append, replay_done]
  cases e <;> rfl

/-! ## All passes -/

/-- The passes of a worker in its rounds, against what it published and how the rounds ended. -/
structure PassedFrom (p : Partition) (m : Handle) (left run completed failed : Nat)
    (ds : List Deed) (q : Proc (Option String)) : Prop where
  published : published ds = p.tally completed failed (p.passesFrom m left run completed failed ds)
  not_crash : ∀ e ∈ p.passesFrom m left run completed failed ds, e.isCrash = false
  first : p.passesFrom m left run completed failed ds <+:
    p.endsFrom m left run completed failed ds
  ended : ∀ crash, q = .done crash → p.passesFrom m left run completed failed ds =
    (p.endsFrom m left run completed failed ds).filter fun e => !e.isCrash
  all : q = .done none → (p.passesFrom m left run completed failed ds).length = left

/-- A pass in front of others. -/
theorem PassedFrom.cons {run' completed' failed' : Nat} {ds₁ : List Deed} {e : RoundEnd}
    {u : StatusUpdate} {q : Proc (Option String)}
    (h : p.PassedFrom m left run' completed' failed' ds q)
    (hcrash : e.isCrash = false)
    (hpasses : p.passesFrom m (left + 1) run completed failed (ds₁ ++ ds) =
      e :: p.passesFrom m left run' completed' failed' ds)
    (hends : p.endsFrom m (left + 1) run completed failed (ds₁ ++ ds) =
      e :: p.endsFrom m left run' completed' failed' ds)
    (hpublished : GridBench.published ds₁ = [u])
    (htally : ∀ es, p.tally completed failed (e :: es) = u :: p.tally completed' failed' es) :
    p.PassedFrom m (left + 1) run completed failed (ds₁ ++ ds) q where
  published := by
    rw [published_append, hpublished, hpasses, htally, h.published, List.singleton_append]
  not_crash := by
    rw [hpasses]
    exact List.forall_mem_cons.mpr ⟨hcrash, h.not_crash⟩
  first := by
    rw [hpasses, hends]
    exact List.cons_prefix_cons.mpr ⟨rfl, h.first⟩
  ended crash hq := by
    rw [hpasses, hends, List.filter_cons_of_pos (by simp [hcrash])]
    exact congrArg _ (h.ended crash hq)
  all hq := by
    rw [hpasses]
    exact congrArg _ (h.all hq)

/-- A worker in its rounds that has come through none of them. -/
theorem PassedFrom.of_eq_nil {q : Proc (Option String)}
    (hpasses : p.passesFrom m left run completed failed ds = [])
    (hpublished : GridBench.published ds = [])
    (hends : ∀ crash, q = .done crash →
      ((p.endsFrom m left run completed failed ds).filter fun e => !e.isCrash) = [])
    (hleft : q = .done none → left = 0) : p.PassedFrom m left run completed failed ds q where
  published := by
    rw [hpublished, hpasses]
    rfl
  not_crash := by
    rw [hpasses]
    exact fun e he => absurd he List.not_mem_nil
  first := by
    rw [hpasses]
    exact List.nil_prefix
  ended crash hq := hpasses.trans (hends crash hq).symm
  all hq := by
    rw [hpasses, hleft hq]
    rfl

/-- A worker in its rounds published the tally of its passes, which are its rounds so far but for
    one that crashed or was not accounted for. -/
theorem passedFrom_of_plays {q : Proc (Option String)}
    (h : Plays (p.rounds m left run completed failed) ds q) :
    p.PassedFrom m left run completed failed ds q := by
  induction left generalizing run completed failed ds with
  | zero =>
    have hquiet : GridBench.published ds = [] := by
      rw [rounds] at h
      cases h with
      | nil => rfl
      | cons h =>
        cases h
        rfl
    exact .of_eq_nil rfl hquiet (fun _ _ => rfl) fun _ => rfl
  | succ left ih =>
    rw [rounds_succ_pass] at h
    rcases h.of_bind with ⟨e, k, h₁, rfl⟩ | ⟨ds₁, ds', e, rfl, h₁, h'⟩
    -- In the pass, which is not finished yet.
    · have hreplay := h₁.replay_append []
      rw [List.append_nil] at hreplay
      have hnone : p.passesFrom m (left + 1) run completed failed ds = [] := by
        rw [passesFrom, hreplay]
        rfl
      exact .of_eq_nil hnone (published_pass_op h₁) (fun _ hq => by cases hq) fun hq => by cases hq
    -- Behind the pass, and in the next ones unless the round crashed.
    · obtain ⟨ds₂, ds₃, rfl, hround, haccount⟩ := plays_pass_done h₁
      have hpasses : p.passesFrom m (left + 1) run completed failed (ds₂ ++ ds₃ ++ ds') = _ :=
        passesFrom_succ h₁ ds'
      have hends : p.endsFrom m (left + 1) run completed failed (ds₂ ++ (ds₃ ++ ds')) = _ :=
        endsFrom_succ hround haccount ds'
      rw [← List.append_assoc] at hends
      have hpublished : GridBench.published (ds₂ ++ ds₃) = p.tally completed failed [e] := by
        rw [published_append, published_iteration hround, published_account haccount,
          List.nil_append]
      cases e with
      | completed => exact (ih h').cons rfl hpasses hends hpublished fun _ => rfl
      | failed action cause => exact (ih h').cons rfl hpasses hends hpublished fun _ => rfl
      | crashed message =>
        obtain ⟨rfl, rfl⟩ := Plays.done_nil h'
        have hquiet : GridBench.published (ds₂ ++ ds₃ ++ []) = [] := by
          rw [List.append_nil, hpublished]
          rfl
        exact .of_eq_nil hpasses hquiet (fun _ _ => by rw [hends]; rfl) fun hq => by cases hq

/-- Once the rounds are over, their passes do not depend on what the diary says after them. -/
theorem passesFrom_append {crash : Option String}
    (h : Plays (p.rounds m left run completed failed) ds (.done crash)) (es : List Deed) :
    p.passesFrom m left run completed failed (ds ++ es) =
      p.passesFrom m left run completed failed ds := by
  induction left generalizing run completed failed ds with
  | zero => rfl
  | succ left ih =>
    rw [rounds_succ_pass] at h
    obtain ⟨ds₁, ds₂, e, rfl, h₁, h₂⟩ := h.of_bind_done
    rw [List.append_assoc, passesFrom_succ h₁, passesFrom_succ h₁]
    cases e with
    | completed => exact congrArg _ (ih h₂)
    | failed action cause => exact congrArg _ (ih h₂)
    | crashed message => rfl

/-! ## The whole worker -/

theorem passes_of_enter {ds₁ : List Deed} (h : Plays p.enter ds₁ (.done (.ok m)))
    (ds : List Deed) :
    p.passes (ds₁ ++ ds) = p.passesFrom m p.config.plan.numRuns.toNat 0 0 0 ds := by
  rw [passes, h.replay_append, replay_done]

/-- A worker that was not given a map has no rounds. -/
theorem passes_of_outside {q : Proc (Except Fault Handle)} (h : Plays p.enter ds q)
    (hq : ∀ m, q ≠ .done (.ok m)) : p.passes ds = [] ∧ p.ends ds = [] := by
  have hreplay := h.replay_append []
  rw [List.append_nil] at hreplay
  rw [passes, ends, hreplay]
  cases q with
  | op e k => exact ⟨rfl, rfl⟩
  | done a =>
    cases a with
    | ok m => exact absurd rfl (hq m)
    | error f => exact ⟨rfl, rfl⟩

/-- The passes of a worker, against what it published and how its rounds ended. -/
structure Passed (p : Partition) (ds : List Deed) (q : Proc (Option String)) : Prop where
  published : published ds = p.tally 0 0 (p.passes ds)
  not_crash : ∀ e ∈ p.passes ds, e.isCrash = false
  first : p.passes ds <+: p.ends ds
  ended : ∀ crash, q = .done crash → p.passes ds = (p.ends ds).filter fun e => !e.isCrash
  all : q = .done none → (∃ m, .ok m ∈ acquisitions ds) →
    (p.passes ds).length = p.config.plan.numRuns.toNat
  none_without_map : (∀ m, .ok m ∉ acquisitions ds) → p.passes ds = []

/-- The passes of a worker that was not given a map. -/
theorem passed_of_outside {q : Proc (Except Fault Handle)} {q' : Proc (Option String)}
    (h : Plays p.enter ds q) (hq : ∀ m, q ≠ .done (.ok m))
    (hmap : q' = .done none → ∀ m, .ok m ∉ acquisitions ds) : p.Passed ds q' := by
  obtain ⟨hpasses, hends⟩ := passes_of_outside h hq
  have hpublished := published_enter h
  refine ⟨?_, ?_, ?_, fun _ _ => ?_, fun hdone hacquired => ?_, fun _ => hpasses⟩
  · rw [hpublished, hpasses]
    rfl
  · rw [hpasses]
    exact fun e he => absurd he List.not_mem_nil
  · rw [hpasses]
    exact List.nil_prefix
  · rw [hpasses, hends]
    rfl
  · obtain ⟨m, hm⟩ := hacquired
    exact absurd hm (hmap hdone m)

/-- The passes of a worker that was given a map are those of its rounds, and it has ended only if
    the rounds have. -/
theorem PassedFrom.passed {ds₁ ds₂ ds₃ : List Deed} {q q' : Proc (Option String)}
    (h : p.PassedFrom m p.config.plan.numRuns.toNat 0 0 0 ds₂ q)
    (henter : Plays p.enter ds₁ (.done (.ok m))) (hquiet : GridBench.published ds₃ = [])
    (hpasses : p.passesFrom m p.config.plan.numRuns.toNat 0 0 0 (ds₂ ++ ds₃) =
      p.passesFrom m p.config.plan.numRuns.toNat 0 0 0 ds₂)
    (hends : p.endsFrom m p.config.plan.numRuns.toNat 0 0 0 (ds₂ ++ ds₃) =
      p.endsFrom m p.config.plan.numRuns.toNat 0 0 0 ds₂)
    (hdone : ∀ crash, q' = .done crash → q = .done crash) :
    p.Passed (ds₁ ++ (ds₂ ++ ds₃)) q' := by
  have hpasses := (passes_of_enter henter (ds₂ ++ ds₃)).trans hpasses
  have hends := (ends_of_enter henter (ds₂ ++ ds₃)).trans hends
  refine ⟨?_, ?_, ?_, fun crash hq => ?_, fun hq _ => ?_, fun hnone => ?_⟩
  · rw [published_append, published_append, published_enter henter, hquiet, List.nil_append,
      List.append_nil, hpasses]
    exact h.published
  · rw [hpasses]
    exact h.not_crash
  · rw [hpasses, hends]
    exact h.first
  · rw [hpasses, hends]
    exact h.ended crash (hdone crash hq)
  · rw [hpasses]
    exact h.all (hdone none hq)
  · rw [acquisitions_append, acquisitions_enter henter] at hnone
    exact absurd List.mem_cons_self (hnone m)

/-- A worker published the tally of its passes. -/
theorem passed_of_plays {q : Proc (Option String)} (h : Plays p.work ds q) : p.Passed ds q := by
  rcases plays_work_cases h with ⟨e, k, h₁, rfl⟩ | ⟨f, h₁, rfl⟩ |
    ⟨ds₁, ds₂, m, e, k, rfl, h₁, h₂, rfl⟩ | ⟨ds₁, ds₂, ds₃, m, crash, rfl, h₁, h₂, h₃⟩
  · exact passed_of_outside h₁ nofun nofun
  · refine passed_of_outside h₁ nofun fun _ m hm => ?_
    rw [acquisitions_enter h₁] at hm
    simp at hm
  · have hrounds := passedFrom_of_plays h₂
    rw [← List.append_nil ds₂]
    exact hrounds.passed h₁ rfl (by rw [List.append_nil]) (by rw [List.append_nil]) nofun
  · have hrounds := passedFrom_of_plays h₂
    have hquiet := h₃.forall_effect (leave_aside m crash)
    refine hrounds.passed h₁ (published_eq_nil fun d hd => (hquiet d hd).1.silent)
      (passesFrom_append h₂ ds₃) (endsFrom_append h₂ ds₃) fun crash' hq => ?_
    -- Giving the handle back keeps the outcome of the rounds.
    subst hq
    exact congrArg _ (h₃.result (Terms.plain_grants _ _ _) (leave_aside m crash)).symm

end Partition

namespace Watched

variable {σ : Type} {config : LoopConfig} {s : Watched σ}

/-- The passes of a partition's worker so far. -/
noncomputable def passes (s : Watched σ) (p : Nat) : List RoundEnd :=
  (s.partition p).passes (s.diary p)

/-- The worker of a partition panicked before it had come through all its rounds. -/
def BrokeOff (s : Watched σ) (p : Nat) : Prop :=
  (∃ t : Worker, s.run.workers[p]? = some t ∧ t.crash?.isSome = true) ∧
    (s.passes p).length < s.run.config.plan.numRuns.toNat

theorem Sound.passed (h : s.Sound config) (p : Nat) :
    ∃ q, (s.partition p).Passed (s.diary p) q ∧
      ∀ t, s.run.workers[p]? = some t → t.hasEnded = true → t.crash? = none → q = .done none := by
  obtain ⟨q, hq, hend⟩ := h.plays p
  exact ⟨q, Partition.passed_of_plays hq, hend⟩

theorem Sound.passes_prefix (h : s.Sound config) (p : Nat) : s.passes p <+: s.ends p := by
  obtain ⟨q, hq, _⟩ := h.passed p
  exact hq.first

theorem Sound.not_crash_passes (h : s.Sound config) (p : Nat) :
    ∀ e ∈ s.passes p, e.isCrash = false := by
  obtain ⟨q, hq, _⟩ := h.passed p
  exact hq.not_crash

theorem Sound.passes_length_le (h : s.Sound config) (p : Nat) :
    (s.passes p).length ≤ config.plan.numRuns.toNat := by
  rw [← h.config_eq]
  exact Nat.le_trans (h.passes_prefix p).length_le (Partition.ends_length_le _)

/-- A worker that was given no map came through no round. -/
theorem Sound.passes_of_not_acquired (h : s.Sound config) {p : Nat} (hmap : ¬ s.Acquired p) :
    s.passes p = [] := by
  obtain ⟨q, hq, _⟩ := h.passed p
  exact hq.none_without_map fun m hm => hmap ⟨m, hm⟩

/-- A worker that got its map and ended without a panic came through all its rounds. -/
theorem Sound.passes_complete (h : s.Sound config) {p : Nat} {t : Worker} (hmap : s.Acquired p)
    (ht : s.run.workers[p]? = some t) (hended : t.hasEnded = true) (hcrash : t.crash? = none) :
    (s.passes p).length = config.plan.numRuns.toNat := by
  obtain ⟨q, hq, hend⟩ := h.passed p
  rw [← h.config_eq]
  exact hq.all (hend t ht hended hcrash) hmap

/-- A worker that ended and did not panic between its effects came through all rounds that it
    began, but for one that crashed. -/
theorem Sound.passes_eq_filter (h : s.Sound config) {p : Nat} {t : Worker}
    (ht : s.run.workers[p]? = some t) (hended : t.hasEnded = true)
    (hcalm : s.panicked p = false) :
    s.passes p = (s.ends p).filter fun e => !e.isCrash := by
  obtain ⟨q, hq, hprogram⟩ := (h.engaged p t ht).plays
  rw [← hprogram hcalm, Worker.program_of_hasEnded hended] at hq
  exact (Partition.passed_of_plays hq).ended _ rfl

/-- When a run has finished, the table shows the passes. -/
theorem Sound.shows_passes (h : s.Sound config) (hphase : s.run.phase = .finished) (p : Nat) :
    s.run.gatherer.table.Shows (completedKey p) ((s.passes p).countP RoundEnd.isCompleted) ∧
      s.run.gatherer.table.Shows (failedKey p) ((s.passes p).countP RoundEnd.isFailed) := by
  obtain ⟨q, hq, _⟩ := h.passed p
  have hfirst : (s.ends p).take (s.passes p).length = s.passes p :=
    (List.prefix_iff_eq_take.mp hq.first).symm
  have hall : s.applied = s.sent := (h.closed_of_phase hphase).2.2
  -- All that the worker published has been applied, and it is the tally of its passes.
  have haccounted : (s.partition p).Accounted 0 0 (s.applied.filter (·.isAbout p)) (s.ends p)
      (s.passes p).length := by
    refine ⟨?_, hq.first.length_le, ?_⟩
    · rw [hall, h.sent_filter, hfirst]
      exact hq.published
    · rw [hfirst]
      exact hq.not_crash
  have hshows := h.shows_counts haccounted
  rwa [hfirst] at hshows

end Watched

end GridBench
