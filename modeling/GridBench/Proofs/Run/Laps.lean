/-
  GridBench.Proofs.Run.Laps

  The rounds of a worker in its log.  The acts of a worker that has worked all
  its rounds fall into laps, one for each round, with the accounts between
  them (`Partition.Tour`).  A lap is the pause and the announcement before the
  round, and the acts of the round itself; outside of the rounds no call is
  made.  Main statement (`Watched.ReachesBy.exists_laps`): the laps of a worker
  that has ended are as many as the plan asks for, and they end as its rounds
  did.
-/
import GridBench.Proofs.Run.Handover
import GridBench.Proofs.Run.Counts

namespace GridBench

/-- A round in a log: what was done before it and in it, and how it ended. -/
structure Lap (σ : Type) where
  /-- The pause and the announcement before the round. -/
  lead : List (Act σ)
  acts : List (Act σ)
  roundEnd : RoundEnd

variable {σ : Type}

namespace Partition

open Proc

variable {p : Partition}

/-! ## Parts of the rounds that make no request -/

theorem rest_unasked (s : SleepPolicy) :
    (rest s).Keeps (.plain fun e => e.isAsk = false) (fun _ _ => True) () := by
  unfold rest
  split
  · exact ⟨rfl, fun _ _ => ⟨rfl, fun _ _ => ⟨rfl, fun _ _ => trivial⟩⟩⟩
  · trivial

theorem announce_unasked (run : Nat) :
    (p.announce run).Keeps (.plain fun e => e.isAsk = false) (fun _ _ => True) () := by
  unfold announce
  split
  · exact ⟨rfl, fun _ _ => ⟨rfl, fun _ _ => trivial⟩⟩
  · exact ⟨rfl, fun _ _ => trivial⟩

theorem account_unasked (run completed failed : Nat) (e : RoundEnd) :
    (p.account run completed failed e).Keeps (.plain fun e => e.isAsk = false) (fun _ _ => True)
      () := by
  cases e with
  | completed => exact ⟨rfl, fun _ _ => trivial⟩
  | failed action cause => exact ⟨rfl, fun _ _ => ⟨rfl, fun _ _ => trivial⟩⟩
  | crashed message => trivial

/-- What a worker does when no round is left. -/
theorem conclusion_unasked (h : Handle) (run completed failed : Nat) :
    (p.rounds h 0 run completed failed).Keeps (.plain fun e => e.isAsk = false) (fun _ _ => True)
      () := by
  rw [rounds]
  exact ⟨rfl, fun _ _ => trivial⟩

/-! ## Tours -/

/-- What comes before a round: the pause and the announcement. -/
def lead (p : Partition) (run : Nat) : Proc Unit := do
  rest p.config.plan.betweenRuns
  p.announce run

theorem iteration_eq (h : Handle) (run : Nat) :
    p.iteration h run = (p.lead run >>= fun _ => p.round h) := by
  rw [iteration, lead, bind_assoc]

theorem lead_unasked (run : Nat) :
    (p.lead run).Keeps (.plain fun e => e.isAsk = false) (fun _ _ => True) () :=
  (rest_unasked _).bind fun _ _ _ => announce_unasked run

/-- The acts of all rounds from the one with number `run` on, one lap after the other.  Each round
    has ended without a crash, and was accounted for without a request. -/
inductive Tour (p : Partition) (h : Handle) : Nat → List (Act σ) → List (Lap σ) → Prop
  | done {run : Nat} {as : List (Act σ)} :
      (∀ a ∈ as, a.deed.effect.isAsk = false) → Tour p h run as []
  | lap {run : Nat} {l : Lap σ} {bs as : List (Act σ)} {ls : List (Lap σ)} :
      Plays (p.lead run) (deedsOf l.lead) (.done ()) →
      Plays (p.round h) (deedsOf l.acts) (.done l.roundEnd) → l.roundEnd.isCrash = false →
      (∀ b ∈ bs, b.deed.effect.isAsk = false) → Tour p h (run + 1) as ls →
      Tour p h run (l.lead ++ (l.acts ++ (bs ++ as))) (l :: ls)

/-- What holds of the effects of a program holds of the acts that played it. -/
theorem forall_acts {α : Type} {P : Effect → Prop} {q q' : Proc α} {as : List (Act σ)}
    {Q : Unit → α → Prop} (h : Plays q (deedsOf as) q') (hq : q.Keeps (.plain P) Q ()) :
    ∀ a ∈ as, P a.deed.effect := fun _ ha =>
  h.forall_effect hq _ (List.mem_map_of_mem ha)

/-- The acts of rounds that ended without a crash are a tour. -/
theorem exists_tour {h : Handle} {left run completed failed : Nat} {as : List (Act σ)}
    (hplays : Plays (p.rounds h left run completed failed) (deedsOf as) (.done none)) :
    ∃ ls : List (Lap σ), p.Tour h run as ls ∧ ls.length = left ∧
      p.endsFrom h left run completed failed (deedsOf as) = ls.map Lap.roundEnd := by
  induction left generalizing run completed failed as with
  | zero =>
    exact ⟨[], .done (forall_acts hplays (conclusion_unasked h run completed failed)), rfl, rfl⟩
  | succ left ih =>
    rw [rounds_succ] at hplays
    obtain ⟨ds₁, ds', e, hds, h₁, h'⟩ := hplays.of_bind_done
    obtain ⟨ds₂, ds₃, _, hds', h₂, h₃⟩ := Plays.of_bind_done h'
    have hends : p.endsFrom h (left + 1) run completed failed (deedsOf as) =
        e :: p.endsAfter h left run completed failed e ds₃ := by
      rw [hds, hds', endsFrom_succ h₁ h₂]
    rw [iteration_eq] at h₁
    obtain ⟨ds₀, ds₁', _, rfl, hlead, hround⟩ := h₁.of_bind_done
    -- The log is taken apart as its deeds are.
    obtain ⟨as₁, as', rfl, has₁, has'⟩ := exists_of_deedsOf_eq_append hds
    obtain ⟨as₀, as₁, rfl, rfl, rfl⟩ := exists_of_deedsOf_eq_append has₁
    obtain ⟨as₂, as₃, rfl, rfl, rfl⟩ := exists_of_deedsOf_eq_append (has'.trans hds')
    have hunasked := forall_acts h₂ (account_unasked run completed failed e)
    have hlap : ∀ ls : List (Lap σ), e.isCrash = false → p.Tour h (run + 1) as₃ ls →
        p.Tour h run (as₀ ++ as₁ ++ (as₂ ++ as₃)) (⟨as₀, as₁, e⟩ :: ls) := by
      intro ls hcrash hrest
      rw [List.append_assoc]
      exact .lap (l := ⟨as₀, as₁, e⟩) hlead hround hcrash hunasked hrest
    cases e with
    | completed =>
      obtain ⟨ls, htour, hlength, hrest⟩ := ih h₃
      refine ⟨_, hlap ls rfl htour, congrArg _ hlength, hends.trans ?_⟩
      exact congrArg _ hrest
    | failed action cause =>
      obtain ⟨ls, htour, hlength, hrest⟩ := ih h₃
      refine ⟨_, hlap ls rfl htour, congrArg _ hlength, hends.trans ?_⟩
      exact congrArg _ hrest
    | crashed message =>
      obtain ⟨_, hq⟩ := Plays.done_nil h₃
      cases hq

/-- Each lap of a tour is a round, and stands in one piece in the log. -/
theorem Tour.forall_laps {h : Handle} {run : Nat} {as : List (Act σ)} {ls : List (Lap σ)}
    (htour : p.Tour h run as ls) : ∀ l ∈ ls, l.lead ++ l.acts <:+: as ∧
      (∃ n, Plays (p.lead n) (deedsOf l.lead) (.done ())) ∧
      Plays (p.round h) (deedsOf l.acts) (.done l.roundEnd) ∧ l.roundEnd.isCrash = false := by
  induction htour with
  | done _ => exact fun l hl => absurd hl List.not_mem_nil
  | lap hlead hround hcrash _ _ ih =>
    intro l hl
    rcases List.mem_cons.mp hl with rfl | hl
    · refine ⟨List.IsPrefix.isInfix ?_, ⟨_, hlead⟩, hround, hcrash⟩
      rw [← List.append_assoc]
      exact List.prefix_append _ _
    · obtain ⟨hpiece, hrest⟩ := ih l hl
      refine ⟨hpiece.trans (List.IsSuffix.isInfix ?_), hrest⟩
      rw [← List.append_assoc, ← List.append_assoc]
      exact List.suffix_append _ _

/-! ## The whole worker -/

/-- The acts of a worker that has worked all its rounds with a handle. -/
structure Worked (p : Partition) (h : Handle) (as : List (Act σ)) (ls : List (Lap σ)) : Prop where
  parts : ∃ as₁ as₂ as₃, as = as₁ ++ (as₂ ++ as₃) ∧ (∀ a ∈ as₁, Aside a.deed.effect) ∧
    p.Tour h 0 as₂ ls ∧ ∀ a ∈ as₃, Aside a.deed.effect
  handed : handed (deedsOf as) = [h]
  length : ls.length = p.config.plan.numRuns.toNat
  ends : p.ends (deedsOf as) = ls.map Lap.roundEnd

/-- Each lap of a worker is a round, and stands in one piece in its log. -/
theorem Worked.forall_laps {h : Handle} {as : List (Act σ)} {ls : List (Lap σ)}
    (hworked : p.Worked h as ls) : ∀ l ∈ ls, l.lead ++ l.acts <:+: as ∧
      (∃ n, Plays (p.lead n) (deedsOf l.lead) (.done ())) ∧
      Plays (p.round h) (deedsOf l.acts) (.done l.roundEnd) ∧ l.roundEnd.isCrash = false := by
  obtain ⟨as₁, as₂, as₃, rfl, -, htour, -⟩ := hworked.parts
  intro l hl
  obtain ⟨hpiece, hrest⟩ := htour.forall_laps l hl
  refine ⟨hpiece.trans ?_, hrest⟩
  exact (List.prefix_append _ _).isInfix.trans (List.suffix_append _ _).isInfix

/-- A worker that was handed a handle and ended without a crash has worked all its rounds. -/
theorem exists_worked {as : List (Act σ)} (hplays : Plays p.work (deedsOf as) (.done none))
    (hmap : ∃ h, .ok h ∈ acquisitions (deedsOf as)) : ∃ h ls, p.Worked h as ls := by
  rcases plays_work_cases hplays with ⟨e, k, _, hq⟩ | ⟨f, henter, _⟩ |
    ⟨ds₁, ds₂, m, e, k, _, _, _, hq⟩ | ⟨ds₁, ds₂, ds₃, m, crash, hds, henter, hrounds, hleave⟩
  · cases hq
  -- A worker that was refused its map was handed nothing.
  · rw [acquisitions_enter henter] at hmap
    obtain ⟨m, hm⟩ := hmap
    cases List.mem_singleton.mp hm
  · cases hq
  · have haside := leave_aside (p := p) m crash
    obtain rfl : none = crash := hleave.result (Terms.plain_grants _ _ _) haside
    have hends : p.ends (deedsOf as) = p.endsFrom m p.config.plan.numRuns.toNat 0 0 0 ds₂ := by
      rw [hds, ends_of_enter henter, endsFrom_append hrounds]
    have hacquired : acquisitions (deedsOf as) = [.ok m] := by
      rw [hds, acquisitions_append, acquisitions_append, acquisitions_enter henter,
        acquisitions_rounds hrounds,
        acquisitions_eq_nil fun d hd => (hleave.forall_effect haside d hd).2]
      rfl
    obtain ⟨as₁, as', rfl, rfl, has'⟩ := exists_of_deedsOf_eq_append hds
    obtain ⟨as₂, as₃, rfl, rfl, rfl⟩ := exists_of_deedsOf_eq_append has'
    obtain ⟨ls, htour, hlength, htourEnds⟩ := exists_tour hrounds
    refine ⟨m, ls, ⟨as₁, as₂, as₃, rfl, forall_acts henter enter_aside, htour, ?_⟩, ?_, hlength,
      hends.trans htourEnds⟩
    · exact fun a ha => (forall_acts hleave haside a ha).1
    · rw [GridBench.handed, hacquired]
      rfl

end Partition

namespace Watched

variable {config : LoopConfig} {g : Grid σ} {S : Outside σ} {s : Watched σ} {log : Log σ}
variable {w : World σ}

/-- A worker that ended without a message did not panic. -/
theorem Sound.unpanicked (h : s.Sound config) {p : Nat} {t : Worker}
    (ht : s.run.workers[p]? = some t) (hended : t.hasEnded = true) (hcrash : t.crash? = none) :
    s.panicked p = false := by
  refine Bool.eq_false_iff.mpr fun hpanic => ?_
  have hquiet := (h.engaged p t ht).quiet hpanic
  rw [Worker.program_of_hasEnded hended, hcrash] at hquiet
  cases hquiet

/-- When the run has finished, the counts of a worker that was given its map and did not crash are
    those of all its rounds. -/
theorem Sound.counts_of_ends (h : s.Sound config) (hphase : s.run.phase = .finished) {p : Nat}
    (hmap : s.Acquired p) (hcalm : ∀ t : Worker, s.run.workers[p]? = some t → t.crash? = none) :
    s.completed p = (s.ends p).countP RoundEnd.isCompleted ∧
      s.failed p = (s.ends p).countP RoundEnd.isFailed := by
  obtain ⟨m, hm, -, -⟩ := h.applied_filter p
  obtain ⟨hc, hf⟩ := h.shows_counts hm
  have hsum := h.counts_complete hphase hmap hcalm
  rw [h.sum_counts hm] at hsum
  have hlength : (s.ends p).length ≤ config.plan.numRuns.toNat := by
    rw [← h.config_eq]
    exact Partition.ends_length_le _
  have hall : (s.ends p).take m = s.ends p := List.take_of_length_le (by omega)
  rw [hall] at hc hf
  exact ⟨hc.count_eq, hf.count_eq⟩

/-- The log of a worker that has not panicked is the way it went. -/
theorem Chronicled.path (h : Chronicled config g log s) {p : Nat} (hcalm : s.panicked p = false) :
    Worker.Path g (.running (teamOf config p).work) (log p) (workerOf config s.run.workers p) ∧
      s.diary p = deedsOf (actsOf g (log p)) := by
  have hlife := h p
  rw [hcalm] at hlife
  exact ⟨hlife.program_eq.1, hlife.program_eq.2.1⟩

/-- The laps of a worker that was given its map and has ended without a crash. -/
theorem ReachesBy.exists_laps (hs : ReachesBy g S (start config w) log s) {p : Nat} {t : Worker}
    (ht : s.run.workers[p]? = some t) (hended : t.hasEnded = true) (hcrash : t.crash? = none)
    (hmap : s.Acquired p) :
    ∃ h ls, (teamOf config p).Worked h (actsOf g (log p)) ls ∧
      s.ends p = ls.map Lap.roundEnd := by
  obtain ⟨hpath, hdiary⟩ := hs.chronicled.path (hs.sound.unpanicked ht hended hcrash)
  have hplays := hpath.plays
  rw [workerOf_of_getElem? ht, Worker.program_of_hasEnded hended, hcrash] at hplays
  have hends : s.ends p = (teamOf config p).ends (deedsOf (actsOf g (log p))) := by
    rw [ends, partition, hs.sound.config_eq, hdiary]
  rw [Acquired, hdiary] at hmap
  obtain ⟨h, ls, hworked⟩ := Partition.exists_worked hplays hmap
  exact ⟨h, ls, hworked, hends.trans hworked.ends⟩

end Watched

end GridBench
