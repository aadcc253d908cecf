/-
  GridBench.Proofs.Run.Sound

  What holds of an observed run in every state it can reach.  `Watched.Stage`
  ties the phase of the main task to what the gatherer holds: the table is the
  first status followed by the updates applied, the queue holds the updates
  sent but not applied, and a stop stands behind them only when all workers
  have ended.  `Watched.Engaged` ties each worker to its diary.  `Watched.Sound`
  holds both, and every step preserves it (`Sound.step`).
-/
import GridBench.Proofs.Run.Watched
import GridBench.Proofs.Run.Rounds
import GridBench.Proofs.Naming.Keys
import GridBench.Proofs.Status.Table

namespace GridBench

namespace LoopRun

/-- The table as the workers find it. -/
def firstTable (plan : RunPlan) : Progress := Progress.writeAll ∅ (initialStatus plan)

theorem begin_fresh (config : LoopConfig) :
    ({ config := config } : LoopRun).begin =
      .ok { config := config, gatherer := ⟨firstTable config.plan, [], .listening, 1⟩
            phase := .launching, workers := #[] } := rfl

end LoopRun

/-- Whether an update carries a count of a partition. -/
def StatusUpdate.isAbout (p : Nat) : StatusUpdate → Bool
  | .update key _ => key = completedKey p || key = failedKey p
  | .stop => false

namespace Partition

variable {p : Partition}

theorem Tells.isAbout {u : StatusUpdate} (h : p.Tells u) : u.isAbout p.number = true := by
  rcases h with ⟨n, rfl | rfl⟩ <;> simp [StatusUpdate.isAbout]

/-- The counts of two partitions have different keys. -/
theorem Tells.isAbout_other {u : StatusUpdate} (h : p.Tells u) {q : Nat} (hq : q ≠ p.number) :
    u.isAbout q = false := by
  rcases h with ⟨n, rfl | rfl⟩
  · have hc : completedKey p.number ≠ completedKey q := fun h => hq (completedKey_inj h).symm
    have hf : completedKey p.number ≠ failedKey q := completedKey_ne_failedKey _ _
    simp [StatusUpdate.isAbout, hc, hf]
  · have hc : failedKey p.number ≠ completedKey q := (completedKey_ne_failedKey _ _).symm
    have hf : failedKey p.number ≠ failedKey q := fun h => hq (failedKey_inj h).symm
    simp [StatusUpdate.isAbout, hc, hf]

/-- The updates among the counts of a partition that are about a given one. -/
theorem filter_isAbout {us : List StatusUpdate} (h : ∀ u ∈ us, p.Tells u) (q : Nat) :
    us.filter (·.isAbout q) = if q = p.number then us else [] := by
  split
  · rename_i hq
    subst hq
    exact List.filter_eq_self.mpr fun u hu => (h u hu).isAbout
  · rename_i hq
    exact List.filter_eq_nil_iff.mpr fun u hu => by simp [(h u hu).isAbout_other hq]

/-- What a worker does publishes only its own counts. -/
theorem tells_of_plays {ds es : List Deed} {q q' : Proc (Option String)}
    (h : Proc.Plays p.work ds q) (h' : Proc.Plays q es q') : ∀ u ∈ published es, p.Tells u := by
  induction h' generalizing ds with
  | nil q => simp
  | @cons e k r es q' _ ih =>
    have hmay := may_of_plays_work h
    have htail := ih (h.append (.cons (.nil _)))
    intro u hu
    rw [published_cons, List.mem_append] at hu
    rcases hu with hu | hu
    · match e with
      | .publish v =>
        rw [Deed.published, List.mem_singleton] at hu
        exact hu ▸ hmay
      | .ask .. | .pause _ | .clock | .pick _ | .log _ => simp [Deed.published] at hu
    · exact htail u hu

/-- A worker is where its diary says it is, and once it panicked it publishes nothing and ends
    with a message. -/
structure Engaged (p : Partition) (panicked : Bool) (diary : List Deed) (t : Worker) : Prop where
  plays : ∃ q, Proc.Plays p.work diary q ∧ (panicked = false → t.program = q)
  quiet : panicked = true → t.program.Keeps (.plain Silent) (fun _ r => r.isSome = true) ()

/-- A worker at its start, in front of an empty diary. -/
theorem engaged_start : p.Engaged false [] (.running p.work) where
  plays := ⟨_, .nil _, fun _ => rfl⟩
  quiet := nofun

/-- A worker that moves stays engaged, and what it publishes belongs to its partition. -/
theorem Engaged.move {σ : Type} {g : Grid σ} {w w' : World σ} {panicked : Bool}
    {diary ds : List Deed} {t t' : Worker} (h : p.Engaged panicked diary t)
    (hmove : t.Move g w w' t' ds) :
    p.Engaged panicked (if panicked then diary else diary ++ ds) t' ∧
      (panicked = true → published ds = []) ∧ ∀ u ∈ published ds, p.Tells u := by
  obtain ⟨q, hq, htq⟩ := h.plays
  cases panicked with
  -- The diary stands still once the worker panicked, and what is left of it stays quiet.
  | true =>
    have hquiet := h.quiet rfl
    have hnone := published_eq_nil (hmove.plays.forall_effect hquiet)
    have hrest := hmove.plays.keeps (Terms.plain_grants Silent () ds) hquiet
    exact ⟨⟨⟨q, hq, nofun⟩, fun _ => hrest⟩, fun _ => hnone, by simp [hnone]⟩
  | false =>
    have hplays := htq rfl ▸ hmove.plays
    exact ⟨⟨⟨t'.program, hq.append hplays, fun _ => rfl⟩, nofun⟩, nofun,
      tells_of_plays hq hplays⟩

/-- A worker that panics stays engaged: what is left of it is quiet. -/
theorem Engaged.unwind {panicked : Bool} {diary : List Deed} {message : String} {t t' : Worker}
    (h : p.Engaged panicked diary t) (hpanic : p.Unwinds message t t') :
    p.Engaged true diary t' where
  plays := by
    obtain ⟨q, hq, _⟩ := h.plays
    exact ⟨q, hq, nofun⟩
  quiet _ := by
    cases hpanic with
    | caught _ =>
      -- Giving the handle back ends in the message, whether or not it succeeds.
      refine ⟨trivial, fun a _ => ?_⟩
      match a with
      | .ok () => rfl
      | .error f => exact ⟨trivial, fun _ _ => rfl⟩
    | ended _ => rfl

theorem Unwinds.not_hasEnded {message : String} {t t' : Worker} (h : p.Unwinds message t t') :
    t.hasEnded = false := by
  cases h with
  | caught ht =>
    refine Bool.eq_false_iff.mpr fun hended => ?_
    have hdone := Worker.program_of_hasEnded hended
    rw [ht] at hdone
    cases hdone
  | ended ht => exact ht

end Partition

namespace Watched

variable {σ : Type}

/-! ## The invariant -/

/-- How many workers the run will have. -/
def numMaps (s : Watched σ) : Nat := s.run.config.plan.numMaps.toNat

/-- The table as the updates applied leave it. -/
def countsTable (s : Watched σ) : Progress :=
  (LoopRun.firstTable s.run.config.plan).writeAll s.applied

/-- How far the main task and the gatherer's task have come. -/
inductive Stage (s : Watched σ) : Prop
  | bound : s.run.phase = .bound → s.run.gatherer = {} → s.run.workers = #[] → s.sent = [] →
      s.applied = [] → Stage s
  | opened (pending : List StatusUpdate) :
      s.run.phase = .launching ∨ s.run.phase = .joining ∧ s.run.workers.size = s.numMaps →
      s.run.gatherer = ⟨s.countsTable, pending, .listening, 1⟩ → s.sent = s.applied ++ pending →
      Stage s
  | stopping (pending : List StatusUpdate) :
      s.run.phase = .stopping → s.run.workers.size = s.numMaps → s.run.allEnded = true →
      s.run.gatherer = ⟨s.countsTable, pending ++ [.stop], .listening, 1⟩ →
      s.sent = s.applied ++ pending → Stage s
  | closed : s.run.phase = .stopping ∨ s.run.phase = .finished → s.run.workers.size = s.numMaps →
      s.run.allEnded = true →
      s.run.gatherer =
        ⟨s.countsTable.insert runnerFinishedKey (.bool true), [], .finished, 1⟩ →
      s.sent = s.applied → Stage s

/-- The partition of the run with a given number. -/
def partition (s : Watched σ) (p : Nat) : Partition := ⟨s.run.config, p⟩

/-- What holds of a run in every state it can reach. -/
structure Sound (config : LoopConfig) (s : Watched σ) : Prop where
  config_eq : s.run.config = config
  size_le : s.run.workers.size ≤ s.numMaps
  stage : s.Stage
  engaged : ∀ p t, s.run.workers[p]? = some t →
    (s.partition p).Engaged (s.panicked p) (s.diary p) t
  unlaunched : ∀ p, s.run.workers[p]? = none → s.diary p = [] ∧ s.panicked p = false
  sent_filter : ∀ p, s.sent.filter (·.isAbout p) = published (s.diary p)
  sent_tells : ∀ u ∈ s.sent, ∃ p < s.numMaps, (s.partition p).Tells u

/-! ## What one step preserves -/

theorem sound_start (config : LoopConfig) (w : World σ) : (start config w).Sound config where
  config_eq := rfl
  size_le := Nat.zero_le _
  stage := .bound rfl rfl rfl rfl rfl
  engaged p t h := by cases h
  unlaunched _ _ := ⟨rfl, rfl⟩
  sent_filter _ := rfl
  sent_tells u h := by cases h

variable {config : LoopConfig} {g : Grid σ} {S : Outside σ} {s s' : Watched σ}

theorem Sound.numMaps_eq (h : s.Sound config) : s.numMaps = config.plan.numMaps.toNat := by
  rw [numMaps, h.config_eq]

theorem note_diary_self (p : Nat) (ds : List Deed) :
    (s.note p ds).diary p = if s.panicked p then s.diary p else s.diary p ++ ds := by
  unfold note
  cases s.panicked p <;> simp

theorem note_diary_other {p q : Nat} (hq : q ≠ p) (ds : List Deed) :
    (s.note p ds).diary q = s.diary q := by
  unfold note
  cases s.panicked p <;> simp [hq]

/-- What is sent about a partition stays what its worker published. -/
theorem note_sent_filter {p q : Nat} {ds : List Deed}
    (h : s.sent.filter (·.isAbout q) = published (s.diary q))
    (hquiet : s.panicked p = true → published ds = [])
    (htells : ∀ u ∈ published ds, (s.partition p).Tells u) :
    (s.note p ds).sent.filter (·.isAbout q) = published ((s.note p ds).diary q) := by
  have hsent : (s.note p ds).sent = s.sent ++ published ds := rfl
  rw [hsent, List.filter_append, h, Partition.filter_isAbout htells q]
  by_cases hpq : q = p
  · subst hpq
    rw [note_diary_self, if_pos (show q = (s.partition q).number from rfl)]
    split
    · rename_i hpanic
      rw [hquiet hpanic, List.append_nil]
    · rw [published_append]
  · rw [note_diary_other hpq, if_neg (show q ≠ (s.partition p).number from hpq), List.append_nil]

/-- As long as some worker has not ended, the gatherer is listening. -/
theorem Stage.opened_of_worker {p : Nat} {t : Worker} (h : s.Stage)
    (ht : s.run.workers[p]? = some t) (hended : t.hasEnded = false) :
    ∃ pending, (s.run.phase = .launching ∨
        s.run.phase = .joining ∧ s.run.workers.size = s.numMaps) ∧
      s.run.gatherer = ⟨s.countsTable, pending, .listening, 1⟩ ∧
      s.sent = s.applied ++ pending := by
  -- In the later stages all workers have ended, and in the first one there is none.
  have hall : s.run.allEnded ≠ true := by
    intro hall
    obtain ⟨hp, rfl⟩ := Array.getElem?_eq_some_iff.mp ht
    have hp' := Array.all_eq_true.mp hall p hp
    exact absurd (hp'.symm.trans hended) (by decide)
  cases h with
  | bound _ _ hworkers => simp [hworkers] at ht
  | opened pending hphase hgatherer hsent => exact ⟨pending, hphase, hgatherer, hsent⟩
  | stopping _ _ _ hended => exact absurd hended hall
  | closed _ _ hended => exact absurd hended hall

/-- While the workers are launched and joined, the gatherer is listening. -/
theorem Stage.opened_of_phase (h : s.Stage)
    (hphase : s.run.phase = .launching ∨ s.run.phase = .joining) :
    ∃ pending, (s.run.phase = .launching ∨
        s.run.phase = .joining ∧ s.run.workers.size = s.numMaps) ∧
      s.run.gatherer = ⟨s.countsTable, pending, .listening, 1⟩ ∧
      s.sent = s.applied ++ pending := by
  cases h with
  | bound hp => simp [hp] at hphase
  | opened pending hp hgatherer hsent => exact ⟨pending, hp, hgatherer, hsent⟩
  | stopping _ hp => simp [hp] at hphase
  | closed hp => rcases hp with hp | hp <;> simp [hp] at hphase

/-- A run that has not begun is as it was created. -/
theorem Sound.run_eq (h : s.Sound config) (hphase : s.run.phase = .bound) :
    s.run = { config := s.run.config } ∧ s.sent = [] ∧ s.applied = [] := by
  cases h.stage with
  | opened _ hp => simp [hphase] at hp
  | stopping _ hp => simp [hphase] at hp
  | closed hp => simp [hphase] at hp
  | bound _ hgatherer hworkers hsent happlied =>
    refine ⟨?_, hsent, happlied⟩
    cases hr : s.run
    simp_all

theorem Sound.begun {l : LoopRun} {w : World σ} (h : s.Sound config)
    (hphase : s.run.phase = .bound) (hl : s.run.begin = .ok l) :
    Sound config { s with world := w, run := l } := by
  obtain ⟨hrun, hsent, happlied⟩ := h.run_eq hphase
  rw [hrun, LoopRun.begin_fresh] at hl
  cases hl
  exact {
    config_eq := h.config_eq
    size_le := Nat.zero_le _
    stage := .opened [] (.inl rfl) (by simp [countsTable, happlied, Progress.writeAll])
      (by simp [hsent, happlied])
    engaged := fun p t ht => by simp at ht
    unlaunched := fun p _ => h.unlaunched p (by rw [hrun]; rfl)
    sent_filter := h.sent_filter
    sent_tells := h.sent_tells }

theorem Sound.launched (h : s.Sound config) (hphase : s.run.phase = .launching)
    (hlt : s.run.workers.size < s.run.config.plan.numMaps.toNat) :
    Sound config { s with run := { s.run with
      workers := s.run.workers.push (LoopRun.newWorker s.run.config s.run.workers.size) } } := by
  have hfresh := h.unlaunched s.run.workers.size (by simp)
  refine {
    config_eq := h.config_eq
    size_le := ?_
    stage := ?_
    engaged := fun p t ht => ?_
    unlaunched := fun p hp => ?_
    sent_filter := h.sent_filter
    sent_tells := h.sent_tells }
  · rw [Array.size_push]
    exact hlt
  · obtain ⟨pending, _, hgatherer, hsent⟩ := h.stage.opened_of_phase (.inl hphase)
    exact .opened pending (.inl hphase) hgatherer hsent
  · rw [Array.getElem?_push] at ht
    split at ht
    -- The new worker is at the start of its program.
    · rename_i hp
      cases ht
      subst hp
      rw [hfresh.1, hfresh.2]
      exact Partition.engaged_start
    · exact h.engaged p t ht
  · rw [Array.getElem?_push] at hp
    split at hp
    · cases hp
    · exact h.unlaunched p hp

theorem Sound.joins (h : s.Sound config) (hphase : s.run.phase = .launching)
    (hge : s.run.config.plan.numMaps.toNat ≤ s.run.workers.size) :
    Sound config { s with run := { s.run with phase := .joining } } := by
  obtain ⟨pending, _, hgatherer, hsent⟩ := h.stage.opened_of_phase (.inl hphase)
  have hsize : s.run.workers.size = s.numMaps := Nat.le_antisymm h.size_le hge
  exact { h with stage := .opened pending (.inr ⟨rfl, hsize⟩) hgatherer hsent }

theorem Sound.stops {w : World σ} (h : s.Sound config) (hphase : s.run.phase = .joining)
    (hall : s.run.allEnded = true) :
    Sound config { s with
      world := w
      run := { s.run with gatherer := (s.run.gatherer.post .stop).1, phase := .stopping } } := by
  obtain ⟨pending, hp, hgatherer, hsent⟩ := h.stage.opened_of_phase (.inr hphase)
  have hsize : s.run.workers.size = s.numMaps := by simpa [hphase] using hp
  refine { h with stage := .stopping pending rfl hsize hall ?_ hsent }
  -- The stop stands behind all updates that are still to be applied.
  rw [hgatherer]
  rfl

theorem Sound.finishes (h : s.Sound config) (hphase : s.run.phase = .stopping)
    (hfin : s.run.gatherer.phase = .finished) :
    Sound config { s with run := { s.run with phase := .finished } } := by
  refine { h with stage := ?_ }
  cases h.stage with
  | bound hp => simp [hphase] at hp
  | opened _ hp => simp [hphase] at hp
  | stopping _ _ _ _ hgatherer => simp [hgatherer] at hfin
  | closed _ hsize hall hgatherer hsent => exact .closed (.inr rfl) hsize hall hgatherer hsent

theorem Sound.works {p : Nat} {t t' : Worker} {w : World σ} {ds : List Deed} (h : s.Sound config)
    (ht : s.run.workers[p]? = some t) (hmove : t.Move g s.world w t' ds) :
    Sound config { s.note p ds with
      world := w
      run := { s.run with
        workers := s.run.workers.setIfInBounds p t'
        gatherer := (published ds).foldl (fun g u => (g.send u).1) s.run.gatherer } } := by
  obtain ⟨hengaged, hquiet, htells⟩ := (h.engaged p t ht).move hmove
  obtain ⟨pending, hphase, hgatherer, hsent⟩ := h.stage.opened_of_worker ht hmove.not_hasEnded
  have hp : p < s.run.workers.size := (Array.getElem?_eq_some_iff.mp ht).1
  refine {
    config_eq := h.config_eq
    size_le := by simpa [numMaps] using h.size_le
    stage := ?_
    engaged := fun q u hu => ?_
    unlaunched := fun q hq => ?_
    sent_filter := fun q => ?_
    sent_tells := fun u hu => ?_ }
  -- What the worker published is behind all that was pending.
  · refine .opened (pending ++ published ds) (by simpa [numMaps] using hphase) ?_ ?_
    · rw [hgatherer]
      exact Gatherer.sendAll_listening _ _ _ _
    · simp [note, hsent]
  · rw [Array.getElem?_setIfInBounds] at hu
    by_cases hpq : q = p
    · subst hpq
      rw [if_pos rfl, if_pos hp] at hu
      cases hu
      rw [note_diary_self]
      exact hengaged
    · rw [if_neg (Ne.symm hpq)] at hu
      rw [note_diary_other hpq]
      exact h.engaged q u hu
  · have hq' : s.run.workers.size ≤ q := by simpa using hq
    have hpq : q ≠ p := by omega
    rw [note_diary_other hpq]
    exact h.unlaunched q (by simpa using hq')
  · exact note_sent_filter (h.sent_filter q) hquiet htells
  · rcases List.mem_append.mp hu with hu | hu
    · exact h.sent_tells u hu
    · exact ⟨p, Nat.lt_of_lt_of_le hp h.size_le, htells u hu⟩

theorem Sound.writes {key : String} {value : Json} {rest : List StatusUpdate} {w : World σ}
    (h : s.Sound config) (hphase : s.run.gatherer.phase = .listening)
    (hqueue : s.run.gatherer.queue = .update key value :: rest) :
    Sound config { s with
      world := w
      run := { s.run with gatherer := { s.run.gatherer with
        table := s.run.gatherer.table.insert key value, queue := rest } }
      applied := s.applied ++ [.update key value] } := by
  refine { h with stage := ?_ }
  have htable : (LoopRun.firstTable s.run.config.plan).writeAll
      (s.applied ++ [.update key value]) = s.countsTable.insert key value :=
    Progress.writeAll_append _ _ _
  cases h.stage with
  | bound _ hgatherer => simp [hgatherer] at hphase
  | closed _ _ _ hgatherer => simp [hgatherer] at hphase
  | opened pending hp hgatherer hsent =>
    rw [hgatherer] at hqueue
    have hpending : pending = .update key value :: rest := hqueue
    refine .opened rest hp ?_ ?_
    · rw [countsTable, htable, hgatherer]
    · rw [hsent, hpending, List.append_assoc, List.singleton_append]
  | stopping pending hp hsize hall hgatherer hsent =>
    rw [hgatherer] at hqueue
    -- The stop is not an update, so something is pending in front of it.
    cases pending with
    | nil => cases hqueue
    | cons u pending =>
      obtain ⟨rfl, hrest⟩ := List.cons.inj hqueue
      have hrest : pending ++ [.stop] = rest := hrest
      refine .stopping pending hp hsize hall ?_ ?_
      · rw [countsTable, htable, hgatherer, ← hrest]
      · rw [hsent, List.append_assoc, List.singleton_append]

theorem Sound.closes {rest : List StatusUpdate} {w : World σ} (h : s.Sound config)
    (hphase : s.run.gatherer.phase = .listening) (hqueue : s.run.gatherer.queue = .stop :: rest) :
    Sound config { s with
      world := w
      run := { s.run with gatherer := { s.run.gatherer with
        table := s.run.gatherer.table.insert runnerFinishedKey (.bool true), queue := []
        phase := .finished } } } := by
  refine { h with stage := ?_ }
  -- No worker sends a stop, so the one at the head of the queue is that of the main task.
  have hnostop : .stop ∉ s.sent := by
    intro hstop
    obtain ⟨p, _, n, hu | hu⟩ := h.sent_tells _ hstop <;> cases hu
  cases h.stage with
  | bound _ hgatherer => simp [hgatherer] at hphase
  | closed _ _ _ hgatherer => simp [hgatherer] at hphase
  | opened pending hp hgatherer hsent =>
    rw [hgatherer] at hqueue
    have hpending : pending = .stop :: rest := hqueue
    exact absurd (by simp [hsent, hpending]) hnostop
  | stopping pending hp hsize hall hgatherer hsent =>
    cases pending with
    | nil => exact .closed (.inl hp) hsize hall (by rw [hgatherer]; rfl) (by simpa using hsent)
    | cons u pending =>
      rw [hgatherer] at hqueue
      obtain ⟨rfl, _⟩ := List.cons.inj hqueue
      exact absurd (by simp [hsent]) hnostop

/-- The gatherer is never deserted: the run itself holds a sender. -/
theorem Sound.senders (h : s.Sound config) : s.run.gatherer.senders = 1 := by
  cases h.stage with
  | bound _ hgatherer => rw [hgatherer]
  | opened _ _ hgatherer => rw [hgatherer]
  | stopping _ _ _ _ hgatherer => rw [hgatherer]
  | closed _ _ _ hgatherer => rw [hgatherer]

theorem Sound.turn {task : LoopTask} (h : s.Sound config) (hturn : Turn g s task s') :
    s'.Sound config := by
  cases hturn with
  | begun hphase hl => exact h.begun hphase hl
  | launched hphase hlt => exact h.launched hphase hlt
  | joins hphase hge => exact h.joins hphase hge
  | stops hphase hall => exact h.stops hphase hall
  | finishes hphase hfin => exact h.finishes hphase hfin
  | works ht hmove => exact h.works ht hmove
  | writes hphase hqueue => exact h.writes hphase hqueue
  | closes hphase hqueue => exact h.closes hphase hqueue
  | deserted _ _ hsenders =>
    rw [h.senders] at hsenders
    cases hsenders

theorem Sound.panics {p : Nat} {message : String} {t t' : Worker} (h : s.Sound config)
    (ht : s.run.workers[p]? = some t) (hpanic : (s.partition p).Unwinds message t t') :
    Sound config { s with
      run := { s.run with workers := s.run.workers.setIfInBounds p t' }
      panicked := Function.update s.panicked p true } := by
  obtain ⟨pending, hphase, hgatherer, hsent⟩ := h.stage.opened_of_worker ht hpanic.not_hasEnded
  have hp : p < s.run.workers.size := (Array.getElem?_eq_some_iff.mp ht).1
  refine { h with
    size_le := by simpa [numMaps] using h.size_le
    stage := .opened pending (by simpa [numMaps] using hphase) hgatherer hsent
    engaged := fun q u hu => ?_
    unlaunched := fun q hq => ?_ }
  · rw [Array.getElem?_setIfInBounds] at hu
    show (s.partition q).Engaged (Function.update s.panicked p true q) (s.diary q) u
    by_cases hpq : q = p
    · subst hpq
      rw [if_pos rfl, if_pos hp] at hu
      cases hu
      rw [Function.update_self]
      exact (h.engaged q t ht).unwind hpanic
    · rw [if_neg (Ne.symm hpq)] at hu
      rw [Function.update_of_ne hpq]
      exact h.engaged q u hu
  · have hq' : s.run.workers.size ≤ q := by simpa using hq
    have hpq : q ≠ p := by omega
    show s.diary q = [] ∧ Function.update s.panicked p true q = false
    rw [Function.update_of_ne hpq]
    exact h.unlaunched q (by simpa using hq')

/-- The invariant does not look at the world. -/
theorem Sound.stir (h : s.Sound config) (w : World σ) : Sound config { s with world := w } := by
  refine { h with stage := ?_ }
  cases h.stage with
  | bound hphase hgatherer hworkers hsent happlied =>
    exact .bound hphase hgatherer hworkers hsent happlied
  | opened pending hphase hgatherer hsent => exact .opened pending hphase hgatherer hsent
  | stopping pending hphase hsize hall hgatherer hsent =>
    exact .stopping pending hphase hsize hall hgatherer hsent
  | closed hphase hsize hall hgatherer hsent => exact .closed hphase hsize hall hgatherer hsent

/-- What one step preserves. -/
theorem Sound.step (h : s.Sound config) (hstep : Step g S s s') : s'.Sound config := by
  cases hstep with
  | move hmove => exact h.turn (turn_of_advance hmove)
  | stir _ => exact h.stir _
  | panic _ ht hpanic => exact h.panics ht hpanic

/-- What a whole run preserves. -/
theorem Sound.reaches (h : s.Sound config) (hs : Reaches g S s s') : s'.Sound config := by
  induction hs with
  | refl => exact h
  | tail _ hstep ih => exact ih.step hstep

theorem sound_of_reaches {w : World σ} (hs : Reaches g S (start config w) s) : s.Sound config :=
  (sound_start config w).reaches hs

end Watched

end GridBench
