/-
  GridBench.Proofs.Run.Counts

  The counts in a run's table.  The counters live in the workers and reach the
  table through the queue that all workers share; yet what the table shows of
  a partition is at any time the count of its first rounds, as many as it
  shows.  The updates about one partition are a prefix of what its worker
  published, and that is the tally of its rounds.
-/
import GridBench.Proofs.Run.Finalisation

namespace GridBench

namespace Progress

/-- What the table holds under the key of a count: nothing before the first one. -/
def Shows (t : Progress) (key : String) (n : Nat) : Prop :=
  t[key]? = if n = 0 then none else some (.ofNat n)

theorem Shows.count_eq {t : Progress} {key : String} {n : Nat} (h : t.Shows key n) :
    t.count key = n := by
  unfold count
  rw [h]
  split
  · rename_i hn
    exact hn.symm
  · rw [Option.bind_some, Json.natural?_ofNat, Option.getD_some]

theorem Shows.shows_count {t : Progress} {key : String} {n : Nat} (h : t.Shows key n) :
    t.Shows key (t.count key) := by
  rw [h.count_eq]
  exact h

theorem shows_insert_self (t : Progress) (key : String) (n : Nat) :
    Shows (t.insert key (.ofNat (n + 1))) key (n + 1) := by
  rw [Shows, getElem?_insert_self, if_neg n.succ_ne_zero]

theorem Shows.insert_of_ne {t : Progress} {key key' : String} {n : Nat} (h : t.Shows key' n)
    (hne : key ≠ key') (value : Json) : Shows (t.insert key value) key' n :=
  (getElem?_insert_of_ne t hne value).trans h

end Progress

theorem StatusUpdate.isAbout_of_writes {p : Nat} {key : String} (u : StatusUpdate)
    (hkey : key = completedKey p ∨ key = failedKey p) (hu : Progress.writes key u = true) :
    u.isAbout p = true := by
  cases u with
  | stop => cases hu
  | update key' value =>
    have hkey' : key' = key := by simpa [Progress.writes] using hu
    simpa [isAbout, hkey'] using hkey

/-- Updates about other partitions do not write the counts of a partition. -/
theorem StatusUpdate.countP_isAbout {p : Nat} {key : String}
    (hkey : key = completedKey p ∨ key = failedKey p) (us : List StatusUpdate) :
    (us.filter (·.isAbout p)).countP (Progress.writes key) = us.countP (Progress.writes key) := by
  rw [List.countP_filter]
  refine List.countP_congr fun u _ => ?_
  rw [Bool.and_eq_true]
  exact ⟨fun hu => hu.1, fun hu => ⟨hu, u.isAbout_of_writes hkey hu⟩⟩

namespace Partition

variable {p : Partition}

/-! ## What a tally writes -/

/-- A tally carries the counts it starts from on by one for each round. -/
theorem shows_tally {t : Progress} {completed failed : Nat} {es : List RoundEnd}
    (hc : t.Shows (completedKey p.number) completed) (hf : t.Shows (failedKey p.number) failed)
    (hes : ∀ e ∈ es, e.isCrash = false) :
    (t.writeAll (p.tally completed failed es)).Shows (completedKey p.number)
        (completed + es.countP RoundEnd.isCompleted) ∧
      (t.writeAll (p.tally completed failed es)).Shows (failedKey p.number)
        (failed + es.countP RoundEnd.isFailed) := by
  -- The counts that the tally starts from are those the table shows, which carries the induction.
  induction es generalizing t completed failed with
  | nil => exact ⟨hc, hf⟩
  | cons e es ih =>
    have hrest : ∀ e' ∈ es, e'.isCrash = false := fun e' he' => hes e' (List.mem_cons_of_mem _ he')
    have hne := completedKey_ne_failedKey p.number p.number
    cases e with
    | completed =>
      have ih := ih (Progress.shows_insert_self t (completedKey p.number) completed)
        (hf.insert_of_ne hne _) hrest
      have hcount : completed + List.countP RoundEnd.isCompleted (.completed :: es) =
          completed + 1 + es.countP RoundEnd.isCompleted := by
        simp [List.countP_cons, RoundEnd.isCompleted]
        omega
      rw [hcount]
      exact ih
    | failed action cause =>
      have ih := ih (hc.insert_of_ne hne.symm _)
        (Progress.shows_insert_self t (failedKey p.number) failed) hrest
      have hcount : failed + List.countP RoundEnd.isFailed (.failed action cause :: es) =
          failed + 1 + es.countP RoundEnd.isFailed := by
        simp [List.countP_cons, RoundEnd.isFailed]
        omega
      rw [hcount]
      exact ih
    | crashed message => cases hes _ List.mem_cons_self

/-- Each round that ended has one update in the tally, under the key of how it ended. -/
theorem countP_tally (completed failed : Nat) {es : List RoundEnd}
    (hes : ∀ e ∈ es, e.isCrash = false) :
    (p.tally completed failed es).countP (Progress.writes (completedKey p.number)) =
        es.countP RoundEnd.isCompleted ∧
      (p.tally completed failed es).countP (Progress.writes (failedKey p.number)) =
        es.countP RoundEnd.isFailed := by
  induction es generalizing completed failed with
  | nil => exact ⟨rfl, rfl⟩
  | cons e es ih =>
    have hrest : ∀ e' ∈ es, e'.isCrash = false := fun e' he' => hes e' (List.mem_cons_of_mem _ he')
    have hne := completedKey_ne_failedKey p.number p.number
    cases e with
    | completed =>
      have ih := ih (completed + 1) failed hrest
      simp [tally, List.countP_cons, Progress.writes, RoundEnd.isCompleted, RoundEnd.isFailed,
        hne, ih]
    | failed action cause =>
      have ih := ih completed (failed + 1) hrest
      simp [tally, List.countP_cons, Progress.writes, RoundEnd.isCompleted, RoundEnd.isFailed,
        hne.symm, ih]
    | crashed message => cases hes _ List.mem_cons_self

/-- Rounds that did not crash were completed or failed. -/
theorem countP_isCompleted_add {es : List RoundEnd} (hes : ∀ e ∈ es, e.isCrash = false) :
    es.countP RoundEnd.isCompleted + es.countP RoundEnd.isFailed = es.length := by
  induction es with
  | nil => rfl
  | cons e es ih =>
    have ih := ih fun e' he' => hes e' (List.mem_cons_of_mem _ he')
    cases e with
    | completed =>
      simp [List.countP_cons, RoundEnd.isCompleted, RoundEnd.isFailed]
      omega
    | failed action cause =>
      simp [List.countP_cons, RoundEnd.isCompleted, RoundEnd.isFailed]
      omega
    | crashed message => cases hes _ List.mem_cons_self

end Partition

namespace Watched

variable {σ : Type} {config : LoopConfig} {g : Grid σ} {S : Outside σ} {s s' : Watched σ}

/-- How the rounds of a partition ended so far. -/
noncomputable def ends (s : Watched σ) (p : Nat) : List RoundEnd :=
  (s.partition p).ends (s.diary p)

/-- Whether the worker of a partition was given its map. -/
def Acquired (s : Watched σ) (p : Nat) : Prop :=
  ∃ h : Handle, .ok h ∈ Partition.acquisitions (s.diary p)

/-- The first status holds no counts. -/
theorem shows_firstTable (plan : RunPlan) {key : String} (hkey : key ∉ generalKeys) :
    (LoopRun.firstTable plan).Shows key 0 := by
  have hnone : ∀ u ∈ LoopRun.initialStatus plan, Progress.writes key u = false := by
    simp only [generalKeys, List.mem_cons, List.not_mem_nil, or_false, not_or] at hkey
    obtain ⟨h₁, h₂, h₃, h₄⟩ := hkey
    simp [LoopRun.initialStatus, Progress.writes, Ne.symm h₁, Ne.symm h₂, Ne.symm h₃, Ne.symm h₄]
  exact (Progress.getElem?_writeAll_of_forall hnone).trans Std.ExtTreeMap.getElem?_empty

/-- A partition's worker did what its diary says, and if it ended without a panic it is at the end
    of its program. -/
theorem Sound.plays (h : s.Sound config) (p : Nat) :
    ∃ q, Proc.Plays (s.partition p).work (s.diary p) q ∧
      ∀ t, s.run.workers[p]? = some t → t.hasEnded = true → t.crash? = none → q = .done none := by
  cases ht : s.run.workers[p]? with
  | none =>
    rw [(h.unlaunched p ht).1]
    exact ⟨_, .nil _, nofun⟩
  | some t =>
    obtain ⟨q, hq, hprogram⟩ := (h.engaged p t ht).plays
    refine ⟨q, hq, fun u hu hended hcrash => ?_⟩
    cases hu
    have hdone := Worker.program_of_hasEnded hended
    rw [hcrash] at hdone
    cases hpanic : s.panicked p with
    | false => rw [← hprogram hpanic, hdone]
    -- A worker that panicked would have ended with a message.
    | true =>
      have hquiet := (h.engaged p t ht).quiet hpanic
      rw [hdone] at hquiet
      cases hquiet

/-- The updates applied about a partition are the tally of its first rounds. -/
theorem Sound.applied_filter (h : s.Sound config) (p : Nat) :
    ∃ m, (s.partition p).Accounted 0 0 (s.applied.filter (·.isAbout p)) (s.ends p) m ∧
      (s.Acquired p → s.applied = s.sent →
        (∃ t, s.run.workers[p]? = some t ∧ t.hasEnded = true ∧ t.crash? = none) →
        m = s.run.config.plan.numRuns.toNat) ∧
      (¬ s.Acquired p → m = 0) := by
  obtain ⟨q, hq, hend⟩ := h.plays p
  obtain ⟨n, hn, hall, hnone⟩ := Partition.accounted_of_plays hq
  have hprefix : s.applied.filter (·.isAbout p) <+: published (s.diary p) := by
    rw [← h.sent_filter p]
    exact h.stage.applied_prefix.filter _
  -- A prefix of the tally of `n` rounds is the tally of fewer rounds.
  have htake := List.prefix_iff_eq_take.mp hprefix
  rw [hn.counted, Partition.tally_take, List.take_take] at htake
  refine ⟨min (s.applied.filter (·.isAbout p)).length n, ⟨htake, ?_, ?_⟩, ?_, ?_⟩
  · exact Nat.le_trans (Nat.min_le_right _ _) hn.le_length
  · intro e he
    rw [← List.take_take] at he
    exact hn.not_crash e (List.mem_of_mem_take he)
  · rintro hacquired happlied ⟨t, ht, hended, hcrash⟩
    have hlength : (s.applied.filter (·.isAbout p)).length = n := by
      rw [happlied, h.sent_filter, hn.counted, Partition.tally_length hn.not_crash,
        List.length_take, Nat.min_eq_left hn.le_length]
    rw [hlength, Nat.min_self]
    exact hall (hend t ht hended hcrash) hacquired
  · intro hacquired
    rw [hnone fun hd hmem => hacquired ⟨hd, hmem⟩, Nat.min_zero]

/-- The counts of a partition as the table shows them. -/
def completed (s : Watched σ) (p : Nat) : Nat := s.run.gatherer.table.count (completedKey p)

def failed (s : Watched σ) (p : Nat) : Nat := s.run.gatherer.table.count (failedKey p)

/-- Whatever the table shows under the key of a count comes from the updates applied. -/
theorem Sound.shows_table (h : s.Sound config) {key : String} (hkey : key ∉ generalKeys) {n : Nat}
    (hn : s.countsTable.Shows key n) : s.run.gatherer.table.Shows key n := by
  cases h.stage with
  -- Before the run has begun, its table is empty, and so would be the counts applied.
  | bound _ hgatherer _ _ happlied =>
    have hfirst := shows_firstTable s.run.config.plan hkey
    rw [countsTable, happlied, Progress.writeAll_nil] at hn
    have hn' : n = 0 := hn.count_eq.symm.trans hfirst.count_eq
    rw [hgatherer, hn']
    exact Std.ExtTreeMap.getElem?_empty
  | opened _ _ hgatherer => rw [hgatherer]; exact hn
  | stopping _ _ _ _ hgatherer => rw [hgatherer]; exact hn
  | closed _ _ _ hgatherer =>
    rw [hgatherer]
    exact hn.insert_of_ne (fun hne => hkey (hne ▸ by decide)) _

/-- A key that belongs neither to the first status nor to a partition is not in the table. -/
theorem Sound.table_other (h : s.Sound config) {key : String} (hkey : key ∉ generalKeys)
    (hcounts : ∀ p < config.plan.numMaps.toNat, key ≠ completedKey p ∧ key ≠ failedKey p) :
    s.run.gatherer.table[key]? = none := by
  refine h.shows_table (n := 0) hkey (Eq.trans ?_ (shows_firstTable s.run.config.plan hkey))
  refine Progress.getElem?_writeAll_of_forall fun u hu => ?_
  obtain ⟨p, hp, htells⟩ := h.sent_tells u (h.stage.applied_prefix.subset hu)
  rw [h.numMaps_eq] at hp
  obtain ⟨n, rfl | rfl⟩ := htells
  · have hne : completedKey (s.partition p).number ≠ key := (hcounts p hp).1.symm
    simp [Progress.writes, hne]
  · have hne : failedKey (s.partition p).number ≠ key := (hcounts p hp).2.symm
    simp [Progress.writes, hne]

/-- The table shows the rounds that the updates applied account for. -/
theorem Sound.shows_counts (h : s.Sound config) {p m : Nat}
    (hm : (s.partition p).Accounted 0 0 (s.applied.filter (·.isAbout p)) (s.ends p) m) :
    s.run.gatherer.table.Shows (completedKey p)
        (((s.ends p).take m).countP RoundEnd.isCompleted) ∧
      s.run.gatherer.table.Shows (failedKey p) (((s.ends p).take m).countP RoundEnd.isFailed) := by
  have hck := completedKey_not_mem_generalKeys p
  have hfk := failedKey_not_mem_generalKeys p
  obtain ⟨hc, hf⟩ := Partition.shows_tally (p := s.partition p)
    (shows_firstTable s.run.config.plan hck) (shows_firstTable s.run.config.plan hfk) hm.not_crash
  rw [← hm.counted, Nat.zero_add] at hc hf
  refine ⟨h.shows_table hck (Eq.trans ?_ hc), h.shows_table hfk (Eq.trans ?_ hf)⟩
  · exact Progress.getElem?_writeAll_filter rfl fun u _ => u.isAbout_of_writes (.inl rfl)
  · exact Progress.getElem?_writeAll_filter rfl fun u _ => u.isAbout_of_writes (.inr rfl)

/-- A count is how often it was written. -/
theorem Sound.counts_eq (h : s.Sound config) (p : Nat) :
    s.completed p = s.applied.countP (Progress.writes (completedKey p)) ∧
      s.failed p = s.applied.countP (Progress.writes (failedKey p)) := by
  obtain ⟨m, hm, _⟩ := h.applied_filter p
  obtain ⟨hc, hf⟩ := h.shows_counts hm
  have hcount := Partition.countP_tally (p := s.partition p) 0 0 hm.not_crash
  rw [← hm.counted] at hcount
  refine ⟨?_, ?_⟩
  · rw [completed, hc.count_eq, ← StatusUpdate.countP_isAbout (.inl rfl)]
    exact hcount.1.symm
  · rw [failed, hf.count_eq, ← StatusUpdate.countP_isAbout (.inr rfl)]
    exact hcount.2.symm

/-- The counts together are as many rounds as the updates applied account for. -/
theorem Sound.sum_counts (h : s.Sound config) {p m : Nat}
    (hm : (s.partition p).Accounted 0 0 (s.applied.filter (·.isAbout p)) (s.ends p) m) :
    s.completed p + s.failed p = m := by
  obtain ⟨hc, hf⟩ := h.shows_counts hm
  rw [completed, failed, hc.count_eq, hf.count_eq, Partition.countP_isCompleted_add hm.not_crash,
    List.length_take, Nat.min_eq_left hm.le_length]

/-- When the run has finished, the counts of a worker that got its map and did not panic account
    for all rounds. -/
theorem Sound.counts_complete (h : s.Sound config) (hphase : s.run.phase = .finished) {p : Nat}
    (hmap : s.Acquired p) (hcalm : ∀ t : Worker, s.run.workers[p]? = some t → t.crash? = none) :
    s.completed p + s.failed p = config.plan.numRuns.toNat := by
  obtain ⟨m, hm, hall, _⟩ := h.applied_filter p
  obtain ⟨hclosed, _, happlied⟩ := h.closed_of_phase hphase
  rw [h.sum_counts hm, ← h.config_eq]
  refine hall hmap happlied ?_
  cases ht : s.run.workers[p]? with
  -- A partition without a worker asked for no map.
  | none =>
    obtain ⟨hd, hmem⟩ := hmap
    rw [(h.unlaunched p ht).1] at hmem
    cases hmem
  | some t => exact ⟨t, rfl, hclosed.hasEnded ht, hcalm t ht⟩

/-- Nothing that was applied is forgotten. -/
theorem Step.applied_prefix (h : Step g S s s') : s.applied <+: s'.applied := by
  cases h with
  | stir _ => exact List.prefix_rfl
  | panic _ _ _ => exact List.prefix_rfl
  | move hmove =>
    cases turn_of_advance hmove with
    | writes => exact List.prefix_append _ _
    | begun | launched | joins | stops | finishes | works | closes | deserted =>
      exact List.prefix_rfl

theorem applied_prefix_of_reaches (h : Reaches g S s s') : s.applied <+: s'.applied := by
  induction h with
  | refl => exact List.prefix_rfl
  | tail _ hstep ih => exact ih.trans hstep.applied_prefix

/-- The counts in the table of a run.  They are those of a partition's first rounds, they never
    fall, and a count of zero is not in the table.  When the run has ended, they account for every
    round of a partition that was given its map and whose worker did not panic; a partition that
    was given no map has no counts. -/
theorem counts_in_table {w : World σ} (hs : Reaches g S (start config w) s) (p : Nat) :
    (s.completed p + s.failed p ≤ (s.ends p).length ∧
      (s.ends p).length ≤ config.plan.numRuns.toNat) ∧
    (s.completed p = ((s.ends p).take (s.completed p + s.failed p)).countP RoundEnd.isCompleted ∧
      s.failed p = ((s.ends p).take (s.completed p + s.failed p)).countP RoundEnd.isFailed) ∧
    (s.run.gatherer.table.Shows (completedKey p) (s.completed p) ∧
      s.run.gatherer.table.Shows (failedKey p) (s.failed p)) ∧
    (∀ s', Reaches g S s s' → s.completed p ≤ s'.completed p ∧ s.failed p ≤ s'.failed p) ∧
    (s.run.phase = .finished → s.Acquired p →
      (∀ t : Worker, s.run.workers[p]? = some t → t.crash? = none) →
      s.completed p + s.failed p = config.plan.numRuns.toNat) ∧
    (¬ s.Acquired p → s.run.gatherer.table[completedKey p]? = none ∧
      s.run.gatherer.table[failedKey p]? = none) := by
  have h := sound_of_reaches hs
  obtain ⟨m, hm, _, hnone⟩ := h.applied_filter p
  obtain ⟨hc, hf⟩ := h.shows_counts hm
  have hsum := h.sum_counts hm
  have hlength : (s.ends p).length ≤ config.plan.numRuns.toNat := by
    rw [← h.config_eq]
    exact Partition.ends_length_le _
  refine ⟨⟨hsum ▸ hm.le_length, hlength⟩, ?_, ⟨hc.shows_count, hf.shows_count⟩, fun s' hs' => ?_,
    fun hphase hmap hcalm => h.counts_complete hphase hmap hcalm, fun hmap => ?_⟩
  · rw [hsum]
    exact ⟨hc.count_eq, hf.count_eq⟩
  -- A count is how often it was written, and nothing written is taken back.
  · have h' := sound_of_reaches (hs.trans hs')
    have hsub := (applied_prefix_of_reaches hs').sublist
    rw [(h.counts_eq p).1, (h.counts_eq p).2, (h'.counts_eq p).1, (h'.counts_eq p).2]
    exact ⟨hsub.countP_le, hsub.countP_le⟩
  · rw [hnone hmap] at hc hf
    exact ⟨hc, hf⟩

/-- The counts of the sample run when it has finished. -/
theorem counts_in_table_sample :
    ∃ plan s, sampleSettings.resolve "map-tests.load" "load" = .ok plan ∧
      Reaches MemoryStore.grid (.still _) (start (sampleConfig plan) { grid := {} }) s ∧
      s.run.phase = .finished ∧ s.completed 1 + s.failed 1 ≤ (s.ends 1).length ∧
      (s.ends 1).length ≤ 2 := by
  obtain ⟨plan, hplan⟩ := exists_samplePlan
  obtain ⟨s, hs, hphase⟩ := exists_finished MemoryStore.grid (.still _) (sampleConfig plan)
    { grid := {} }
  have hruns : plan.numRuns.toNat = 2 := by
    cases hplan
    rfl
  exact ⟨plan, s, hplan, hs, hphase, hruns ▸ (counts_in_table hs 1).1⟩

end Watched

end GridBench
