/-
  GridBench.Proofs.Cli.Summary

  What is printed about a finished run, against what its workers did.  A worker
  writes its partition and the kind of a count into a key, and the summary
  reads them off again, by the beginning and the ending of the key.  The two
  agree: an ending picks the counts of its kind, one for each partition that
  has any, and no other member of the table (`perm_counters`).  Main statement
  (`Watched.summary_agrees`).
-/
import GridBench.Cli.Summary
import GridBench.Proofs.Run.Passes
import GridBench.Proofs.Run.Undisturbed
import Mathlib.Algebra.BigOperators.Group.Finset.Basic
import Mathlib.Algebra.Order.BigOperators.Group.Finset
import Mathlib.Algebra.Order.BigOperators.Group.List

namespace GridBench

/-- The kinds of counts that a summary sums up. -/
inductive CountKind where
  | completed
  | failed
deriving DecidableEq, Repr

namespace CountKind

/-- How the keys of the kind end. -/
def ending : CountKind → String
  | .completed => completedEnding
  | .failed => failedEnding

/-- The key of a partition's count. -/
def key : CountKind → Nat → String
  | .completed => completedKey
  | .failed => failedKey

/-- The rounds that are counted. -/
def counts : CountKind → RoundEnd → Bool
  | .completed => RoundEnd.isCompleted
  | .failed => RoundEnd.isFailed

theorem key_inj {kind : CountKind} {p q : Nat} (h : kind.key p = kind.key q) : p = q := by
  cases kind with
  | completed => exact completedKey_inj h
  | failed => exact failedKey_inj h

/-- A key starts with the mark of partitions and ends with the ending of its kind. -/
theorem toList_key (kind : CountKind) (p : Nat) :
    (kind.key p).toList =
      partitionMark.toList ++ (toString p).toList ++ kind.ending.toList := by
  cases kind <;> simp [key, ending, completedKey, failedKey, partitionMark, completedEnding,
    failedEnding]

/-- No ending is an ending of the other one. -/
theorem eq_of_suffix {kind kind' : CountKind}
    (h : kind.ending.toList <:+ kind'.ending.toList) : kind = kind' := by
  cases kind <;> cases kind'
  · rfl
  · exact absurd h (by decide)
  · exact absurd h (by decide)
  · rfl

end CountKind

/-- Whether the value of a key is summed up for an ending. -/
def isCounted (ending key : String) : Bool :=
  partitionMark.toList.isPrefixOf key.toList && ending.toList.isSuffixOf key.toList

/-- The members that are summed up for an ending. -/
def countedMembers (ending : String) (ms : Members) : Members :=
  ms.filter fun m => isCounted ending m.1

/-- The counts of partitions as members of a table, without those that are zero. -/
def counters (key : Nat → String) (count : Nat → Nat) (n : Nat) : Members :=
  ((List.range n).filter fun p => count p ≠ 0).map fun p => (key p, .ofNat (count p))

/-! ## Sums -/

theorem sumCounts_eq_sum (ms : Members) (ending : String) :
    sumCounts ms ending = ((countedMembers ending ms).filterMap fun m => m.2.natural?).sum := by
  rw [countedMembers, List.filterMap_filter, List.sum_eq_foldl]
  rfl

theorem sumCounts_le_of_sublist {ms ms' : Members} (h : ms.Sublist ms') (ending : String) :
    sumCounts ms ending ≤ sumCounts ms' ending := by
  rw [sumCounts_eq_sum, sumCounts_eq_sum]
  exact ((h.filter _).filterMap _).sum_le_sum fun _ _ => Nat.zero_le _

theorem sum_counters (key : Nat → String) (count : Nat → Nat) (n : Nat) :
    ((counters key count n).filterMap fun m => m.2.natural?).sum =
      ∑ p ∈ Finset.range n, count p := by
  induction n with
  | zero => rfl
  | succ n ih =>
    rw [Finset.sum_range_succ, ← ih]
    by_cases hzero : count n = 0 <;>
      simp [counters, List.range_succ, List.filter_append, hzero]

/-! ## What an ending picks -/

/-- An ending picks the keys of its own kind. -/
theorem isCounted_key (kind kind' : CountKind) (p : Nat) :
    isCounted kind.ending (kind'.key p) = true ↔ kind = kind' := by
  have hsuffix : kind'.ending.toList <:+ (kind'.key p).toList := by
    rw [kind'.toList_key]
    exact List.suffix_append _ _
  constructor
  · intro h
    rw [isCounted, Bool.and_eq_true, List.isSuffixOf_iff_suffix] at h
    -- Of two endings of one key, one is an ending of the other.
    rcases List.suffix_or_suffix_of_suffix h.2 hsuffix with hends | hends
    · exact CountKind.eq_of_suffix hends
    · exact (CountKind.eq_of_suffix hends).symm
  · rintro rfl
    rw [isCounted, Bool.and_eq_true, List.isPrefixOf_iff_prefix, List.isSuffixOf_iff_suffix]
    refine ⟨?_, hsuffix⟩
    rw [kind.toList_key, List.append_assoc]
    exact List.prefix_append _ _

/-- No ending picks a key of the first status. -/
theorem isCounted_generalKeys {key : String} (hkey : key ∈ generalKeys) (ending : String) :
    isCounted ending key = false := by
  simp only [generalKeys, List.mem_cons, List.not_mem_nil, or_false] at hkey
  rw [isCounted, Bool.and_eq_false_iff]
  left
  rcases hkey with rfl | rfl | rfl | rfl <;> decide

namespace Progress

theorem mem_snapshot {t : Progress} {m : String × Json} :
    m ∈ t.snapshot ↔ t[m.1]? = some m.2 :=
  Std.ExtTreeMap.mem_toList_iff_getElem?_eq_some

/-- No two members of a table have one key. -/
theorem nodup_snapshot (t : Progress) : t.snapshot.Nodup := by
  have hkeys : t.snapshot.Pairwise fun m m' => ¬ compare m.1 m'.1 = .eq :=
    Std.ExtTreeMap.distinct_keys_toList
  refine hkeys.imp fun {m m'} hne h => hne ?_
  rw [h]
  exact Std.ReflCmp.compare_self

end Progress

theorem nodup_counters {key : Nat → String} (hkey : ∀ p q, key p = key q → p = q)
    (count : Nat → Nat) (n : Nat) : (counters key count n).Nodup :=
  (List.nodup_range.filter _).map fun p q h => hkey p q (Prod.mk.inj h).1

/-- If a table shows the counts of `n` partitions and the keys of no others are picked by an
    ending, the ending picks each count once, however the table is laid out. -/
theorem perm_counters {t : Progress} {ms : Members} {kind : CountKind} {count : Nat → Nat} {n : Nat}
    (hms : ms.Perm t.snapshot) (hshows : ∀ p < n, t.Shows (kind.key p) (count p))
    (honly : ∀ key value, t[key]? = some value → isCounted kind.ending key = true →
      ∃ p < n, key = kind.key p) :
    (countedMembers kind.ending ms).Perm (counters kind.key count n) := by
  have hnodup : (countedMembers kind.ending ms).Nodup :=
    (hms.nodup_iff.mpr t.nodup_snapshot).filter _
  refine (List.perm_ext_iff_of_nodup hnodup (nodup_counters (fun _ _ => kind.key_inj) _ _)).mpr ?_
  rintro ⟨key, value⟩
  simp only [countedMembers, counters, List.mem_filter, List.mem_map, List.mem_range,
    decide_eq_true_eq, Prod.mk.injEq, hms.mem_iff, Progress.mem_snapshot]
  constructor
  · rintro ⟨hvalue, hpicked⟩
    obtain ⟨p, hp, rfl⟩ := honly key value hvalue hpicked
    have hp' := hshows p hp
    rw [Progress.Shows, hvalue] at hp'
    split at hp'
    · cases hp'
    · rename_i hzero
      exact ⟨p, ⟨hp, hzero⟩, rfl, (Option.some.inj hp').symm⟩
  · rintro ⟨p, ⟨hp, hzero⟩, rfl, rfl⟩
    have hp' := hshows p hp
    rw [Progress.Shows, if_neg hzero] at hp'
    exact ⟨hp', (isCounted_key kind kind p).mpr rfl⟩

namespace Watched

variable {σ : Type} {config : LoopConfig} {g : Grid σ} {S : Outside σ} {s : Watched σ}

/-- How many rounds of a kind the worker of a partition came through. -/
noncomputable def did (s : Watched σ) (kind : CountKind) (p : Nat) : Nat :=
  (s.passes p).countP kind.counts

/-- The worker of a partition completed a round or failed in it. -/
theorem Sound.did_add (h : s.Sound config) (p : Nat) :
    s.did .completed p + s.did .failed p = (s.passes p).length :=
  Partition.countP_isCompleted_add (h.not_crash_passes p)

theorem Sound.counted_only (h : s.Sound config) {kind : CountKind} {key : String} {value : Json}
    (hvalue : s.run.gatherer.table[key]? = some value)
    (hpicked : isCounted kind.ending key = true) :
    ∃ p < config.plan.numMaps.toNat, key = kind.key p := by
  have hgeneral : key ∉ generalKeys := by
    intro hkey
    rw [isCounted_generalKeys hkey] at hpicked
    cases hpicked
  -- Any other key would not be in the table.
  by_contra hnone
  have hother : ∀ kind' : CountKind, ∀ p < config.plan.numMaps.toNat, key ≠ kind'.key p := by
    rintro kind' p hp rfl
    have hkind : kind = kind' := (isCounted_key kind kind' p).mp hpicked
    exact hnone ⟨p, hp, hkind ▸ rfl⟩
  have habsent := h.table_other hgeneral fun p hp =>
    ⟨hother .completed p hp, hother .failed p hp⟩
  rw [habsent] at hvalue
  cases hvalue

/-- In the table of a finished run, an ending picks the counts of its kind. -/
theorem Sound.perm_countedMembers (h : s.Sound config) (hphase : s.run.phase = .finished)
    {ms : Members} (hms : ms.Perm s.run.gatherer.table.snapshot) (kind : CountKind) :
    (countedMembers kind.ending ms).Perm
      (counters kind.key (s.did kind) config.plan.numMaps.toNat) := by
  refine perm_counters hms (fun p _ => ?_) fun key value => h.counted_only
  cases kind with
  | completed => exact (h.shows_passes hphase p).1
  | failed => exact (h.shows_passes hphase p).2

/-- What is summed up for an ending is what the workers did of its kind. -/
theorem Sound.sumCounts_eq (h : s.Sound config) (hphase : s.run.phase = .finished) {ms : Members}
    (hms : ms.Perm s.run.gatherer.table.snapshot) (kind : CountKind) :
    sumCounts ms kind.ending = ∑ p ∈ Finset.range config.plan.numMaps.toNat, s.did kind p := by
  rw [sumCounts_eq_sum, ((h.perm_countedMembers hphase hms kind).filterMap _).sum_eq, sum_counters]

/-- Both sums together are the rounds that the workers came through. -/
theorem Sound.sumCounts_add (h : s.Sound config) (hphase : s.run.phase = .finished) {ms : Members}
    (hms : ms.Perm s.run.gatherer.table.snapshot) :
    sumCounts ms completedEnding + sumCounts ms failedEnding =
      ∑ p ∈ Finset.range config.plan.numMaps.toNat, (s.passes p).length := by
  have hcompleted : sumCounts ms completedEnding = _ := h.sumCounts_eq hphase hms .completed
  have hfailed : sumCounts ms failedEnding = _ := h.sumCounts_eq hphase hms .failed
  rw [hcompleted, hfailed, ← Finset.sum_add_distrib]
  exact Finset.sum_congr rfl fun p _ => h.did_add p

/-- A finished run's worker came through all its rounds if and only if it was given its map and
    did not break off. -/
theorem Sound.passes_length_eq_iff (h : s.Sound config) (hphase : s.run.phase = .finished)
    (hruns : config.plan.numRuns.toNat ≠ 0) {p : Nat} (hp : p < config.plan.numMaps.toNat) :
    (s.passes p).length = config.plan.numRuns.toNat ↔ s.Acquired p ∧ ¬ s.BrokeOff p := by
  constructor
  · intro hlength
    refine ⟨?_, fun hbroke => ?_⟩
    · by_contra hmap
      rw [h.passes_of_not_acquired hmap] at hlength
      exact hruns hlength.symm
    · have hlt := hbroke.2
      rw [h.config_eq, hlength] at hlt
      exact Nat.lt_irrefl _ hlt
  · rintro ⟨hmap, hbroke⟩
    obtain ⟨t, ht, hended⟩ := h.exists_ended hphase hp
    cases hcrash : t.crash? with
    | none => exact h.passes_complete hmap ht hended hcrash
    | some message =>
      refine Nat.le_antisymm (h.passes_length_le p) (Nat.le_of_not_lt fun hlt => hbroke ?_)
      exact ⟨⟨t, ht, by rw [hcrash]; rfl⟩, h.config_eq ▸ hlt⟩

/-- The summary of a finished run agrees with what its workers did, whatever failed, was cancelled
    or panicked.  For each kind of counts, the ending picks every partition's count once and nothing
    else, and the sum, in any order of the table, is the number of rounds of that kind that the
    workers came through; no sum on the way leaves 64 bits.  The sums together are at most the
    total, and equal to it if and only if each worker was given its map and none broke off.  The
    rounds a worker came through are the first of its rounds, and all of them but for one that
    crashed, unless it panicked on its way. -/
theorem summary_agrees {settings : RunnerSection} {path base : String} {w : World σ} {ms : Members}
    (hplan : settings.resolve path base = .ok config.plan)
    (hs : Reaches g S (start config w) s) (hphase : s.run.phase = .finished)
    (hms : ms.Perm s.run.gatherer.table.snapshot) :
    (∀ kind : CountKind,
      (countedMembers kind.ending ms).Perm
          (counters kind.key (s.did kind) config.plan.numMaps.toNat) ∧
        sumCounts ms kind.ending =
          ∑ p ∈ Finset.range config.plan.numMaps.toNat, s.did kind p ∧
        ∀ ms', ms' <+: ms → sumCounts ms' kind.ending < 2 ^ 64) ∧
    sumCounts ms completedEnding + sumCounts ms failedEnding ≤ config.plan.totalRuns.toNat ∧
    (sumCounts ms completedEnding + sumCounts ms failedEnding = config.plan.totalRuns.toNat ↔
      ∀ p < config.plan.numMaps.toNat, s.Acquired p ∧ ¬ s.BrokeOff p) ∧
    ∀ p < config.plan.numMaps.toNat, s.passes p <+: s.ends p ∧
      (s.panicked p = false → s.passes p = (s.ends p).filter fun e => !e.isCrash) := by
  have h := sound_of_reaches hs
  have hboth := h.sumCounts_add hphase hms
  have htotal : config.plan.totalRuns.toNat =
      ∑ _p ∈ Finset.range config.plan.numMaps.toNat, config.plan.numRuns.toNat := by
    rw [config.plan.toNat_totalRuns, Finset.sum_const, Finset.card_range, smul_eq_mul]
  have hle : ∀ p ∈ Finset.range config.plan.numMaps.toNat,
      (s.passes p).length ≤ config.plan.numRuns.toNat := fun p _ => h.passes_length_le p
  have hbound : sumCounts ms completedEnding + sumCounts ms failedEnding ≤
      config.plan.totalRuns.toNat := by
    rw [hboth, htotal]
    exact Finset.sum_le_sum hle
  refine ⟨fun kind => ⟨h.perm_countedMembers hphase hms kind, h.sumCounts_eq hphase hms kind,
    fun ms' hms' => ?_⟩, hbound, ?_, fun p hp => ?_⟩
  · have hpart := sumCounts_le_of_sublist hms'.sublist kind.ending
    have hone : sumCounts ms kind.ending ≤
        sumCounts ms completedEnding + sumCounts ms failedEnding := by
      cases kind with
      | completed => exact Nat.le_add_right _ _
      | failed => exact Nat.le_add_left _ _
    exact ((hpart.trans hone).trans hbound).trans_lt config.plan.totalRuns.toNat_lt
  · rw [hboth, htotal, Finset.sum_eq_sum_iff_of_le hle]
    refine forall_congr' fun p => (imp_congr_left Finset.mem_range).trans ?_
    exact imp_congr_right fun hp => h.passes_length_eq_iff hphase (numRuns_ne_zero hplan) hp
  · obtain ⟨t, ht, hended⟩ := h.exists_ended hphase hp
    exact ⟨h.passes_prefix p, h.passes_eq_filter ht hended⟩

/-- The summary of the sample run. -/
theorem summary_agrees_sample :
    ∃ plan s, sampleSettings.resolve "map-tests.load" "load" = .ok plan ∧
      Reaches MemoryStore.grid (.still _) (start (sampleConfig plan) { grid := {} }) s ∧
      s.run.phase = .finished ∧
      sumCounts s.run.gatherer.table.snapshot completedEnding +
        sumCounts s.run.gatherer.table.snapshot failedEnding ≤ 4 := by
  obtain ⟨plan, hplan⟩ := exists_samplePlan
  obtain ⟨s, hs, hphase⟩ := exists_finished MemoryStore.grid (.still _) (sampleConfig plan)
    { grid := {} }
  have htotal : plan.totalRuns.toNat = 4 := by
    cases hplan
    rfl
  have hbound := (summary_agrees hplan hs hphase (.refl _)).2.1
  exact ⟨plan, s, hplan, hs, hphase, htotal ▸ hbound⟩

end Watched

end GridBench
