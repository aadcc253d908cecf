/-
  GridBench.Proofs.Status.Mark

  What the mark in a table tells about its gatherer's task.  The task sets it
  when it takes a stop, and from then on it stays (`History.isStopped_append`).
  It is a value like any other, though, and so a producer may set it without a
  stop, or take it back before one.  Main statement (`History.isStopped_iff`).
-/
import GridBench.Proofs.Status.History

namespace GridBench

namespace Progress

theorem isFinished_iff (t : Progress) :
    t.isFinished = true ↔ t[runnerFinishedKey]? = some (.bool true) := by
  unfold isFinished
  split
  · rename_i h
    simp [h]
  · rename_i h
    simpa using h

end Progress

namespace Gatherer

variable {h h' : List Event} {g g' : Gatherer}

/-- The last value that updates give to a key. -/
def lastValue? (key : String) (us : List StatusUpdate) : Option Json :=
  us.reverse.findSome? (·.value? key)

theorem lastValue?_concat (key : String) (us : List StatusUpdate) (u : StatusUpdate) :
    lastValue? key (us ++ [u]) = (u.value? key).or (lastValue? key us) := by
  rw [lastValue?, List.reverse_append, List.reverse_singleton, List.singleton_append,
    List.findSome?_cons]
  cases u.value? key <;> rfl

theorem exists_mem_of_lastValue? {key : String} {us : List StatusUpdate} {value : Json}
    (hlast : lastValue? key us = some value) : ∃ u ∈ us, u.value? key = some value := by
  obtain ⟨u, hu, hvalue⟩ := List.exists_of_findSome?_eq_some hlast
  exact ⟨u, List.mem_reverse.mp hu, hvalue⟩

/-- What the task wrote is what it took, as long as it took no stop. -/
theorem written_of_not_mem (hstop : .stop ∉ taken h) : written h = inserted h ++ taken h := by
  have hcarried : (taken h).map StatusUpdate.carriedOut = taken h := by
    refine (List.map_congr_left fun u hu => ?_).trans (List.map_id _)
    cases u with
    | update => rfl
    | stop => exact absurd hu hstop
  rw [written, hcarried]

/-- The mark of a table is the last value under its key. -/
theorem History.isStopped_eq (hist : History h g) :
    g.isStopped = true ↔ lastValue? runnerFinishedKey (written h) = some (.bool true) := by
  have htable : g.table[runnerFinishedKey]? = lastValue? runnerFinishedKey (written h) := by
    rw [hist.told.table, Progress.getElem?_writeAll]
    exact Option.or_none
  rw [isStopped, Progress.isFinished_iff, htable]

/-- Once the task has taken a stop, the mark is set. -/
theorem History.isStopped_of_stop (hist : History h g) (hstop : .stop ∈ taken h) :
    g.isStopped = true := by
  obtain ⟨us, -, -, -, htaken⟩ := hist.told.taken_eq_of_stop hstop
  rw [hist.isStopped_eq, written, htaken, List.map_append, List.map_singleton,
    ← List.append_assoc, lastValue?_concat]
  rfl

/-- And it stays, whatever happens. -/
theorem History.isStopped_append (hist : History (h ++ h') g') (hstop : .stop ∈ taken h) :
    g'.isStopped = true :=
  hist.isStopped_of_stop ((taken_prefix_taken h h').subset hstop)

/-- When the mark is set, after any history: if the task has taken a stop, and then for good, or if
    the last value that a producer gave to its key, among those written so far, is the mark itself.
    So the mark tells that the task has taken a stop as long as no producer writes it. -/
theorem History.isStopped_iff (hist : History h g) :
    (g.isStopped = true ↔ .stop ∈ taken h ∨
      lastValue? runnerFinishedKey (inserted h ++ taken h) = some (.bool true)) ∧
    (.stop ∈ taken h → ∀ h' g', History (h ++ h') g' → g'.isStopped = true) ∧
    ((∀ u ∈ inserted h ++ taken h, u.value? runnerFinishedKey ≠ some (.bool true)) →
      (g.isStopped = true ↔ .stop ∈ taken h)) := by
  have hmark : g.isStopped = true ↔ .stop ∈ taken h ∨
      lastValue? runnerFinishedKey (inserted h ++ taken h) = some (.bool true) := by
    by_cases hstop : .stop ∈ taken h
    · simp only [hstop, hist.isStopped_of_stop hstop, true_or]
    · rw [hist.isStopped_eq, written_of_not_mem hstop]
      simp only [hstop, false_or]
  refine ⟨hmark, fun hstop h' g' hist' => hist'.isStopped_append hstop, fun hnone => ?_⟩
  refine hmark.trans (or_iff_left fun hlast => ?_)
  obtain ⟨u, hu, hvalue⟩ := exists_mem_of_lastValue? hlast
  exact hnone u hu hvalue

/-- A producer takes the mark back that another one has set, and the task sets it for good. -/
theorem History.isStopped_iff_sample :
    ∃ h g, History h g ∧ .stop ∈ taken h ∧ g.isStopped = true ∧
      inserted h = [.update runnerFinishedKey (.bool true)] ∧
      taken h = [.update runnerFinishedKey (.bool false), .stop] := by
  have hist := (History.start.next (.insert (.update runnerFinishedKey (.bool true)))
      List.not_mem_nil)
    |>.next .listen (by simp [Allows])
    |>.next (.send (.update runnerFinishedKey (.bool false))) Nat.one_pos
    |>.next (.post .stop) (by simp [Allows])
    |>.next .gather rfl
    |>.next .gather rfl
  refine ⟨_, _, hist, ?_, hist.isStopped_iff.1.mpr (.inl ?_), rfl, rfl⟩
  all_goals exact List.mem_cons_of_mem _ List.mem_cons_self

/-- A producer sets the mark of a gatherer whose task was not even started. -/
theorem isStopped_without_stop :
    ∃ h g, History h g ∧ h = [.insert (.update runnerFinishedKey (.bool true))] ∧
      .stop ∉ taken h ∧ g.isStopped = true := by
  refine ⟨_, _, History.start.next (.insert _) List.not_mem_nil, rfl, ?_, rfl⟩
  exact List.not_mem_nil

end Gatherer

end GridBench
