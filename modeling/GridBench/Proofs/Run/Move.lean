/-
  GridBench.Proofs.Run.Move

  What one step of a worker can be.  `Worker.Move` lists the cases once, each
  with the deed it completes; `Worker.move_of_step?` shows that there are no
  others, and later proofs split on its cases instead of on the step function.
  Sending a request and waking up complete no deed: the worker's program, as
  `Worker.program` shows it, is the same before and after.
-/
import GridBench.Run.Worker
import GridBench.Proofs.Run.Diary

namespace GridBench

namespace Worker

variable {σ : Type} {g : Grid σ} {w w' : World σ} {t t' : Worker}

/-- The program that a worker still has to carry out. -/
def program : Worker → Proc (Option String)
  | .running p => p
  | .pausing _ p => p
  | .waiting r f k => .op (.ask r f.withinMs) k

/-- The deed that a worker's next step completes, if it completes one. -/
def deeds (g : Grid σ) (w : World σ) : Worker → List Deed
  | .running (.op (.ask r withinMs) _) =>
    if w.cancelled && r.isCancellable then [⟨.ask r withinMs, .error .cancelled⟩] else []
  | .running (.op (.pause ms) _) => [⟨.pause ms, ()⟩]
  | .running (.op .clock _) => [⟨.clock, w.clock⟩]
  | .running (.op (.pick p) _) => [⟨.pick p, (p.take w.draws).1⟩]
  | .running (.op (.log r) _) => [⟨.log r, ()⟩]
  | .running (.op (.publish u) _) => [⟨.publish u, ()⟩]
  | .waiting r f _ => ((f.answer? g w r).map fun a => ⟨.ask r f.withinMs, a.1⟩).toList
  | _ => []

/-- The steps a worker can make in a world: the world after it, the worker after it, and the deed
    it completes. -/
inductive Move (g : Grid σ) (w : World σ) : Worker → World σ → Worker → List Deed → Prop
  | refused {r withinMs k} : w.cancelled = true → r.isCancellable = true →
      Move g w (.running (.op (.ask r withinMs) k)) w (.running (k (.error .cancelled)))
        [⟨.ask r withinMs, .error .cancelled⟩]
  | sent {r withinMs k} : (w.cancelled && r.isCancellable) = false →
      Move g w (.running (.op (.ask r withinMs) k)) { w with grid := (g.start w.grid r).2.2 }
        (.waiting r ⟨(g.start w.grid r).2.1, w.clock, w.clock + (g.start w.grid r).1, withinMs⟩ k)
        []
  | paused {ms k} : Move g w (.running (.op (.pause ms) k)) w (.pausing (w.clock + ms) (k ()))
      [⟨.pause ms, ()⟩]
  | clocked {k} : Move g w (.running (.op .clock k)) w (.running (k w.clock)) [⟨.clock, w.clock⟩]
  | picked {p k} : Move g w (.running (.op (.pick p) k)) { w with draws := (p.take w.draws).2 }
      (.running (k (p.take w.draws).1)) [⟨.pick p, (p.take w.draws).1⟩]
  | logged {r k} : Move g w (.running (.op (.log r) k)) (w.log [r]) (.running (k ()))
      [⟨.log r, ()⟩]
  | published {u k} : Move g w (.running (.op (.publish u) k)) w (.running (k ()))
      [⟨.publish u, ()⟩]
  | woken {wakeAt p} : wakeAt ≤ w.clock → Move g w (.pausing wakeAt p) w (.running p) []
  | abandoned {r f k} : w.cancelled = true → r.isCancellable = true →
      Move g w (.waiting r f k) w (.running (k (.error .cancelled)))
        [⟨.ask r f.withinMs, .error .cancelled⟩]
  | late {r f k} : f.wakeTime ≤ w.clock → w.clock < f.due →
      Move g w (.waiting r f k) w
        (.running (k (.error (.timeout (f.withinMs.getD 0) r.describe))))
        [⟨.ask r f.withinMs, .error (.timeout (f.withinMs.getD 0) r.describe)⟩]
  | answered {r f k} : f.due ≤ w.clock →
      Move g w (.waiting r f k) { w with grid := (g.finish w.grid f.ticket r).2 }
        (.running (k (g.finish w.grid f.ticket r).1))
        [⟨.ask r f.withinMs, (g.finish w.grid f.ticket r).1⟩]

/-- A worker that waits gets its reply as one of three moves. -/
theorem move_of_answer? {r : Request} {f : Flight} {a : Except Fault r.Answer}
    (h : f.answer? g w r = some (a, w')) (k : Except Fault r.Answer → Proc (Option String)) :
    Move g w (.waiting r f k) w' (.running (k a)) [⟨.ask r f.withinMs, a⟩] := by
  unfold Flight.answer? at h
  split at h
  · rename_i hc
    cases h
    rw [Bool.and_eq_true] at hc
    exact .abandoned hc.1 hc.2
  · split at h
    · rename_i hwake
      -- The worker wakes up at the reply or at the time limit, whichever comes first.
      unfold Flight.land at h
      split at h
      · rename_i hdue
        cases h
        exact .late hwake hdue
      · rename_i hdue
        cases h
        exact .answered (by omega)
    · cases h

/-- The moves are all the steps there are. -/
theorem move_of_step? {us : List StatusUpdate} (h : t.step? g w = some (w', t', us)) :
    Move g w t w' t' (t.deeds g w) ∧ us = GridBench.published (t.deeds g w) := by
  match t with
  | .running (.done _) => cases h
  -- A cancelled run refuses a request at once; otherwise the request is on its way, which
  -- completes no deed.
  | .running (.op (.ask r withinMs) k) =>
    simp only [step?, send] at h
    simp only [deeds]
    split at h
    · rename_i hc
      cases h
      have hc' := hc
      rw [Bool.and_eq_true] at hc'
      rw [if_pos hc]
      exact ⟨.refused hc'.1 hc'.2, rfl⟩
    · rename_i hc
      cases h
      rw [if_neg hc]
      exact ⟨.sent (by simpa using hc), rfl⟩
  | .running (.op (.pause ms) k) => cases h; exact ⟨.paused, rfl⟩
  | .running (.op .clock k) => cases h; exact ⟨.clocked, rfl⟩
  | .running (.op (.pick p) k) => cases h; exact ⟨.picked, rfl⟩
  | .running (.op (.log r) k) => cases h; exact ⟨.logged, rfl⟩
  | .running (.op (.publish u) k) => cases h; exact ⟨.published, rfl⟩
  | .pausing wakeAt p =>
    simp only [step?] at h
    split at h
    · rename_i hw
      cases h
      exact ⟨.woken hw, rfl⟩
    · cases h
  | .waiting r f k =>
    simp only [step?, Option.map_eq_some_iff] at h
    obtain ⟨⟨a, v⟩, ha, hv⟩ := h
    cases hv
    simp only [deeds, ha]
    exact ⟨move_of_answer? ha k, rfl⟩

/-- A move takes the worker's program along the deed it completes. -/
theorem Move.plays {ds : List Deed} (h : Move g w t w' t' ds) :
    Proc.Plays t.program ds t'.program := by
  cases h <;> first | exact .nil _ | exact .cons (.nil _)

/-- No worker lifts a cancellation or turns back the clock. -/
theorem Move.world {ds : List Deed} (h : Move g w t w' t' ds) :
    w'.cancelled = w.cancelled ∧ w'.clock = w.clock := by
  cases h <;> exact ⟨rfl, rfl⟩

theorem Move.length_le {ds : List Deed} (h : Move g w t w' t' ds) : ds.length ≤ 1 := by
  cases h with
  | sent | woken => exact Nat.zero_le 1
  | refused | paused | clocked | picked | logged | published | abandoned | late | answered =>
    exact Nat.le_refl 1

theorem Move.not_hasEnded {ds : List Deed} (h : Move g w t w' t' ds) : t.hasEnded = false := by
  cases h <;> rfl

/-- What a worker that has ended is left with. -/
theorem program_of_hasEnded (h : t.hasEnded = true) : t.program = .done t.crash? := by
  match t with
  | .running (.done _) => rfl
  | .running (.op _ _) | .pausing .. | .waiting .. => cases h

end Worker

end GridBench
