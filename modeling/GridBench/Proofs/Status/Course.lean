/-
  GridBench.Proofs.Status.Course

  A gatherer in the course of time.  Insertions may be refused halfway, and
  those before the refusal stay (`insertEach`).  Once a gatherer has been
  started it never is idle again (`Later.started`), and once it has finished its
  table is written no more, whatever happens to it (`Seals`).
-/
import Mathlib.Logic.Relation
import GridBench.Proofs.Status.Mark

namespace GridBench

namespace Gatherer

variable {g g' : Gatherer}

/-! ## Insertions that may be refused -/

/-- Writes updates directly, one after the other, until one is refused.  Those before it stay. -/
def insertEach : List StatusUpdate → Gatherer → Except Fault Unit × Gatherer
  | [], g => (.ok (), g)
  | u :: us, g =>
    match g.insertNow u with
    | .ok g => insertEach us g
    | .error f => (.error f, g)

/-- The refusal of an insertion. -/
def tooLate : Fault := .invalidState "synchronous status insertion after gathering started"

/-- The refusal of a start. -/
def alreadyListening : Fault := .invalidState "status gatherer is already listening"

theorem insertNow_started (hphase : g.phase ≠ .idle) (u : StatusUpdate) :
    g.insertNow u = .error tooLate := by
  unfold insertNow
  exact if_neg hphase

theorem listen_started (hphase : g.phase ≠ .idle) :
    g.listen = .error alreadyListening := by
  unfold listen
  exact if_neg hphase

theorem insertEach_idle (hphase : g.phase = .idle) (us : List StatusUpdate) :
    insertEach us g = (.ok (), { g with table := g.table.writeAll us }) := by
  induction us generalizing g with
  | nil => rfl
  | cons u us ih =>
    rw [insertEach, insertNow_of_idle hphase]
    exact ih (g := { g with table := g.table.write u }) hphase

theorem insertEach_started (hphase : g.phase ≠ .idle) (u : StatusUpdate) (us : List StatusUpdate) :
    insertEach (u :: us) g = (.error tooLate, g) := by
  rw [insertEach, insertNow_started hphase]

/-! ## A gatherer in the course of time -/

/-- One more event that does not give the gatherer up. -/
def Goes (g g' : Gatherer) : Prop := ∃ e, e ≠ .discard ∧ Allows [] g e ∧ g' = g.after e

/-- Any number of them. -/
abbrev Later : Gatherer → Gatherer → Prop := Relation.ReflTransGen Goes

/-- A gatherer that has a history, and was not given up. -/
def Kept (g : Gatherer) : Prop := ∃ h, History h g ∧ .discard ∉ h

theorem kept_fresh : Kept {} := ⟨[], .start, List.not_mem_nil⟩

theorem Kept.goes (hg : g.Kept) (hgoes : Goes g g') : g'.Kept := by
  obtain ⟨h, hist, hd⟩ := hg
  obtain ⟨e, hne, hallows, rfl⟩ := hgoes
  refine ⟨h ++ [e], hist.next e ?_, by simp [hd, hne.symm]⟩
  cases e with
  | insert | post | listen => exact hd
  | send | hold | gather => exact hallows
  | letGo => exact ⟨hallows.1, fun _ => hallows.2 List.not_mem_nil⟩
  | discard => exact absurd rfl hne

theorem Kept.later (hg : g.Kept) (hlater : Later g g') : g'.Kept := by
  induction hlater with
  | refl => exact hg
  | tail _ hgoes ih => exact ih.goes hgoes

/-- A gatherer that was not given up ends with a stop. -/
theorem Kept.isStopped (hg : g.Kept) (hphase : g.phase = .finished) : g.isStopped = true := by
  obtain ⟨h, hist, hd⟩ := hg
  have t := hist.told
  cases t.standing with
  | stopped us rest _ _ s n _ =>
    refine hist.isStopped_of_stop ?_
    rw [taken_eq_concat s n]
    exact List.mem_append_right us List.mem_cons_self
  | deserted _ _ hzero _ _ => exact absurd hzero (Nat.pos_iff_ne_zero.mp (t.owner hd))
  | idle ph _ _ _ _ | listening _ ph _ _ _ _ | abandoned ph _ _ _ =>
    exact absurd (ph.symm.trans hphase) (by decide)

/-- A gatherer that is no longer idle never is again. -/
theorem after_started (hphase : g.phase ≠ .idle) (e : Event) : (g.after e).phase ≠ .idle := by
  cases e with
  | insert u => rwa [after, insertNow_started hphase]
  | listen => rwa [after, listen_started hphase]
  | send u | post u =>
    have hsame : (g.send u).1.phase = g.phase := by
      rw [send]
      split <;> rfl
    exact hsame ▸ hphase
  | hold | letGo => exact hphase
  | discard => simp [after, discard, letGo, hphase]
  | gather =>
    simp only [after, step?]
    split
    · split
      · exact hphase
      · simp
      · split
        · simp
        · exact hphase
    · exact hphase

/-- A gatherer that has finished stays so, and its table is written no more. -/
def Seals (g g' : Gatherer) : Prop :=
  g.phase = .finished → g'.phase = .finished ∧ g'.table = g.table

theorem seals_after (g : Gatherer) (e : Event) : Seals g (g.after e) := by
  intro hphase
  have hne : g.phase ≠ .idle := by simp [hphase]
  cases e with
  | insert u => rw [after, insertNow_started hne]; exact ⟨hphase, rfl⟩
  | listen => rw [after, listen_started hne]; exact ⟨hphase, rfl⟩
  | send u | post u =>
    have hsame : (g.send u).1 = g := by simp [send, isOpen, hphase]
    exact ⟨(congrArg phase hsame).trans hphase, congrArg table hsame⟩
  | hold | letGo => exact ⟨hphase, rfl⟩
  | discard => simp [after, discard, letGo, hphase]
  | gather => simp [after, step?, hphase]

theorem Later.started (hlater : Later g g') (hphase : g.phase ≠ .idle) : g'.phase ≠ .idle := by
  induction hlater with
  | refl => exact hphase
  | tail _ hgoes ih =>
    obtain ⟨e, -, -, rfl⟩ := hgoes
    exact after_started ih e

theorem Seals.trans {g'' : Gatherer} (h : Seals g g') (h' : Seals g' g'') : Seals g g'' := by
  intro hphase
  obtain ⟨hph, htable⟩ := h hphase
  exact ⟨(h' hph).1, (h' hph).2.trans htable⟩

theorem Later.seals (hlater : Later g g') : Seals g g' := by
  induction hlater with
  | refl => exact fun hphase => ⟨hphase, rfl⟩
  | tail _ hgoes ih =>
    obtain ⟨e, -, -, rfl⟩ := hgoes
    exact ih.trans (seals_after _ e)

theorem later_of_event (e : Event) (hne : e ≠ .discard) (hallows : Allows [] g e) :
    Later g (g.after e) := .single ⟨e, hne, hallows, rfl⟩

/-- What is sent goes through senders of the gatherer. -/
theorem later_sendAll (g : Gatherer) (us : List StatusUpdate) :
    Later g (us.foldl (fun g u => (g.send u).1) g) := by
  induction us generalizing g with
  | nil => exact .refl
  | cons u us ih =>
    have hfirst : Later g (g.send u).1 := later_of_event (.post u) (by simp) List.not_mem_nil
    exact hfirst.trans (ih _)

theorem later_insertEach (hphase : g.phase = .idle) (us : List StatusUpdate) :
    Later g { g with table := g.table.writeAll us } := by
  induction us generalizing g with
  | nil => exact .refl
  | cons u us ih =>
    have hfirst : Later g { g with table := g.table.write u } := by
      have hafter : g.after (.insert u) = { g with table := g.table.write u } := by
        rw [after, insertNow_of_idle hphase]
        rfl
      exact hafter ▸ later_of_event (.insert u) (by simp) List.not_mem_nil
    exact hfirst.trans (ih (g := { g with table := g.table.write u }) hphase)

end Gatherer

end GridBench
