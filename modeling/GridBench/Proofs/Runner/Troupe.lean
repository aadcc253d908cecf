/-
  GridBench.Proofs.Runner.Troupe

  The tester with runners of any kind.  The runners share a state; each of them
  may change it, return, or panic wherever it is and leave any state behind,
  and the next step is that of any task that can move (`Troupe.Moves`).  The
  story of a performance keeps what has happened so far.  What it tells of a
  runner is what the runner's task has come to (`Troupe.Sound`), which each move
  keeps, since the tester moves a task only to call its runner and a runner
  moves no task but its own.  Main statement: `Troupe.survives_panics`.
-/
import Mathlib.Data.List.Range
import GridBench.Runner.Tester
import GridBench.Proofs.Run.Inevitable

namespace GridBench

/-! ## Tasks -/

namespace RunnerTask

/-- What has been seen of a runner whose task has come so far: how often it was called, and how it
    ended. -/
def seen : RunnerTask → Nat × List (Option String)
  | .registered => (0, [])
  | .launched => (1, [])
  | .finished => (1, [none])
  | .panicked message => (1, [some message])

/-- How many steps of the tester and of its own a task still waits for. -/
def stepsLeft : RunnerTask → Nat
  | .registered => 2
  | .launched => 1
  | .finished => 0
  | .panicked _ => 0

theorem seen_of_hasEnded {task : RunnerTask} (h : task.hasEnded = true) :
    task.seen = (1, [task.panic?]) := by
  cases task with
  | registered | launched => cases h
  | finished | panicked => rfl

end RunnerTask

/-- How many of its own steps the tester has to make besides calling the runners. -/
def TesterPhase.stepsLeft : TesterPhase → Nat
  | .idle => 3
  | .launching => 2
  | .joining => 1
  | .finished => 0

namespace Tester

variable {cluster : String} {t t' : Tester} {logs : List Record} {i : Nat} {old task : RunnerTask}

/-- How far the task of a runner has come. -/
def taskOf? (t : Tester) (i : Nat) : Option RunnerTask := t.runners[i]?.map Prod.snd

theorem taskOf?_withTask (t : Tester) (i j : Nat) (task : RunnerTask) :
    (t.withTask i task).taskOf? j =
      (t.taskOf? j).map fun old => if i = j then task else old := by
  rw [taskOf?, withTask, List.getElem?_modify, taskOf?, Option.map_map, Option.map_eq_map,
    Option.map_map]
  refine congrArg (Option.map · _) (funext fun r => ?_)
  by_cases h : i = j <;> simp [h]

@[simp] theorem names_withTask (t : Tester) (i : Nat) (task : RunnerTask) :
    (t.withTask i task).names = t.names := by
  refine List.ext_getElem? fun j => ?_
  rw [names, withTask, List.getElem?_map, List.getElem?_modify, names, List.getElem?_map,
    Option.map_eq_map, Option.map_map]
  refine congrArg (Option.map · _) (funext fun r => ?_)
  by_cases h : i = j <;> simp [h]

theorem mem_runners_of_taskOf? (h : t.taskOf? i = some task) :
    ∃ name, (name, task) ∈ t.runners := by
  obtain ⟨⟨name, _⟩, hget, rfl⟩ := Option.map_eq_some_iff.mp h
  exact ⟨name, List.mem_of_getElem? hget⟩

theorem lt_of_taskOf? (h : t.taskOf? i = some task) : i < t.names.length := by
  obtain ⟨r, hget, -⟩ := Option.map_eq_some_iff.mp h
  rw [names, List.length_map]
  exact (List.getElem?_eq_some_iff.mp hget).1

theorem exists_taskOf? (h : i < t.names.length) : ∃ task, t.taskOf? i = some task := by
  rw [names, List.length_map] at h
  exact ⟨_, by rw [taskOf?, List.getElem?_eq_getElem h, Option.map_some]⟩

theorem taskOf?_eq_none (h : ¬ i < t.names.length) : t.taskOf? i = none := by
  rw [names, List.length_map, not_lt] at h
  rw [taskOf?, List.getElem?_eq_none h]
  rfl

theorem endStep?_eq_some {panic : Option String} : t.endStep? i panic = some t' ↔
    t.taskOf? i = some .launched ∧ t' = t.withTask i (panic.elim .finished .panicked) := by
  rw [endStep?, taskOf?]
  cases h : t.runners[i]? with
  | none => simp
  | some r =>
    obtain ⟨name, task⟩ := r
    cases task <;> simp [eq_comm]

/-! ### The tester's own steps -/

/-- What the tester logs before anything else. -/
def startLine (cluster : String) (count : Nat) : Record :=
  record .info ("Starting " ++ toString count ++ " map runner(s) against cluster '" ++ cluster
    ++ "'")

/-- What the tester logs last. -/
def endLine : Record := record .info "All map runners finished"

/-- The steps of the tester's own task, with what each of them logs. -/
inductive MainStep (cluster : String) (t : Tester) : Tester → List Record → Prop
  | begins : t.phase = .idle →
      MainStep cluster t { t with phase := .launching } [startLine cluster t.names.length]
  | calls {i : Nat} : t.phase = .launching → t.taskOf? i = some .registered →
      MainStep cluster t (t.withTask i .launched) []
  | waits : t.phase = .launching → (∀ i, t.taskOf? i ≠ some .registered) →
      MainStep cluster t { t with phase := .joining } []
  | returns : t.phase = .joining → (∀ i task, t.taskOf? i = some task → task.hasEnded = true) →
      MainStep cluster t { t with phase := .finished } (t.panicRecords ++ [endLine])

theorem mainStep_of_step? (h : t.mainStep? cluster = some (t', logs)) :
    MainStep cluster t t' logs := by
  rw [mainStep?] at h
  split at h
  · rename_i hphase
    cases h
    have hlength : t.names.length = t.runners.length := List.length_map Prod.fst
    exact hlength ▸ .begins hphase
  · rename_i hphase
    split at h
    · rename_i i hnext
      cases h
      obtain ⟨hi, hreg, -⟩ := List.findIdx?_eq_some_iff_getElem.mp hnext
      refine .calls hphase ?_
      rw [taskOf?, List.getElem?_eq_getElem hi]
      exact congrArg some (of_decide_eq_true hreg)
    · rename_i hnext
      cases h
      refine .waits hphase fun i hi => ?_
      obtain ⟨name, hmem⟩ := mem_runners_of_taskOf? hi
      exact absurd (List.findIdx?_eq_none_iff.mp hnext _ hmem) (by simp)
  · rename_i hphase
    split at h
    · rename_i hall
      cases h
      refine .returns hphase fun i task hi => ?_
      obtain ⟨name, hmem⟩ := mem_runners_of_taskOf? hi
      exact List.all_eq_true.mp hall _ hmem
    · cases h
  · cases h

/-- The tester only waits for tasks that have not ended. -/
theorem exists_mainStep?_or (cluster : String) (t : Tester) :
    t.phase = .finished ∨ (t.mainStep? cluster).isSome = true ∨
      t.phase = .joining ∧ ∃ i task, t.taskOf? i = some task ∧ task.hasEnded = false := by
  rw [mainStep?]
  cases hphase : t.phase with
  | idle => exact .inr (.inl rfl)
  | launching =>
    right; left
    cases hnext : t.nextToLaunch? <;> rfl
  | joining =>
    right
    dsimp only
    split
    · exact .inl rfl
    · rename_i hall
      rw [Bool.not_eq_true, List.all_eq_false] at hall
      obtain ⟨⟨name, task⟩, hmem, htask⟩ := hall
      obtain ⟨i, hi, hget⟩ := List.mem_iff_getElem.mp hmem
      refine .inr ⟨rfl, i, task, ?_, Bool.eq_false_iff.mpr htask⟩
      rw [taskOf?, List.getElem?_eq_getElem hi, hget, Option.map_some]
  | finished => exact .inl rfl

/-- The runners that are called between two states of the tester. -/
def called (t t' : Tester) : List Nat :=
  (List.range t.names.length).filter fun i =>
    t.taskOf? i = some .registered ∧ t'.taskOf? i ≠ some .registered

/-- The tester calls nobody when only its phase changes. -/
@[simp] theorem called_phase (t : Tester) (phase : TesterPhase) :
    t.called { t with phase := phase } = [] := by
  refine List.filter_eq_nil_iff.mpr fun i _ => ?_
  have htask : taskOf? { t with phase := phase } i = t.taskOf? i := rfl
  simp [htask]

theorem called_withTask (h : t.taskOf? i = some .registered) :
    t.called (t.withTask i .launched) = [i] := by
  have hother (j : Nat) : decide (t.taskOf? j = some .registered ∧
      (t.withTask i .launched).taskOf? j ≠ some .registered) = (j == i) := by
    rw [taskOf?_withTask]
    by_cases hj : j = i
    · simp [hj, h]
    · simp [hj, Ne.symm hj]
  rw [called, funext hother, List.filter_beq, List.count_range, if_pos (lt_of_taskOf? h)]
  rfl

/-! ### Steps left -/

/-- How many steps the tester and its runners' tasks have to make until the tester returns. -/
def stepsLeft (t : Tester) : Nat :=
  t.phase.stepsLeft + (t.runners.map fun r => r.2.stepsLeft).sum

/-- A sum of weights after one element has been changed. -/
theorem sum_map_modify {α : Type} (weight : α → Nat) (f : α → α) {l : List α} {r : α}
    (h : l[i]? = some r) :
    ((l.modify i f).map weight).sum + weight r = (l.map weight).sum + weight (f r) := by
  induction l generalizing i with
  | nil => cases h
  | cons a rest ih =>
    cases i with
    | zero =>
      obtain rfl : a = r := Option.some.inj h
      simp only [List.modify_zero_cons, List.map_cons, List.sum_cons]
      omega
    | succ i =>
      have hrest := ih (i := i) h
      simp only [List.modify_succ_cons, List.map_cons, List.sum_cons]
      omega

theorem stepsLeft_withTask (h : t.taskOf? i = some old) (task : RunnerTask) :
    (t.withTask i task).stepsLeft + old.stepsLeft = t.stepsLeft + task.stepsLeft := by
  obtain ⟨r, hget, rfl⟩ := Option.map_eq_some_iff.mp h
  have hsum : ((t.withTask i task).runners.map fun r => r.2.stepsLeft).sum + r.2.stepsLeft =
      (t.runners.map fun r => r.2.stepsLeft).sum + task.stepsLeft := sum_map_modify _ _ hget
  rw [stepsLeft, Nat.add_assoc, hsum, ← Nat.add_assoc]
  rfl

theorem MainStep.stepsLeft_lt (h : MainStep cluster t t' logs) : t'.stepsLeft < t.stepsLeft := by
  cases h with
  | begins hphase | waits hphase | returns hphase =>
    simp [stepsLeft, hphase, TesterPhase.stepsLeft]
  | @calls i hphase hreg =>
    have hleft := stepsLeft_withTask hreg .launched
    simp only [RunnerTask.stepsLeft] at hleft
    omega

theorem stepsLeft_lt_of_endStep? {panic : Option String} (h : t.endStep? i panic = some t') :
    t'.stepsLeft < t.stepsLeft := by
  obtain ⟨hi, rfl⟩ := endStep?_eq_some.mp h
  have hleft := stepsLeft_withTask hi (panic.elim .finished .panicked)
  cases panic <;> simp only [RunnerTask.stepsLeft, Option.elim] at hleft ⊢ <;> omega

end Tester

/-! ## Performances -/

/-- The runners of a tester, by the number of their registration: what a step of a runner may make
    of the state that they share, and where a runner may return. -/
structure Troupe (σ : Type) where
  acts : Nat → σ → σ → Prop
  returns : Nat → σ → Prop

namespace Troupe

/-- What happens while a tester is at work. -/
inductive Event where
  | called (runner : Nat)
  | acted (runner : Nat)
  | ended (runner : Nat) (panic : Option String)
  /-- The tester has logged something. -/
  | logged (record : Record)
deriving DecidableEq

/-- A tester at work, the state of its runners, and what has happened so far. -/
structure Performance (σ : Type) where
  tester : Tester
  shared : σ
  story : List Event := []

variable {σ : Type} {c : Troupe σ} {cluster : String} {names : List String} {s s' : Performance σ}
  {story more : List Event} {i : Nat} {x : σ}

/-- How the task of a runner has ended, each time it did. -/
def endings (i : Nat) (story : List Event) : List (Option String) :=
  story.filterMap fun
    | .ended j panic => if i = j then some panic else none
    | _ => none

/-- What the tester has logged. -/
def records (story : List Event) : List Record :=
  story.filterMap fun
    | .logged r => some r
    | _ => none

/-- What has been seen of a runner: how often it was called, and how it ended. -/
def seen (i : Nat) (story : List Event) : Nat × List (Option String) :=
  (story.count (.called i), endings i story)

/-- The errors to be logged for the runners that ended in a panic: one each, under the runner's
    name, in the order of registration. -/
def reports (names : List String) (story : List Event) : List Record :=
  names.zipIdx.filterMap fun (name, i) => (endings i story).head?.join.map fun message =>
    Tester.record .error ("Map runner '" ++ name ++ "' panicked: " ++ LoopRun.panicText i message)

/-- The tester with its runners, before anything happens. -/
def opening (names : List String) (x : σ) : Performance σ where
  tester := names.foldl (fun t name => (t.register name).1) {}
  shared := x

/-- The tester makes a step, or a runner whose task has been launched and has not ended. -/
inductive Moves (c : Troupe σ) (cluster : String) : Performance σ → Performance σ → Prop
  | main {s : Performance σ} {t : Tester} {logs : List Record} :
      s.tester.mainStep? cluster = some (t, logs) →
      Moves c cluster s ⟨t, s.shared,
        s.story ++ ((s.tester.called t).map .called ++ logs.map .logged)⟩
  | acts {s : Performance σ} {i : Nat} {x : σ} :
      s.tester.taskOf? i = some .launched → c.acts i s.shared x →
      Moves c cluster s ⟨s.tester, x, s.story ++ [.acted i]⟩
  | returns {s : Performance σ} {i : Nat} {t : Tester} :
      s.tester.endStep? i none = some t → c.returns i s.shared →
      Moves c cluster s ⟨t, s.shared, s.story ++ [.ended i none]⟩
  | panics {s : Performance σ} {i : Nat} {t : Tester} (message : String) (x : σ) :
      s.tester.endStep? i (some message) = some t →
      Moves c cluster s ⟨t, x, s.story ++ [.ended i (some message)]⟩

/-- What has happened when a tester returns. -/
structure Told (cluster : String) (names : List String) (story : List Event) : Prop where
  called_once : ∀ i, story.count (.called i) = if i < names.length then 1 else 0
  ended_once : ∀ i, (endings i story).length = if i < names.length then 1 else 0
  /-- The tester's first line comes before anything else, its reports and its last line come behind
      all that the runners did, and it logs nothing in between. -/
  logged : ∃ middle, records middle = [] ∧ story =
    .logged (Tester.startLine cluster names.length) :: middle ++ (reports names story).map .logged
      ++ [.logged Tester.endLine]

/-- A runner comes to its end by itself: it can go on wherever it has not, and the runners do not
    go on for ever. -/
structure Ends (c : Troupe σ) : Prop where
  goes_on : ∀ i x, c.returns i x ∨ ∃ x', c.acts i x x'
  wellFounded : WellFounded fun x' x => ∃ i, c.acts i x x'

/-! ## What is kept -/

/-- What has been logged when the tester has come so far. -/
def Logged (cluster : String) (t : Tester) (story : List Event) : Prop :=
  match t.phase with
  | .idle => story = []
  | .launching | .joining => ∃ middle, records middle = [] ∧
      story = .logged (Tester.startLine cluster t.names.length) :: middle
  | .finished => ∃ middle, records middle = [] ∧
      story = .logged (Tester.startLine cluster t.names.length) :: middle
        ++ t.panicRecords.map .logged ++ [.logged Tester.endLine]

/-- The story of a performance is that of its tester and the tasks of its runners. -/
structure Sound (cluster : String) (names : List String) (s : Performance σ) : Prop where
  names_eq : s.tester.names = names
  seen_eq : ∀ i, seen i s.story = ((s.tester.taskOf? i).map RunnerTask.seen).getD (0, [])
  logged : Logged cluster s.tester s.story
  all_launched : s.tester.phase = .joining → ∀ i, s.tester.taskOf? i ≠ some .registered
  all_ended : s.tester.phase = .finished → ∀ i task, s.tester.taskOf? i = some task →
    task.hasEnded = true

/-! ### What the story tells -/

theorem seen_append (i : Nat) (story more : List Event) :
    seen i (story ++ more) =
      ((seen i story).1 + (seen i more).1, (seen i story).2 ++ (seen i more).2) := by
  rw [seen, List.count_append, endings, List.filterMap_append]
  rfl

@[simp] theorem seen_logged (i : Nat) (rs : List Record) : seen i (rs.map .logged) = (0, []) := by
  induction rs with
  | nil => rfl
  | cons r rs ih =>
    rw [List.map_cons, ← List.singleton_append, seen_append, ih]
    rfl

@[simp] theorem seen_called (i j : Nat) :
    seen i [.called j] = if i = j then (1, []) else (0, []) := by
  rcases eq_or_ne i j with rfl | h
  · simp [seen, endings]
  · simp [seen, endings, h, h.symm]

@[simp] theorem seen_acted (i j : Nat) : seen i [.acted j] = (0, []) := rfl

@[simp] theorem seen_ended (i j : Nat) (panic : Option String) :
    seen i [.ended j panic] = if i = j then (0, [panic]) else (0, []) := by
  by_cases h : i = j <;> simp [seen, endings, h]

theorem records_append (story more : List Event) :
    records (story ++ more) = records story ++ records more :=
  List.filterMap_append

/-! ### The moves -/

theorem tester_opening (names : List String) (t : Tester) :
    names.foldl (fun t name => (t.register name).1) t =
      { t with runners := t.runners ++ names.map fun name => (name, .registered) } := by
  induction names generalizing t with
  | nil => simp
  | cons name rest ih =>
    rw [List.foldl_cons, ih]
    simp [Tester.register]

theorem Sound.opening (cluster : String) (names : List String) (x : σ) :
    Sound cluster names (opening names x) := by
  have hrunners : (Troupe.opening names x).tester =
      ⟨names.map fun name => (name, .registered), .idle⟩ := tester_opening names {}
  refine ⟨?_, fun i => ?_, ?_, fun hphase => ?_, fun hphase => ?_⟩
  · rw [hrunners, Tester.names, List.map_map]
    exact List.map_id names
  · rw [hrunners, Tester.taskOf?, List.getElem?_map]
    cases names[i]? <;> rfl
  · rw [Logged, hrunners]
    rfl
  · rw [hrunners] at hphase
    cases hphase
  · rw [hrunners] at hphase
    cases hphase

/-- A runner moves only after the tester has begun and before it returns. -/
theorem Sound.at_work (h : Sound cluster names s) (hi : s.tester.taskOf? i = some .launched) :
    s.tester.phase = .launching ∨ s.tester.phase = .joining := by
  cases hphase : s.tester.phase with
  | idle =>
    -- The call of a runner that is at work has been seen, and nothing has been seen yet.
    have hstory : s.story = [] := by
      have hlogged := h.logged
      rwa [Logged, hphase] at hlogged
    have hseen := h.seen_eq i
    rw [hstory, hi] at hseen
    cases hseen
  | launching => exact .inl rfl
  | joining => exact .inr rfl
  | finished => exact absurd (h.all_ended hphase i _ hi) (by decide)

/-- What is not logged comes behind the first line. -/
theorem Logged.concat {t t' : Tester} {e : Event} (h : Logged cluster t story)
    (hwork : t.phase = .launching ∨ t.phase = .joining) (he : records [e] = [])
    (hphase : t'.phase = t.phase) (hnames : t'.names = t.names) :
    Logged cluster t' (story ++ [e]) := by
  obtain ⟨middle, hmiddle, rfl⟩ : ∃ middle, records middle = [] ∧
      story = .logged (Tester.startLine cluster t.names.length) :: middle := by
    rcases hwork with hwork | hwork <;> rwa [Logged, hwork] at h
  have hgoal : ∃ rest, records rest = [] ∧
      .logged (Tester.startLine cluster t.names.length) :: middle ++ [e] =
        .logged (Tester.startLine cluster t'.names.length) :: rest :=
    ⟨middle ++ [e], by rw [records_append, hmiddle, he, List.nil_append], by rw [hnames]; rfl⟩
  rcases hwork with hwork | hwork <;> rwa [Logged, hphase, hwork]

/-- The task of one runner goes on, and the story tells it. -/
theorem Sound.withTask {old task : RunnerTask} {e : Event} (h : Sound cluster names s)
    (hi : s.tester.taskOf? i = some old) (x : σ)
    (hwork : s.tester.phase = .launching ∨ s.tester.phase = .joining)
    (htask : task ≠ .registered) (he : records [e] = [])
    (hseen : (old.seen.1 + (seen i [e]).1, old.seen.2 ++ (seen i [e]).2) = task.seen)
    (hothers : ∀ j, j ≠ i → seen j [e] = (0, [])) :
    Sound cluster names ⟨s.tester.withTask i task, x, s.story ++ [e]⟩ := by
  refine ⟨(s.tester.names_withTask i task).trans h.names_eq, fun j => ?_,
    h.logged.concat hwork he rfl (s.tester.names_withTask i task), fun hphase j hj => ?_,
    fun hphase => ?_⟩
  · -- The event is about the runner whose task goes on, and shows nothing of the others.
    rw [seen_append, h.seen_eq, Tester.taskOf?_withTask]
    by_cases hj : j = i
    · rw [hj, hi]
      simpa using hseen
    · rw [hothers j hj]
      simp [Ne.symm hj]
  · rw [Tester.taskOf?_withTask, Option.map_eq_some_iff] at hj
    obtain ⟨old', hold, hj⟩ := hj
    split at hj
    · exact htask hj
    · exact h.all_launched hphase j (hj ▸ hold)
  · rcases hwork with hwork | hwork <;> exact absurd (hwork.symm.trans hphase) (by decide)

theorem Sound.main {t : Tester} {logs : List Record} (h : Sound cluster names s)
    (hstep : s.tester.MainStep cluster t logs) : Sound cluster names ⟨t, s.shared,
      s.story ++ ((s.tester.called t).map .called ++ logs.map .logged)⟩ := by
  -- Unless a runner is called, all tasks stay as they are and something may be logged.
  have hseen (rs : List Record) (i : Nat) : seen i (s.story ++ rs.map .logged) =
      ((s.tester.taskOf? i).map RunnerTask.seen).getD (0, []) := by
    rw [← h.seen_eq, seen_append]
    simp
  have hlogged := h.logged
  cases hstep with
  | begins hphase =>
    rw [Logged, hphase] at hlogged
    rw [Tester.called_phase]
    refine ⟨h.names_eq, hseen _, ⟨[], rfl, ?_⟩, fun hphase => ?_, fun hphase => ?_⟩
    · rw [hlogged]
      rfl
    · cases hphase
    · cases hphase
  | @calls i hphase hi =>
    rw [Tester.called_withTask hi]
    exact h.withTask hi s.shared (.inl hphase) (by decide) rfl (by simp [RunnerTask.seen])
      fun j hj => by simp [hj]
  | waits hphase hall =>
    rw [Logged, hphase] at hlogged
    rw [Tester.called_phase]
    refine ⟨h.names_eq, hseen [], ?_, fun _ => hall, fun hphase => ?_⟩
    · rwa [List.map_nil, List.map_nil, List.append_nil, List.append_nil]
    · cases hphase
  | returns hphase hall =>
    rw [Logged, hphase] at hlogged
    obtain ⟨middle, hmiddle, hstory⟩ := hlogged
    rw [Tester.called_phase]
    refine ⟨h.names_eq, hseen _, ⟨middle, hmiddle, ?_⟩, fun hphase => ?_, fun _ => hall⟩
    · rw [List.map_nil, List.nil_append, List.map_append, ← List.append_assoc, hstory]
      rfl
    · cases hphase

theorem Sound.move (h : Sound cluster names s) (hmove : Moves c cluster s s') :
    Sound cluster names s' := by
  cases hmove with
  | main hstep => exact h.main (Tester.mainStep_of_step? hstep)
  | @acts i x hi _ =>
    refine ⟨h.names_eq, fun j => ?_, h.logged.concat (h.at_work hi) rfl rfl rfl, h.all_launched,
      h.all_ended⟩
    rw [seen_append, h.seen_eq]
    simp
  | @returns i t hend _ =>
    obtain ⟨hi, rfl⟩ := Tester.endStep?_eq_some.mp hend
    exact h.withTask hi s.shared (h.at_work hi) (by decide) rfl (by simp [RunnerTask.seen])
      fun j hj => by simp [hj]
  | @panics i t message x hend =>
    obtain ⟨hi, rfl⟩ := Tester.endStep?_eq_some.mp hend
    exact h.withTask hi x (h.at_work hi) (by simp) rfl (by simp [RunnerTask.seen])
      fun j hj => by simp [hj]

theorem Sound.run (h : Sound cluster names s)
    (hrun : Relation.ReflTransGen (Moves c cluster) s s') : Sound cluster names s' := by
  induction hrun with
  | refl => exact h
  | tail _ hmove ih => exact ih.move hmove

/-! ### The tester returns -/

/-- When the tester has returned, each runner was seen to be called once and to end as its task did. -/
theorem Sound.seen_finished (h : Sound cluster names s) (hphase : s.tester.phase = .finished)
    {task : RunnerTask} (hi : s.tester.taskOf? i = some task) :
    seen i s.story = (1, [task.panic?]) := by
  rw [h.seen_eq, hi, Option.map_some, Option.getD_some]
  exact RunnerTask.seen_of_hasEnded (h.all_ended hphase i task hi)

/-- What the tester reports is told by the story: each panic under its runner's name. -/
theorem Sound.reports_eq (h : Sound cluster names s) (hphase : s.tester.phase = .finished) :
    reports names s.story = s.tester.panicRecords := by
  rw [reports, ← h.names_eq, Tester.names, List.zipIdx_map, List.filterMap_map,
    Tester.panicRecords]
  refine List.filterMap_congr fun ⟨⟨name, task⟩, i⟩ hmem => ?_
  have hi : s.tester.taskOf? i = some task := by
    rw [Tester.taskOf?, List.mem_zipIdx_iff_getElem?.mp hmem]
    rfl
  have hend : endings i s.story = [task.panic?] := congrArg Prod.snd (h.seen_finished hphase hi)
  simp [hend]

theorem Sound.told (h : Sound cluster names s) (hphase : s.tester.phase = .finished) :
    Told cluster names s.story := by
  have hseen (i : Nat) : ∃ panic,
      seen i s.story = if i < names.length then (1, [panic]) else (0, []) := by
    by_cases hi : i < names.length
    · obtain ⟨task, htask⟩ := Tester.exists_taskOf? (h.names_eq.symm ▸ hi)
      exact ⟨task.panic?, by rw [if_pos hi, h.seen_finished hphase htask]⟩
    · refine ⟨none, ?_⟩
      rw [if_neg hi, h.seen_eq, Tester.taskOf?_eq_none (h.names_eq.symm ▸ hi)]
      rfl
  refine ⟨fun i => ?_, fun i => ?_, ?_⟩
  · obtain ⟨panic, hi⟩ := hseen i
    rw [show s.story.count (.called i) = (seen i s.story).1 from rfl, hi]
    split <;> rfl
  · obtain ⟨panic, hi⟩ := hseen i
    rw [show endings i s.story = (seen i s.story).2 from rfl, hi]
    split <;> rfl
  · have hlogged := h.logged
    rw [Logged, hphase, h.names_eq] at hlogged
    rwa [h.reports_eq hphase]

/-- The tester makes a step of its own until it returns, or it waits for a runner that has not
    ended. -/
theorem Sound.goes_on (h : Sound cluster names s) : s.tester.phase = .finished ∨
    (s.tester.mainStep? cluster).isSome = true ∨ ∃ i, s.tester.taskOf? i = some .launched := by
  refine (Tester.exists_mainStep?_or cluster s.tester).imp_right (Or.imp_right ?_)
  rintro ⟨hphase, i, task, hi, hended⟩
  cases task with
  | registered => exact absurd hi (h.all_launched hphase i)
  | launched => exact ⟨i, hi⟩
  | finished | panicked => cases hended

/-- A performance comes to its end if its runners do. -/
theorem inevitable_finished (hc : c.Ends) (h : Sound cluster names s) :
    Inevitable (Moves c cluster) (fun s => s.tester.phase = .finished) s := by
  -- Calls, ends and the tester's own steps are counted; between them the runners go down their
  -- own order, from whatever state a panic has left behind.
  refine .of_wellFounded (Nat.lt_wfRel.wf.prod_lex hc.wellFounded)
    (fun s => (s.tester.stepsLeft, s.shared)) h (fun s s' h hmove => ⟨h.move hmove, ?_⟩)
    fun s h => ?_
  · cases hmove with
    | main hstep => exact .left _ _ (Tester.mainStep_of_step? hstep).stepsLeft_lt
    | acts _ hacts => exact .right _ ⟨_, hacts⟩
    | returns hend _ => exact .left _ _ (Tester.stepsLeft_lt_of_endStep? hend)
    | panics _ _ hend => exact .left _ _ (Tester.stepsLeft_lt_of_endStep? hend)
  · rcases h.goes_on with hphase | hstep | ⟨i, hi⟩
    · exact .inl hphase
    · obtain ⟨⟨t, logs⟩, hstep⟩ := Option.isSome_iff_exists.mp hstep
      exact .inr ⟨_, .main hstep⟩
    · rcases hc.goes_on i s.shared with hreturns | ⟨x, hacts⟩
      · exact .inr ⟨_, .returns (Tester.endStep?_eq_some.mpr ⟨hi, rfl⟩) hreturns⟩
      · exact .inr ⟨_, .acts hi hacts⟩

/-- Whichever runners panic, and wherever they do, the tester calls each runner once, returns only
    when all have ended, and reports each panic once, in the order of registration; and as long as
    it has not returned it can make a step of its own, or a runner has not ended.  It does return
    if every runner comes to its end. -/
theorem survives_panics (c : Troupe σ) (cluster : String) (names : List String) (x : σ) :
    (∀ s, Relation.ReflTransGen (Moves c cluster) (opening names x) s →
      (s.tester.phase = .finished → Told cluster names s.story) ∧
      (s.tester.phase = .finished ∨ (s.tester.mainStep? cluster).isSome = true ∨
        ∃ i, s.tester.taskOf? i = some .launched)) ∧
    (c.Ends → Inevitable (Moves c cluster)
      (fun s => s.tester.phase = .finished ∧ Told cluster names s.story) (opening names x)) := by
  have hopening : Sound cluster names (opening names x) := .opening cluster names x
  refine ⟨fun s hrun => ⟨(hopening.run hrun).told, (hopening.run hrun).goes_on⟩, fun hc => ?_⟩
  have hend := (inevitable_finished hc hopening).and_invariant hopening fun _ _ h => h.move
  exact hend.mono fun s ⟨hphase, h⟩ => ⟨hphase, h.told hphase⟩

/-- Runners that count down together and return at zero. -/
def countdown : Troupe Nat where
  acts _ n m := n = m + 1
  returns _ n := n = 0

theorem countdown_ends : countdown.Ends where
  goes_on _ n := by
    cases n with
    | zero => exact .inl rfl
    | succ n => exact .inr ⟨n, rfl⟩
  wellFounded := by
    refine Subrelation.wf (fun {m n} h => ?_) Nat.lt_wfRel.wf
    obtain ⟨-, rfl : n = m + 1⟩ := h
    exact Nat.lt_succ_self m

/-- A runner that is registered twice and panics once, before it is called for the second time. -/
theorem survives_panics_sample :
    (∃ s, Relation.ReflTransGen (Moves countdown "dev") (opening ["load", "load"] 1) s ∧
      s.tester.phase = .finished ∧ endings 0 s.story = [some "boom"] ∧
      endings 1 s.story = [none] ∧ Told "dev" ["load", "load"] s.story) ∧
    countdown.Ends ∧ Inevitable (Moves countdown "dev")
      (fun s => s.tester.phase = .finished ∧ Told "dev" ["load", "load"] s.story)
      (opening ["load", "load"] 1) := by
  obtain ⟨htold, hend⟩ := survives_panics countdown "dev" ["load", "load"] 1
  refine ⟨?_, countdown_ends, hend countdown_ends⟩
  obtain ⟨s, hrun, hphase, hfirst, hsecond⟩ : ∃ s,
      Relation.ReflTransGen (Moves countdown "dev") (opening ["load", "load"] 1) s ∧
        s.tester.phase = .finished ∧ endings 0 s.story = [some "boom"] ∧
        endings 1 s.story = [none] :=
    ⟨_, .head (.main rfl) <| .head (.main rfl) <| .head (.panics (i := 0) "boom" 1 rfl) <|
      .head (.main rfl) <| .head (.main rfl) <| .head (.acts (i := 1) (x := 0) rfl rfl) <|
      .head (.returns (i := 1) rfl rfl) <| .head (.main rfl) .refl, rfl, rfl, rfl⟩
  exact ⟨s, hrun, hphase, hfirst, hsecond, (htold s hrun).1 hphase⟩

end Troupe
end GridBench
