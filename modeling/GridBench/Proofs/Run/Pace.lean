/-
  GridBench.Proofs.Run.Pace

  The pauses of a partition's rounds and the draws they take.  Of everything a
  worker does, only pausing takes time of itself and only picking a number uses up
  a draw; these deeds are the `pacesOf` its diary.  Each round makes them in the
  same way (`Partition.Paced`): it sleeps once before it begins, once more behind
  each of its action batches that is followed by another one, and picks a number
  if it comes to its removal.  Main statement: `work_paced`.
-/
import GridBench.Proofs.Run.Poison

namespace GridBench

/-! ## Draws and sleeps -/

namespace Pick

/-- How many draws picking a number takes. -/
def cost : Pick → Nat
  | .exactly _ => 0
  | .below _ => 1

theorem used_take (p : Pick) (d : Draws) : (p.take d).2.used = d.used + p.cost := by
  cases p <;> rfl

end Pick

/-- Picking how many elements to remove takes a draw, unless there are none. -/
theorem cost_removalCount (length : Nat) :
    (removalCount length).cost = if length = 0 then 0 else 1 := by
  unfold removalCount
  split <;> rfl

namespace SleepPolicy

/-- The deeds of one sleep that lasts the given time. -/
def sleep (s : SleepPolicy) (ms : Nat) : List Deed :=
  if s.enabled then [⟨.pick s.duration, ms⟩, ⟨.pause ms, ()⟩] else []

/-- How many draws one sleep takes. -/
def sleepDraws (s : SleepPolicy) : Nat := if s.enabled ∧ s.randomised then 1 else 0

/-- How long one sleep may last: no time if sleeping is disabled, and otherwise the time that is
    set, or a time that some draw stands for. -/
inductive Lasts (s : SleepPolicy) : Nat → Prop
  | disabled : s.enabled = false → Lasts s 0
  | fixed : s.enabled = true → s.randomised = false → Lasts s s.durationMs.toNat
  | drawn (rule : DrawRule) (draw : Nat) : s.enabled = true → s.randomised = true →
      Lasts s (rule.below (s.durationMs.toNat + 1) draw)

theorem cost_duration (s : SleepPolicy) : s.duration.cost = s.sleepDraws := by
  unfold duration sleepDraws
  cases s.enabled <;> cases s.randomised <;> rfl

end SleepPolicy

/-! ## Deeds that make the pace -/

namespace Deed

/-- Whether a deed pauses or picks a number. -/
def isPace : Deed → Bool
  | ⟨.pause _, _⟩ | ⟨.pick _, _⟩ => true
  | _ => false

/-- How long a deed pauses. -/
def pausedMs : Deed → Nat
  | ⟨.pause ms, _⟩ => ms
  | _ => 0

/-- How many draws a deed takes. -/
def draws : Deed → Nat
  | ⟨.pick p, _⟩ => p.cost
  | _ => 0

end Deed

/-- The pauses and picks among some deeds. -/
def pacesOf (ds : List Deed) : List Deed := ds.filter Deed.isPace

/-- How long some deeds pause, all together. -/
def pausedMs (ds : List Deed) : Nat := (ds.map Deed.pausedMs).sum

/-- How many draws some deeds take, all together. -/
def drawsOf (ds : List Deed) : Nat := (ds.map Deed.draws).sum

theorem pacesOf_append (ds es : List Deed) : pacesOf (ds ++ es) = pacesOf ds ++ pacesOf es :=
  List.filter_append ds es

theorem pausedMs_append (ds es : List Deed) : pausedMs (ds ++ es) = pausedMs ds + pausedMs es := by
  rw [pausedMs, List.map_append, List.sum_append]
  rfl

theorem drawsOf_append (ds es : List Deed) : drawsOf (ds ++ es) = drawsOf ds + drawsOf es := by
  rw [drawsOf, List.map_append, List.sum_append]
  rfl

/-- All other deeds take no time of themselves, and no draws. -/
theorem sums_pacesOf (ds : List Deed) :
    pausedMs (pacesOf ds) = pausedMs ds ∧ drawsOf (pacesOf ds) = drawsOf ds := by
  induction ds with
  | nil => exact ⟨rfl, rfl⟩
  | cons d ds ih =>
    have hcons : pacesOf (d :: ds) = (if d.isPace then [d] else []) ++ pacesOf ds := by
      rw [pacesOf, List.filter_cons]
      split <;> rfl
    have hsplit : d :: ds = [d] ++ ds := rfl
    rw [hcons, pausedMs_append, drawsOf_append, ih.1, ih.2, hsplit, pausedMs_append,
      drawsOf_append]
    match d with
    | ⟨.pause _, _⟩ | ⟨.pick _, _⟩ => exact ⟨rfl, rfl⟩
    | ⟨.ask .., _⟩ | ⟨.clock, _⟩ | ⟨.log _, _⟩ | ⟨.publish _, _⟩ => exact ⟨rfl, rfl⟩

/-! ## The pace of a round -/

namespace RoundEnd

/-- How many times a round sleeps between its action batches, by its end: not at all if its ingest
    fails, once if its read does, and twice otherwise. -/
def batchSleeps : RoundEnd → Nat
  | .failed .ingest _ | .crashed _ => 0
  | .failed .read _ => 1
  | .failed .remove _ | .completed => 2

/-- Whether a round comes to its removal, by its end. -/
def reachesRemoval : RoundEnd → Bool
  | .failed .remove _ | .completed => true
  | _ => false

end RoundEnd

/-- The pauses of a round and the number it picks: how long it slept before it began, how long each
    time between its batches, and how many elements it was to remove if it came to that. -/
structure Pace where
  first : Nat
  batches : List Nat
  removal : Option Nat

namespace Pace

/-- How long a round slept, all together. -/
def ms (x : Pace) : Nat := x.first + x.batches.sum

/-- Each sleep lasted as long as its policy says. -/
structure Lasts (p : Partition) (x : Pace) : Prop where
  first : p.config.plan.betweenRuns.Lasts x.first
  batches : ∀ ms ∈ x.batches, p.config.plan.betweenActionBatches.Lasts ms

/-- The deeds of a round that make its pace, from its beginning on. -/
def roundDeeds (p : Partition) (x : Pace) : List Deed :=
  x.batches.flatMap p.config.plan.betweenActionBatches.sleep ++
    x.removal.toList.map fun n => ⟨.pick (removalCount p.config.elements.length), n⟩

/-- The deeds of a round that make its pace, the sleep before it included. -/
def deeds (p : Partition) (x : Pace) : List Deed :=
  p.config.plan.betweenRuns.sleep x.first ++ x.roundDeeds p

end Pace

namespace Partition

open Proc

/-- The pace fits the end of a round. -/
structure Paced (p : Partition) (e : RoundEnd) (x : Pace) : Prop where
  batches : x.batches.length = e.batchSleeps
  removal : x.removal.isSome = e.reachesRemoval
  first_zero : p.config.plan.betweenRuns.enabled = false → x.first = 0
  batches_zero : p.config.plan.betweenActionBatches.enabled = false → ∀ ms ∈ x.batches, ms = 0

/-- How many draws a round takes, by its end. -/
def roundDraws (p : Partition) (e : RoundEnd) : Nat :=
  p.config.plan.betweenRuns.sleepDraws
    + e.batchSleeps * p.config.plan.betweenActionBatches.sleepDraws
    + if e.reachesRemoval ∧ p.config.elements ≠ [] then 1 else 0

variable {p : Partition} {t : List Deed}

/-! ## The terms of the pace -/

/-- The terms of somebody who notes the pauses and the picks. -/
def pacing : Terms (List Deed) where
  may _ _ := True
  admits _ _ := True
  after t d := if d.isPace then t ++ [d] else t

theorem afterAll_pacing (t : List Deed) (ds : List Deed) :
    pacing.afterAll t ds = t ++ pacesOf ds := by
  induction ds generalizing t with
  | nil => simp [pacesOf]
  | cons d ds ih =>
    rw [Terms.afterAll_cons, ih, pacesOf, pacesOf, List.filter_cons]
    show (if d.isPace then t ++ [d] else t) ++ _ = _
    split
    · rw [List.append_assoc, List.singleton_append]
    · rfl

/-- What the notes say of a program is so of the deeds that carried it out. -/
theorem paces_of_plays {α : Type} {q : Proc α} {Q : List Deed → α → Prop} {ds : List Deed} {a : α}
    (hplays : Plays q ds (.done a)) (hq : q.Keeps pacing Q []) : Q (pacesOf ds) a := by
  have hresult := hplays.result (Terms.grants_of_admits (fun _ _ => trivial) _ _) hq
  rwa [afterAll_pacing, List.nil_append] at hresult

/-- A program that takes no notes neither pauses nor picks. -/
theorem pacesOf_eq_nil {α : Type} {q : Proc α} {ds : List Deed} {a : α}
    (hplays : Plays q ds (.done a)) (hq : q.Keeps pacing (fun t' _ => t' = []) []) :
    pacesOf ds = [] :=
  paces_of_plays (Q := fun t' _ => t' = []) hplays hq

theorem rest_paced (s : SleepPolicy) :
    (rest s).Keeps pacing
      (fun t' _ => ∃ ms, t' = t ++ s.sleep ms ∧ (s.enabled = false → ms = 0)) t := by
  unfold rest SleepPolicy.sleep
  split
  · rename_i henabled
    refine ⟨trivial, fun ms _ => ⟨trivial, fun _ _ => ⟨trivial, fun _ _ => ⟨ms, ?_, ?_⟩⟩⟩⟩
    · exact List.append_assoc t [_] [_]
    · rw [henabled]
      intro hdisabled
      cases hdisabled
  · exact ⟨0, (List.append_nil t).symm, fun _ => rfl⟩

theorem announce_paced (run : Nat) : (p.announce run).Keeps pacing (fun t' _ => t' = t) t := by
  unfold announce
  split
  · exact ⟨trivial, fun _ _ => ⟨trivial, fun _ _ => rfl⟩⟩
  · exact ⟨trivial, fun _ _ => rfl⟩

theorem account_paced (run completed failed : Nat) (e : RoundEnd) :
    (p.account run completed failed e).Keeps pacing (fun t' _ => t' = t) t := by
  cases e with
  | completed => exact ⟨trivial, fun _ _ => rfl⟩
  | failed action cause => exact ⟨trivial, fun _ _ => ⟨trivial, fun _ _ => rfl⟩⟩
  | crashed message => exact rfl

theorem enter_paced : p.enter.Keeps pacing (fun t' _ => t' = t) t := by
  refine ⟨trivial, fun _ _ => ⟨trivial, fun start _ => ⟨trivial, fun a _ => ?_⟩⟩⟩
  match a with
  | .error f => exact ⟨trivial, fun _ _ => rfl⟩
  | .ok h => exact ⟨trivial, fun _ _ => ⟨trivial, fun _ _ => rfl⟩⟩

theorem leave_paced (h : Handle) (crash : Option String) :
    (p.leave h crash).Keeps pacing (fun t' _ => t' = t) t := by
  refine ⟨trivial, fun a _ => ?_⟩
  match a with
  | .ok () => exact rfl
  | .error f => exact ⟨trivial, fun _ _ => rfl⟩

/-! ## The actions -/

/-- A call is not noted; if it fails, so does the action. -/
theorem call_paced {α : Type} {h : Handle} {c : MapCall} {G : c.Answer → Attempt α}
    {Q : List Deed → Except Trouble α → Prop} (hfailed : ∀ f, Q t (.error (.failed f)))
    (hG : ∀ a, (G a).run.Keeps pacing Q t) : (Attempt.call h c >>= G).run.Keeps pacing Q t :=
  call_keeps trivial (fun f _ => hfailed f) fun a _ => hG a

/-- The elements all have keys. -/
def Named (p : Partition) (es : List Element) : Prop := ∀ e ∈ es, ∃ key, p.key e = .ok key

/-- An ingest takes no notes, and if it comes to its end the elements all have keys. -/
theorem ingest_paced (h : Handle) (es : List Element) (n : Nat) :
    (p.ingest h es n).run.Keeps pacing (fun t' r => t' = t ∧ (r.isOk → p.Named es)) t := by
  induction es generalizing n with
  | nil =>
    simp only [ingest]
    exact ⟨trivial, fun _ _ => ⟨rfl, fun _ e he => by cases he⟩⟩
  | cons e es ih =>
    cases hk : p.key e with
    | error message =>
      simp only [ingest, keyOf, hk]
      exact ⟨rfl, fun hok => by cases hok⟩
    | ok key =>
      have hrest (n : Nat) : (p.ingest h es n).run.Keeps pacing
          (fun t' r => t' = t ∧ (r.isOk → p.Named (e :: es))) t :=
        (ih n).mono fun t' r hr =>
          ⟨hr.1, fun hok => List.forall_mem_cons.mpr ⟨⟨key, hk⟩, hr.2 hok⟩⟩
      simp only [ingest, keyOf, hk, pure_bind]
      refine call_paced (fun f => ⟨rfl, fun hok => by cases hok⟩) fun present => ?_
      split
      · exact hrest n
      · cases e.value with
        | error f => exact ⟨rfl, fun hok => by cases hok⟩
        | ok v =>
          simp only [ofExcept_ok, pure_bind]
          exact call_paced (fun f => ⟨rfl, fun hok => by cases hok⟩) fun _ => hrest (n + 1)

/-- Nor does reading back, which crashes only if an element has no key. -/
theorem readAll_paced (h : Handle) {es : List Element} (hes : p.Named es) :
    (p.readAll h es).run.Keeps pacing (fun t' r => t' = t ∧ Uncrashed r) t := by
  induction es with
  | nil =>
    simp only [readAll]
    exact ⟨trivial, fun _ _ => ⟨rfl, uncrashed_ok _⟩⟩
  | cons e es ih =>
    obtain ⟨⟨key, hk⟩, hrest⟩ := List.forall_mem_cons.mp hes
    simp only [readAll, keyOf, hk, pure_bind]
    refine call_paced (fun f => ⟨rfl, uncrashed_failed f⟩) fun answer => ?_
    cases answer with
    | none => exact ⟨rfl, uncrashed_failed _⟩
    | some v =>
      cases hcheck : p.config.check v with
      | error f =>
        simp only [hcheck]
        exact ⟨rfl, uncrashed_failed f⟩
      | ok _ =>
        simp only [hcheck, ofExcept_ok, pure_bind]
        exact ih hrest

theorem remove_paced (h : Handle) {es : List Element} (hes : p.Named es) (n : Nat) :
    (p.remove h es n).run.Keeps pacing (fun t' r => t' = t ∧ Uncrashed r) t := by
  induction es generalizing n with
  | nil =>
    simp only [remove]
    exact ⟨trivial, fun _ _ => ⟨rfl, uncrashed_ok _⟩⟩
  | cons e es ih =>
    obtain ⟨⟨key, hk⟩, hrest⟩ := List.forall_mem_cons.mp hes
    simp only [remove, keyOf, hk, pure_bind]
    refine call_paced (fun f => ⟨rfl, uncrashed_failed f⟩) fun present => ?_
    split
    · exact call_paced (fun f => ⟨rfl, uncrashed_failed f⟩) fun _ => ih hrest (n + 1)
    · exact ih hrest n

/-- A removal notes the number it picks, and nothing else. -/
theorem removeSome_paced (h : Handle) (hes : p.Named p.config.elements) :
    (p.removeSome h).run.Keeps pacing
      (fun t' r => (∃ n, t' = t ++ [⟨.pick (removalCount p.config.elements.length), n⟩]) ∧
        Uncrashed r) t := by
  refine ⟨trivial, fun n _ => ?_⟩
  have htaken : p.Named (p.config.elements.take n) := fun e he => hes e (List.mem_of_mem_take he)
  refine (remove_paced h htaken 0).mono fun t' r hr => ⟨⟨n, hr.1⟩, hr.2⟩

/-! ## Rounds -/

/-- The pace of a round that slept for a given time before it began. -/
theorem round_paced (h : Handle) {first : Nat}
    (hfirst : p.config.plan.betweenRuns.enabled = false → first = 0) :
    (p.round h).Keeps pacing
      (fun t' e => ∃ x : Pace, x.first = first ∧ p.Paced e x ∧ t' = t ++ x.roundDeeds p) t := by
  rw [round]
  refine attempt_keeps (ingest_paced h _ 0) ?_ ?_ ?_
  -- A round whose ingest fails or crashes sleeps no more.
  · rintro t' f ⟨rfl, -⟩
    exact ⟨⟨first, [], none⟩, rfl, ⟨rfl, rfl, hfirst, fun _ _ hms => by cases hms⟩,
      (List.append_nil t').symm⟩
  · rintro t' message ⟨rfl, -⟩
    exact ⟨⟨first, [], none⟩, rfl, ⟨rfl, rfl, hfirst, fun _ _ hms => by cases hms⟩,
      (List.append_nil t').symm⟩
  rintro t' _ ⟨rfl, hnamed⟩
  have hnamed : p.Named p.config.elements := hnamed rfl
  refine (rest_paced _).bind ?_
  rintro t₁ - ⟨ms₁, rfl, hzero₁⟩
  refine attempt_keeps (readAll_paced h hnamed) ?_ ?_ ?_
  · rintro t₂ f ⟨rfl, -⟩
    refine ⟨⟨first, [ms₁], none⟩, rfl, ⟨rfl, rfl, hfirst, fun hdisabled ms hms => ?_⟩, ?_⟩
    · rw [List.mem_singleton.mp hms, hzero₁ hdisabled]
    · simp [Pace.roundDeeds]
  · rintro t₂ message ⟨-, huncrashed⟩
    exact absurd rfl (huncrashed message)
  rintro t₂ _ ⟨rfl, -⟩
  refine (rest_paced _).bind ?_
  rintro t₃ - ⟨ms₂, rfl, hzero₂⟩
  have hwhole (e : RoundEnd) (n : Nat) (hsleeps : e.batchSleeps = 2)
      (hreaches : e.reachesRemoval = true) : ∃ x : Pace, x.first = first ∧ p.Paced e x ∧
      t' ++ p.config.plan.betweenActionBatches.sleep ms₁
          ++ p.config.plan.betweenActionBatches.sleep ms₂
          ++ [⟨.pick (removalCount p.config.elements.length), n⟩] = t' ++ x.roundDeeds p := by
    refine ⟨⟨first, [ms₁, ms₂], some n⟩, rfl,
      ⟨hsleeps.symm, hreaches.symm, hfirst, fun hdisabled ms hms => ?_⟩, ?_⟩
    · rcases List.mem_pair.mp hms with rfl | rfl
      · exact hzero₁ hdisabled
      · exact hzero₂ hdisabled
    · simp [Pace.roundDeeds]
  refine attempt_keeps (removeSome_paced h hnamed) ?_ ?_ ?_
  · rintro t₄ f ⟨⟨n, rfl⟩, -⟩
    exact hwhole _ n rfl rfl
  · rintro t₄ message ⟨-, huncrashed⟩
    exact absurd rfl (huncrashed message)
  · rintro t₄ _ ⟨⟨n, rfl⟩, -⟩
    exact hwhole _ n rfl rfl

theorem iteration_paced (h : Handle) (run : Nat) :
    (p.iteration h run).Keeps pacing (fun t' e => ∃ x : Pace, p.Paced e x ∧ t' = t ++ x.deeds p)
      t := by
  rw [iteration]
  refine (rest_paced _).bind ?_
  rintro t₁ - ⟨first, rfl, hzero⟩
  refine (announce_paced run).bind ?_
  rintro t₂ - rfl
  refine (round_paced h hzero).mono ?_
  rintro t₃ e ⟨x, rfl, hx, rfl⟩
  refine ⟨x, hx, ?_⟩
  rw [Pace.deeds, List.append_assoc]

/-- The deeds of all rounds from the one with number `run` on, with the end and the pace of each.
    Between the rounds nobody pauses or picks. -/
inductive Strides (p : Partition) (h : Handle) :
    Nat → List Deed → List RoundEnd → List Pace → Prop
  | done {run : Nat} {ds : List Deed} : pacesOf ds = [] → Strides p h run ds [] []
  | stride {run : Nat} {ds₁ ds₂ ds₃ : List Deed} {e : RoundEnd} {x : Pace} {es : List RoundEnd}
      {xs : List Pace} : Plays (p.iteration h run) ds₁ (.done e) → p.Paced e x →
      pacesOf ds₁ = x.deeds p → pacesOf ds₂ = [] → Strides p h (run + 1) ds₃ es xs →
      Strides p h run (ds₁ ++ (ds₂ ++ ds₃)) (e :: es) (x :: xs)

/-- The rounds of a worker that has worked them go at their pace.  A worker that did not crash has
    worked as many as it was to. -/
theorem rounds_strides {h : Handle} {left run completed failed : Nat} {ds : List Deed}
    {crash : Option String}
    (hplays : Plays (p.rounds h left run completed failed) ds (.done crash)) :
    ∃ xs, p.Strides h run ds (p.endsFrom h left run completed failed ds) xs ∧
      (crash = none → xs.length = left) := by
  induction left generalizing run completed failed ds with
  | zero =>
    have hconclusion : (p.rounds h 0 run completed failed).Keeps pacing (fun t' _ => t' = [])
        [] := by
      rw [rounds]
      exact ⟨trivial, fun _ _ => rfl⟩
    exact ⟨[], .done (pacesOf_eq_nil hplays hconclusion), fun _ => rfl⟩
  | succ left ih =>
    rw [rounds_succ] at hplays
    obtain ⟨ds₁, _, e, rfl, h₁, h'⟩ := hplays.of_bind_done
    obtain ⟨ds₂, ds₃, _, rfl, h₂, h₃⟩ := Plays.of_bind_done h'
    obtain ⟨x, hx, hpaces⟩ := paces_of_plays h₁ (iteration_paced h run)
    have hsilent : pacesOf ds₂ = [] := pacesOf_eq_nil h₂ (account_paced run completed failed e)
    have hrest : ∃ xs, p.Strides h (run + 1) ds₃
        (p.endsAfter h left run completed failed e ds₃) xs ∧
        (crash = none → xs.length = left) := by
      cases e with
      | completed => exact ih h₃
      | failed action cause => exact ih h₃
      -- Behind a crash there are no more rounds, and the worker ends with its message.
      | crashed message =>
        obtain ⟨rfl, hend⟩ := Plays.done_nil h₃
        refine ⟨[], .done rfl, fun hnone => ?_⟩
        cases hend
        cases hnone
    obtain ⟨xs, hxs, hlength⟩ := hrest
    rw [endsFrom_succ h₁ h₂]
    exact ⟨x :: xs, .stride h₁ hx hpaces hsilent hxs, fun hnone => congrArg _ (hlength hnone)⟩

theorem Strides.paced {h : Handle} {run : Nat} {ds : List Deed} {es : List RoundEnd}
    {xs : List Pace} (hstrides : p.Strides h run ds es xs) :
    List.Forall₂ p.Paced es xs ∧ pacesOf ds = xs.flatMap (Pace.deeds p) := by
  induction hstrides with
  | done hsilent => exact ⟨.nil, hsilent⟩
  | stride _ hx hpaces hsilent _ ih =>
    refine ⟨.cons hx ih.1, ?_⟩
    rw [pacesOf_append, pacesOf_append, hpaces, hsilent, ih.2, List.flatMap_cons]
    rfl

/-! ## The whole worker -/

/-- What a worker that has ended did, with the ends of its rounds and their paces: it entered,
    worked its rounds, and left.  A worker without a map worked no round. -/
inductive Went (p : Partition) : List Deed → List RoundEnd → List Pace → Prop
  | unmapped {ds : List Deed} {f : Fault} : Plays p.enter ds (.done (.error f)) → Went p ds [] []
  | mapped {h : Handle} {ds₁ ds₂ ds₃ : List Deed} {crash : Option String} {es : List RoundEnd}
      {xs : List Pace} : Plays p.enter ds₁ (.done (.ok h)) →
      Plays (p.rounds h p.config.plan.numRuns.toNat 0 0 0) ds₂ (.done crash) →
      p.Strides h 0 ds₂ es xs → Plays (p.leave h crash) ds₃ (.done crash) →
      Went p (ds₁ ++ (ds₂ ++ ds₃)) es xs

/-- A worker that has ended went through its rounds at their pace. -/
theorem work_paced {ds : List Deed} {crash : Option String}
    (hplays : Plays p.work ds (.done crash)) :
    ∃ xs, p.Went ds (p.ends ds) xs ∧ (crash = none → (∃ h, .ok h ∈ acquisitions ds) →
      xs.length = p.config.plan.numRuns.toNat) := by
  rcases plays_work_cases hplays with ⟨e, k, _, hq⟩ | ⟨f, henter, _⟩ |
    ⟨ds₁, ds₂, m, e, k, _, _, _, hq⟩ | ⟨ds₁, ds₂, ds₃, m, crash', rfl, henter, hrounds, hleave⟩
  · cases hq
  -- Without a map there are no rounds.
  · have hends : p.ends ds = [] := by
      have hreplay := henter.replay_append []
      rw [List.append_nil] at hreplay
      rw [ends, hreplay, replay_done]
    rw [hends]
    refine ⟨[], .unmapped henter, ?_⟩
    rintro - ⟨h, hmem⟩
    rw [acquisitions_enter henter] at hmem
    cases List.mem_singleton.mp hmem
  · cases hq
  · obtain ⟨xs, hxs, hlength⟩ := rounds_strides hrounds
    obtain rfl : crash = crash' :=
      hleave.result (Terms.plain_grants _ _ _) (leave_aside (p := p) m crash')
    rw [ends_of_enter henter, endsFrom_append hrounds]
    exact ⟨xs, .mapped henter hrounds hxs hleave, fun hcrash _ => hlength hcrash⟩

variable {es : List RoundEnd} {xs : List Pace}

/-- Entering and leaving, a worker neither pauses nor picks. -/
theorem Went.paced {ds : List Deed} (hwent : p.Went ds es xs) :
    List.Forall₂ p.Paced es xs ∧ pacesOf ds = xs.flatMap (Pace.deeds p) := by
  cases hwent with
  | unmapped henter => exact ⟨.nil, pacesOf_eq_nil henter enter_paced⟩
  | @mapped h _ _ _ crash _ _ henter _ hstrides hleave =>
    refine ⟨hstrides.paced.1, ?_⟩
    rw [pacesOf_append, pacesOf_append, pacesOf_eq_nil henter enter_paced,
      pacesOf_eq_nil hleave (leave_paced h crash), hstrides.paced.2, List.append_nil]
    rfl

/-! ## Sums -/

theorem sums_sleep {s : SleepPolicy} {ms : Nat} (hms : s.enabled = false → ms = 0) :
    pausedMs (s.sleep ms) = ms ∧ drawsOf (s.sleep ms) = s.sleepDraws := by
  rw [SleepPolicy.sleep]
  split
  · refine ⟨Nat.zero_add ms, ?_⟩
    rw [← s.cost_duration]
    exact Nat.add_zero _
  · rename_i hdisabled
    have hdisabled : s.enabled = false := Bool.eq_false_iff.mpr hdisabled
    rw [hms hdisabled, SleepPolicy.sleepDraws, hdisabled]
    exact ⟨rfl, rfl⟩

theorem sums_sleeps {s : SleepPolicy} {mss : List Nat}
    (hms : s.enabled = false → ∀ ms ∈ mss, ms = 0) :
    pausedMs (mss.flatMap s.sleep) = mss.sum ∧
      drawsOf (mss.flatMap s.sleep) = mss.length * s.sleepDraws := by
  induction mss with
  | nil => exact ⟨rfl, (Nat.zero_mul _).symm⟩
  | cons ms mss ih =>
    obtain ⟨hpaused, hdraws⟩ := ih fun hdisabled ms' hms' =>
      hms hdisabled ms' (List.mem_cons_of_mem _ hms')
    obtain ⟨hpaused', hdraws'⟩ := sums_sleep fun hdisabled => hms hdisabled ms List.mem_cons_self
    rw [List.flatMap_cons, pausedMs_append, drawsOf_append, hpaused, hpaused', hdraws, hdraws',
      List.sum_cons, List.length_cons, Nat.add_mul, Nat.one_mul, Nat.add_comm s.sleepDraws]
    exact ⟨rfl, rfl⟩

/-- How long a round takes, and how many draws. -/
theorem Paced.sums {e : RoundEnd} {x : Pace} (hx : p.Paced e x) :
    pausedMs (x.deeds p) = x.ms ∧ drawsOf (x.deeds p) = p.roundDraws e := by
  obtain ⟨hfirst, hfirst'⟩ := sums_sleep hx.first_zero
  obtain ⟨hbatches, hbatches'⟩ := sums_sleeps hx.batches_zero
  have hremoval : pausedMs (x.removal.toList.map fun n =>
      (⟨.pick (removalCount p.config.elements.length), n⟩ : Deed)) = 0 ∧
      drawsOf (x.removal.toList.map fun n =>
        (⟨.pick (removalCount p.config.elements.length), n⟩ : Deed)) =
        if e.reachesRemoval ∧ p.config.elements ≠ [] then 1 else 0 := by
    rw [← hx.removal]
    cases x.removal with
    | none => exact ⟨rfl, rfl⟩
    | some n =>
      refine ⟨rfl, (Nat.add_zero _).trans ?_⟩
      show (removalCount p.config.elements.length).cost = _
      rw [cost_removalCount]
      cases p.config.elements <;> rfl
  rw [Pace.deeds, Pace.roundDeeds, pausedMs_append, pausedMs_append, drawsOf_append,
    drawsOf_append, hfirst, hfirst', hbatches, hbatches', hremoval.1, hremoval.2, hx.batches]
  exact ⟨rfl, (Nat.add_assoc _ _ _).symm⟩

/-- How long all rounds take, and how many draws. -/
theorem sums_of_paced (hxs : List.Forall₂ p.Paced es xs) :
    pausedMs (xs.flatMap (Pace.deeds p)) = (xs.map Pace.ms).sum ∧
      drawsOf (xs.flatMap (Pace.deeds p)) = (es.map p.roundDraws).sum := by
  induction hxs with
  | nil => exact ⟨rfl, rfl⟩
  | cons hx _ ih =>
    rw [List.flatMap_cons, pausedMs_append, drawsOf_append, hx.sums.1, hx.sums.2, ih.1, ih.2]
    exact ⟨rfl, rfl⟩

/-- A worker pauses in its rounds only, and takes draws for them only. -/
theorem Went.sums {ds : List Deed} (hwent : p.Went ds es xs) :
    pausedMs ds = (xs.map Pace.ms).sum ∧ drawsOf ds = (es.map p.roundDraws).sum := by
  obtain ⟨hxs, hpaces⟩ := hwent.paced
  obtain ⟨hpaused, hdraws⟩ := sums_pacesOf ds
  rw [← hpaused, ← hdraws, hpaces]
  exact sums_of_paced hxs

/-! ## How long a sleep lasts -/

theorem lasts_of_isDrawn {s : SleepPolicy} {ms : Nat} (hms : s.enabled = false → ms = 0)
    (hdrawn : ∀ d ∈ s.sleep ms, d.IsDrawn) : s.Lasts ms := by
  cases henabled : s.enabled with
  | false =>
    rw [hms henabled]
    exact .disabled henabled
  | true =>
    rw [SleepPolicy.sleep, if_pos henabled] at hdrawn
    obtain ⟨d, rfl⟩ := hdrawn _ List.mem_cons_self
    rw [SleepPolicy.duration, if_pos henabled]
    split
    · rename_i hrandomised
      exact .drawn _ _ henabled hrandomised
    · rename_i hfixed
      exact .fixed henabled (Bool.eq_false_iff.mpr hfixed)

/-- If all numbers picked are drawn, each sleep lasts as long as its policy says. -/
theorem Went.lasts {ds : List Deed} (hwent : p.Went ds es xs)
    (hdrawn : ∀ d ∈ ds, d.IsDrawn) : ∀ x ∈ xs, x.Lasts p := by
  obtain ⟨hxs, hpaces⟩ := hwent.paced
  intro x hx
  have hdrawn : ∀ d ∈ x.deeds p, d.IsDrawn := by
    intro d hd
    have hmem : d ∈ pacesOf ds := by
      rw [hpaces]
      exact List.mem_flatMap.mpr ⟨x, hx, hd⟩
    exact hdrawn d (List.mem_of_mem_filter hmem)
  obtain ⟨e, -, hpaced⟩ : ∃ e ∈ es, p.Paced e x := by
    obtain ⟨i, hi, rfl⟩ := List.mem_iff_getElem.mp hx
    have hi' : i < es.length := hxs.length_eq ▸ hi
    exact ⟨es[i], List.getElem_mem hi', hxs.get hi' hi⟩
  constructor
  · exact lasts_of_isDrawn hpaced.first_zero fun d hd => hdrawn d (List.mem_append_left _ hd)
  · intro ms hms
    refine lasts_of_isDrawn (fun hdisabled => hpaced.batches_zero hdisabled ms hms) fun d hd => ?_
    refine hdrawn d (List.mem_append_right _ (List.mem_append_left _ ?_))
    exact List.mem_flatMap.mpr ⟨ms, hms, hd⟩

end Partition

end GridBench
