/-
  GridBench.Proofs.Run.Rounds

  How the rounds of a partition ended, read off the diary of its worker, and
  how they were accounted for.  `Partition.ends` replays the program of each
  round on the diary and lists what the rounds returned.  `Partition.tally`
  is the sequence of updates that counts such ends.  Main statement
  (`accounted_of_plays`): what a worker published is, at any time, the tally of
  the rounds that ended so far, or of all of them but the last one.
-/
import GridBench.Proofs.Run.Work

namespace GridBench

namespace RoundEnd

def isCompleted : RoundEnd → Bool
  | .completed => true
  | _ => false

def isFailed : RoundEnd → Bool
  | .failed .. => true
  | _ => false

def isCrash : RoundEnd → Bool
  | .crashed _ => true
  | _ => false

end RoundEnd

namespace Partition

open Proc

/-- The ends of the rounds in a diary that starts with round `run`, when `left` rounds are left
    and the counts so far are given. -/
noncomputable def endsFrom (p : Partition) (h : Handle) :
    Nat → Nat → Nat → Nat → List Deed → List RoundEnd
  | 0, _, _, _, _ => []
  | left + 1, run, completed, failed, ds =>
    match (p.iteration h run).replay ds with
    | (.done e, ds) =>
      e :: match (p.account run completed failed e).replay ds with
        | (.done (), ds) =>
          match e with
          | .completed => endsFrom p h left (run + 1) (completed + 1) failed ds
          | .failed .. => endsFrom p h left (run + 1) completed (failed + 1) ds
          | .crashed _ => []
        | _ => []
    | _ => []

/-- The ends of the rounds after one that ended with `e`, by the rest of the diary. -/
noncomputable def endsAfter (p : Partition) (h : Handle) (left run completed failed : Nat)
    (e : RoundEnd) (ds : List Deed) : List RoundEnd :=
  match e with
  | .completed => p.endsFrom h left (run + 1) (completed + 1) failed ds
  | .failed .. => p.endsFrom h left (run + 1) completed (failed + 1) ds
  | .crashed _ => []

/-- The ends of a partition's rounds, by the diary of its worker. -/
noncomputable def ends (p : Partition) (ds : List Deed) : List RoundEnd :=
  match p.enter.replay ds with
  | (.done (.ok h), ds) => p.endsFrom h p.config.plan.numRuns.toNat 0 0 0 ds
  | _ => []

/-- The updates that count the given ends of rounds, from the given counts on. -/
def tally (p : Partition) : Nat → Nat → List RoundEnd → List StatusUpdate
  | _, _, [] => []
  | completed, failed, .completed :: es =>
    .update (completedKey p.number) (.ofNat (completed + 1)) :: tally p (completed + 1) failed es
  | completed, failed, .failed .. :: es =>
    .update (failedKey p.number) (.ofNat (failed + 1)) :: tally p completed (failed + 1) es
  | _, _, .crashed _ :: _ => []

/-- The updates count the first `n` of the given ends of rounds, none of which is a crash. -/
structure Accounted (p : Partition) (completed failed : Nat) (us : List StatusUpdate)
    (es : List RoundEnd) (n : Nat) : Prop where
  counted : us = p.tally completed failed (es.take n)
  le_length : n ≤ es.length
  not_crash : ∀ e ∈ es.take n, e.isCrash = false

variable {p : Partition}

/-! ## Tallies -/

theorem tally_take (completed failed n : Nat) (es : List RoundEnd) :
    (p.tally completed failed es).take n = p.tally completed failed (es.take n) := by
  induction es generalizing completed failed n with
  | nil => simp [tally]
  | cons e es ih =>
    cases n with
    | zero => simp [tally]
    | succ n => cases e <;> simp [tally, ih]

theorem tally_length {completed failed : Nat} {es : List RoundEnd}
    (hes : ∀ e ∈ es, e.isCrash = false) : (p.tally completed failed es).length = es.length := by
  induction es generalizing completed failed with
  | nil => rfl
  | cons e es ih =>
    have hrest : ∀ e' ∈ es, e'.isCrash = false := fun e' he' => hes e' (List.mem_cons_of_mem _ he')
    have he := hes e List.mem_cons_self
    cases e with
    | completed | failed => simp [tally, ih hrest]
    | crashed message => cases he

theorem accounted_nil (completed failed : Nat) (es : List RoundEnd) :
    p.Accounted completed failed [] es 0 :=
  ⟨by simp [tally], Nat.zero_le _, by simp⟩

theorem Accounted.cons_completed {completed failed n : Nat} {us : List StatusUpdate}
    {es : List RoundEnd} (h : p.Accounted (completed + 1) failed us es n) :
    p.Accounted completed failed
      (.update (completedKey p.number) (.ofNat (completed + 1)) :: us) (.completed :: es) (n + 1) :=
  ⟨by simp [tally, h.counted], Nat.succ_le_succ h.le_length, by
    simpa [RoundEnd.isCrash] using h.not_crash⟩

theorem Accounted.cons_failed {completed failed n : Nat} {us : List StatusUpdate}
    {es : List RoundEnd} {action : Action} {cause : Fault}
    (h : p.Accounted completed (failed + 1) us es n) :
    p.Accounted completed failed
      (.update (failedKey p.number) (.ofNat (failed + 1)) :: us) (.failed action cause :: es)
      (n + 1) :=
  ⟨by simp [tally, h.counted], Nat.succ_le_succ h.le_length, by
    simpa [RoundEnd.isCrash] using h.not_crash⟩

/-! ## Silence -/

/-- Effects other than publishing. -/
def Silent : Effect → Prop
  | .publish _ => False
  | _ => True

/-- Effects other than asking for a map. -/
def Settled : Effect → Prop
  | .ask (.acquire _) _ => False
  | _ => True

/-- Effects that neither call on a map nor draw nor publish. -/
def Aside : Effect → Prop
  | .ask (.call ..) _ | .pick _ | .publish _ => False
  | _ => True

/-- The answers a worker got when it asked for its map. -/
def acquisitions (ds : List Deed) : List (Except Fault Handle) := ds.filterMap Deed.acquired?

theorem acquisitions_append (ds es : List Deed) :
    acquisitions (ds ++ es) = acquisitions ds ++ acquisitions es := List.filterMap_append

theorem published_eq_nil {ds : List Deed} (h : ∀ d ∈ ds, Silent d.effect) : published ds = [] := by
  refine List.flatMap_eq_nil_iff.mpr fun d hd => ?_
  match d, h d hd with
  | ⟨.ask .., _⟩, _ | ⟨.pause _, _⟩, _ | ⟨.clock, _⟩, _ | ⟨.pick _, _⟩, _ | ⟨.log _, _⟩, _ => rfl

theorem acquisitions_eq_nil {ds : List Deed} (h : ∀ d ∈ ds, Settled d.effect) :
    acquisitions ds = [] := by
  refine List.filterMap_eq_nil_iff.mpr fun d hd => ?_
  match d, h d hd with
  | ⟨.ask (.call ..) _, _⟩, _ | ⟨.ask (.release _) _, _⟩, _ | ⟨.pause _, _⟩, _ | ⟨.clock, _⟩, _
  | ⟨.pick _, _⟩, _ | ⟨.log _, _⟩, _ | ⟨.publish _, _⟩, _ => rfl

theorem Aside.silent {e : Effect} (h : Aside e) : Silent e := by
  match e, h with
  | .ask .., _ | .pause _, _ | .clock, _ | .log _, _ => trivial

theorem Attends.silent {m : Handle} {e : Effect} (h : p.Attends m e) : Silent e := by
  match e, h with
  | .ask (.call ..) _, _ | .pause _, _ | .pick _, _ | .log _, _ => trivial

theorem Minds.settled {m : Handle} {e : Effect} (h : p.Minds m e) : Settled e := by
  rcases h with h | ⟨u, rfl, _⟩
  · match e, h with
    | .ask (.call ..) _, _ | .pause _, _ | .pick _, _ | .log _, _ => trivial
  · trivial

/-! ## Parts of a round -/

theorem published_iteration {m : Handle} {run : Nat} {ds : List Deed} {q : Proc RoundEnd}
    (h : Plays (p.iteration m run) ds q) : published ds = [] :=
  published_eq_nil fun d hd =>
    (h.forall_effect ((iteration_routine run).keeps_plain m) d hd).silent

theorem published_account {run completed failed : Nat} {e : RoundEnd} {ds : List Deed}
    (h : Plays (p.account run completed failed e) ds (.done ())) :
    published ds = p.tally completed failed [e] := by
  cases e with
  | completed =>
    cases h with
    | cons h => cases h; rfl
  | failed action cause =>
    cases h with
    | cons h =>
      cases h with
      | cons h => cases h; rfl
  | crashed message => cases h; rfl

/-- A count is published by the last effect of its account. -/
theorem published_account_op {run completed failed : Nat} {e : RoundEnd} {ds : List Deed}
    {e' : Effect} {k : e'.Reply → Proc Unit}
    (h : Plays (p.account run completed failed e) ds (.op e' k)) : published ds = [] := by
  cases e with
  | completed =>
    cases h with
    | nil => rfl
    | cons h => cases h
  | failed action cause =>
    cases h with
    | nil => rfl
    | cons h =>
      cases h with
      | nil => rfl
      | cons h => cases h
  | crashed message => cases h

/-! ## All rounds -/

theorem endsFrom_length_le (m : Handle) (left run completed failed : Nat) (ds : List Deed) :
    (p.endsFrom m left run completed failed ds).length ≤ left := by
  induction left generalizing run completed failed ds with
  | zero => simp [endsFrom]
  | succ left ih =>
    rw [endsFrom]
    split
    · refine Nat.succ_le_succ ?_
      split
      · split
        · exact ih _ _ _ _
        · exact ih _ _ _ _
        · exact Nat.zero_le _
      · exact Nat.zero_le _
    · exact Nat.zero_le _

/-- The diary of a round that has ended and been accounted for, in front of what follows. -/
theorem endsFrom_succ {m : Handle} {left run completed failed : Nat} {ds₁ ds₂ : List Deed}
    {e : RoundEnd} (h₁ : Plays (p.iteration m run) ds₁ (.done e))
    (h₂ : Plays (p.account run completed failed e) ds₂ (.done ())) (ds : List Deed) :
    p.endsFrom m (left + 1) run completed failed (ds₁ ++ (ds₂ ++ ds)) =
      e :: p.endsAfter m left run completed failed e ds := by
  rw [endsFrom, h₁.replay_append, replay_done]
  simp only [h₂.replay_append, replay_done, endsAfter]

/-- While the first round is under way, or its end not yet accounted for, nothing is published. -/
theorem accounted_of_rounds {m : Handle} {left run completed failed : Nat} {ds : List Deed}
    {q : Proc (Option String)} (h : Plays (p.rounds m left run completed failed) ds q) :
    ∃ n, p.Accounted completed failed (published ds)
        (p.endsFrom m left run completed failed ds) n ∧ (q = .done none → n = left) := by
  -- The induction is on the rounds that are left, with the diary taken apart round by round.
  induction left generalizing run completed failed ds with
  | zero =>
    refine ⟨0, ?_, fun _ => rfl⟩
    have hquiet : published ds = [] := by
      rw [rounds] at h
      cases h with
      | nil => rfl
      | cons h =>
        cases h
        rfl
    rw [hquiet]
    exact accounted_nil _ _ _
  | succ left ih =>
    rw [rounds_succ] at h
    rcases h.of_bind with ⟨e, k, h₁, rfl⟩ | ⟨ds₁, ds', e, rfl, h₁, h'⟩
    -- In the round.
    · rw [published_iteration h₁]
      refine ⟨0, accounted_nil _ _ _, fun hq => ?_⟩
      cases hq
    · rcases Plays.of_bind h' with ⟨e', k, h₂, rfl⟩ | ⟨ds₂, ds₃, _, rfl, h₂, h₃⟩
      -- Behind the round, whose count is still to be published.
      · rw [published_append, published_iteration h₁, published_account_op h₂]
        refine ⟨0, accounted_nil _ _ _, fun hq => ?_⟩
        cases hq
      -- In the rounds after it, unless it crashed.
      · rw [endsFrom_succ h₁ h₂, published_append, published_append, published_iteration h₁,
          published_account h₂]
        cases e with
        | completed =>
          obtain ⟨n, hn, hleft⟩ := ih h₃
          exact ⟨n + 1, hn.cons_completed, fun hq => congrArg _ (hleft hq)⟩
        | failed action cause =>
          obtain ⟨n, hn, hleft⟩ := ih h₃
          exact ⟨n + 1, hn.cons_failed, fun hq => congrArg _ (hleft hq)⟩
        | crashed message =>
          obtain ⟨rfl, rfl⟩ := Plays.done_nil h₃
          refine ⟨0, accounted_nil _ _ _, fun hq => ?_⟩
          cases hq

/-- Once the rounds are over, their ends do not depend on what the diary says after them. -/
theorem endsFrom_append {m : Handle} {left run completed failed : Nat} {ds : List Deed}
    {crash : Option String} (h : Plays (p.rounds m left run completed failed) ds (.done crash))
    (es : List Deed) :
    p.endsFrom m left run completed failed (ds ++ es) =
      p.endsFrom m left run completed failed ds := by
  induction left generalizing run completed failed ds with
  | zero => rfl
  | succ left ih =>
    rw [rounds_succ] at h
    obtain ⟨ds₁, _, e, rfl, h₁, h'⟩ := h.of_bind_done
    obtain ⟨ds₂, ds₃, _, rfl, h₂, h₃⟩ := Plays.of_bind_done h'
    rw [List.append_assoc, List.append_assoc, endsFrom_succ h₁ h₂, endsFrom_succ h₁ h₂]
    cases e with
    | completed => exact congrArg _ (ih h₃)
    | failed action cause => exact congrArg _ (ih h₃)
    | crashed message => rfl

/-! ## The whole worker -/

theorem enter_aside : p.enter.Keeps (.plain Aside) (fun _ _ => True) () := by
  refine ⟨trivial, fun _ _ => ⟨trivial, fun start _ => ⟨trivial, fun a _ => ?_⟩⟩⟩
  match a with
  | .error f => exact ⟨trivial, fun _ _ => trivial⟩
  | .ok h => exact ⟨trivial, fun _ _ => ⟨trivial, fun _ _ => trivial⟩⟩

/-- Entering publishes nothing. -/
theorem published_enter {ds : List Deed} {q : Proc (Except Fault Handle)}
    (h : Plays p.enter ds q) : published ds = [] :=
  published_eq_nil fun d hd => (h.forall_effect enter_aside d hd).silent

/-- Entering asks for the map once, and the answer is its result. -/
theorem acquisitions_enter {ds : List Deed} {a : Except Fault Handle}
    (h : Plays p.enter ds (.done a)) : acquisitions ds = [a] := by
  -- A message, a look at the clock and the request come first; the rest depends on the answer.
  cases h with
  | cons hclock =>
    cases hclock with
    | cons hask =>
      cases hask with
      | @cons _ _ b _ _ htail =>
        match b with
        | .error f =>
          cases htail with
          | cons hend => cases hend; rfl
        | .ok m =>
          cases htail with
          | cons htell =>
            cases htell with
            | cons hend => cases hend; rfl

theorem acquisitions_rounds {m : Handle} {left run completed failed : Nat} {ds : List Deed}
    {q : Proc (Option String)} (h : Plays (p.rounds m left run completed failed) ds q) :
    acquisitions ds = [] :=
  acquisitions_eq_nil fun d hd =>
    (h.forall_effect ((rounds_routine left run completed failed).keeps_plain m) d hd).settled

/-- A worker that leaves asks for no map, and it ends as its rounds did. -/
theorem leave_aside (m : Handle) (crash : Option String) :
    (p.leave m crash).Keeps (.plain fun e => Aside e ∧ Settled e) (fun _ r => r = crash) () := by
  refine ⟨⟨trivial, trivial⟩, fun a _ => ?_⟩
  match a with
  | .ok () => rfl
  | .error f => exact ⟨⟨trivial, trivial⟩, fun _ _ => rfl⟩

theorem ends_of_enter {ds₁ : List Deed} {m : Handle} (h : Plays p.enter ds₁ (.done (.ok m)))
    (ds : List Deed) : p.ends (ds₁ ++ ds) = p.endsFrom m p.config.plan.numRuns.toNat 0 0 0 ds := by
  rw [ends, h.replay_append, replay_done]

theorem ends_length_le (ds : List Deed) : (p.ends ds).length ≤ p.config.plan.numRuns.toNat := by
  unfold ends
  split
  · exact endsFrom_length_le _ _ _ _ _ _
  · exact Nat.zero_le _

/-- What a worker published is the tally of its rounds' ends so far, of which the last may not be
    accounted for yet.  All rounds are accounted for when a worker that got its map has ended
    without a crash, and none is for a worker that got no map. -/
theorem accounted_of_plays {ds : List Deed} {q : Proc (Option String)} (h : Plays p.work ds q) :
    ∃ n, p.Accounted 0 0 (published ds) (p.ends ds) n ∧
      (q = .done none → (∃ m, .ok m ∈ acquisitions ds) → n = p.config.plan.numRuns.toNat) ∧
      ((∀ m, .ok m ∉ acquisitions ds) → n = 0) := by
  rcases plays_work_cases h with ⟨e, k, h₁, rfl⟩ | ⟨f, h₁, rfl⟩ |
    ⟨ds₁, ds₂, m, e, k, rfl, h₁, h₂, rfl⟩ | ⟨ds₁, ds₂, ds₃, m, crash, rfl, h₁, h₂, h₃⟩
  · rw [published_enter h₁]
    exact ⟨0, accounted_nil _ _ _, nofun, fun _ => rfl⟩
  · rw [published_enter h₁, acquisitions_enter h₁]
    exact ⟨0, accounted_nil _ _ _, by simp, fun _ => rfl⟩
  · obtain ⟨n, hn, _⟩ := accounted_of_rounds h₂
    rw [published_append, published_enter h₁, List.nil_append, ends_of_enter h₁,
      acquisitions_append, acquisitions_enter h₁, acquisitions_rounds h₂]
    exact ⟨n, hn, nofun, by simp⟩
  · obtain ⟨n, hn, hleft⟩ := accounted_of_rounds h₂
    have hquiet := h₃.forall_effect (leave_aside m crash)
    rw [published_append, published_append, published_enter h₁,
      published_eq_nil fun d hd => (hquiet d hd).1.silent, List.nil_append, List.append_nil,
      ends_of_enter h₁, endsFrom_append h₂, acquisitions_append, acquisitions_append,
      acquisitions_enter h₁, acquisitions_rounds h₂,
      acquisitions_eq_nil fun d hd => (hquiet d hd).2]
    refine ⟨n, hn, fun hq _ => hleft ?_, by simp⟩
    subst hq
    have hcrash : none = crash := h₃.result (Terms.plain_grants _ _ _) (leave_aside m crash)
    rw [← hcrash]

end Partition

end GridBench
