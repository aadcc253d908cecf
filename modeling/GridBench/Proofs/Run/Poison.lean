/-
  GridBench.Proofs.Run.Poison

  A value that fails the check, under the key of an element.  A worker never
  writes where something is, so it does not repair the value; whatever a read of
  it is answered, the read is no good, so every round fails while it reads, and
  none comes to removing (`work_poisoned`).  Neither a call that misbehaves nor
  a cancellation can hide it (`poisoned_call`).  Hence no worker ever does away
  with the value, nor with anything else in the map (`Sickened.stays`).  Main
  statement: `poison_stays`.
-/
import GridBench.Proofs.Run.Stored
import GridBench.Proofs.Run.Tolls

namespace GridBench

namespace Partition

open Proc

/-! ## Terms of a worker whose map is poisoned -/

/-- The terms of a worker whose map has something bad under a key.  It removes nothing and
    publishes failures only.  It reckons with the key being there, or with no answer, and with reads
    of it that are no good. -/
def poisoned (p : Partition) (key : String) : Terms Unit where
  may _
    | .ask (.call _ (.remove _)) _ => False
    | .publish u => ∃ n : Nat, u = .update (failedKey p.number) (.ofNat n)
    | _ => True
  admits _
    | ⟨.ask (.call _ (.containsKey k)) _, .ok present⟩ => k = key → present = true
    | ⟨.ask (.call _ (.get k)) _, .ok a⟩ => k = key → ∀ v, a = some v →
      (p.config.check v).isOk = false
    | _ => True
  after _ _ := ()

variable {p : Partition} {key : String}

theorem rest_poisoned (s : SleepPolicy) :
    (rest s).Keeps (p.poisoned key) (fun _ _ => True) () := by
  unfold rest
  split
  · exact ⟨trivial, fun _ _ => ⟨trivial, fun _ _ => ⟨trivial, fun _ _ => trivial⟩⟩⟩
  · trivial

theorem announce_poisoned (run : Nat) :
    (p.announce run).Keeps (p.poisoned key) (fun _ _ => True) () := by
  unfold announce
  split
  · exact ⟨trivial, fun _ _ => ⟨trivial, fun _ _ => trivial⟩⟩
  · exact ⟨trivial, fun _ _ => trivial⟩

/-- A call that fails ends the action, and so does one whose answer is no good. -/
theorem call_poisoned {α : Type} {h : Handle} {c : MapCall} {G : c.Answer → Attempt α}
    {Q : Except Trouble α → Prop} (hmay : (p.poisoned key).may () (.ask (.call h c) none))
    (hfailed : ∀ f, Q (.error (.failed f)))
    (hG : ∀ a, (p.poisoned key).admits () ⟨.ask (.call h c) none, .ok a⟩ →
      (G a).run.Keeps (p.poisoned key) (fun _ => Q) ()) :
    (Attempt.call h c >>= G).run.Keeps (p.poisoned key) (fun _ => Q) () :=
  call_keeps hmay (fun f _ => hfailed f) hG

/-- How an action ends that does not crash. -/
def Uncrashed {α : Type} (r : Except Trouble α) : Prop :=
  ∀ message, r ≠ .error (.crashed message)

theorem uncrashed_ok {α : Type} (a : α) : Uncrashed (.ok a) := by
  intro message h
  cases h

theorem uncrashed_failed {α : Type} (f : Fault) : @Uncrashed α (.error (.failed f)) := by
  intro message h
  cases h

theorem ingest_poisoned (h : Handle) (is : List (String × Json)) (n : Nat) :
    (p.ingest h (listed is) n).run.Keeps (p.poisoned key) (fun _ => Uncrashed) () := by
  induction is generalizing n with
  | nil =>
    simp only [listed, List.map_nil, ingest]
    exact ⟨trivial, fun _ _ => uncrashed_ok n⟩
  | cons i is ih =>
    simp only [listed, List.map_cons, ingest, key_item, pure_bind]
    refine call_poisoned trivial uncrashed_failed fun present _ => ?_
    split
    · exact ih n
    · simp only [ofExcept_ok, pure_bind]
      exact call_poisoned trivial uncrashed_failed fun _ _ => ih (n + 1)

/-- Reading back fails at the latest where it comes to the key. -/
theorem readAll_poisoned (h : Handle) {is : List (String × Json)} {i : String × Json} (hi : i ∈ is)
    (hkey : p.place i = key) :
    (p.readAll h (listed is)).run.Keeps (p.poisoned key) (fun _ r => ∃ f, r = .error (.failed f))
      () := by
  induction is with
  | nil => cases hi
  | cons j is ih =>
    simp only [listed, List.map_cons, readAll, key_item, pure_bind]
    refine call_poisoned trivial (fun f => ⟨f, rfl⟩) fun answer hanswer => ?_
    cases answer with
    | none => exact ⟨_, rfl⟩
    | some v =>
      cases hcheck : p.config.check v with
      | error f =>
        simp only [hcheck]
        exact ⟨f, rfl⟩
      | ok _ =>
        simp only [hcheck, ofExcept_ok, pure_bind]
        -- What passes the check was not read under the key.
        refine ih ((List.mem_cons.mp hi).resolve_left fun hij => ?_)
        have hbad := hanswer (hij ▸ hkey) v rfl
        rw [hcheck] at hbad
        cases hbad

variable {items : List (String × Json)} {i : String × Json}

theorem round_poisoned (helements : p.config.elements = listed items) (hi : i ∈ items)
    (hkey : p.place i = key) (h : Handle) :
    (p.round h).Keeps (p.poisoned key) (fun _ e => ∃ action f, e = .failed action f) () := by
  rw [round, ingestAll, helements]
  refine attempt_keeps (ingest_poisoned h items 0) (fun _ f _ => ⟨_, f, rfl⟩) ?_ fun _ _ _ => ?_
  · intro _ message huncrashed
    exact absurd rfl (huncrashed message)
  · refine (rest_poisoned _).bind fun _ _ _ => ?_
    refine (readAll_poisoned h hi hkey).bind fun _ r hr => ?_
    obtain ⟨f, rfl⟩ := hr
    exact ⟨_, f, rfl⟩

theorem iteration_poisoned (helements : p.config.elements = listed items) (hi : i ∈ items)
    (hkey : p.place i = key) (h : Handle) (run : Nat) :
    (p.iteration h run).Keeps (p.poisoned key) (fun _ e => ∃ action f, e = .failed action f) () :=
  (rest_poisoned _).bind fun _ _ _ => (announce_poisoned run).bind fun _ _ _ =>
    round_poisoned helements hi hkey h

theorem rounds_poisoned (helements : p.config.elements = listed items) (hi : i ∈ items)
    (hkey : p.place i = key) (h : Handle) (left run completed failed : Nat) :
    (p.rounds h left run completed failed).Keeps (p.poisoned key) (fun _ r => r = none) () := by
  induction left generalizing run completed failed with
  | zero =>
    rw [rounds]
    exact ⟨trivial, fun _ _ => rfl⟩
  | succ left ih =>
    rw [rounds_succ]
    refine (iteration_poisoned helements hi hkey h run).bind fun _ e he => ?_
    obtain ⟨action, f, rfl⟩ := he
    exact ⟨trivial, fun _ _ => ⟨⟨_, rfl⟩, fun _ _ => ih _ _ _⟩⟩

/-- A worker whose map is poisoned removes nothing, publishes failures only, and does not crash. -/
theorem work_poisoned (helements : p.config.elements = listed items) (hi : i ∈ items)
    (hkey : p.place i = key) :
    p.work.Keeps (p.poisoned key) (fun _ r => r = none) () := by
  rw [work_eq]
  have henter : p.enter.Keeps (p.poisoned key) (fun _ _ => True) () := by
    refine ⟨trivial, fun _ _ => ⟨trivial, fun start _ => ⟨trivial, fun a _ => ?_⟩⟩⟩
    match a with
    | .error f => exact ⟨trivial, fun _ _ => trivial⟩
    | .ok h => exact ⟨trivial, fun _ _ => ⟨trivial, fun _ _ => trivial⟩⟩
  refine henter.bind fun _ a _ => ?_
  match a with
  | .error f => exact rfl
  | .ok h =>
    refine (rounds_poisoned helements hi hkey h _ 0 0 0).bind fun _ crash hcrash => ?_
    refine ⟨trivial, fun a _ => ?_⟩
    match a with
    | .ok () => exact hcrash
    | .error f => exact ⟨trivial, fun _ _ => hcrash⟩

/-! ## The rounds that have ended -/

variable {m : Handle} {ds : List Deed}

/-- What all rounds end with under some terms without a state, the rounds in a diary ended with. -/
theorem forall_mem_endsFrom {c : Terms Unit} {P : RoundEnd → Prop} {left run completed failed : Nat}
    {q : Proc (Option String)}
    (hround : ∀ run, (p.iteration m run).Keeps c (fun _ e => P e) ())
    (hplays : Plays (p.rounds m left run completed failed) ds q) (hgrants : c.Grants () ds) :
    ∀ e ∈ p.endsFrom m left run completed failed ds, P e := by
  induction left generalizing run completed failed ds with
  | zero => exact fun e he => absurd he List.not_mem_nil
  | succ left ih =>
    rw [rounds_succ] at hplays
    rcases hplays.of_bind with ⟨e, k, h₁, -⟩ | ⟨ds₁, ds', e, rfl, h₁, h'⟩
    -- The first round is under way.
    · have hnone := h₁.replay_append []
      rw [List.append_nil] at hnone
      rw [endsFrom, hnone]
      exact fun e he => absurd he List.not_mem_nil
    · obtain ⟨hgrants₁, hgrants'⟩ := (Terms.grants_append _ _ _ _).mp hgrants
      have he : P e := h₁.result hgrants₁ (hround run)
      rcases Plays.of_bind h' with ⟨e', k, h₂, -⟩ | ⟨ds₂, ds₃, _, rfl, h₂, h₃⟩
      -- Its end is not accounted for yet.
      · have hnone := h₂.replay_append []
        rw [List.append_nil] at hnone
        rw [endsFrom, h₁.replay_append, replay_done]
        simp only [hnone]
        exact fun e' he' => List.mem_singleton.mp he' ▸ he
      · rw [endsFrom_succ h₁ h₂]
        refine List.forall_mem_cons.mpr ⟨he, ?_⟩
        have hgrants₃ := ((Terms.grants_append _ _ _ _).mp hgrants').2
        cases e with
        | completed => exact ih h₃ hgrants₃
        | failed action cause => exact ih h₃ hgrants₃
        | crashed message => exact fun e he => absurd he List.not_mem_nil

/-- The same of a whole worker. -/
theorem forall_mem_ends {c : Terms Unit} {P : RoundEnd → Prop} {q : Proc (Option String)}
    (hround : ∀ m run, (p.iteration m run).Keeps c (fun _ e => P e) ())
    (hplays : Plays p.work ds q) (hgrants : c.Grants () ds) : ∀ e ∈ p.ends ds, P e := by
  have hnone : ∀ a : Proc (Except Fault Handle), Plays p.enter ds a →
      (∀ h, a ≠ .done (.ok h)) → p.ends ds = [] := by
    intro a ha hnot
    have hreplay := ha.replay_append []
    rw [List.append_nil] at hreplay
    rw [ends, hreplay]
    rcases a with (_ | h) | _
    · rfl
    · exact absurd rfl (hnot h)
    · rfl
  rcases plays_work_cases hplays with ⟨e, k, h₁, -⟩ | ⟨f, h₁, -⟩ |
    ⟨ds₁, ds₂, m, e, k, rfl, h₁, h₂, -⟩ | ⟨ds₁, ds₂, ds₃, m, crash, rfl, h₁, h₂, h₃⟩
  · rw [hnone _ h₁ fun _ h => by cases h]
    exact fun e he => absurd he List.not_mem_nil
  · rw [hnone _ h₁ fun _ h => by cases h]
    exact fun e he => absurd he List.not_mem_nil
  · rw [ends_of_enter h₁]
    exact forall_mem_endsFrom (hround m) h₂ ((Terms.grants_append _ _ _ _).mp hgrants).2
  · rw [ends_of_enter h₁, endsFrom_append h₂]
    have hgrants' := ((Terms.grants_append _ _ _ _).mp hgrants).2
    exact forall_mem_endsFrom (hround m) h₂ ((Terms.grants_append _ _ _ _).mp hgrants').1

/-! ## Nothing is taken away -/

/-- What is there stays under the deeds of a worker that removes none of it. -/
theorem value_stays {t : Entries} {q q' : Proc (Option String)} {k : String} {v : Json}
    (hplays : Plays q ds q') (hkeeps : q.Keeps p.custody (fun _ _ => True) t)
    (hgrants : p.custody.Grants t ds) (hnone : ∀ d ∈ ds, ¬ d.Removes k) (hv : t[k]? = some v) :
    (p.custody.afterAll t ds)[k]? = some v := by
  induction hplays generalizing t with
  | nil q => exact hv
  | @cons f k' r ds q' _ ih =>
    refine ih (hkeeps.2 r hgrants.1) hgrants.2 (fun d hd => hnone d (List.mem_cons_of_mem _ hd)) ?_
    have hkept := hnone _ List.mem_cons_self
    cases treated_of_may (d := ⟨f, r⟩) hkeeps.1 k with
    | kept _ heq => rwa [heq]
    | written _ _ _ _ _ habsent _ => cases habsent.symm.trans hv
    | removed _ hremoves _ _ _ => exact absurd hremoves hkept

end Partition

/-! ## A poisoned map in a run -/

namespace MemoryStore

variable {s : MemoryStore} {p : Partition} {key : String} {v : Json}

/-- No call brings a good answer about the key, whatever is set to go wrong. -/
theorem poisoned_call (hbad : (p.config.check v).isOk = false)
    (htells : (p.config.check corrupted).isOk = false) {h : Handle}
    (hv : (s.entries h.map)[key]? = some v) (c : MapCall) (withinMs : Option Nat) :
    (p.poisoned key).admits () ⟨.ask (.call h c) withinMs, (s.call h c).1⟩ := by
  cases hgone : s.isReleased h with
  | true =>
    obtain ⟨⟨f, hfailed⟩, -⟩ := call_refused hgone c
    rw [hfailed]
    cases c <;> trivial
  | false =>
    rcases call_met hgone c with hcall | hcall
    · rw [hcall.answer]
      cases c with
      | containsKey k =>
        rintro rfl
        show (s.entries h.map).contains k = true
        rw [Std.ExtTreeMap.contains_eq_isSome_getElem?, hv]
        rfl
      | get k =>
        rintro rfl u hu
        have hsame : some v = some u := hv.symm.trans hu
        exact Option.some.inj hsame ▸ hbad
      | set _ _ | remove _ => trivial
    · have hanswer := hcall.answer
      generalize (s.call h c).1 = a at hanswer
      cases hanswer with
      | evicted k => exact fun _ u hu => by cases hu
      | corrupted k =>
        rintro - u hu
        exact Option.some.inj hu ▸ htells
      | rejected => trivial

end MemoryStore

namespace Watched

variable {config : LoopConfig} {S : Outside MemoryStore} {s₀ : MemoryStore}
variable {s s' : Watched MemoryStore} {w : World MemoryStore}
variable {p : Nat} {key : String} {v : Json} {items : List (String × Json)} {i : String × Json}

/-- What is asked of a run one of whose maps is poisoned: its elements can be computed, and one of
    them has in the map of partition `p` a value under its key that fails the check, as what is
    corrupted does. -/
structure Poisoning (config : LoopConfig) (items : List (String × Json)) (s₀ : MemoryStore)
    (p : Nat) (i : String × Json) (v : Json) : Prop where
  elements : config.elements = Partition.listed items
  mem : i ∈ items
  value : (s₀.entries (teamOf config p).mapName)[(teamOf config p).place i]? = some v
  bad : (config.check v).isOk = false
  tells : (config.check MemoryStore.corrupted).isOk = false

/-- What holds of such a run at any time. -/
structure Sickened (config : LoopConfig) (s₀ : MemoryStore) (p : Nat) (key : String)
    (s : Watched MemoryStore) : Prop where
  stored : s.Stored config s₀
  grants : ((teamOf config p).poisoned key).Grants () (s.diary p)

theorem Poisoning.keeps (h : Poisoning config items s₀ p i v) :
    (teamOf config p).work.Keeps ((teamOf config p).poisoned ((teamOf config p).place i))
      (fun _ r => r = none) () :=
  Partition.work_poisoned h.elements h.mem rfl

theorem Poisoning.owns (h : Poisoning config items s₀ p i v) :
    (teamOf config p).Owns ((teamOf config p).place i) :=
  (Partition.owns_iff h.elements).mpr ⟨i, h.mem, rfl⟩

theorem sickened_start : Sickened config w.grid p key (start config w) :=
  ⟨stored_start, trivial⟩

/-- The worker of a poisoned map removes nothing. -/
theorem Sickened.not_removes (h : Sickened config s₀ p ((teamOf config p).place i) s)
    (hpoison : Poisoning config items s₀ p i v) (k : String) :
    ∀ d ∈ s.diary p, ¬ d.Removes k := by
  intro d hd hremoves
  obtain ⟨_, hplays⟩ := h.stored.plays p
  obtain ⟨m, withinMs, _, rfl⟩ := hremoves.eq
  exact hplays.forall_may (P := (((teamOf config p).poisoned ((teamOf config p).place i)).may ()))
    (fun _ _ hmay => hmay) h.grants hpoison.keeps _ hd

/-- What is there in a poisoned map stays. -/
theorem Sickened.stays (h : Sickened config s₀ p ((teamOf config p).place i) s)
    (h' : Sickened config s₀ p ((teamOf config p).place i) s')
    (hpoison : Poisoning config items s₀ p i v) (hs' : Reaches MemoryStore.grid S s s')
    {k : String} {u : Json} (hk : (teamOf config p).Owns k)
    (hu : (s.world.grid.entries (teamOf config p).mapName)[k]? = some u) :
    (s'.world.grid.entries (teamOf config p).mapName)[k]? = some u := by
  obtain ⟨ds, hds⟩ := diary_of_reaches hs' p
  obtain ⟨_, hplays⟩ := h'.stored.plays p
  have hgrants := (h'.stored.cared p).grants
  have hnone := h'.not_removes hpoison k
  rw [(h.stored.cared p).agree k hk] at hu
  rw [(h'.stored.cared p).agree k hk]
  rw [hds] at hplays hgrants hnone ⊢
  obtain ⟨r, hr, hrest⟩ := hplays.of_append
  obtain ⟨hgrants₁, hgrants₂⟩ := (Terms.grants_append _ _ _ _).mp hgrants
  have hkeeps := hr.keeps hgrants₁ (Partition.work_custody _)
  rw [Partition.ledger_append]
  exact Partition.value_stays hrest hkeeps hgrants₂
    (fun d hd => hnone d (List.mem_append_right _ hd)) hu

/-- The poison is still there. -/
theorem Sickened.value (h : Sickened config s₀ p ((teamOf config p).place i) s)
    (hpoison : Poisoning config items s₀ p i v) :
    (s.world.grid.entries (teamOf config p).mapName)[(teamOf config p).place i]? = some v := by
  obtain ⟨_, hplays⟩ := h.stored.plays p
  rw [(h.stored.cared p).agree _ hpoison.owns]
  exact Partition.value_stays hplays (Partition.work_custody _) (h.stored.cared p).grants
    (h.not_removes hpoison _) hpoison.value

/-- The answers that a move of the worker brings are those it reckons with. -/
theorem Sickened.grants_move (h : Sickened config s₀ p ((teamOf config p).place i) s)
    (hpoison : Poisoning config items s₀ p i v) {t t' : Worker} {w' : World MemoryStore}
    {es : List Deed} (hplays : Proc.Plays (teamOf config p).work (s.diary p) t.program)
    (hmove : t.Move MemoryStore.grid s.world w' t' es) :
    ((teamOf config p).poisoned ((teamOf config p).place i)).Grants () es := by
  have hfailed : ∀ (r : Request) withinMs (f : Fault),
      ((teamOf config p).poisoned ((teamOf config p).place i)).admits ()
        ⟨.ask r withinMs, .error f⟩ := fun r _ _ => by
    match r with
    | .acquire _ | .release _ => trivial
    | .call _ (.containsKey _) | .call _ (.get _) | .call _ (.set _ _) | .call _ (.remove _) =>
      trivial
  cases hmove with
  | sent | woken => trivial
  | paused | clocked | logged | published | picked => exact ⟨trivial, trivial⟩
  | refused | abandoned | late => exact ⟨hfailed _ _ _, trivial⟩
  | @answered r f k _ =>
    match r with
    | .acquire _ | .release _ => exact ⟨trivial, trivial⟩
    | .call hd c =>
      obtain ⟨hheld, -⟩ := Partition.may_of_plays_work hplays
      have hmap := (h.stored.cared p).held hd hheld
      have hv := h.value hpoison
      rw [← hmap] at hv
      have hadmits := MemoryStore.poisoned_call (p := teamOf config p) hpoison.bad hpoison.tells hv
        c f.withinMs
      exact ⟨hadmits, trivial⟩

/-- What one step preserves. -/
theorem Sickened.step (hS : S.SparesEntries)
    (h : Sickened config s₀ p ((teamOf config p).place i) s)
    (hpoison : Poisoning config items s₀ p i v) (hstep : Step MemoryStore.grid S s s') :
    Sickened config s₀ p ((teamOf config p).place i) s' := by
  refine ⟨h.stored.step hS hstep, ?_⟩
  cases hstep with
  | stir _ | panic _ _ _ => exact h.grants
  | @move task _ hmove =>
    by_cases htask : ∃ q, task = .worker q
    · obtain ⟨q, rfl⟩ := htask
      obtain ⟨t, t', us, ht, hstep, -, -, -, hdiary⟩ := step?_of_advance hmove
      rw [hdiary]
      by_cases hq : p = q
      · subst hq
        rw [note_diary_self]
        cases hcalm : s.panicked p with
        | true => exact h.grants
        | false =>
          obtain ⟨program, hplays, hprogram⟩ := (h.stored.sound.engaged p t ht).plays
          rw [partition, h.stored.sound.config_eq, ← hprogram hcalm] at hplays
          have hmoves := (Worker.move_of_step? hstep).1
          exact (Terms.grants_append _ _ _ _).mpr
            ⟨h.grants, h.grants_move hpoison hplays hmoves⟩
      · rw [note_diary_other hq]
        exact h.grants
    · obtain ⟨-, hdiary, -⟩ := h.stored.sound.aside_of_advance hmove fun q hq => htask ⟨q, hq⟩
      rw [hdiary]
      exact h.grants

/-- What a whole run preserves. -/
theorem Sickened.reaches (hS : S.SparesEntries)
    (h : Sickened config s₀ p ((teamOf config p).place i) s)
    (hpoison : Poisoning config items s₀ p i v) (hs : Reaches MemoryStore.grid S s s') :
    Sickened config s₀ p ((teamOf config p).place i) s' := by
  induction hs with
  | refl => exact h
  | tail _ hstep ih => exact ih.step hS hpoison hstep

/-- Every round that has ended has failed. -/
theorem Sickened.failed (h : Sickened config s₀ p ((teamOf config p).place i) s)
    (hpoison : Poisoning config items s₀ p i v) :
    ∀ e ∈ s.ends p, ∃ action cause, e = .failed action cause := by
  obtain ⟨_, hplays⟩ := h.stored.plays p
  have hends : s.ends p = (teamOf config p).ends (s.diary p) := by
    rw [ends, partition, h.stored.sound.config_eq]
  rw [hends]
  exact Partition.forall_mem_ends
    (fun m run => Partition.iteration_poisoned hpoison.elements hpoison.mem rfl m run) hplays
    h.grants

/-- No completed round is ever counted. -/
theorem Sickened.table (h : Sickened config s₀ p ((teamOf config p).place i) s)
    (hpoison : Poisoning config items s₀ p i v) :
    s.run.gatherer.table[completedKey p]? = none ∧ s.completed p = 0 := by
  obtain ⟨m, hm, -⟩ := h.stored.sound.applied_filter p
  obtain ⟨hcompleted, -⟩ := h.stored.sound.shows_counts hm
  have hnone : ((s.ends p).take m).countP RoundEnd.isCompleted = 0 := by
    refine List.countP_eq_zero.mpr fun e he hcompleted => ?_
    obtain ⟨action, cause, rfl⟩ := h.failed hpoison e (List.mem_of_mem_take he)
    cases hcompleted
  rw [hnone] at hcompleted
  exact ⟨hcompleted, hcompleted.count_eq⟩

/-- The worker of a poisoned map does not crash, unless it panics. -/
theorem Sickened.uncrashed (h : Sickened config s₀ p ((teamOf config p).place i) s)
    (hpoison : Poisoning config items s₀ p i v) (hcalm : s.panicked p = false) {t : Worker}
    (ht : s.run.workers[p]? = some t) : t.crash? = none := by
  obtain ⟨q, hplays, hprogram⟩ := (h.stored.sound.engaged p t ht).plays
  rw [partition, h.stored.sound.config_eq, ← hprogram hcalm] at hplays
  rcases t with (crash | _) | _ | _
  · exact hplays.result h.grants hpoison.keeps
  all_goals rfl

/-- A poisoned entry is never repaired and never masked.  For any load elements, any store that
    holds under the key of one of them a value that fails the check, whatever else it holds and
    whichever calls are set to misbehave, whenever the run is cancelled, and for any draws and any
    order of the steps: the value stays, every round of its partition that has ended has failed, and
    none is counted as completed; nothing of the partition is removed, and what is there stays.  If
    the partition was given its map and its worker does not panic, all its rounds have failed when
    the run has finished.  And the run finishes. -/
theorem poison_stays {es : List LoadElement} {e : LoadElement}
    (helements : config.elements = es.map LoadElement.element)
    (hcheck : config.check = LoadElement.shape.check) (he : e ∈ es)
    (hbad : (LoadElement.shape.check v).isOk = false)
    (hv : (w.grid.entries (teamOf config p).mapName)[storageKey config.client p e.key]? = some v)
    (hS : S.SparesEntries) (hs : Reaches MemoryStore.grid S (start config w) s) :
    (s.world.grid.entries (teamOf config p).mapName)[storageKey config.client p e.key]? = some v ∧
    (∀ roundEnd ∈ s.ends p, ∃ action cause, roundEnd = .failed action cause) ∧
    s.run.gatherer.table[completedKey p]? = none ∧
    (∀ k, (teamOf config p).Owns k → ¬ s.Removed k ∧
      ∀ u s', (s.world.grid.entries (teamOf config p).mapName)[k]? = some u →
        Reaches MemoryStore.grid S s s' →
        (s'.world.grid.entries (teamOf config p).mapName)[k]? = some u) ∧
    (s.run.phase = .finished → s.Acquired p → s.panicked p = false →
      s.failed p = config.plan.numRuns.toNat ∧
        s.run.gatherer.table.Shows (failedKey p) config.plan.numRuns.toNat) ∧
    Inevitable (Moves MemoryStore.grid S) (fun s => s.run.phase = .finished) s := by
  have hpoison : Poisoning config (es.map LoadElement.item) w.grid p e.item v := {
    elements := helements.trans (LoadElement.map_element es)
    mem := List.mem_map_of_mem he
    value := hv
    bad := hcheck ▸ hbad
    tells := hcheck ▸ LoadElement.check_corrupted }
  have h := sickened_start.reaches hS hpoison hs
  refine ⟨h.value hpoison, h.failed hpoison, (h.table hpoison).1, fun k hk => ⟨fun hremoved => ?_,
    fun u s' hu hs' => h.stays (h.reaches hS hpoison hs') hpoison hs' hk hu⟩,
    fun hphase hmap hcalm => ?_, h.stored.sound.inevitable_finished.mono fun _ hs => hs.1⟩
  · obtain ⟨d, hd, hremoves⟩ := h.stored.removes hk hremoved
    exact h.not_removes hpoison k d hd hremoves
  · have hsum := h.stored.sound.counts_complete hphase hmap fun t ht =>
      h.uncrashed hpoison hcalm ht
    have hfailed : s.failed p = config.plan.numRuns.toNat := by
      rw [← hsum, (h.table hpoison).2, Nat.zero_add]
    refine ⟨hfailed, ?_⟩
    obtain ⟨m, hm, -⟩ := h.stored.sound.applied_filter p
    have hshows := (h.stored.sound.shows_counts hm).2.shows_count
    rwa [show s.run.gatherer.table.count (failedKey p) = s.failed p from rfl, hfailed] at hshows

/-- In the sample run on a store that holds something else under the key of the first element, this
    stays, and both rounds of the first partition fail. -/
theorem poison_stays_sample :
    ∃ plan s, sampleSettings.resolve "map-tests.load" "load" = .ok plan ∧
      Reaches MemoryStore.grid (.still _)
        (start (sampleConfig plan) { grid := strewnStore (sampleConfig plan) }) s ∧
      s.run.phase = .finished ∧
      (s.world.grid.entries (teamOf (sampleConfig plan) 0).mapName)[storageKey ⟨"client"⟩ 0
        "0"]? = some (.text "old") ∧
      s.run.gatherer.table[completedKey 0]? = none ∧ s.failed 0 = 2 := by
  obtain ⟨plan, hplan⟩ := exists_samplePlan
  have hmaps : 0 < (sampleConfig plan).plan.numMaps.toNat := by
    cases hplan
    decide
  have hruns : (sampleConfig plan).plan.numRuns.toNat = 2 := by
    cases hplan
    rfl
  have helements : (sampleConfig plan).elements =
      [⟨"0", "x"⟩, ⟨"1", "x"⟩].map LoadElement.element := rfl
  have hcalm : (strewnStore (sampleConfig plan)).Calm := rfl
  have htidy : (strewnStore (sampleConfig plan)).Tidy := fun n hn => by cases hn
  have hstart : Undisturbed (sampleConfig plan) (strewnStore (sampleConfig plan))
      (start (sampleConfig plan) { grid := strewnStore (sampleConfig plan) }) :=
    @undisturbed_start (sampleConfig plan) { grid := strewnStore (sampleConfig plan) } hcalm htidy
      rfl
  obtain ⟨s, hreaches, hphase⟩ := exists_finished MemoryStore.grid (.still _) (sampleConfig plan)
    { grid := strewnStore (sampleConfig plan) }
  have hs := hstart.reaches (apart_teamOf rfl) hreaches
  have hvalue : ((strewnStore (sampleConfig plan)).entries
      (teamOf (sampleConfig plan) 0).mapName)[storageKey ⟨"client"⟩ 0 "0"]? =
        some (.text "old") := by
    rw [strewnStore, MemoryStore.entries_withEntries, if_pos rfl]
    exact Std.ExtTreeMap.getElem?_insert_self
  have hspares : (Outside.still MemoryStore).SparesEntries := by
    rintro w _ ⟨moment, rfl⟩ map
    rfl
  obtain ⟨hstays, -, hnone, -, hlast, -⟩ := @poison_stays (sampleConfig plan) (.still _) s
    { grid := strewnStore (sampleConfig plan) } 0 (.text "old") _ ⟨"0", "x"⟩ helements rfl
    List.mem_cons_self rfl hvalue hspares hreaches
  have hfailed := (hlast hphase (hs.acquired hphase hmaps) (hs.unpanicked 0)).1
  exact ⟨plan, s, hplan, hreaches, hphase, hstays, hnone, hfailed.trans hruns⟩

end Watched

end GridBench
