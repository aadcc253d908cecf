/-
  GridBench.Proofs.Run.Stored

  What a run may do to the data in its store, whatever the store held before,
  whichever calls misbehave, and whenever the run is cancelled.  Each worker can
  tell the entries under its keys by its diary (`Cared`), since nobody else
  touches them, and so all it may do to them is what its terms `custody` say.
  The invariant `Stored` holds this of all workers and of everything that belongs
  to none; every step preserves it (`Stored.step`).  Main statement:
  `stored_data`.
-/
import GridBench.Proofs.Run.Custody
import GridBench.Proofs.Run.Cancellation

namespace GridBench

/-- What happens outside of a run leaves the entries of all maps as they are. -/
def Outside.SparesEntries (S : Outside MemoryStore) : Prop :=
  ∀ w w', S.stirs w w' → ∀ map, w'.grid.entries map = w.grid.entries map

namespace Partition

variable {p q : Partition} {e₀ : Entries} {s s' : MemoryStore} {w w' : World MemoryStore}
variable {t t' : Worker} {ds es : List Deed}

/-- The entries of the partition's map as its worker can tell them after a diary. -/
def ledger (p : Partition) (e₀ : Entries) (ds : List Deed) : Entries := p.custody.afterAll e₀ ds

theorem ledger_append (ds es : List Deed) :
    p.ledger e₀ (ds ++ es) = p.custody.afterAll (p.ledger e₀ ds) es :=
  Terms.afterAll_append _ _ _ _

/-- The store holds under the keys of a partition what its worker can tell, where `e₀` were the
    entries of its map at the start, and the worker's handle is one to this map. -/
structure Cared (p : Partition) (e₀ : Entries) (s : MemoryStore) (ds : List Deed) : Prop where
  agree : ∀ key, p.Owns key → (s.entries p.mapName)[key]? = (p.ledger e₀ ds)[key]?
  grants : p.custody.Grants e₀ ds
  held : ∀ h, (p.hand ds).held = some h → h.map = p.mapName

/-- A store in which nothing has changed but under the keys of a partition. -/
def Local (p : Partition) (s s' : MemoryStore) : Prop :=
  ∀ map key, ¬ (map = p.mapName ∧ p.Owns key) → (s'.entries map)[key]? = (s.entries map)[key]?

theorem Cared.contains_eq (h : p.Cared e₀ s ds) {key : String} (hkey : p.Owns key) :
    (s.entries p.mapName).contains key = (p.ledger e₀ ds).contains key := by
  rw [Std.ExtTreeMap.contains_eq_isSome_getElem?, Std.ExtTreeMap.contains_eq_isSome_getElem?,
    h.agree key hkey]

theorem cared_start : p.Cared (s.entries p.mapName) s [] where
  agree _ _ := rfl
  grants := trivial
  held _ hh := by cases hh

/-- A worker learns nothing from a request that fails. -/
theorem custody_failed (x : Entries) (ds : List Deed) (r : Request) (withinMs : Option Nat)
    (f : Fault) : p.custody.admits x ⟨.ask r withinMs, .error f⟩ ∧
      p.custody.after x ⟨.ask r withinMs, .error f⟩ = x ∧
      (p.hand (ds ++ [⟨.ask r withinMs, .error f⟩])).held = (p.hand ds).held := by
  rw [hand_append]
  match r with
  | .acquire _ | .release _ => exact ⟨trivial, rfl, rfl⟩
  | .call _ (.containsKey _) | .call _ (.get _) | .call _ (.set _ _) | .call _ (.remove _) =>
    exact ⟨trivial, rfl, rfl⟩

/-- Nor does it learn anything from a call that misbehaves. -/
theorem custody_strike {c : MapCall} {a : Except Fault c.Answer} (hstrike : MemoryStore.Strike c a)
    (x : Entries) (h : Handle) (withinMs : Option Nat) :
    p.custody.admits x ⟨.ask (.call h c) withinMs, a⟩ ∧
      p.custody.after x ⟨.ask (.call h c) withinMs, a⟩ = x := by
  refine ⟨?_, (@after_strike p h c withinMs a hstrike x).2⟩
  cases hstrike <;> trivial

/-- A worker can tell the entries of any store that holds the same ones. -/
theorem Cared.congr (h : p.Cared e₀ s ds) (hs : ∀ map, s'.entries map = s.entries map) :
    p.Cared e₀ s' ds where
  agree key hkey := by
    rw [hs]
    exact h.agree key hkey
  grants := h.grants
  held := h.held

/-- A step that changes no entries. -/
theorem Cared.keep (h : p.Cared e₀ s ds) (hs : ∀ map, s'.entries map = s.entries map)
    (hafter : p.custody.afterAll (p.ledger e₀ ds) es = p.ledger e₀ ds)
    (hgrants : p.custody.Grants (p.ledger e₀ ds) es)
    (hheld : (p.hand (ds ++ es)).held = (p.hand ds).held) :
    p.Cared e₀ s' (ds ++ es) ∧ p.Local s s' := by
  refine ⟨⟨fun key hkey => ?_, (Terms.grants_append _ _ _ _).mpr ⟨h.grants, hgrants⟩,
    by rw [hheld]; exact h.held⟩, fun map key _ => by rw [hs]⟩
  rw [hs, ledger_append, hafter]
  exact h.agree key hkey

/-- The answer to a call. -/
theorem Cared.call (h : p.Cared e₀ s ds) {hd : Handle} {c : MapCall} {withinMs : Option Nat}
    {k : Except Fault c.Answer → Proc (Option String)}
    (hplays : Proc.Plays p.work ds (.op (.ask (.call hd c) withinMs) k)) :
    p.Cared e₀ (s.call hd c).2 (ds ++ [⟨.ask (.call hd c) withinMs, (s.call hd c).1⟩]) ∧
      p.Local s (s.call hd c).2 := by
  obtain ⟨hheld, -, -, howns⟩ := may_of_plays_work hplays
  have hmap := h.held hd hheld
  have hhand : p.hand (ds ++ [⟨.ask (.call hd c) withinMs, (s.call hd c).1⟩]) = p.hand ds :=
    hand_append _ _
  cases hgone : s.isReleased hd with
  | true =>
    obtain ⟨⟨f, hfailed⟩, hentries⟩ := MemoryStore.call_refused hgone c
    obtain ⟨hadmits, hafter, -⟩ :=
      custody_failed (p := p) (p.ledger e₀ ds) ds (.call hd c) withinMs f
    rw [hfailed] at hhand ⊢
    exact h.keep hentries hafter ⟨hadmits, trivial⟩ (by rw [hhand])
  | false =>
    rcases MemoryStore.call_met hgone c with hcall | hcall
    -- The call is answered as the worker could tell, so that it can tell the entries behind it.
    · obtain ⟨hanswer, hagree, hothers⟩ := hcall.agree (P := p.Owns) howns (hmap ▸ h.agree)
      rw [hmap] at hagree hothers
      rw [hanswer] at hhand ⊢
      have hadmits : p.custody.admits (p.ledger e₀ ds)
          ⟨.ask (.call hd c) withinMs, .ok (c.apply (p.ledger e₀ ds)).1⟩ := by
        cases c with
        | containsKey key => exact rfl
        | get | set | remove => trivial
      refine ⟨⟨fun key hkey => ?_, (Terms.grants_append _ _ _ _).mpr ⟨h.grants, hadmits, trivial⟩,
        by rw [hhand]; exact h.held⟩, hothers⟩
      rw [ledger_append]
      exact hagree key hkey
    -- A call that misbehaves has no effect, and shows none.
    · obtain ⟨hadmits, hafter⟩ := custody_strike (p := p) hcall.answer (p.ledger e₀ ds) hd withinMs
      exact h.keep hcall.entries hafter ⟨hadmits, trivial⟩ (by rw [hhand])

/-- The answer to the request for the map. -/
theorem Cared.acquire (h : p.Cared e₀ s ds) {m : String} {withinMs : Option Nat}
    {k : Except Fault Handle → Proc (Option String)}
    (hplays : Proc.Plays p.work ds (.op (.ask (.acquire m) withinMs) k)) :
    p.Cared e₀ (s.acquire m).2 (ds ++ [⟨.ask (.acquire m) withinMs, (s.acquire m).1⟩]) ∧
      p.Local s (s.acquire m).2 := by
  obtain ⟨rfl, -⟩ := may_of_plays_work hplays
  obtain ⟨hentries, hhandle⟩ := s.acquire_entries p.mapName
  cases hanswer : (s.acquire p.mapName).1 with
  | error f =>
    obtain ⟨hadmits, hafter, hheld⟩ :=
      custody_failed (p := p) (p.ledger e₀ ds) ds (.acquire p.mapName) withinMs f
    exact h.keep hentries hafter ⟨hadmits, trivial⟩ hheld
  | ok hd =>
    refine ⟨⟨fun key hkey => ?_, (Terms.grants_append _ _ _ _).mpr ⟨h.grants, trivial, trivial⟩,
      fun hd' hh => ?_⟩, fun map key _ => by rw [hentries]⟩
    · rw [hentries]
      exact (h.agree key hkey).trans (by rw [ledger_append]; rfl)
    · rw [hand_append] at hh
      cases hh
      exact hhandle hd hanswer

/-- A move of a worker that is where its diary says it is. -/
theorem Cared.move (h : p.Cared e₀ w.grid ds) (hplays : Proc.Plays p.work ds t.program)
    (hmove : t.Move MemoryStore.grid w w' t' es) :
    p.Cared e₀ w'.grid (ds ++ es) ∧ p.Local w.grid w'.grid := by
  cases hmove with
  | @sent r withinMs k _ =>
    exact h.keep (w.grid.alike_start r).entries rfl trivial (by rw [List.append_nil])
  | woken _ => exact h.keep (fun _ => rfl) rfl trivial (by rw [List.append_nil])
  | paused | clocked | logged | published =>
    exact h.keep (fun _ => rfl) rfl ⟨trivial, trivial⟩ (congrArg _ (hand_append _ _))
  | picked => exact h.keep (fun _ => rfl) rfl ⟨⟨_, rfl⟩, trivial⟩ (congrArg _ (hand_append _ _))
  | refused | abandoned | late =>
    obtain ⟨hadmits, hafter, hheld⟩ := custody_failed (p := p) (p.ledger e₀ ds) ds _ _ _
    exact h.keep (fun _ => rfl) hafter ⟨hadmits, trivial⟩ hheld
  | @answered r f k _ =>
    match r with
    | .call hd c => exact h.call hplays
    | .release hd =>
      refine h.keep (w.grid.release_entries hd) ?_ ⟨trivial, trivial⟩ (by rw [hand_append]; rfl)
      show p.custody.after _ ⟨.ask (.release hd) f.withinMs, (w.grid.release hd).1⟩ = _
      cases (w.grid.release hd).1 <;> rfl
    | .acquire m => exact h.acquire hplays

/-- A worker can tell its entries as before when another one, whose keys are not its own, did
    something. -/
theorem Cared.beside (h : q.Cared e₀ s ds) (hlocal : p.Local s s') (hapart : q.Apart p) :
    q.Cared e₀ s' ds where
  agree key hkey := by
    rw [hlocal _ _ fun hp => hapart key hp.1 hkey hp.2]
    exact h.agree key hkey
  grants := h.grants
  held := h.held

/-- A worker that has nothing left but to give its handle back changes no entries. -/
theorem entries_of_aside (haside : t.program.Keeps (.plain Partition.Aside) (fun _ _ => True) ())
    (hmove : t.Move MemoryStore.grid w w' t' es) (map : String) :
    w'.grid.entries map = w.grid.entries map := by
  cases hmove with
  | refused | paused | clocked | picked | logged | published | woken | abandoned | late => rfl
  | sent => exact (w.grid.alike_start _).entries map
  | @answered r f k _ =>
    match r with
    | .acquire m => exact (w.grid.acquire_entries m).1 map
    | .release hd => exact w.grid.release_entries hd map
    | .call hd c => exact haside.1.elim

end Partition

namespace Watched

variable {config : LoopConfig} {S : Outside MemoryStore} {s₀ : MemoryStore}
variable {s s' : Watched MemoryStore} {w : World MemoryStore}

/-- A key belongs to one partition of a run only. -/
theorem eq_of_owns {p q : Nat} {key : String} (hp : (teamOf config p).Owns key)
    (hq : (teamOf config q).Owns key) : p = q := by
  obtain ⟨a, -, ha⟩ := hp
  obtain ⟨b, -, hb⟩ := hq
  obtain ⟨i, -, rfl⟩ := Partition.key_eq_ok ha
  obtain ⟨j, -, hij⟩ := Partition.key_eq_ok hb
  exact (storageKey_inj_of_client hij).1.symm

/-- What a run has made of a store that started as `s₀`. -/
structure Stored (config : LoopConfig) (s₀ : MemoryStore) (s : Watched MemoryStore) : Prop where
  sound : s.Sound config
  cared : ∀ p, (teamOf config p).Cared (s₀.entries (teamOf config p).mapName) s.world.grid
    (s.diary p)
  others : ∀ map key, (∀ p, ¬ (map = (teamOf config p).mapName ∧ (teamOf config p).Owns key)) →
    (s.world.grid.entries map)[key]? = (s₀.entries map)[key]?
  spent : ∀ p, s.panicked p = true →
    (workerOf config s.run.workers p).program.Keeps (.plain Partition.Aside) (fun _ _ => True) ()

theorem stored_start : Stored config w.grid (start config w) where
  sound := sound_start config w
  cared _ := Partition.cared_start
  others _ _ _ := rfl
  spent _ hp := by cases hp

/-- A step that leaves the entries, the diaries and the workers as they are. -/
theorem Stored.aside (h : s.Stored config s₀) (hsound : s'.Sound config)
    (hentries : ∀ map, s'.world.grid.entries map = s.world.grid.entries map)
    (hworkers : workerOf config s'.run.workers = workerOf config s.run.workers)
    (hdiary : s'.diary = s.diary) (hpanicked : s'.panicked = s.panicked) :
    s'.Stored config s₀ where
  sound := hsound
  cared p := by
    rw [hdiary]
    exact (h.cared p).congr hentries
  others map key hother := by
    rw [hentries]
    exact h.others map key hother
  spent p := by
    rw [hpanicked, hworkers]
    exact h.spent p

/-- A step of a worker. -/
theorem Stored.works {p : Nat} (h : s.Stored config s₀) (hsound : s'.Sound config)
    (hmove : s.advance MemoryStore.grid (.worker p) = some s') : s'.Stored config s₀ := by
  obtain ⟨t, t', us, ht, hstep, hworkers, -, hpanicked, hdiary⟩ := step?_of_advance hmove
  obtain ⟨hturn, -⟩ := Worker.move_of_step? hstep
  have hp : p < s.run.workers.size := (Array.getElem?_eq_some_iff.mp ht).1
  have hworker : workerOf config s.run.workers p = t := workerOf_of_getElem? ht
  have hspent := h.spent p
  rw [hworker] at hspent
  -- A worker that panicked is left with nothing but what it was left with before.
  have hrest : ∀ q, s'.panicked q = true →
      (workerOf config s'.run.workers q).program.Keeps (.plain Partition.Aside)
        (fun _ _ => True) () := by
    intro q hq
    rw [hpanicked] at hq
    rw [hworkers, workerOf_setIfInBounds hp]
    by_cases hqp : q = p
    · subst hqp
      rw [Function.update_self]
      exact hturn.plays.keeps (Terms.plain_grants Partition.Aside () _) (hspent hq)
    · rw [Function.update_of_ne hqp]
      exact h.spent q hq
  cases hcalm : s.panicked p with
  | true =>
    have hentries := Partition.entries_of_aside (hspent hcalm) hturn
    have hsame : s'.diary = s.diary := by
      funext q
      rw [hdiary, note, if_pos hcalm]
    refine ⟨hsound, fun q => ?_, fun map key hother => ?_, hrest⟩
    · rw [hsame]
      exact (h.cared q).congr hentries
    · rw [hentries]
      exact h.others map key hother
  | false =>
    obtain ⟨program, hplays, hprogram⟩ := (h.sound.engaged p t ht).plays
    rw [partition, h.sound.config_eq, ← hprogram hcalm] at hplays
    obtain ⟨hcared, hlocal⟩ := (h.cared p).move hplays hturn
    refine ⟨hsound, fun q => ?_, fun map key hother => ?_, hrest⟩
    · rw [hdiary]
      by_cases hqp : q = p
      · subst hqp
        rw [note_diary_self, hcalm]
        exact hcared
      · rw [note_diary_other hqp]
        exact (h.cared q).beside hlocal fun key _ hq hp => hqp (eq_of_owns hq hp)
    · rw [hlocal map key (hother p)]
      exact h.others map key hother

/-- A panic of a worker. -/
theorem Stored.panics {p : Nat} {message : String} {t t' : Worker} (h : s.Stored config s₀)
    (ht : s.run.workers[p]? = some t)
    (hpanic : (s.partition p).Unwinds message t t') :
    Stored config s₀ { s with
      run := { s.run with workers := s.run.workers.setIfInBounds p t' }
      panicked := Function.update s.panicked p true } := by
  refine ⟨h.sound.panics ht hpanic, h.cared, h.others, fun q hq => ?_⟩
  have hp : p < s.run.workers.size := (Array.getElem?_eq_some_iff.mp ht).1
  show (workerOf config (s.run.workers.setIfInBounds p t') q).program.Keeps _ _ ()
  rw [workerOf_setIfInBounds hp]
  by_cases hqp : q = p
  · subst hqp
    rw [Function.update_self]
    cases hpanic with
    | ended _ => trivial
    | @caught m e k _ =>
      -- Giving the handle back makes no call.
      refine ⟨trivial, fun a _ => ?_⟩
      match a with
      | .ok () => trivial
      | .error f => exact ⟨trivial, fun _ _ => trivial⟩
  · rw [Function.update_of_ne hqp]
    have hq : Function.update s.panicked p true q = true := hq
    rw [Function.update_of_ne hqp] at hq
    exact h.spent q hq

/-- What one step preserves. -/
theorem Stored.step (hS : S.SparesEntries) (h : s.Stored config s₀)
    (hstep : Step MemoryStore.grid S s s') : s'.Stored config s₀ := by
  have hsound := h.sound.step hstep
  cases hstep with
  | stir hstir => exact h.aside hsound (hS _ _ hstir) rfl rfl rfl
  | panic _ ht hpanic => exact h.panics ht hpanic
  | @move task _ hmove =>
    by_cases htask : ∃ p, task = .worker p
    · obtain ⟨p, rfl⟩ := htask
      exact h.works hsound hmove
    · have htask : ∀ p, task ≠ .worker p := fun p hp => htask ⟨p, hp⟩
      obtain ⟨hworkers, hdiary, hpanicked, hgrid, -⟩ := h.sound.aside_of_advance hmove htask
      exact h.aside hsound (fun map => by rw [hgrid]) hworkers hdiary hpanicked

/-- What a whole run preserves. -/
theorem Stored.reaches (hS : S.SparesEntries) (h : s.Stored config s₀)
    (hs : Reaches MemoryStore.grid S s s') : s'.Stored config s₀ := by
  induction hs with
  | refl => exact h
  | tail _ hstep ih => exact ih.step hS hstep

/-! ## Diaries -/

/-- A step adds one deed at most to the diary of a worker. -/
theorem Step.diary {σ : Type} {g : Grid σ} {S : Outside σ} {s s' : Watched σ}
    (h : Step g S s s') (p : Nat) : ∃ ds, s'.diary p = s.diary p ++ ds ∧ ds.length ≤ 1 := by
  have hsame : s'.diary = s.diary → ∃ ds, s'.diary p = s.diary p ++ ds ∧ ds.length ≤ 1 :=
    fun hd => ⟨[], by rw [hd, List.append_nil], Nat.zero_le 1⟩
  cases h with
  | stir _ | panic _ _ _ => exact hsame rfl
  | move hmove =>
    cases turn_of_advance hmove with
    | begun | launched | joins | stops | finishes | writes | closes | deserted => exact hsame rfl
    | @works q t t' w ds _ hturn =>
      by_cases hpq : p = q
      · subst hpq
        have hdiary := note_diary_self (s := s) p ds
        split at hdiary
        · exact ⟨[], by rw [List.append_nil]; exact hdiary, Nat.zero_le 1⟩
        · exact ⟨ds, hdiary, hturn.length_le⟩
      · exact ⟨[], by rw [List.append_nil]; exact note_diary_other hpq ds, Nat.zero_le 1⟩

theorem diary_of_reaches {σ : Type} {g : Grid σ} {S : Outside σ} {s s' : Watched σ}
    (h : Reaches g S s s') (p : Nat) : ∃ ds, s'.diary p = s.diary p ++ ds := by
  induction h with
  | refl => exact ⟨[], (List.append_nil _).symm⟩
  | tail _ hstep ih =>
    obtain ⟨ds, hds⟩ := ih
    obtain ⟨es, hes, -⟩ := hstep.diary p
    exact ⟨ds ++ es, by rw [hes, hds, List.append_assoc]⟩

/-- Some worker has removed what was under a key. -/
def Removed {σ : Type} (s : Watched σ) (key : String) : Prop :=
  ∃ p, ∃ d ∈ s.diary p, d.Removes key

theorem Stored.plays (h : s.Stored config s₀) (p : Nat) :
    ∃ q, Proc.Plays (teamOf config p).work (s.diary p) q := by
  obtain ⟨q, hq, -⟩ := h.sound.plays p
  rw [partition, h.sound.config_eq] at hq
  exact ⟨q, hq⟩

/-- Only its own worker removes what is under a key of a partition. -/
theorem Stored.removes (h : s.Stored config s₀) {p : Nat} {key : String}
    (hkey : (teamOf config p).Owns key) (hremoved : s.Removed key) :
    ∃ d ∈ s.diary p, d.Removes key := by
  obtain ⟨q, d, hd, hremoves⟩ := hremoved
  obtain ⟨_, hplays⟩ := h.plays q
  -- A worker calls on keys of its own only.
  have hcalls := hplays.forall_may (P := fun e => ∀ h c ms, e = .ask (.call h c) ms →
      (teamOf config q).Owns c.key) (fun t e hmay h c ms he => by subst he; exact hmay.2.2.2)
    (Partition.terms_grants _ _) Partition.work_keeps d hd
  obtain ⟨m, withinMs, _, rfl⟩ := hremoves.eq
  obtain rfl := eq_of_owns hkey (hcalls m (.remove key) withinMs rfl)
  exact ⟨_, hd, rfl⟩

/-- What belongs to no partition that is launched is as it was. -/
theorem Stored.unowned (h : s.Stored config s₀) {map key : String}
    (hother : ∀ p < config.plan.numMaps.toNat,
      ¬ (map = (teamOf config p).mapName ∧ (teamOf config p).Owns key)) :
    (s.world.grid.entries map)[key]? = (s₀.entries map)[key]? := by
  by_cases howner : ∃ p, map = (teamOf config p).mapName ∧ (teamOf config p).Owns key
  · obtain ⟨p, rfl, howns⟩ := howner
    have hp : config.plan.numMaps.toNat ≤ p := Nat.le_of_not_lt fun hp => hother p hp ⟨rfl, howns⟩
    have hnone : s.run.workers[p]? = none := by
      rw [Array.getElem?_eq_none_iff]
      have hsize := h.sound.size_le
      rw [h.sound.numMaps_eq] at hsize
      omega
    have hagree := (h.cared p).agree key howns
    rw [(h.sound.unlaunched p hnone).1] at hagree
    exact hagree
  · exact h.others map key fun p hp => howner ⟨p, hp⟩

/-- No step changes a value that is there to another one. -/
theorem Stored.not_overwritten (h : s.Stored config s₀) (h' : s'.Stored config s₀)
    (hstep : Step MemoryStore.grid S s s') {map key : String} {v : Json}
    (hv : (s.world.grid.entries map)[key]? = some v) :
    (s'.world.grid.entries map)[key]? = some v ∨ (s'.world.grid.entries map)[key]? = none := by
  by_cases howner : ∃ p, map = (teamOf config p).mapName ∧ (teamOf config p).Owns key
  · obtain ⟨p, rfl, howns⟩ := howner
    have hnext := h'.cared p
    obtain ⟨_, hplays⟩ := h'.plays p
    obtain ⟨ds, hds, hlength⟩ := hstep.diary p
    rw [(h.cared p).agree key howns] at hv
    rw [hnext.agree key howns]
    have hgrants := hnext.grants
    rw [hds] at hgrants hplays ⊢
    cases ds with
    | nil => exact .inl (by rwa [List.append_nil])
    | cons d ds =>
      obtain rfl : ds = [] := by simpa using hlength
      cases Partition.treated_of_plays hplays hgrants key with
      | kept _ hsame => exact .inl (hsame.trans hv)
      | written e u _ _ _ habsent _ => cases habsent.symm.trans hv
      | removed e _ _ _ hgone => exact .inr hgone
  · have hothers := fun p hp => howner ⟨p, hp⟩
    rw [h'.others map key hothers, ← h.others map key hothers]
    exact .inl hv

/-- The last element of a partition stays from when it is there. -/
theorem Stored.last_stays (h : s.Stored config s₀) (h' : s'.Stored config s₀)
    (hids : config.elements.Pairwise Element.Differs) {p : Nat} {e : Element} {key : String}
    (hlast : config.elements.getLast? = some e) (hkey : (teamOf config p).key e = .ok key)
    (hs' : Reaches MemoryStore.grid S s s')
    (hthere : (s.world.grid.entries (teamOf config p).mapName).contains key = true) :
    (s'.world.grid.entries (teamOf config p).mapName).contains key = true := by
  have howns : (teamOf config p).Owns key := ⟨e, List.mem_of_getLast? hlast, hkey⟩
  obtain ⟨ds, hds⟩ := diary_of_reaches hs' p
  obtain ⟨_, hplays⟩ := h'.plays p
  have hgrants := (h'.cared p).grants
  rw [(h.cared p).contains_eq howns] at hthere
  rw [(h'.cared p).contains_eq howns]
  rw [hds] at hplays hgrants ⊢
  obtain ⟨r, hr, hrest⟩ := hplays.of_append
  obtain ⟨hgrants₁, hgrants₂⟩ := (Terms.grants_append _ _ _ _).mp hgrants
  have hkeeps := hr.keeps hgrants₁ (Partition.work_custody _)
  rw [Partition.ledger_append]
  exact Partition.contains_of_plays hids hlast hkey hrest hkeeps hgrants₂ hthere

/-- What a run may do to the data in its store, whatever it held, whichever calls misbehave, and
    whenever the run is cancelled.  What is not under a key of one of its partitions stays as it
    was.  Under the key of an element is what was there before and was never removed, or the value
    of this very element, and no step changes a value to another one.  And the last element of a
    partition is there once an ingest has come to its end, and stays from then on, so that the map
    is never drained. -/
theorem stored_data (hids : config.elements.Pairwise Element.Differs) (hS : S.SparesEntries)
    (hs : Reaches MemoryStore.grid S (start config w) s) :
    (∀ map key, (∀ p < config.plan.numMaps.toNat, ¬ (map = (teamOf config p).mapName ∧
        ∃ e ∈ config.elements, (teamOf config p).key e = .ok key)) →
      (s.world.grid.entries map)[key]? = (w.grid.entries map)[key]?) ∧
    (∀ p, ∀ e ∈ config.elements, ∀ key, (teamOf config p).key e = .ok key →
      ∀ v, (s.world.grid.entries (teamOf config p).mapName)[key]? = some v →
        ((w.grid.entries (teamOf config p).mapName)[key]? = some v ∧ ¬ s.Removed key) ∨
          e.value = .ok v) ∧
    (∀ s', Step MemoryStore.grid S s s' →
      ∀ (map key : String) (v : Json), (s.world.grid.entries map)[key]? = some v →
        (s'.world.grid.entries map)[key]? = some v ∨
          (s'.world.grid.entries map)[key]? = none) ∧
    ∀ p e key, config.elements.getLast? = some e → (teamOf config p).key e = .ok key →
      ((∃ ds₁ ds₂ ds₃ h n, s.diary p = ds₁ ++ (ds₂ ++ ds₃) ∧
          Proc.Plays ((teamOf config p).ingestAll h).run ds₂ (.done (.ok n))) →
        (s.world.grid.entries (teamOf config p).mapName).contains key = true) ∧
      ((s.world.grid.entries (teamOf config p).mapName).contains key = true →
        ∀ s', Reaches MemoryStore.grid S s s' →
          (s'.world.grid.entries (teamOf config p).mapName).contains key = true) := by
  have h : s.Stored config w.grid := stored_start.reaches hS hs
  refine ⟨fun map key hother => h.unowned hother, fun p e he key hkey v hv => ?_,
    fun s' hstep map key v hv => h.not_overwritten (h.step hS hstep) hstep hv,
    fun p e key hlast hkey => ⟨?_, fun hthere s' hs' =>
      h.last_stays (h.reaches hS hs') hids hlast hkey hs' hthere⟩⟩
  · have howns : (teamOf config p).Owns key := ⟨e, he, hkey⟩
    obtain ⟨_, hplays⟩ := h.plays p
    rw [(h.cared p).agree key howns] at hv
    rcases Partition.value_of_plays hids he hkey hplays (Partition.work_custody _)
      (h.cared p).grants hv with ⟨hold, hnone⟩ | hvalue
    · refine .inl ⟨hold, fun hremoved => ?_⟩
      obtain ⟨d, hd, hremoves⟩ := h.removes howns hremoved
      exact hnone d hd hremoves
    · exact .inr hvalue
  · rintro ⟨ds₁, ds₂, ds₃, m, n, hdiary, hingest⟩
    have howns : (teamOf config p).Owns key := ⟨e, List.mem_of_getLast? hlast, hkey⟩
    obtain ⟨_, hplays⟩ := h.plays p
    have hgrants := (h.cared p).grants
    rw [(h.cared p).contains_eq howns]
    rw [hdiary] at hplays hgrants ⊢
    exact Partition.contains_of_ingested hids hlast hkey hplays hgrants hingest

/-- A store whose maps hold a foreign entry, and something under the key of an element. -/
def strewnStore (config : LoopConfig) : MemoryStore :=
  MemoryStore.withEntries {} (teamOf config 0).mapName
    (((∅ : Entries).insert "foreign" (.text "kept")).insert (storageKey config.client 0 "0")
      (.text "old"))

theorem cancelling_sparesEntries : (cancelling MemoryStore).SparesEntries := by
  rintro w _ (⟨moment, rfl⟩ | rfl) map
  · rfl
  · rfl

/-- In the sample run, whenever it is cancelled, the foreign entry is left alone, and the other one
    is left or replaced. -/
theorem stored_data_sample :
    ∃ plan s, sampleSettings.resolve "map-tests.load" "load" = .ok plan ∧
      Reaches MemoryStore.grid (cancelling _)
        (start (sampleConfig plan) { grid := strewnStore (sampleConfig plan) }) s ∧
      s.run.phase = .finished ∧
      (s.world.grid.entries (teamOf (sampleConfig plan) 0).mapName)["foreign"]? =
        some (.text "kept") ∧
      ∀ v, (s.world.grid.entries (teamOf (sampleConfig plan) 0).mapName)[storageKey ⟨"client"⟩ 0
        "0"]? = some v → v = .text "old" ∨ v = LoadElement.toJson ⟨"0", "x"⟩ := by
  obtain ⟨plan, hplan⟩ := exists_samplePlan
  obtain ⟨s, hs, hphase⟩ := exists_finished MemoryStore.grid (cancelling _) (sampleConfig plan)
    { grid := strewnStore (sampleConfig plan) }
  have hids : (sampleConfig plan).elements.Pairwise Element.Differs := by
    simp [sampleConfig, sampleItems, Element.Differs]
  have hinitial : (strewnStore (sampleConfig plan)).entries
      (teamOf (sampleConfig plan) 0).mapName =
        ((∅ : Entries).insert "foreign" (.text "kept")).insert
          (storageKey ⟨"client"⟩ 0 "0") (.text "old") := by
    rw [strewnStore, MemoryStore.entries_withEntries, if_pos rfl]
    rfl
  obtain ⟨hforeign, hvalue, -⟩ := stored_data hids cancelling_sparesEntries hs
  refine ⟨plan, s, hplan, hs, hphase, ?_, fun v hv => ?_⟩
  -- The keys of elements hold dashes.
  · rw [hforeign _ "foreign" ?_, hinitial]
    · rw [Std.ExtTreeMap.getElem?_insert, if_neg (by decide), Std.ExtTreeMap.getElem?_insert_self]
    · rintro p - ⟨-, e, -, hkey⟩
      obtain ⟨i, -, hkey⟩ := Partition.key_eq_ok hkey
      have hdash : '-' ∈ "foreign".toList := by
        rw [← hkey, toList_storageKey]
        simp
      exact absurd hdash (by decide)
  · rcases hvalue 0 ⟨.ok "0", .ok (LoadElement.toJson ⟨"0", "x"⟩)⟩ List.mem_cons_self
      (storageKey ⟨"client"⟩ 0 "0") rfl v hv with ⟨hold, -⟩ | hnew
    · rw [hinitial, Std.ExtTreeMap.getElem?_insert_self] at hold
      exact .inl (Option.some.inj hold).symm
    · exact .inr (Except.ok.inj hnew).symm

end Watched

end GridBench
