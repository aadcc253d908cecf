/-
  GridBench.Proofs.Run.Siege

  Workers side by side on one store whose calls may misbehave.  A worker is
  `Braving` if, on the keys of its elements, the store holds what the calls of
  the worker that succeeded made of it.  Each step of such a worker pays for
  what goes wrong in it: as many calls fewer are set to misbehave behind it as
  the worker got answers that are not good (`Endured`).  `Siege` says that all
  workers are braving, and every step preserves it (`Siege.move`).
-/
import GridBench.Proofs.Run.Braced
import GridBench.Proofs.Run.Discipline

namespace GridBench

namespace Partition

variable {p q : Partition} {e : Entries} {s s' : MemoryStore} {t t' : Worker}
variable {ds es : List Deed} {items : List (String × Json)}

/-! ## Blows -/

/-- How many of the answers to a worker's calls are not good. -/
def blows (p : Partition) (ds : List Deed) : Nat :=
  (callsOf ds).countP fun x => !(p.verdict x).isOk

theorem blows_append (ds es : List Deed) : p.blows (ds ++ es) = p.blows ds + p.blows es := by
  rw [blows, callsOf_append, List.countP_append]
  rfl

theorem blows_of_unasked (h : ∀ d ∈ ds, d.effect.isAsk = false) : p.blows ds = 0 := by
  rw [blows, callsOf_eq_nil h]
  rfl

theorem blows_call (h : Handle) (c : MapCall) (withinMs : Option Nat) (a : Except Fault c.Answer) :
    p.blows [⟨.ask (.call h c) withinMs, a⟩] = if (p.verdict ⟨c, a⟩).isOk then 0 else 1 := by
  show [(⟨c, a⟩ : MadeCall)].countP _ = _
  rw [List.countP_singleton]
  cases (p.verdict ⟨c, a⟩).isOk <;> rfl

/-- A truthful answer to a call that the worker's terms allow is good. -/
theorem verdict_apply {h : Handle} {c : MapCall} {withinMs : Option Nat} {x : Entries}
    (hmay : p.braced.may x (.ask (.call h c) withinMs)) :
    p.verdict ⟨c, .ok (c.apply x).1⟩ = .ok () := by
  match c with
  | .containsKey _ | .set .. | .remove _ => rfl
  | .get key =>
    obtain ⟨v, hv, hcheck⟩ := hmay
    show p.verdict ⟨.get key, .ok x[key]?⟩ = .ok ()
    rw [hv]
    exact hcheck

/-- What a call answers that misbehaves is not good, if the check tells what is corrupted. -/
theorem verdict_strike (htells : (p.config.check MemoryStore.corrupted).isOk = false)
    {c : MapCall} {a : Except Fault c.Answer} (h : MemoryStore.Strike c a) :
    (p.verdict ⟨c, a⟩).isOk = false := by
  cases h with
  | evicted key => rfl
  | corrupted key => exact htells
  | rejected key value f => rfl

/-- A worker does not notice that a call misbehaved that it cannot tell from a failed one. -/
theorem after_strike {h : Handle} {c : MapCall} {withinMs : Option Nat} {a : Except Fault c.Answer}
    (hstrike : MemoryStore.Strike c a) (x : Entries) :
    p.braced.admits x ⟨.ask (.call h c) withinMs, a⟩ ∧
      p.braced.after x ⟨.ask (.call h c) withinMs, a⟩ = x := by
  cases hstrike with
  | evicted key | corrupted key | rejected key value f => exact ⟨trivial, rfl⟩

/-! ## One worker -/

/-- A worker on a store whose calls may misbehave: how it stands with the store, by what its calls
    that succeeded made of the entries. -/
structure Braving (p : Partition) (e : Entries) (s : MemoryStore) (t : Worker) (ds : List Deed) :
    Prop where
  stands : p.Stands (p.braced.afterAll e ds) s t ds
  grants : p.braced.Grants e ds
  patient : ∀ r f k, t = .waiting r f k → f.due ≤ f.wakeTime

/-- What a step does for a braving worker: it stays so, leaves the others alone, and uses up as many
    of the calls set to misbehave as it gets answers that are not good. -/
structure Endured (p : Partition) (e : Entries) (s s' : MemoryStore) (t' : Worker)
    (ds es : List Deed) : Prop where
  braving : p.Braving e s' t' (ds ++ es)
  gentle : p.Gentle s.mended s'.mended (p.hand ds) (p.hand (ds ++ es))
  units : s'.units + p.blows es = s.units
  failGetMap : s'.faults.failGetMap = s.faults.failGetMap
  getMapDelayMs : s'.faults.getMapDelayMs = s.faults.getMapDelayMs

/-- A worker at its start. -/
theorem braving_start : p.Braving (s.entries p.mapName) s (.running p.work) [] where
  stands := ⟨.nil _, fun _ _ => rfl, fun _ hh => by cases hh⟩
  grants := trivial
  patient _ _ _ ht := by cases ht

/-- A worker that stands well goes on braving, if its terms admit the replies it got. -/
theorem Braving.step {x : Entries} (h : p.Braving e s t ds) (hstands : p.Stands x s' t' (ds ++ es))
    (hgrants : p.braced.Grants (p.braced.afterAll e ds) es)
    (hafter : p.braced.afterAll (p.braced.afterAll e ds) es = x)
    (hpatient : ∀ r f k, t' = .waiting r f k → f.due ≤ f.wakeTime) :
    p.Braving e s' t' (ds ++ es) where
  stands := by
    rw [Terms.afterAll_append, hafter]
    exact hstands
  grants := (Terms.grants_append _ _ _ _).mpr ⟨h.grants, hgrants⟩
  patient := hpatient

/-- A step that uses up nothing. -/
theorem Braving.endured {x : Entries} (h : p.Braving e s t ds)
    (hstands : p.Stands x s' t' (ds ++ es) ∧ p.Gentle s s' (p.hand ds) (p.hand (ds ++ es)))
    (hgrants : p.braced.Grants (p.braced.afterAll e ds) es)
    (hafter : p.braced.afterAll (p.braced.afterAll e ds) es = x) (hblows : p.blows es = 0)
    (hpatient : ∀ r f k, t' = .waiting r f k → f.due ≤ f.wakeTime) :
    p.Endured e s s' t' ds es := by
  obtain ⟨hstands, hgentle⟩ := hstands
  refine ⟨h.step hstands hgrants hafter hpatient, hgentle.mended, ?_, by rw [hgentle.faults],
    by rw [hgentle.faults]⟩
  rw [hblows, MemoryStore.units, MemoryStore.units, hgentle.faults]
  rfl

/-- What a braving worker does next is in accordance with its terms. -/
theorem Braving.may (h : p.Braving e s t ds) (hp : p.Provided items) (hfit : p.Fit items e)
    {f : Effect} {k : f.Reply → Proc (Option String)} (ht : t.program = .op f k) :
    p.braced.may (p.braced.afterAll e ds) f := by
  have hkeeps := h.stands.plays.keeps h.grants (work_braced hp hfit)
  rw [ht] at hkeeps
  exact hkeeps.1

/-- The answer to a call, whether it is carried out or misbehaves. -/
theorem Braving.call (h : p.Braving e s t ds) (hp : p.Provided items) (hfit : p.Fit items e)
    (htells : (p.config.check MemoryStore.corrupted).isOk = false) {hd : Handle}
    {c : MapCall} {withinMs : Option Nat} {k : Except Fault c.Answer → Proc (Option String)}
    (ht : t.program = .op (.ask (.call hd c) withinMs) k) :
    p.Endured e s (s.call hd c).2 (.running (k (s.call hd c).1)) ds
      [⟨.ask (.call hd c) withinMs, (s.call hd c).1⟩] := by
  have hmay := h.may hp hfit ht
  rcases MemoryStore.call_met (h.stands.live ht) c with hcall | hcall
  -- The answer is the one that the worker could tell, and its terms make it a good one.
  · obtain ⟨hanswer, hstands⟩ := h.stands.answered ht hcall
    refine h.endured hstands ⟨?_, trivial⟩ ?_ ?_ nofun
    · rw [hanswer]
      match c with
      | .containsKey _ => exact rfl
      | .get _ | .set .. | .remove _ => trivial
    · rw [hanswer]
      rfl
    · rw [blows_call, hanswer, verdict_apply hmay]
      rfl
  · obtain ⟨hstands, hgentle⟩ := h.stands.struck ht hcall
    obtain ⟨hadmits, hafter⟩ :=
      @after_strike p hd c withinMs _ hcall.answer (p.braced.afterAll e ds)
    refine ⟨h.step hstands ⟨hadmits, trivial⟩ hafter nofun, hgentle, ?_, hcall.failGetMap,
      hcall.getMapDelayMs⟩
    rw [blows_call, verdict_strike htells hcall.answer]
    exact hcall.units

/-- Being given the map. -/
theorem Braving.acquire (h : p.Braving e s t ds) (hwilling : s.faults.failGetMap = false)
    (htidy : s.Tidy) {m : String} {withinMs : Option Nat}
    {k : Except Fault Handle → Proc (Option String)}
    (ht : t.program = .op (.ask (.acquire m) withinMs) k) :
    p.Endured e s (s.acquire m).2 (.running (k (s.acquire m).1)) ds
      [⟨.ask (.acquire m) withinMs, (s.acquire m).1⟩] := by
  obtain ⟨hanswer, hstands⟩ := h.stands.acquire hwilling htidy ht
  refine h.endured hstands ⟨?_, trivial⟩ rfl rfl nofun
  rw [hanswer]
  exact ⟨_, rfl⟩

/-- Giving the handle back. -/
theorem Braving.release (h : p.Braving e s t ds) {hd : Handle} {withinMs : Option Nat}
    {k : Except Fault Unit → Proc (Option String)}
    (ht : t.program = .op (.ask (.release hd) withinMs) k) :
    p.Endured e s (s.release hd).2 (.running (k (s.release hd).1)) ds
      [⟨.ask (.release hd) withinMs, (s.release hd).1⟩] := by
  obtain ⟨-, -, hstands⟩ := h.stands.release ht
  refine h.endured hstands ⟨trivial, trivial⟩ ?_ rfl nofun
  cases (s.release hd).1 <;> rfl

/-- A worker waits long enough for whatever it asks: the store answers at once, but for requests
    for a map, and for these the worker waits as long as the store takes. -/
theorem patient_of_sent {r : Request} {withinMs : Option Nat} {x : Entries} (clock : Nat)
    (hmay : p.braced.may x (.ask r withinMs))
    (hprompt : s.faults.getMapDelayMs ≤ p.config.getMapTimeoutMs) (ticket : Nat) :
    (⟨ticket, clock, clock + (MemoryStore.grid.start s r).1, withinMs⟩ : Flight).due ≤
      (⟨ticket, clock, clock + (MemoryStore.grid.start s r).1, withinMs⟩ : Flight).wakeTime := by
  match r with
  | .acquire m =>
    obtain rfl : withinMs = some p.config.getMapTimeoutMs := hmay
    exact Nat.le_min.mpr ⟨Nat.le_refl _, Nat.add_le_add_left hprompt _⟩
  | .call .. | .release _ =>
    cases withinMs with
    | none => exact Nat.le_refl _
    | some ms => exact Nat.le_min.mpr ⟨Nat.le_refl _, Nat.le_add_right clock ms⟩

variable {w w' : World MemoryStore}

/-- A move of a braving worker in a world that is not cancelled. -/
theorem Braving.move (h : p.Braving e w.grid t ds) (hp : p.Provided items) (hfit : p.Fit items e)
    (htells : (p.config.check MemoryStore.corrupted).isOk = false)
    (hwilling : w.grid.faults.failGetMap = false)
    (hprompt : w.grid.faults.getMapDelayMs ≤ p.config.getMapTimeoutMs) (htidy : w.grid.Tidy)
    (hrun : w.cancelled = false) (hmove : t.Move MemoryStore.grid w w' t' es) :
    p.Endured e w.grid w'.grid t' ds es := by
  have hplays := hmove.plays
  -- Moves that show in nothing of the store.
  have hquiet : ∀ {s' : MemoryStore} {es : List Deed} {t' : Worker}, w.grid.Alike s' →
      Proc.Plays t.program es t'.program → p.hand (ds ++ es) = p.hand ds →
      p.braced.Grants (p.braced.afterAll e ds) es →
      p.braced.afterAll (p.braced.afterAll e ds) es = p.braced.afterAll e ds → p.blows es = 0 →
      (∀ r f k, t' = .waiting r f k → f.due ≤ f.wakeTime) →
      p.Endured e w.grid s' t' ds es := fun halike hplays hhand =>
    h.endured (h.stands.alike halike hplays hhand)
  cases hmove with
  | refused hc => exact absurd hc (by simp [hrun])
  | abandoned hc => exact absurd hc (by simp [hrun])
  -- A worker that waits long enough gets no answer late.
  | late hwake hdue =>
    have hpatient := h.patient _ _ _ rfl
    omega
  | @sent r withinMs k _ =>
    refine hquiet (w.grid.alike_start r) hplays (by rw [List.append_nil]) trivial rfl rfl
      fun r' f k' ht => ?_
    cases ht
    exact patient_of_sent w.clock (h.may hp hfit rfl) hprompt _
  | woken _ =>
    exact hquiet w.grid.alike_refl hplays (by rw [List.append_nil]) trivial rfl rfl nofun
  | picked | paused | clocked | logged | published =>
    exact hquiet w.grid.alike_refl hplays (hand_append _ _) ⟨trivial, trivial⟩ rfl rfl nofun
  | @answered r f k _ =>
    match r with
    | .acquire m => exact h.acquire hwilling htidy rfl
    | .call hd c => exact h.call hp hfit htells rfl
    | .release hd => exact h.release rfl

/-- A braving worker that has ended was given its map. -/
theorem Braving.acquired (h : p.Braving e s t ds) (hended : t.hasEnded = true) :
    ∃ m, .ok m ∈ acquisitions ds := by
  have hplays := h.stands.plays
  rw [work_eq, Worker.program_of_hasEnded hended] at hplays
  obtain ⟨ds₁, ds₂, a, rfl, henter, -⟩ := hplays.of_bind_done
  have hgrants := ((Terms.grants_append _ _ _ _).mp h.grants).1
  obtain ⟨⟨m, rfl⟩, -⟩ := henter.result hgrants (enter_braced e)
  refine ⟨m, ?_⟩
  rw [acquisitions_append, acquisitions_enter henter]
  exact List.mem_append_left _ (List.mem_singleton_self _)

/-- A worker keeps braving under the gentle step of another one, whose keys and handle are not its
    own. -/
theorem Braving.beside {before after : Hand} (h : q.Braving e s t ds)
    (hstep : p.Gentle s.mended s'.mended before after) (hapart : q.Apart p)
    (hhands : ∀ h h', (q.hand ds).held = some h → before.held = some h' → h.number ≠ h'.number) :
    q.Braving e s' t ds where
  stands := stands_mended.mp ((stands_mended.mpr h.stands).beside hstep hapart hhands)
  grants := h.grants
  patient := h.patient

end Partition

/-! ## All workers -/

/-- The workers of the partitions of a team on one store whose calls may misbehave: it started as
    `s₀` and is `s` now. -/
structure Siege {ι : Type} (team : ι → Partition) (s₀ s : MemoryStore) (workers : ι → Worker)
    (diaries : ι → List Deed) : Prop where
  willing : s.faults.failGetMap = false
  prompt : ∀ i, s.faults.getMapDelayMs ≤ (team i).config.getMapTimeoutMs
  tidy : s.Tidy
  braving : ∀ i, (team i).Braving (s₀.entries (team i).mapName) s (workers i) (diaries i)
  hands : ∀ i j h h', i ≠ j → ((team i).hand (diaries i)).held = some h →
    ((team j).hand (diaries j)).held = some h' → h.number ≠ h'.number

namespace Siege

variable {ι : Type} {team : ι → Partition} {s₀ s : MemoryStore}
variable {workers : ι → Worker} {diaries : ι → List Deed}

/-- Workers at their start. -/
theorem start (hwilling : s.faults.failGetMap = false)
    (hprompt : ∀ i, s.faults.getMapDelayMs ≤ (team i).config.getMapTimeoutMs) (htidy : s.Tidy) :
    Siege team s s (fun i => .running (team i).work) fun _ => [] where
  willing := hwilling
  prompt := hprompt
  tidy := htidy
  braving _ := Partition.braving_start
  hands _ _ _ _ _ hh := by cases hh

/-- A move of one worker leaves all of them braving, and pays for the answers that are not good. -/
theorem move [DecidableEq ι] {items : List (String × Json)} {w w' : World MemoryStore}
    {t' : Worker} {es : List Deed} {i : ι} (h : Siege team s₀ w.grid workers diaries)
    (hp : (team i).Provided items) (hfit : (team i).Fit items (s₀.entries (team i).mapName))
    (htells : ((team i).config.check MemoryStore.corrupted).isOk = false)
    (hapart : ∀ i j, i ≠ j → (team i).Apart (team j)) (hrun : w.cancelled = false)
    (hmove : (workers i).Move MemoryStore.grid w w' t' es) :
    Siege team s₀ w'.grid (Function.update workers i t')
        (Function.update diaries i (diaries i ++ es)) ∧
      w'.grid.units + (team i).blows es = w.grid.units := by
  have hendured := (h.braving i).move hp hfit htells h.willing (h.prompt i) h.tidy hrun hmove
  have hdiary : ∀ j, j ≠ i → Function.update diaries i (diaries i ++ es) j = diaries j :=
    fun j hj => Function.update_of_ne hj _ _
  have hnum : ∀ j hd, ((team j).hand (diaries j)).held = some hd → hd.number < w.grid.issued :=
    fun j hd hh => ((h.braving j).stands.holds hd hh).2.1
  -- What the workers have at hand changes for the one that moves.
  have hhand := Function.apply_update (fun j => (team j).hand) diaries i (diaries i ++ es)
  refine ⟨⟨hendured.failGetMap.trans h.willing, fun j => ?_, ?_, fun j => ?_,
    fun j k hd hd' hjk hh hh' => ?_⟩, hendured.units⟩
  · rw [hendured.getMapDelayMs]
    exact h.prompt j
  · exact hendured.gentle.tidy h.tidy (hnum i)
  · by_cases hj : j = i
    · subst hj
      rw [Function.update_self, Function.update_self]
      exact hendured.braving
    · rw [hdiary j hj, Function.update_of_ne hj]
      exact (h.braving j).beside hendured.gentle (hapart j i hj) fun hd hd' hh hh' =>
        h.hands j i hd hd' hj hh hh'
  · exact hendured.gentle.hands (fun j => (team j).hand (diaries j)) rfl hnum h.hands j k hd hd' hjk
      (hhand j ▸ hh) (hhand k ▸ hh')

end Siege

end GridBench
