/-
  GridBench.Proofs.Run.Secluded

  A worker with a store to itself.  On a scripted grid every map has a store of
  its own, to which a request is sent and which answers it (`start_store`,
  `finish_store`).  A worker whose map is nobody else's is `Secluded`: all it
  sees are the answers of that store (`Terms.served`), and each of its moves
  keeps it so, unless it has overslept (`Secluded.move`).  Hence the store it
  starts with and its draws determine what it does (`served_alike`).
-/
import GridBench.Rehearsal.Script
import GridBench.Proofs.Run.Awake
import GridBench.Proofs.Run.Replica

namespace GridBench

/-! ## The stores of a scripted grid -/

namespace ScriptedGrid

variable {g : ScriptedGrid}

theorem store_withStore (g : ScriptedGrid) (map map' : String) (s : MemoryStore) :
    (g.withStore map s).store map' = if map = map' then s else g.store map' := by
  unfold withStore store
  rw [Std.ExtTreeMap.getD_insert]
  split
  · rename_i h
    rw [if_pos (Std.LawfulEqCmp.compare_eq_iff_eq.mp h)]
  · rename_i h
    rw [if_neg fun hm => h (Std.LawfulEqCmp.compare_eq_iff_eq.mpr hm)]

/-- A request is sent to the store of its map, and nothing happens to the others. -/
theorem start_store (g : ScriptedGrid) (r : Request) (map : String) :
    (grid.start g r).2.2.store map =
      if r.map = map then (MemoryStore.grid.start (g.store r.map) r).2.2 else g.store map := by
  cases r with
  | acquire m => exact store_withStore _ m map _
  | call h c =>
    show g.store map = if h.map = map then g.store h.map else g.store map
    split
    · rename_i heq
      rw [heq]
    · rfl
  | release h =>
    show g.store map = if h.map = map then g.store h.map else g.store map
    split
    · rename_i heq
      rw [heq]
    · rfl

/-- A request for a map takes as long as the store of the map makes it take. -/
theorem start_delay (g : ScriptedGrid) {r : Request} {withinMs : Option Nat}
    (hr : withinMs = none ∨ ∃ m, r = .acquire m) :
    withinMs.any (· < (grid.start g r).1) =
      withinMs.any (· < (MemoryStore.grid.start (g.store r.map) r).1) := by
  rcases hr with rfl | ⟨m, rfl⟩
  · rfl
  · rfl

/-- A request is answered by the store of its map, if the script releases no handles. -/
theorem finish_store (hintact : g.script.destroyAfter = none) (n : Nat) (r : Request)
    (map : String) :
    (grid.finish g n r).2.store map =
      if r.map = map then (MemoryStore.grid.finish (g.store r.map) 0 r).2 else g.store map := by
  have hquiet : (grid.finish g n r).2.store map =
      (g.withStore r.map (MemoryStore.grid.finish (g.store r.map) 0 r).2).store map := by
    show (react _ r).store map = _
    unfold react
    simp only [record, withStore, hintact, fires, Option.any_none, Bool.false_eq_true, if_false]
    rfl
  rw [hquiet, store_withStore]

theorem start_script (g : ScriptedGrid) (r : Request) :
    (grid.start g r).2.2.script = g.script := by
  cases r <;> rfl

theorem finish_script (hintact : g.script.destroyAfter = none) (n : Nat) (r : Request) :
    (grid.finish g n r).2.script = g.script := by
  show (react _ r).script = _
  unfold react
  simp only [record, withStore, hintact, fires, Option.any_none, Bool.false_eq_true, if_false]

end ScriptedGrid

/-! ## A store to oneself -/

/-- However a store answers, it stays as slow in giving maps as it is. -/
theorem MemoryStore.finish_delay (s : MemoryStore) (n : Nat) (r : Request) :
    (grid.finish s n r).2.faults.getMapDelayMs = s.faults.getMapDelayMs := by
  cases r with
  | acquire m =>
    show (s.acquire m).2.faults.getMapDelayMs = _
    unfold acquire
    split <;> rfl
  | release h =>
    show (s.release h).2.faults.getMapDelayMs = _
    unfold release
    dsimp only
    split <;> rfl
  | call h c =>
    show (s.call h c).2.faults.getMapDelayMs = _
    cases hgone : s.isReleased h with
    | true =>
      have hgone' : ({ s with calls := s.calls.note c } : MemoryStore).isReleased h = true := hgone
      unfold call
      rw [if_pos hgone']
    | false =>
      rcases call_met hgone c with hcall | hcall
      · rw [hcall.faults]
      · exact hcall.getMapDelayMs

/-- What becomes of a request to a store that nobody else uses: the answer to it, which comes too
    late if it takes longer than the sender waits, and the store behind it. -/
def MemoryStore.serve (s : MemoryStore) (r : Request) (withinMs : Option Nat) :
    Except Fault r.Answer × MemoryStore :=
  let sent := grid.start s r
  if withinMs.any (· < sent.1) then (.error (.timeout (withinMs.getD 0) r.describe), sent.2.2)
  else grid.finish sent.2.2 sent.2.1 r

theorem MemoryStore.serve_late {s : MemoryStore} {r : Request} {withinMs : Option Nat}
    (h : withinMs.any (· < (grid.start s r).1) = true) :
    s.serve r withinMs =
      (.error (.timeout (withinMs.getD 0) r.describe), (grid.start s r).2.2) :=
  if_pos h

theorem MemoryStore.serve_in_time {s : MemoryStore} {r : Request} {withinMs : Option Nat}
    (h : ¬ withinMs.any (· < (grid.start s r).1) = true) :
    s.serve r withinMs = grid.finish (grid.start s r).2.2 0 r :=
  if_neg h

theorem MemoryStore.serve_delay (s : MemoryStore) (r : Request) (withinMs : Option Nat) :
    (s.serve r withinMs).2.faults.getMapDelayMs = s.faults.getMapDelayMs := by
  have hstart : (grid.start s r).2.2.faults = s.faults := (s.alike_start r).faults
  by_cases hlate : withinMs.any (· < (grid.start s r).1) = true
  · rw [serve_late hlate, hstart]
  · rw [serve_in_time hlate, finish_delay, hstart]

namespace Terms

/-- The terms of a worker that has a store to itself. -/
def served : Terms MemoryStore where
  may _ _ := True
  admits s
    | ⟨.ask r withinMs, a⟩ => a = (s.serve r withinMs).1
    | _ => True
  after s
    | ⟨.ask r withinMs, _⟩ => (s.serve r withinMs).2
    | _ => s

theorem served_delay (s : MemoryStore) (ds : List Deed) :
    (served.afterAll s ds).faults.getMapDelayMs = s.faults.getMapDelayMs := by
  induction ds generalizing s with
  | nil => rfl
  | cons d ds ih =>
    refine (ih _).trans ?_
    obtain ⟨e, a⟩ := d
    cases e with
    | ask r withinMs => exact s.serve_delay r withinMs
    | pause | clock | pick | log | publish => rfl

end Terms

namespace Partition

open Proc

variable {p : Partition} {s₀ s s' : MemoryStore} {d : Draws} {ds ds' : List Deed}

/-- Effects whose replies do not tell the time. -/
def Timeless : Effect → Prop
  | .clock => False
  | _ => True

/-- A worker neither looks at the clock nor asks for its map once it knows whether it has it. -/
theorem stay_settled (a : Except Fault Handle) :
    (p.stay a).Keeps (.plain fun e => Timeless e ∧ Settled e) (fun _ _ => True) () := by
  cases a with
  | error f => trivial
  | ok h =>
    have hrounds : (p.rounds h p.config.plan.numRuns.toNat 0 0 0).Keeps
        (.plain fun e => Timeless e ∧ Settled e) (fun _ _ => True) () := by
      refine ((rounds_routine _ 0 0 0).keeps_plain h).of_plain ?_ ()
      intro t e he
      refine ⟨?_, he.settled⟩
      rcases he with he | ⟨u, rfl, -⟩
      · cases e with
        | clock => exact he.elim
        | ask | pause | pick | log | publish => trivial
      · trivial
    refine hrounds.bind fun _ crash _ => ⟨⟨trivial, trivial⟩, fun a _ => ?_⟩
    cases a with
    | ok _ => trivial
    | error f => exact ⟨⟨trivial, trivial⟩, fun _ _ => trivial⟩

/-- Effects that ask for no map for any other time than the partition's worker may take. -/
def Limited (p : Partition) : Effect → Prop
  | .ask (.acquire _) withinMs => withinMs = some p.config.getMapTimeoutMs
  | _ => True

theorem work_limited : p.work.Keeps (.plain p.Limited) (fun _ _ => True) () := by
  rw [work_eq]
  have henter : p.enter.Keeps (.plain p.Limited) (fun _ _ => True) () := by
    refine ⟨trivial, fun _ _ => ⟨trivial, fun start _ => ⟨rfl, fun a _ => ?_⟩⟩⟩
    cases a with
    | error f => exact ⟨trivial, fun _ _ => trivial⟩
    | ok h => exact ⟨trivial, fun _ _ => ⟨trivial, fun _ _ => trivial⟩⟩
  refine henter.bind fun _ a _ => (stay_settled a).of_plain (fun _ e he => ?_) ()
  cases e with
  | ask r withinMs =>
    cases r with
    | acquire m => exact he.2.elim
    | call | release => trivial
  | pause | clock | pick | log | publish => trivial

/-- How a worker finds its store, if `x` is what its diary has made of it: a request that is on its
    way has reached the store, and takes as long as the store makes it take. -/
def Finds (x s : MemoryStore) : Worker → Prop
  | .waiting r f _ => s = (MemoryStore.grid.start x r).2.2 ∧
      (f.wakeTime < f.due ↔ f.withinMs.any (· < (MemoryStore.grid.start x r).1) = true)
  | _ => s = x

/-- A worker that has seen nothing but the answers of a store of its own, which was `s₀` at first
    and is `s` now. -/
structure Secluded (p : Partition) (s₀ s : MemoryStore) (t : Worker) (ds : List Deed) : Prop where
  plays : Plays p.work ds t.program
  grants : Terms.served.Grants s₀ ds
  finds : Finds (Terms.served.afterAll s₀ ds) s t

/-- All requests of a worker are about its map, and only the request for the map is limited. -/
theorem request_of_plays {r : Request} {withinMs : Option Nat}
    {k : Except Fault r.Answer → Proc (Option String)}
    (hplays : Plays p.work ds (.op (.ask r withinMs) k))
    (hheld : ∀ h, (p.hand ds).held = some h → h.map = p.mapName) :
    r.map = p.mapName ∧ (withinMs = none ∨ ∃ m, r = .acquire m) := by
  have hmay := may_of_plays_work hplays
  cases r with
  | acquire m => exact ⟨hmay.1, .inr ⟨m, rfl⟩⟩
  | call h c => exact ⟨hheld h hmay.1, .inl hmay.2.2.1⟩
  | release h => exact ⟨hheld h hmay.1, .inl hmay.2.2⟩

/-- A step that is none of the store's. -/
theorem Secluded.aside {t t' : Worker} {es : List Deed} (h : p.Secluded s₀ s t ds)
    (hplays : Plays t.program es t'.program) (hgrants : ∀ x, Terms.served.Grants x es)
    (hafter : ∀ x, Terms.served.afterAll x es = x) (hs : s = Terms.served.afterAll s₀ ds)
    (ht : ∀ x s, Finds x s t' ↔ s = x) : p.Secluded s₀ s t' (ds ++ es) where
  plays := h.plays.append hplays
  grants := (Terms.grants_append _ _ _ _).mpr ⟨h.grants, hgrants _⟩
  finds := by
    rw [Terms.afterAll_append, hafter, ht]
    exact hs

/-- An answer that is the one its own store would give. -/
theorem Secluded.served {t : Worker} {r : Request} {withinMs : Option Nat}
    {k : Except Fault r.Answer → Proc (Option String)} {a : Except Fault r.Answer}
    (h : p.Secluded s₀ s t ds) (ht : t.program = .op (.ask r withinMs) k)
    (hserve : (Terms.served.afterAll s₀ ds).serve r withinMs = (a, s')) :
    p.Secluded s₀ s' (.running (k a)) (ds ++ [⟨.ask r withinMs, a⟩]) where
  plays := h.plays.append (ht ▸ .cons (.nil _))
  grants := by
    refine (Terms.grants_append _ _ _ _).mpr ⟨h.grants, ?_, trivial⟩
    exact (congrArg Prod.fst hserve).symm
  finds := by
    rw [Terms.afterAll_append]
    exact (congrArg Prod.snd hserve).symm

/-- A worker whose map comes in time does not oversleep. -/
theorem Secluded.awake {t : Worker} (h : p.Secluded s₀ s t ds)
    (hheld : ∀ h, (p.hand ds).held = some h → h.map = p.mapName)
    (hdelay : s₀.faults.getMapDelayMs ≤ p.config.getMapTimeoutMs) (clock : Nat) :
    ¬ t.Overslept clock := by
  cases t with
  | running | pausing => exact fun h => h
  | waiting r f k =>
    rintro ⟨hlimit, -⟩
    have hany := h.finds.2.mp hlimit
    obtain ⟨-, hnone | ⟨m, rfl⟩⟩ := request_of_plays h.plays hheld
    · rw [hnone] at hany
      cases hany
    · have hwithin : f.withinMs = some p.config.getMapTimeoutMs :=
        (h.plays.keeps (Terms.plain_grants _ _ _) work_limited).1
      rw [hwithin, Option.any_some, decide_eq_true_eq] at hany
      have hlong : p.config.getMapTimeoutMs <
          (Terms.served.afterAll s₀ ds).faults.getMapDelayMs := hany
      rw [Terms.served_delay] at hlong
      omega

variable {w w' : World ScriptedGrid} {t t' : Worker} {es : List Deed}

/-- A move of a worker with a store to itself. -/
theorem Secluded.move (h : p.Secluded s₀ (w.grid.store p.mapName) t ds)
    (hheld : ∀ h, (p.hand ds).held = some h → h.map = p.mapName)
    (hintact : w.grid.script.destroyAfter = none) (hrun : w.cancelled = false)
    (hawake : ¬ t.Overslept w.clock) (hmove : t.Move ScriptedGrid.grid w w' t' es) :
    p.Secluded s₀ (w'.grid.store p.mapName) t' (ds ++ es) := by
  have hplays := hmove.plays
  have hfinds := h.finds
  cases hmove with
  | refused hc => exact absurd hc (by simp [hrun])
  | abandoned hc => exact absurd hc (by simp [hrun])
  | woken =>
    exact h.aside hplays (fun _ => trivial) (fun _ => rfl) hfinds fun _ _ => Iff.rfl
  | paused | clocked | picked | logged | published =>
    exact h.aside hplays (fun _ => ⟨trivial, trivial⟩) (fun _ => rfl) hfinds fun _ _ => Iff.rfl
  | @sent r withinMs k _ =>
    obtain ⟨hmap, hlimit⟩ := request_of_plays h.plays hheld
    have hstore : w.grid.store p.mapName = Terms.served.afterAll s₀ ds := hfinds
    refine ⟨h.plays.append hplays, (Terms.grants_append _ _ _ _).mpr ⟨h.grants, trivial⟩, ?_, ?_⟩
    · rw [List.append_nil, ← hstore]
      show (ScriptedGrid.grid.start w.grid r).2.2.store p.mapName = _
      rw [ScriptedGrid.start_store, if_pos hmap, hmap]
    · rw [List.append_nil, ← hstore, ← hmap, ← ScriptedGrid.start_delay w.grid hlimit]
      exact Flight.wakeTime_lt_due_iff ..
  | @late r f k hwake hdue =>
    obtain ⟨hstore, hlimit⟩ := hfinds
    refine h.served rfl ?_
    rw [MemoryStore.serve_late (hlimit.mp (Nat.lt_of_le_of_lt hwake hdue)), hstore]
  | @answered r f k hdue =>
    obtain ⟨hstore, hlimit⟩ := hfinds
    obtain ⟨hmap, -⟩ := request_of_plays h.plays hheld
    -- An answer that is there in spite of an earlier limit would have been overslept.
    have hintime : ¬ f.withinMs.any
        (· < (MemoryStore.grid.start (Terms.served.afterAll s₀ ds) r).1) = true :=
      fun hany => hawake ⟨hlimit.mpr hany, hdue⟩
    have hanswer : (ScriptedGrid.grid.finish w.grid f.ticket r).1 =
        (MemoryStore.grid.finish (w.grid.store p.mapName) 0 r).1 := by rw [← hmap]; rfl
    have hafter : (ScriptedGrid.grid.finish w.grid f.ticket r).2.store p.mapName =
        (MemoryStore.grid.finish (w.grid.store p.mapName) 0 r).2 := by
      rw [ScriptedGrid.finish_store hintact, if_pos hmap, hmap]
    refine h.served rfl ?_
    rw [MemoryStore.serve_in_time hintime, ← hstore]
    exact Prod.ext hanswer.symm hafter.symm

/-- A worker changes no store but that of its map. -/
theorem store_other (hplays : Plays p.work ds t.program)
    (hheld : ∀ h, (p.hand ds).held = some h → h.map = p.mapName)
    (hintact : w.grid.script.destroyAfter = none)
    (hmove : t.Move ScriptedGrid.grid w w' t' es) {map : String} (hmap : p.mapName ≠ map) :
    w'.grid.store map = w.grid.store map := by
  cases hmove with
  | refused | paused | clocked | picked | logged | published | woken | abandoned | late => rfl
  | @sent r withinMs k _ =>
    obtain ⟨hown, -⟩ := request_of_plays hplays hheld
    show (ScriptedGrid.grid.start w.grid r).2.2.store map = _
    rw [ScriptedGrid.start_store, hown, if_neg hmap]
  | @answered r f k _ =>
    obtain ⟨hown, -⟩ := request_of_plays hplays hheld
    show (ScriptedGrid.grid.finish w.grid f.ticket r).2.store map = _
    rw [ScriptedGrid.finish_store hintact, hown, if_neg hmap]

/-- Nobody changes the script. -/
theorem script_of_move (hintact : w.grid.script.destroyAfter = none)
    (hmove : t.Move ScriptedGrid.grid w w' t' es) : w'.grid.script = w.grid.script := by
  cases hmove with
  | refused | paused | clocked | picked | logged | published | woken | abandoned | late => rfl
  | sent => exact ScriptedGrid.start_script w.grid _
  | answered => exact ScriptedGrid.finish_script hintact _ _

/-- The handle that a worker holds stays one to its map. -/
theorem held_of_move (hplays : Plays p.work ds t.program)
    (hheld : ∀ h, (p.hand ds).held = some h → h.map = p.mapName)
    (hmove : t.Move ScriptedGrid.grid w w' t' es) :
    ∀ h, (p.hand (ds ++ es)).held = some h → h.map = p.mapName := by
  rw [hand_append]
  cases hmove with
  | sent | woken | paused | clocked | picked | logged | published => exact hheld
  | @refused r _ _ _ _ | @abandoned r _ _ _ _ | @late r _ _ _ _ => cases r <;> exact hheld
  | @answered r f k _ =>
    cases r with
    | call h c => exact hheld
    | release h => exact hheld
    | acquire m =>
      obtain ⟨hown, -⟩ := request_of_plays hplays hheld
      have hhandle := ((w.grid.store m).acquire_entries m).2
      show ∀ h, (p.terms.after (p.hand ds)
        ⟨.ask (.acquire m) f.withinMs, ((w.grid.store m).acquire m).1⟩).held = some h → _
      cases hanswer : ((w.grid.store m).acquire m).1 with
      | error f => exact hheld
      | ok h =>
        rintro _ ⟨rfl⟩
        exact (hhandle h hanswer).trans hown

end Partition

end GridBench
