/-
  GridBench.Proofs.Run.Stance

  How a worker stands with a store that it shares with others.  `Stands` says
  that the worker is where its diary says it is, that on the keys of its
  elements the store holds the entries it can tell, and that the handle it
  holds is one it may use.  There is one lemma for each thing the store does for
  a worker; whatever it is, it is `Gentle` towards the others, and they stand as
  they did (`Stands.beside`).
-/
import Mathlib.Logic.Function.Basic
import GridBench.Proofs.Store.Memory
import GridBench.Proofs.Run.Move
import GridBench.Proofs.Run.Work

namespace GridBench

namespace MemoryStore

/-- Stores that differ in the calls counted only. -/
structure Alike (s s' : MemoryStore) : Prop where
  entries : ∀ map, s'.entries map = s.entries map
  faults : s'.faults = s.faults
  issued : s'.issued = s.issued
  released : s'.released = s.released

theorem alike_refl (s : MemoryStore) : s.Alike s := ⟨fun _ => rfl, rfl, rfl, rfl⟩

theorem alike_start (s : MemoryStore) (r : Request) : s.Alike (grid.start s r).2.2 := by
  match r with
  | .acquire _ | .call .. | .release _ => exact ⟨fun _ => rfl, rfl, rfl, rfl⟩

/-- The store with nothing set to go wrong. -/
def mended (s : MemoryStore) : MemoryStore := { s with faults := {} }

end MemoryStore

namespace Partition

/-- What the partition's worker has at hand after a diary. -/
def hand (p : Partition) (ds : List Deed) : Hand := p.terms.afterAll {} ds

/-- A step of the partition's worker that leaves the others alone: it changes entries of its own
    keys only, gives back no handle but its own, and takes none that was given out before. -/
structure Gentle (p : Partition) (s s' : MemoryStore) (before after : Hand) : Prop where
  faults : s'.faults = s.faults
  issued : s.issued ≤ s'.issued
  entries : ∀ map key, ¬ (map = p.mapName ∧ p.Owns key) →
    (s'.entries map)[key]? = (s.entries map)[key]?
  released : ∀ n ∈ s'.released, n ∈ s.released ∨ ∃ h, before.held = some h ∧ h.number = n
  held : ∀ h, after.held = some h →
    before.held = some h ∨ s.issued ≤ h.number ∧ h.number < s'.issued

/-- Whether two partitions have an entry in common. -/
def Apart (p q : Partition) : Prop := ∀ key, p.mapName = q.mapName → p.Owns key → ¬ q.Owns key

/-- How a worker stands with the store, where `x` are the entries of its map as far as it can
    tell. -/
structure Stands (p : Partition) (x : Entries) (s : MemoryStore) (t : Worker) (ds : List Deed) :
    Prop where
  plays : Proc.Plays p.work ds t.program
  agree : ∀ key, p.Owns key → (s.entries p.mapName)[key]? = x[key]?
  holds : ∀ h, (p.hand ds).held = some h → h.map = p.mapName ∧ h.number < s.issued ∧
    ((p.hand ds).released = false → s.isReleased h = false)

variable {p q : Partition} {x x' : Entries} {s s' : MemoryStore} {t t' : Worker}
variable {ds es : List Deed}

theorem hand_append (ds es : List Deed) :
    p.hand (ds ++ es) = p.terms.afterAll (p.hand ds) es := Terms.afterAll_append _ _ _ _

/-! ## What the store does for a worker -/

/-- A step that neither issues nor releases a handle. -/
theorem Stands.keep (h : p.Stands x s t ds) (hissued : s'.issued = s.issued)
    (hreleased : s'.released = s.released) (hplays : Proc.Plays t.program es t'.program)
    (hhand : p.hand (ds ++ es) = p.hand ds)
    (hagree : ∀ key, p.Owns key → (s'.entries p.mapName)[key]? = x'[key]?) :
    p.Stands x' s' t' (ds ++ es) := by
  refine ⟨h.plays.append hplays, hagree, ?_⟩
  rw [hhand, hissued]
  intro hd hh
  obtain ⟨hmap, hnum, hlive⟩ := h.holds hd hh
  refine ⟨hmap, hnum, fun hr => ?_⟩
  rw [MemoryStore.isReleased, hreleased]
  exact hlive hr

theorem gentle_of_kept {before after : Hand} (hfaults : s'.faults = s.faults)
    (hissued : s'.issued = s.issued) (hreleased : s'.released = s.released)
    (hhand : after = before)
    (hothers : ∀ map key, ¬ (map = p.mapName ∧ p.Owns key) →
      (s'.entries map)[key]? = (s.entries map)[key]?) : p.Gentle s s' before after := by
  refine ⟨hfaults, Nat.le_of_eq hissued.symm, hothers, fun n hn => ?_, fun hd hh => ?_⟩
  · rw [hreleased] at hn
    exact .inl hn
  · rw [hhand] at hh
    exact .inl hh

/-- A step that shows in nothing of the store. -/
theorem Stands.alike (h : p.Stands x s t ds) (hs : s.Alike s')
    (hplays : Proc.Plays t.program es t'.program) (hhand : p.hand (ds ++ es) = p.hand ds) :
    p.Stands x s' t' (ds ++ es) ∧ p.Gentle s s' (p.hand ds) (p.hand (ds ++ es)) := by
  refine ⟨h.keep hs.issued hs.released hplays hhand fun key hkey => ?_,
    gentle_of_kept hs.faults hs.issued hs.released hhand fun map key _ => ?_⟩
  · rw [hs.entries]
    exact h.agree key hkey
  · rw [hs.entries]

/-- Being given the map: it is the worker's own, with a new handle. -/
theorem Stands.acquire {m : String} {withinMs : Option Nat}
    {k : Except Fault Handle → Proc (Option String)} (h : p.Stands x s t ds)
    (hwilling : s.faults.failGetMap = false) (htidy : s.Tidy)
    (ht : t.program = .op (.ask (.acquire m) withinMs) k) :
    (s.acquire m).1 = .ok ⟨s.issued, m⟩ ∧
      p.Stands x (s.acquire m).2 (.running (k (s.acquire m).1))
        (ds ++ [⟨.ask (.acquire m) withinMs, (s.acquire m).1⟩]) ∧
      p.Gentle s (s.acquire m).2 (p.hand ds)
        (p.hand (ds ++ [⟨.ask (.acquire m) withinMs, (s.acquire m).1⟩])) := by
  obtain ⟨rfl, -⟩ := may_of_plays_work (ht ▸ h.plays)
  obtain ⟨hanswer, hentries, hfaults, hissued, hreleased⟩ :=
    MemoryStore.acquire_willing hwilling p.mapName
  rw [hanswer]
  have hhand : p.hand (ds ++ [⟨.ask (.acquire p.mapName) withinMs, .ok ⟨s.issued, p.mapName⟩⟩]) =
      { p.hand ds with held := some ⟨s.issued, p.mapName⟩ } := hand_append _ _
  refine ⟨rfl, ⟨h.plays.append (ht ▸ .cons (.nil _)), fun key hkey => ?_, fun hd hh => ?_⟩,
    ⟨hfaults, by omega, fun map key _ => ?_, fun n hn => ?_, fun hd hh => ?_⟩⟩
  · rw [hentries]
    exact h.agree key hkey
  · rw [hhand] at hh
    cases hh
    refine ⟨rfl, by simp [hissued], fun _ => ?_⟩
    rw [MemoryStore.isReleased, hreleased]
    -- A tidy store has released none of the handles to come.
    have hfresh : s.issued ∉ s.released := fun hmem => Nat.lt_irrefl _ (htidy _ hmem)
    simpa using hfresh
  · rw [hentries]
  · rw [hreleased] at hn
    exact .inl hn
  · rw [hhand] at hh
    cases hh
    exact .inr ⟨Nat.le_refl _, by simp [hissued]⟩

section

variable {hd : Handle} {c : MapCall} {withinMs : Option Nat}
variable {k : Except Fault c.Answer → Proc (Option String)}

/-- A worker calls with a handle that it has not given back. -/
theorem Stands.live (h : p.Stands x s t ds)
    (ht : t.program = .op (.ask (.call hd c) withinMs) k) : s.isReleased hd = false := by
  obtain ⟨hheld, hopen, -⟩ := may_of_plays_work (ht ▸ h.plays)
  exact (h.holds hd hheld).2.2 hopen

/-- A call that is carried out: its answer is what the worker could tell. -/
theorem Stands.answered (h : p.Stands x s t ds)
    (ht : t.program = .op (.ask (.call hd c) withinMs) k)
    {r : Except Fault c.Answer × MemoryStore} (hcall : s.Answered hd c r) :
    r.1 = .ok (c.apply x).1 ∧
      p.Stands (c.apply x).2 r.2 (.running (k r.1)) (ds ++ [⟨.ask (.call hd c) withinMs, r.1⟩]) ∧
      p.Gentle s r.2 (p.hand ds) (p.hand (ds ++ [⟨.ask (.call hd c) withinMs, r.1⟩])) := by
  obtain ⟨hheld, -, -, howns⟩ := may_of_plays_work (ht ▸ h.plays)
  obtain ⟨hmap, -, -⟩ := h.holds hd hheld
  have hplays : Proc.Plays t.program [⟨.ask (.call hd c) withinMs, r.1⟩]
      (Worker.running (k r.1)).program := ht ▸ .cons (.nil _)
  -- The call is about a key of the worker, on which the store agrees with what it can tell.
  obtain ⟨hanswer, hagree, hothers⟩ := hcall.agree (P := p.Owns) howns (hmap ▸ h.agree)
  rw [hmap] at hagree hothers
  exact ⟨hanswer, h.keep hcall.issued hcall.released hplays (hand_append _ _) hagree,
    gentle_of_kept hcall.faults hcall.issued hcall.released (hand_append _ _) hothers⟩

/-- A call that misbehaves has no effect but on what is set to go wrong. -/
theorem Stands.struck (h : p.Stands x s t ds)
    (ht : t.program = .op (.ask (.call hd c) withinMs) k)
    {r : Except Fault c.Answer × MemoryStore} (hcall : s.Struck c r) :
    p.Stands x r.2 (.running (k r.1)) (ds ++ [⟨.ask (.call hd c) withinMs, r.1⟩]) ∧
      p.Gentle s.mended r.2.mended (p.hand ds)
        (p.hand (ds ++ [⟨.ask (.call hd c) withinMs, r.1⟩])) := by
  have hplays : Proc.Plays t.program [⟨.ask (.call hd c) withinMs, r.1⟩]
      (Worker.running (k r.1)).program := ht ▸ .cons (.nil _)
  refine ⟨h.keep hcall.issued hcall.released hplays (hand_append _ _) fun key hkey => ?_,
    gentle_of_kept rfl hcall.issued hcall.released (hand_append _ _) fun map key _ =>
      congrArg (fun e : Entries => e[key]?) (hcall.entries map)⟩
  rw [hcall.entries]
  exact h.agree key hkey

end

/-- Giving the handle back, for the first time. -/
theorem Stands.release {hd : Handle} {withinMs : Option Nat}
    {k : Except Fault Unit → Proc (Option String)} (h : p.Stands x s t ds)
    (ht : t.program = .op (.ask (.release hd) withinMs) k) :
    (s.release hd).1 = .ok () ∧ (s.release hd).2.faults = s.faults ∧
      p.Stands x (s.release hd).2 (.running (k (s.release hd).1))
        (ds ++ [⟨.ask (.release hd) withinMs, (s.release hd).1⟩]) ∧
      p.Gentle s (s.release hd).2 (p.hand ds)
        (p.hand (ds ++ [⟨.ask (.release hd) withinMs, (s.release hd).1⟩])) := by
  obtain ⟨hheld, hopen, rfl⟩ := may_of_plays_work (ht ▸ h.plays)
  obtain ⟨hanswer, hentries, hfaults, hissued, hreleased⟩ :=
    MemoryStore.release_live ((h.holds hd hheld).2.2 hopen)
  have hhand : p.hand (ds ++ [⟨.ask (.release hd) none, (s.release hd).1⟩]) =
      { p.hand ds with released := true } := hand_append _ _
  refine ⟨hanswer, hfaults, ⟨h.plays.append (ht ▸ .cons (.nil _)), fun key hkey => ?_,
    fun hd' hh => ?_⟩, ⟨hfaults, Nat.le_of_eq hissued.symm, fun map key _ => ?_, fun n hn => ?_,
    fun hd' hh => ?_⟩⟩
  · rw [hentries]
    exact h.agree key hkey
  · rw [hhand] at hh ⊢
    obtain ⟨hmap', hnum', -⟩ := h.holds hd' hh
    exact ⟨hmap', hissued ▸ hnum', nofun⟩
  · rw [hentries]
  · rw [hreleased, List.mem_cons] at hn
    rcases hn with rfl | hn
    · exact .inr ⟨hd, hheld, rfl⟩
    · exact .inl hn
  · rw [hhand] at hh
    exact .inl hh

/-! ## Between workers -/

/-- A gentle step keeps a store calm. -/
theorem Gentle.calm {before after : Hand} (h : p.Gentle s s' before after) (hcalm : s.Calm) :
    s'.Calm := h.faults.trans hcalm

/-- A gentle step stays one if nothing is set to go wrong. -/
theorem Gentle.mended {before after : Hand} (h : p.Gentle s s' before after) :
    p.Gentle s.mended s'.mended before after :=
  ⟨rfl, h.issued, h.entries, h.released, h.held⟩

/-- A gentle step keeps a store tidy. -/
theorem Gentle.tidy {before after : Hand} (h : p.Gentle s s' before after) (htidy : s.Tidy)
    (hheld : ∀ h, before.held = some h → h.number < s.issued) : s'.Tidy := by
  intro n hn
  rcases h.released n hn with hold | ⟨hd, hh, rfl⟩
  · exact Nat.lt_of_lt_of_le (htidy n hold) h.issued
  · exact Nat.lt_of_lt_of_le (hheld hd hh) h.issued

/-- A handle that was issued and not released stays so under the gentle step of another worker. -/
theorem Gentle.beside {before after : Hand} (h : p.Gentle s s' before after) {hd : Handle}
    (hnum : hd.number < s.issued) (hhands : ∀ h', before.held = some h' → hd.number ≠ h'.number) :
    hd.number < s'.issued ∧ (s.isReleased hd = false → s'.isReleased hd = false) := by
  refine ⟨Nat.lt_of_lt_of_le hnum h.issued, fun hlive => ?_⟩
  -- The step may have released the handle of the worker that made it, and no other.
  rw [MemoryStore.isReleased, List.contains_eq_mem, decide_eq_false_iff_not] at hlive ⊢
  intro hmem
  rcases h.released _ hmem with hold | ⟨hd', hh', hnumber⟩
  · exact hlive hold
  · exact hhands hd' hh' hnumber.symm

/-- Workers with different handles keep different handles when one of them makes a gentle step. -/
theorem Gentle.hands {ι : Type} [DecidableEq ι] {i : ι} {before after : Hand}
    (h : p.Gentle s s' before after) (hands : ι → Hand) (hbefore : hands i = before)
    (hnum : ∀ j hd, (hands j).held = some hd → hd.number < s.issued)
    (hdistinct : ∀ j k hd hd', j ≠ k → (hands j).held = some hd → (hands k).held = some hd' →
      hd.number ≠ hd'.number) (j k : ι) (hd hd' : Handle) (hjk : j ≠ k)
    (hj : (Function.update hands i after j).held = some hd)
    (hk : (Function.update hands i after k).held = some hd') : hd.number ≠ hd'.number := by
  -- A handle that the worker has now is the one it had before, or a new one.
  have hnew : ∀ l hl hi, l ≠ i → (hands l).held = some hl → after.held = some hi →
      hl.number ≠ hi.number := by
    intro l hl hi hne hheld hafter
    rcases h.held hi hafter with hold | ⟨hge, _⟩
    · exact hdistinct l i hl hi hne hheld (hbefore ▸ hold)
    · have hlt := hnum l hl hheld
      omega
  by_cases hji : j = i
  · subst hji
    rw [Function.update_self] at hj
    rw [Function.update_of_ne (Ne.symm hjk)] at hk
    exact (hnew k hd' hd (Ne.symm hjk) hk hj).symm
  · rw [Function.update_of_ne hji] at hj
    by_cases hki : k = i
    · subst hki
      rw [Function.update_self] at hk
      exact hnew j hd hd' hji hj hk
    · rw [Function.update_of_ne hki] at hk
      exact hdistinct j k hd hd' hjk hj hk

/-- A worker stands as it did under the gentle step of another one, whose keys and handle are not
    its own. -/
theorem Stands.beside {before after : Hand} (h : q.Stands x s t ds)
    (hstep : p.Gentle s s' before after) (hapart : q.Apart p)
    (hhands : ∀ h h', (q.hand ds).held = some h → before.held = some h' → h.number ≠ h'.number) :
    q.Stands x s' t ds where
  plays := h.plays
  agree key hkey := by
    rw [hstep.entries _ _ fun hp => hapart key hp.1 hkey hp.2]
    exact h.agree key hkey
  holds hd hh := by
    obtain ⟨hmap, hnum, hlive⟩ := h.holds hd hh
    obtain ⟨hnum', hlive'⟩ := hstep.beside hnum fun hd' => hhands hd hd' hh
    exact ⟨hmap, hnum', fun hr => hlive' (hlive hr)⟩

/-- What is set to go wrong does not matter to how a worker stands. -/
theorem stands_mended : p.Stands x s.mended t ds ↔ p.Stands x s t ds :=
  ⟨fun h => ⟨h.plays, h.agree, h.holds⟩, fun h => ⟨h.plays, h.agree, h.holds⟩⟩

end Partition

end GridBench
