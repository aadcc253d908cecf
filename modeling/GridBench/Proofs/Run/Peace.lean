/-
  GridBench.Proofs.Run.Peace

  Workers side by side on one calm store.  A worker is `Steady` if everything
  it has seen is what it would have seen with the store to itself: the replies
  in its diary are truthful, and on the keys of its elements the store holds
  what its own calls made of it.  A step of a steady worker is `Gentle` towards
  the others, and a worker stays steady under the gentle steps of workers whose
  keys are not its own.  `Peace` says that all workers are steady, and every
  step preserves it (`Peace.move`).
-/
import GridBench.Proofs.Run.Stance

namespace GridBench

/-! ## Truthful replies -/

/-- What a worker that has its map to itself can tell from its diary: the entries of the map, and
    its last pick. -/
structure Sight where
  entries : Entries
  picked : Option (Pick × Nat) := none

namespace Sight

/-- The sight after a deed. -/
def after (t : Sight) : Deed → Sight
  | ⟨.ask (.call _ c) _, _⟩ => { t with entries := (c.apply t.entries).2 }
  | ⟨.pick p, n⟩ => { t with picked := some (p, n) }
  | _ => t

/-- Whether a reply is what a worker gets that has a calm store to itself.  A number may be picked
    with any draws. -/
def Admits (t : Sight) : Deed → Prop
  | ⟨.ask (.acquire m) _, a⟩ => ∃ n, a = .ok ⟨n, m⟩
  | ⟨.ask (.call _ c) _, a⟩ => a = .ok (c.apply t.entries).1
  | ⟨.ask (.release _) _, a⟩ => a = .ok ()
  | ⟨.pick p, n⟩ => ∃ d, n = (p.take d).1
  | _ => True

end Sight

/-- The terms of a worker that reckons with truthful replies only. -/
def Terms.truthful (P : Effect → Prop) : Terms Sight where
  may _ e := P e
  admits t d := t.Admits d
  after t d := t.after d

/-- The terms under which a diary is looked at, whatever the worker may do. -/
abbrev Terms.seen : Terms Sight := .truthful fun _ => True

theorem Terms.grants_truthful {P : Effect → Prop} {t : Sight} {ds : List Deed}
    (h : Terms.seen.Grants t ds) : (Terms.truthful P).Grants t ds := by
  induction ds generalizing t with
  | nil => trivial
  | cons d ds ih => exact ⟨h.1, ih h.2⟩

namespace Partition

/-- What the worker can tell from its diary, by the entries its map had at first. -/
def sight (e : Entries) (ds : List Deed) : Sight := Terms.seen.afterAll ⟨e, none⟩ ds

/-- A worker that has seen nothing of anyone else: where it is, and how it stands with the
    store. -/
structure Steady (p : Partition) (e : Entries) (s : MemoryStore) (clock : Nat) (t : Worker)
    (ds : List Deed) : Prop where
  plays : Proc.Plays p.work ds t.program
  grants : Terms.seen.Grants ⟨e, none⟩ ds
  agree : ∀ key, p.Owns key → (s.entries p.mapName)[key]? = (sight e ds).entries[key]?
  punctual : ∀ r f k, t = .waiting r f k → f.due ≤ clock
  holds : ∀ h, (p.hand ds).held = some h → h.map = p.mapName ∧ h.number < s.issued ∧
    ((p.hand ds).released = false → s.isReleased h = false)

variable {p q : Partition} {e : Entries} {s s' : MemoryStore} {clock clock' : Nat}
variable {t t' : Worker} {ds es : List Deed}

theorem sight_append (ds es : List Deed) :
    sight e (ds ++ es) = Terms.seen.afterAll (sight e ds) es := Terms.afterAll_append _ _ _ _

/-- A worker at its start. -/
theorem steady_start (h : ∀ key, p.Owns key → (s.entries p.mapName)[key]? = e[key]?) :
    p.Steady e s clock (.running p.work) [] where
  plays := .nil _
  grants := trivial
  agree := h
  punctual _ _ _ ht := by cases ht
  holds _ hh := by cases hh

/-- How a steady worker stands with the store. -/
theorem Steady.stands (h : p.Steady e s clock t ds) : p.Stands (sight e ds).entries s t ds :=
  ⟨h.plays, h.agree, h.holds⟩

/-- A worker that stands well goes on steadily, if the replies it got are truthful. -/
theorem Stands.steady {x : Entries} (h : p.Stands x s t (ds ++ es))
    (hds : Terms.seen.Grants ⟨e, none⟩ ds) (hes : Terms.seen.Grants (sight e ds) es)
    (hsight : (sight e (ds ++ es)).entries = x)
    (hpunctual : ∀ r f k, t = .waiting r f k → f.due ≤ clock) :
    p.Steady e s clock t (ds ++ es) where
  plays := h.plays
  grants := (Terms.grants_append _ _ _ _).mpr ⟨hds, hes⟩
  agree := by
    rw [hsight]
    exact h.agree
  punctual := hpunctual
  holds := h.holds

/-- A step that shows in nothing of the store is gentle and keeps the worker steady. -/
theorem Steady.alike (h : p.Steady e s clock t ds) (hs : s.Alike s')
    (hplays : Proc.Plays t.program es t'.program) (hgrants : Terms.seen.Grants (sight e ds) es)
    (hsight : (sight e (ds ++ es)).entries = (sight e ds).entries)
    (hhand : p.hand (ds ++ es) = p.hand ds)
    (hpunctual : ∀ r f k, t' = .waiting r f k → f.due ≤ clock') :
    p.Steady e s' clock' t' (ds ++ es) ∧ p.Gentle s s' (p.hand ds) (p.hand (ds ++ es)) := by
  obtain ⟨hstands, hgentle⟩ := h.stands.alike hs hplays hhand
  exact ⟨hstands.steady h.grants hgrants hsight hpunctual, hgentle⟩

/-- What an answer does for a worker that waits for it: the worker stays steady, and the step is
    gentle. -/
structure Served (p : Partition) (e : Entries) (s s' : MemoryStore) (clock : Nat) (t : Worker)
    (ds : List Deed) (d : Deed) : Prop where
  steady : p.Steady e s' clock t (ds ++ [d])
  gentle : p.Gentle s s' (p.hand ds) (p.hand (ds ++ [d]))

/-- Being given the map. -/
theorem Steady.acquire {m : String} {withinMs : Option Nat}
    {k : Except Fault Handle → Proc (Option String)} (h : p.Steady e s clock t ds)
    (hcalm : s.Calm) (htidy : s.Tidy) (ht : t.program = .op (.ask (.acquire m) withinMs) k) :
    p.Served e s (s.acquire m).2 clock (.running (k (s.acquire m).1)) ds
      ⟨.ask (.acquire m) withinMs, (s.acquire m).1⟩ := by
  have hwilling : s.faults.failGetMap = false := congrArg StoreFaults.failGetMap hcalm
  obtain ⟨hanswer, hstands, hgentle⟩ := h.stands.acquire hwilling htidy ht
  refine ⟨hstands.steady h.grants ⟨?_, trivial⟩ ?_ nofun, hgentle⟩
  · rw [hanswer]
    exact ⟨_, rfl⟩
  · rw [sight_append]
    rfl

/-- The answer to a call. -/
theorem Steady.call {hd : Handle} {c : MapCall} {withinMs : Option Nat}
    {k : Except Fault c.Answer → Proc (Option String)} (h : p.Steady e s clock t ds)
    (hcalm : s.Calm) (ht : t.program = .op (.ask (.call hd c) withinMs) k) :
    p.Served e s (s.call hd c).2 clock (.running (k (s.call hd c).1)) ds
      ⟨.ask (.call hd c) withinMs, (s.call hd c).1⟩ := by
  have hcall := MemoryStore.call_calm hcalm (h.stands.live ht) c
  obtain ⟨hanswer, hstands, hgentle⟩ := h.stands.answered ht hcall
  refine ⟨hstands.steady h.grants ⟨hanswer, trivial⟩ ?_ nofun, hgentle⟩
  rw [sight_append]
  rfl

/-- Giving the handle back. -/
theorem Steady.release {hd : Handle} {withinMs : Option Nat}
    {k : Except Fault Unit → Proc (Option String)} (h : p.Steady e s clock t ds)
    (ht : t.program = .op (.ask (.release hd) withinMs) k) :
    p.Served e s (s.release hd).2 clock (.running (k (s.release hd).1)) ds
      ⟨.ask (.release hd) withinMs, (s.release hd).1⟩ := by
  obtain ⟨hanswer, -, hstands, hgentle⟩ := h.stands.release ht
  refine ⟨hstands.steady h.grants ⟨hanswer, trivial⟩ ?_ nofun, hgentle⟩
  rw [sight_append]
  rfl

variable {w w' : World MemoryStore}

/-- A move of a steady worker in a world that is not cancelled. -/
theorem Steady.move (h : p.Steady e w.grid w.clock t ds) (hcalm : w.grid.Calm)
    (htidy : w.grid.Tidy) (hrun : w.cancelled = false)
    (hmove : t.Move MemoryStore.grid w w' t' es) :
    p.Steady e w'.grid w'.clock t' (ds ++ es) ∧
      p.Gentle w.grid w'.grid (p.hand ds) (p.hand (ds ++ es)) := by
  have hplays := hmove.plays
  -- Moves that do not reach the store.
  have hquiet : ∀ {es : List Deed} {t' : Worker}, Proc.Plays t.program es t'.program →
      Terms.seen.Grants (sight e ds) es → (sight e (ds ++ es)).entries = (sight e ds).entries →
      p.hand (ds ++ es) = p.hand ds → (∀ r f k, t' = .waiting r f k → f.due ≤ w.clock) →
      p.Steady e w.grid w.clock t' (ds ++ es) ∧
        p.Gentle w.grid w.grid (p.hand ds) (p.hand (ds ++ es)) := h.alike w.grid.alike_refl
  cases hmove with
  | refused hc => exact absurd hc (by simp [hrun])
  | abandoned hc => exact absurd hc (by simp [hrun])
  -- On a calm store no answer is late.
  | late _ hdue => exact absurd (h.punctual _ _ _ rfl) (by omega)
  | @sent r withinMs k _ =>
    refine h.alike (w.grid.alike_start r) hplays trivial (by rw [List.append_nil])
      (by rw [List.append_nil]) fun r' f k' ht => ?_
    cases ht
    have hdelay : (MemoryStore.grid.start w.grid r).1 = 0 := by
      have hfaults : w.grid.faults = {} := hcalm
      match r with
      | .acquire _ => exact congrArg StoreFaults.getMapDelayMs hfaults
      | .call .. | .release _ => rfl
    simp [hdelay]
  | woken _ => exact hquiet hplays trivial (by rw [List.append_nil]) (by rw [List.append_nil]) nofun
  | picked =>
    refine hquiet hplays ⟨⟨_, rfl⟩, trivial⟩ ?_ (hand_append _ _) nofun
    rw [sight_append]
    rfl
  | paused | clocked | logged | published =>
    refine hquiet hplays ⟨trivial, trivial⟩ ?_ (hand_append _ _) nofun
    rw [sight_append]
    rfl
  | @answered r f k _ =>
    match r with
    | .acquire m =>
      obtain ⟨hsteady, hgentle⟩ := h.acquire hcalm htidy rfl
      exact ⟨hsteady, hgentle⟩
    | .call hd c =>
      obtain ⟨hsteady, hgentle⟩ := h.call hcalm rfl
      exact ⟨hsteady, hgentle⟩
    | .release hd =>
      obtain ⟨hsteady, hgentle⟩ := h.release rfl
      exact ⟨hsteady, hgentle⟩

/-! ## Between workers -/

/-- A worker stays steady under the gentle step of another one, whose keys and handle are not its
    own. -/
theorem Steady.beside {before after : Hand} (h : q.Steady e s clock t ds)
    (hstep : p.Gentle s s' before after) (hapart : q.Apart p) (hclock : clock ≤ clock')
    (hhands : ∀ h h', (q.hand ds).held = some h → before.held = some h' → h.number ≠ h'.number) :
    q.Steady e s' clock' t ds where
  plays := h.plays
  grants := h.grants
  agree := (h.stands.beside hstep hapart hhands).agree
  punctual r f k ht := Nat.le_trans (h.punctual r f k ht) hclock
  holds := (h.stands.beside hstep hapart hhands).holds

end Partition

/-! ## All workers -/

/-- The workers of the partitions of a team at peace on one store: it started as `s₀` and is `s`
    now. -/
structure Peace {ι : Type} (team : ι → Partition) (s₀ s : MemoryStore) (clock : Nat)
    (workers : ι → Worker) (diaries : ι → List Deed) : Prop where
  calm : s.Calm
  tidy : s.Tidy
  steady : ∀ i, (team i).Steady (s₀.entries (team i).mapName) s clock (workers i) (diaries i)
  hands : ∀ i j h h', i ≠ j → ((team i).hand (diaries i)).held = some h →
    ((team j).hand (diaries j)).held = some h' → h.number ≠ h'.number
  others : ∀ map key, (∀ i, ¬ (map = (team i).mapName ∧ (team i).Owns key)) →
    (s.entries map)[key]? = (s₀.entries map)[key]?

namespace Peace

variable {ι : Type} {team : ι → Partition} {s₀ s : MemoryStore} {clock clock' : Nat}
variable {workers : ι → Worker} {diaries : ι → List Deed}

/-- Workers at their start are at peace. -/
theorem start (hcalm : s.Calm) (htidy : s.Tidy) :
    Peace team s s clock (fun i => .running (team i).work) fun _ => [] where
  calm := hcalm
  tidy := htidy
  steady _ := Partition.steady_start fun _ _ => rfl
  hands _ _ _ _ _ hh := by cases hh
  others _ _ _ := rfl

/-- Time may pass. -/
theorem wait (h : Peace team s₀ s clock workers diaries) (hclock : clock ≤ clock') :
    Peace team s₀ s clock' workers diaries where
  calm := h.calm
  tidy := h.tidy
  steady i :=
    { h.steady i with
      punctual := fun r f k ht => Nat.le_trans ((h.steady i).punctual r f k ht) hclock }
  hands := h.hands
  others := h.others

/-- A move of one worker keeps the peace. -/
theorem move [DecidableEq ι] {w w' : World MemoryStore} {t' : Worker} {es : List Deed} {i : ι}
    (h : Peace team s₀ w.grid w.clock workers diaries)
    (hapart : ∀ i j, i ≠ j → (team i).Apart (team j)) (hrun : w.cancelled = false)
    (hmove : (workers i).Move MemoryStore.grid w w' t' es) :
    Peace team s₀ w'.grid w'.clock (Function.update workers i t')
      (Function.update diaries i (diaries i ++ es)) := by
  obtain ⟨hsteady, hgentle⟩ := (h.steady i).move h.calm h.tidy hrun hmove
  have hclock : w.clock ≤ w'.clock := Nat.le_of_eq hmove.world.2.symm
  have hdiary : ∀ j, j ≠ i → Function.update diaries i (diaries i ++ es) j = diaries j :=
    fun j hj => Function.update_of_ne hj _ _
  have hnum : ∀ j hd, ((team j).hand (diaries j)).held = some hd → hd.number < w.grid.issued :=
    fun j hd hh => ((h.steady j).holds hd hh).2.1
  -- What the workers have at hand changes for the one that moves.
  have hhand := Function.apply_update (fun j => (team j).hand) diaries i (diaries i ++ es)
  refine ⟨hgentle.calm h.calm, hgentle.tidy h.tidy (hnum i), fun j => ?_,
    fun j k hd hd' hjk hh hh' => ?_, ?_⟩
  · by_cases hj : j = i
    · subst hj
      rw [Function.update_self, Function.update_self]
      exact hsteady
    · rw [hdiary j hj, Function.update_of_ne hj]
      exact (h.steady j).beside hgentle (hapart j i hj) hclock fun hd hd' hh hh' =>
        h.hands j i hd hd' hj hh hh'
  · exact hgentle.hands (fun j => (team j).hand (diaries j)) rfl hnum h.hands j k hd hd' hjk
      (hhand j ▸ hh) (hhand k ▸ hh')
  · intro map key hother
    rw [hgentle.entries map key (hother i)]
    exact h.others map key hother

end Peace

end GridBench
