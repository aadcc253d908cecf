/-
  GridBench.Proofs.Run.Crew

  Workers of any test loops and clients on one store.  A `Crew` is a number of
  partition workers that share a world in memory, each with its draws, and any
  of them may move next.  Workers of numbered elements never address an entry
  of each other, whatever their clients and maps are called (`apart_of_isLoad`),
  so that they are at peace, and each does what it would have done alone.
-/
import GridBench.Proofs.Naming.Keys
import GridBench.Proofs.Run.Ending
import GridBench.Proofs.Run.Replica

namespace GridBench

/-- Partition workers that share a world, with the draws and the diary of each. -/
structure Crew (n : Nat) where
  team : Fin n → Partition
  world : World MemoryStore
  workers : Fin n → Worker
  draws : Fin n → Draws
  diaries : Fin n → List Deed

namespace Crew

variable {n : Nat}

/-- All workers of a team at their start. -/
def start (team : Fin n → Partition) (w : World MemoryStore) (draws : Fin n → Draws) : Crew n where
  team := team
  world := w
  workers i := .running (team i).work
  draws := draws
  diaries _ := []

/-- A worker without colleagues. -/
def alone (p : Partition) (w : World MemoryStore) (draws : Draws) : Crew 1 :=
  start (fun _ => p) w fun _ => draws

/-- The world as a worker finds it: its draws are its own. -/
def worldOf (c : Crew n) (i : Fin n) : World MemoryStore := { c.world with draws := c.draws i }

/-- A step of one worker. -/
def step? (c : Crew n) (i : Fin n) : Option (Crew n) :=
  ((c.workers i).step? MemoryStore.grid (c.worldOf i)).map fun (w, t, _) =>
    { c with
      world := w
      workers := Function.update c.workers i t
      draws := Function.update c.draws i w.draws
      diaries := Function.update c.diaries i
        (c.diaries i ++ (c.workers i).deeds MemoryStore.grid (c.worldOf i)) }

/-- The crew at a later moment. -/
def wait (c : Crew n) (moment : Nat) : Crew n := { c with world := c.world.passUntil moment }

/-- A step of any worker, after any time. -/
def Moves (c c' : Crew n) : Prop := ∃ moment i, (c.wait moment).step? i = some c'

/-- Any number of steps. -/
abbrev Reaches : Crew n → Crew n → Prop := Relation.ReflTransGen Moves

/-- All workers have ended. -/
def Ended (c : Crew n) : Prop := ∀ i, (c.workers i).hasEnded = true

/-- What one step of a crew can be. -/
theorem move_of_step? {c c' : Crew n} {i : Fin n} (h : c.step? i = some c') :
    ∃ w t ds, (c.workers i).Move MemoryStore.grid (c.worldOf i) w t ds ∧
      c' = { c with
        world := w
        workers := Function.update c.workers i t
        draws := Function.update c.draws i w.draws
        diaries := Function.update c.diaries i (c.diaries i ++ ds) } := by
  simp only [step?, Option.map_eq_some_iff] at h
  obtain ⟨⟨w, t, us⟩, hstep, rfl⟩ := h
  obtain ⟨hmove, _⟩ := Worker.move_of_step? hstep
  exact ⟨w, t, _, hmove, rfl⟩

/-! ## Coming to an end -/

/-- The workers, of which each comes nearer to its end. -/
def Less (n : Nat) : (Fin n → Worker) → (Fin n → Worker) → Prop :=
  Pi.Lex (· < ·) (fun {_} => Worker.Nearer)

/-- Every crew comes to its end. -/
theorem inevitable_ended (c : Crew n) : Inevitable Moves Ended c := by
  refine Inevitable.of_wellFounded (I := fun _ => True) (r := Less n)
    (lex_wf Worker.nearer_wf) workers trivial (fun c c' _ hmove => ⟨trivial, ?_⟩) fun c _ => ?_
  · obtain ⟨moment, i, hstep⟩ := hmove
    obtain ⟨w, t, ds, hmove, rfl⟩ := move_of_step? hstep
    refine lex_of_component i ?_ fun j hj => Function.update_of_ne hj _ _
    simp only [Function.update_self]
    exact hmove.nearer
  -- A worker that has not ended can move after a while, whatever the others do.
  · by_cases hended : c.Ended
    · exact .inl hended
    · obtain ⟨i, hi⟩ := not_forall.mp hended
      obtain ⟨moment, hmoment⟩ :=
        Worker.exists_step? (g := MemoryStore.grid) (Bool.eq_false_iff.mpr hi)
      have hstep := hmoment ((c.wait moment).worldOf i) (Nat.le_max_right _ _)
      have hsome : ((c.wait moment).step? i).isSome = true := by
        rw [step?, Option.isSome_map]
        exact hstep
      obtain ⟨c', hc'⟩ := Option.isSome_iff_exists.mp hsome
      exact .inr ⟨c', moment, i, hc'⟩

/-! ## Being at peace -/

/-- What holds of a crew at any time: its workers are at peace on their store, and each has drawn
    from its own draws. -/
structure AtPeace (team : Fin n → Partition) (s : MemoryStore) (draws : Fin n → Draws)
    (c : Crew n) : Prop where
  running : c.world.cancelled = false
  peace : Peace team s c.world.grid c.world.clock c.workers c.diaries
  drawn : ∀ i, Terms.drawn.Grants (draws i) (c.diaries i)
  draws_eq : ∀ i, c.draws i = Terms.drawn.afterAll (draws i) (c.diaries i)

variable {team : Fin n → Partition} {w : World MemoryStore} {draws : Fin n → Draws} {c c' : Crew n}

theorem atPeace_start (hcalm : w.grid.Calm) (htidy : w.grid.Tidy) (hrun : w.cancelled = false) :
    AtPeace team w.grid draws (start team w draws) where
  running := hrun
  peace := .start hcalm htidy
  drawn _ := trivial
  draws_eq _ := rfl

theorem AtPeace.step {s : MemoryStore} (hapart : ∀ i j, i ≠ j → (team i).Apart (team j))
    (h : c.AtPeace team s draws) (hmove : c.Moves c') : c'.AtPeace team s draws := by
  obtain ⟨moment, i, hstep⟩ := hmove
  obtain ⟨w, t, ds, hmove, rfl⟩ := move_of_step? hstep
  have hpeace : Peace team s ((c.wait moment).worldOf i).grid ((c.wait moment).worldOf i).clock
      (c.wait moment).workers (c.wait moment).diaries := h.peace.wait (Nat.le_max_left _ _)
  -- The worker draws from its own stream, which stands where its diary has left it.
  obtain ⟨hgrants, hdraws⟩ := hmove.drawn
  change Terms.drawn.Grants (c.draws i) ds at hgrants
  change w.draws = Terms.drawn.afterAll (c.draws i) ds at hdraws
  rw [h.draws_eq i] at hgrants hdraws
  refine ⟨hmove.world.1.trans h.running, hpeace.move hapart h.running hmove, fun j => ?_,
    fun j => ?_⟩
  · by_cases hj : j = i
    · subst hj
      simp only [Function.update_self]
      exact (Terms.grants_append _ _ _ _).mpr ⟨h.drawn j, hgrants⟩
    · simp only [Function.update_of_ne hj]
      exact h.drawn j
  · by_cases hj : j = i
    · subst hj
      simp only [Function.update_self, Terms.afterAll_append]
      exact hdraws
    · simp only [Function.update_of_ne hj]
      exact h.draws_eq j

theorem AtPeace.reaches {s : MemoryStore} (hapart : ∀ i j, i ≠ j → (team i).Apart (team j))
    (h : c.AtPeace team s draws) (hc : Reaches c c') : c'.AtPeace team s draws := by
  induction hc with
  | refl => exact h
  | tail _ hmove ih => exact ih.step hapart hmove

/-- What a worker of a crew has done by the time it has ended. -/
theorem AtPeace.plays {s : MemoryStore} (h : c.AtPeace team s draws) (hended : c.Ended)
    (i : Fin n) :
    Proc.Plays (team i).work (c.diaries i) (.done (c.workers i).crash?) := by
  rw [← Worker.program_of_hasEnded (hended i)]
  exact (h.peace.steady i).plays

/-! ## Numbered elements -/

/-- The elements of a partition are those that the load runner writes. -/
def IsLoad (p : Partition) : Prop :=
  ∃ count size d, p.config.elements = (LoadElement.populate count size d).1.map LoadElement.element

/-- The keys of numbered elements. -/
theorem exists_number_of_owns {p : Partition} (h : IsLoad p) {key : String} (hkey : p.Owns key) :
    ∃ k : Nat, key = storageKey p.config.client p.number (toString k) := by
  obtain ⟨count, size, d, helements⟩ := h
  obtain ⟨e, he, hk⟩ := hkey
  rw [helements] at he
  simp only [LoadElement.populate, List.map_map, List.mem_map, List.mem_range] at he
  obtain ⟨k, _, rfl⟩ := he
  have hk' : storageKey p.config.client p.number (toString k) = key := by
    simpa [Partition.key, LoadElement.element, Except.map] using hk
  exact ⟨k, hk'.symm⟩

/-- Partitions of two clients, or two partitions of one, have no key in common. -/
theorem apart_of_isLoad {p q : Partition} (hp : IsLoad p) (hq : IsLoad q)
    (hne : (p.config.client, p.number) ≠ (q.config.client, q.number)) : p.Apart q := by
  intro key _ hpk hqk
  obtain ⟨i, rfl⟩ := exists_number_of_owns hp hpk
  obtain ⟨j, hkey⟩ := exists_number_of_owns hq hqk
  obtain ⟨hclient, hnumber, _⟩ := storageKey_inj_of_numbered hkey
  exact hne (by rw [hclient, hnumber])

/-- Workers of numbered elements on one calm store.  However their steps interleave, they all come
    to an end, and each has then got the answers, worked the rounds, published the counts and left
    the entries that it gets, works, publishes and leaves when it is alone on a store with the same
    entries at first, and has the same draws. -/
theorem never_interfere (hload : ∀ i, IsLoad (team i))
    (hdistinct : ∀ i j, i ≠ j →
      ((team i).config.client, (team i).number) ≠ ((team j).config.client, (team j).number))
    (hcalm : w.grid.Calm) (htidy : w.grid.Tidy) (hrun : w.cancelled = false) :
    Inevitable Moves Ended (start team w draws) ∧
    ∀ (i : Fin n) (v : World MemoryStore), v.grid.Calm → v.grid.Tidy → v.cancelled = false →
      (∀ map, v.grid.entries map = w.grid.entries map) →
      Inevitable Moves Ended (alone (team i) v (draws i)) ∧
      ∀ c a, Reaches (start team w draws) c → c.Ended →
        Reaches (alone (team i) v (draws i)) a → a.Ended →
        callsOf (c.diaries i) = callsOf (a.diaries 0) ∧
        (team i).ends (c.diaries i) = (team i).ends (a.diaries 0) ∧
        published (c.diaries i) = published (a.diaries 0) ∧
        ∀ key, (team i).Owns key →
          (c.world.grid.entries (team i).mapName)[key]? =
            (a.world.grid.entries (team i).mapName)[key]? := by
  have hapart : ∀ i j, i ≠ j → (team i).Apart (team j) := fun i j hij =>
    apart_of_isLoad (hload i) (hload j) (hdistinct i j hij)
  refine ⟨inevitable_ended _, fun i v hvcalm hvtidy hvrun hsame =>
    ⟨inevitable_ended _, fun c a hc hcend ha haend => ?_⟩⟩
  -- Both crews are at peace at their ends, so both diaries are truthful.
  have hpc := (atPeace_start hcalm htidy hrun).reaches hapart hc
  have hpa := (atPeace_start hvcalm hvtidy hvrun).reaches
    (fun j k hjk => absurd (Subsingleton.elim j k) hjk) ha
  have hsc := hpc.peace.steady i
  have hsa := hpa.peace.steady 0
  rw [hsame] at hsa
  obtain ⟨hcalls, hends, hpublished⟩ := Partition.alike_of_plays (hpc.plays hcend i)
    (hpa.plays haend 0) hsc.grants hsa.grants (hpc.drawn i) (hpa.drawn 0)
  refine ⟨hcalls, hends, hpublished, fun key hkey => ?_⟩
  rw [hsc.agree key hkey, hsa.agree key hkey, Partition.entries_sight, Partition.entries_sight,
    hcalls]

/-- Two partitions that share a map.  The name of one client is the beginning of the keys of the
    other. -/
def samplePair (plan : RunPlan) (i : Fin 2) : Partition where
  config := { Watched.sampleConfig plan with client := if i = 0 then ⟨"a"⟩ else ⟨"a-0"⟩ }
  number := 0

/-- A store that holds an invalid value under a key of the second client. -/
def sampleStore : MemoryStore where
  maps := (∅ : Std.ExtTreeMap String Entries compare).insert "load"
    ((∅ : Entries).insert "a-0-0-0" .null)

/-- The two workers at the end of a common run, and the second of them at the end of its own. -/
theorem never_interfere_sample :
    ∃ plan c a, Watched.sampleSettings.resolve "map-tests.load" "load" = .ok plan ∧
      Reaches (start (samplePair plan) { grid := sampleStore } fun _ => .cyclic [1]) c ∧ c.Ended ∧
      Reaches (alone (samplePair plan 1) { grid := sampleStore } (.cyclic [1])) a ∧ a.Ended ∧
      callsOf (c.diaries 1) = callsOf (a.diaries 0) ∧
      (samplePair plan 1).ends (c.diaries 1) = (samplePair plan 1).ends (a.diaries 0) := by
  obtain ⟨plan, hplan⟩ := Watched.exists_samplePlan
  have hload : ∀ i, IsLoad (samplePair plan i) := fun _ => ⟨2, 1, .cyclic [49], rfl⟩
  -- The clients differ, whose names decide it alone; the plan need not be looked at.
  have hclients : ∀ i j : Fin 2, i ≠ j →
      (if i = 0 then (⟨"a"⟩ : ClientIdentity) else ⟨"a-0"⟩) ≠ if j = 0 then ⟨"a"⟩ else ⟨"a-0"⟩ := by
    decide
  have hdistinct : ∀ i j, i ≠ j →
      ((samplePair plan i).config.client, (samplePair plan i).number) ≠
        ((samplePair plan j).config.client, (samplePair plan j).number) :=
    fun i j hij h => hclients i j hij (congrArg Prod.fst h)
  have hcalm : sampleStore.Calm := rfl
  have htidy : sampleStore.Tidy := fun n hn => by cases hn
  obtain ⟨hcrew, hmembers⟩ := @never_interfere 2 (samplePair plan) { grid := sampleStore }
    (fun _ => .cyclic [1]) hload hdistinct hcalm htidy rfl
  obtain ⟨halone, hagree⟩ := hmembers 1 { grid := sampleStore } hcalm htidy rfl fun _ => rfl
  obtain ⟨c, hc, hcend⟩ := hcrew.exists_reaches
  obtain ⟨a, ha, haend⟩ := halone.exists_reaches
  obtain ⟨hcalls, hends, _⟩ := hagree c a hc hcend ha haend
  exact ⟨plan, c, a, hplan, hc, hcend, ha, haend, hcalls, hends⟩

end Crew

end GridBench
