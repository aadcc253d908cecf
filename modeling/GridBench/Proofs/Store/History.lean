/-
  GridBench.Proofs.Store.History

  What a store in memory holds and answers after anything that may have happened
  to it.  A history is a list of events: requests for maps and their answers,
  calls and releases with any handle that was given out, and faults that are set
  (`History`).  Copies of a store share everything, so that one store stands for
  all of them; and since a request for a map may take time, other events may come
  between it and its answer.

  The other side is a map of maps as plain as can be: the changes that the calls
  on a map made, told by the events alone (`changes`), carried out one after the
  other on an empty function (`plain`).  `Told` says what is kept by every event.
  Main statement (`History.refines_plain_maps`).
-/
import Mathlib.Data.List.Nodup
import Mathlib.Logic.Function.Basic
import GridBench.Proofs.Store.Memory
import GridBench.Proofs.Text.Bytes

namespace GridBench.MemoryStore

open Text (bytes)

/-! ## Histories -/

/-- What may happen to a store, with the answers that were given. -/
inductive Event where
  /-- Someone asks for a map. -/
  | asked (map : String)
  /-- A request for a map is answered. -/
  | acquired (map : String) (answer : Except Fault Handle)
  | called (h : Handle) (c : MapCall) (answer : Except Fault c.Answer)
  | released (h : Handle) (answer : Except Fault Unit)
  /-- One of the faults is set. -/
  | arranged (x : FaultSetting)

namespace Event

/-- The handle that an event gives out. -/
def given? : Event → Option Handle
  | .acquired _ (.ok h) => some h
  | _ => none

/-- The map that an event gives a handle to. -/
def opened? : Event → Option String
  | .acquired map (.ok _) => some map
  | _ => none

/-- The handle that an event releases. -/
def freed? : Event → Option Handle
  | .released h (.ok ()) => some h
  | _ => none

/-- The change that an event makes to a map: that of a call with one of its handles, if it
    succeeds. -/
def change? (map : String) : Event → Option (String × Option Json)
  | .called h c (.ok _) => if h.map = map then c.change? else none
  | _ => none

end Event

/-- The handles given out so far. -/
def given (es : List Event) : List Handle := es.filterMap Event.given?

/-- The maps that handles were given out to so far. -/
def opened (es : List Event) : List String := es.filterMap Event.opened?

/-- The handles released so far. -/
def freed (es : List Event) : List Handle := es.filterMap Event.freed?

/-- The changes made to a map so far, through any of its handles. -/
def changes (map : String) (es : List Event) : List (String × Option Json) :=
  es.filterMap (Event.change? map)

/-- What changes make of an empty map. -/
def plain (cs : List (String × Option Json)) : String → Option Json :=
  cs.foldl (fun m (key, v) => Function.update m key v) fun _ => none

/-- What has happened to a new store, and what has become of it.  Only handles that were given out
    are used. -/
inductive History : List Event → MemoryStore → Prop
  | start : History [] {}
  | ask {es : List Event} {s : MemoryStore} (map : String) : History es s →
      History (es ++ [.asked map]) s.noteAcquire
  | acquire {es : List Event} {s : MemoryStore} (map : String) : History es s →
      History (es ++ [.acquired map (s.acquire map).1]) (s.acquire map).2
  | call {es : List Event} {s : MemoryStore} {h : Handle} (c : MapCall) : History es s →
      h ∈ given es → History (es ++ [.called h c (s.call h c).1]) (s.call h c).2
  | release {es : List Event} {s : MemoryStore} {h : Handle} : History es s →
      h ∈ given es → History (es ++ [.released h (s.release h).1]) (s.release h).2
  | arrange {es : List Event} {s : MemoryStore} (x : FaultSetting) : History es s →
      History (es ++ [.arranged x]) (s.setFault x)

variable {es es' : List Event} {e : Event} {s s' : MemoryStore} {map : String} {h : Handle}

theorem filterMap_snoc {α : Type} (f : Event → Option α) (es : List Event) (e : Event) :
    (es ++ [e]).filterMap f = es.filterMap f ++ (f e).toList := by
  rw [List.filterMap_append]
  cases he : f e <;> simp [he]

theorem given_snoc (es : List Event) (e : Event) : given (es ++ [e]) = given es ++ e.given?.toList :=
  filterMap_snoc _ es e

theorem opened_snoc (es : List Event) (e : Event) :
    opened (es ++ [e]) = opened es ++ e.opened?.toList :=
  filterMap_snoc _ es e

theorem freed_snoc (es : List Event) (e : Event) : freed (es ++ [e]) = freed es ++ e.freed?.toList :=
  filterMap_snoc _ es e

theorem changes_snoc (map : String) (es : List Event) (e : Event) :
    changes map (es ++ [e]) = changes map es ++ (e.change? map).toList :=
  filterMap_snoc _ es e

theorem plain_snoc (cs : List (String × Option Json)) (key key' : String) (v : Option Json) :
    plain (cs ++ [(key, v)]) key' = if key' = key then v else plain cs key' := by
  rw [plain, List.foldl_append]
  exact Function.update_apply ..

/-! ## What every event keeps -/

/-- What the maps of a store hold after every history. -/
structure Holds (es : List Event) (s : MemoryStore) : Prop where
  contents : ∀ map key, (s.entries map)[key]? = plain (changes map es) key
  maps : ∀ map, map ∈ s.maps ↔ map ∈ opened es

/-- How a store keeps its handles after every history: they are numbered in their order. -/
structure Numbers (es : List Event) (s : MemoryStore) : Prop where
  opened : (given es).map Handle.map = opened es
  issued : (given es).map Handle.number = List.range s.issued
  released : s.released = ((freed es).map Handle.number).reverse
  owned : freed es ⊆ given es

/-- What holds of a store after every history. -/
structure Told (es : List Event) (s : MemoryStore) : Prop where
  holds : Holds es s
  numbers : Numbers es s

theorem Told.start : Told [] {} where
  holds :=
    { contents := fun _ _ => Std.ExtTreeMap.getElem?_empty
      maps := fun _ => iff_of_false Std.ExtTreeMap.not_mem_empty List.not_mem_nil }
  numbers := ⟨rfl, rfl, rfl, List.Subset.refl _⟩

/-- An event that leaves all maps and gives none out. -/
theorem Holds.snoc_idle (t : Holds es s) (hmaps : s'.maps = s.maps)
    (hchange : ∀ map, e.change? map = none) (hopened : e.opened? = none) :
    Holds (es ++ [e]) s' where
  contents map key := by
    rw [changes_snoc, hchange, Option.toList_none, List.append_nil, ← t.contents, entries, hmaps]
    rfl
  maps map := by
    rw [opened_snoc, hopened, Option.toList_none, List.append_nil, hmaps]
    exact t.maps map

/-- An event that gives out no handle and releases none. -/
theorem Numbers.snoc_idle (t : Numbers es s) (hissued : s'.issued = s.issued)
    (hreleased : s'.released = s.released) (hgiven : e.given? = none) (hopened : e.opened? = none)
    (hfreed : e.freed? = none) : Numbers (es ++ [e]) s' := by
  have hg : given (es ++ [e]) = given es := by
    rw [given_snoc, hgiven, Option.toList_none, List.append_nil]
  have ho : MemoryStore.opened (es ++ [e]) = MemoryStore.opened es := by
    rw [opened_snoc, hopened, Option.toList_none, List.append_nil]
  have hf : freed (es ++ [e]) = freed es := by
    rw [freed_snoc, hfreed, Option.toList_none, List.append_nil]
  refine ⟨?_, ?_, ?_, ?_⟩
  · rw [hg, ho]
    exact t.opened
  · rw [hg, hissued]
    exact t.issued
  · rw [hf, hreleased]
    exact t.released
  · rw [hf, hg]
    exact t.owned

/-- A handle is released for the store if its owner released it. -/
theorem Numbers.isReleased_iff (t : Numbers es s) (hh : h ∈ given es) :
    s.isReleased h = true ↔ h ∈ freed es := by
  have hnodup : ((given es).map Handle.number).Nodup := t.issued ▸ List.nodup_range
  rw [isReleased, List.contains_iff_mem, t.released, List.mem_reverse, List.mem_map]
  constructor
  · rintro ⟨h', hmem, hnumber⟩
    exact List.inj_on_of_nodup_map hnodup (t.owned hmem) hh hnumber ▸ hmem
  · exact fun hmem => ⟨h, hmem, rfl⟩

/-- A handle that was given out was issued. -/
theorem Numbers.number_lt (t : Numbers es s) (hh : h ∈ given es) : h.number < s.issued := by
  have hnumber := List.mem_map_of_mem (f := Handle.number) hh
  rw [t.issued] at hnumber
  exact List.mem_range.mp hnumber

/-- So was a handle that was released. -/
theorem Numbers.tidy (t : Numbers es s) : s.Tidy := by
  intro n hn
  rw [t.released, List.mem_reverse] at hn
  obtain ⟨h, hfreed, rfl⟩ := List.mem_map.mp hn
  exact t.number_lt (t.owned hfreed)

/-- The map of a handle that was given out is there. -/
theorem Told.mem_maps (t : Told es s) (hh : h ∈ given es) : h.map ∈ s.maps := by
  rw [t.holds.maps, ← t.numbers.opened]
  exact List.mem_map_of_mem hh

/-! ## Events one by one -/

/-- A request for a map is answered. -/
theorem Told.snoc_acquired (t : Told es s) (map : String) :
    Told (es ++ [.acquired map (s.acquire map).1]) (s.acquire map).2 := by
  cases hfails : s.faults.failGetMap with
  | true =>
    have herror : s.acquire map = (.error (.remote ("unable to acquire map '" ++ map ++ "'")), s) := by
      rw [acquire, if_pos hfails]
    rw [herror]
    exact ⟨t.holds.snoc_idle rfl (fun _ => rfl) rfl, t.numbers.snoc_idle rfl rfl rfl rfl rfl⟩
  | false =>
    obtain ⟨hok, hentries, -, hissued, hreleased⟩ := acquire_willing hfails map
    have hgrows := s.grows_acquire map
    have hmem := mem_maps_acquire hok
    rw [hok]
    refine ⟨⟨fun map' key => ?_, fun map' => ?_⟩, ?_, ?_, ?_, ?_⟩
    · rw [hentries, changes_snoc, t.holds.contents]
      exact congrArg (plain · key) (List.append_nil _).symm
    · rw [opened_snoc, List.mem_append, ← t.holds.maps]
      constructor
      · rintro hm
        exact (hgrows.named map' hm).symm.imp_right List.mem_singleton.mpr
      · rintro (hm | hm)
        · exact hgrows.kept map' hm
        · exact List.mem_singleton.mp hm ▸ hmem
    · rw [given_snoc, opened_snoc, List.map_append, t.numbers.opened]
      rfl
    · rw [given_snoc, hissued, List.range_succ, List.map_append, t.numbers.issued]
      rfl
    · rw [freed_snoc, hreleased, t.numbers.released]
      exact congrArg (List.reverse ∘ List.map Handle.number) (List.append_nil _).symm
    · rw [freed_snoc, given_snoc]
      exact List.Subset.trans (List.append_nil _ ▸ t.numbers.owned) (List.subset_append_left _ _)

/-- What is under a key after a call that was carried out. -/
theorem Answered.getElem?_entries {c : MapCall} {r : Except Fault c.Answer × MemoryStore}
    (hr : s.Answered h c r) (t : Holds es s) (a : c.Answer) (map key : String) :
    (r.2.entries map)[key]? = plain (changes map (es ++ [.called h c (.ok a)])) key := by
  rw [hr.entries, changes_snoc]
  by_cases hmap : h.map = map
  · subst hmap
    rw [if_pos rfl, Event.change?, if_pos rfl]
    cases hchange : c.change? with
    | none =>
      rw [MapCall.apply_of_change?_eq_none hchange, t.contents, Option.toList_none, List.append_nil]
    | some change =>
      obtain ⟨key', v⟩ := change
      obtain ⟨rfl, hv⟩ := MapCall.getElem?_apply_of_change? (e := s.entries h.map) hchange
      rw [Option.toList_some, plain_snoc]
      by_cases hkey : key = c.key
      · rw [if_pos hkey, hkey, hv]
      · rw [if_neg hkey, MapCall.apply_other hkey, t.contents]
  · rw [if_neg hmap, Event.change?, if_neg hmap, t.contents, Option.toList_none, List.append_nil]

/-- A call that misbehaves changes nothing. -/
theorem Strike.change? {c : MapCall} {a : Except Fault c.Answer} (hstrike : Strike c a) :
    (Event.called h c a).change? map = none := by
  cases hstrike with
  | evicted key | corrupted key => exact ite_self _
  | rejected key value f => rfl

/-- A call is answered. -/
theorem Told.snoc_called (t : Told es s) (hh : h ∈ given es) (c : MapCall) :
    Told (es ++ [.called h c (s.call h c).1]) (s.call h c).2 := by
  obtain ⟨hissued, hreleased⟩ := s.call_handles h c
  have hgrows := s.grows_call h c
  refine ⟨⟨fun map key => ?_, fun map => ?_⟩, t.numbers.snoc_idle hissued hreleased rfl rfl rfl⟩
  · cases hgone : s.isReleased h with
    | true =>
      obtain ⟨⟨f, hf⟩, hentries⟩ := call_refused hgone c
      rw [hf, hentries, t.holds.contents, changes_snoc]
      exact congrArg (plain · key) (List.append_nil _).symm
    | false =>
      rcases call_met hgone c with hcall | hstruck
      · rw [hcall.answer]
        exact hcall.getElem?_entries t.holds _ map key
      · rw [hstruck.entries, t.holds.contents, changes_snoc, hstruck.answer.change?,
          Option.toList_none, List.append_nil]
  · have ho : opened (es ++ [.called h c (s.call h c).1]) = opened es :=
      (opened_snoc es _).trans (List.append_nil _)
    rw [ho, ← t.holds.maps]
    refine ⟨fun hm => ?_, hgrows.kept map⟩
    rcases hgrows.named map hm with rfl | hm
    · exact t.mem_maps hh
    · exact hm

/-- A release is answered. -/
theorem Told.snoc_released (t : Told es s) (hh : h ∈ given es) :
    Told (es ++ [.released h (s.release h).1]) (s.release h).2 := by
  refine ⟨t.holds.snoc_idle (s.release_maps h) (fun _ => rfl) rfl, ?_⟩
  cases hgone : s.isReleased h with
  | true =>
    obtain ⟨⟨f, hf⟩, hissued, hreleased⟩ := release_refused hgone
    rw [hf]
    exact t.numbers.snoc_idle hissued hreleased rfl rfl rfl
  | false =>
    obtain ⟨hok, -, -, hissued, hreleased⟩ := release_live hgone
    rw [hok]
    have hg : given (es ++ [.released h (.ok ())]) = given es :=
      (given_snoc es _).trans (List.append_nil _)
    refine ⟨?_, ?_, ?_, ?_⟩
    · rw [hg, opened_snoc, t.numbers.opened]
      exact (List.append_nil _).symm
    · rw [hg, hissued]
      exact t.numbers.issued
    · rw [freed_snoc, hreleased, t.numbers.released]
      simp [Event.freed?]
    · rw [freed_snoc, hg]
      exact List.append_subset.mpr ⟨t.numbers.owned, List.cons_subset.mpr ⟨hh, List.nil_subset _⟩⟩

theorem History.told (hist : History es s) : Told es s := by
  induction hist with
  | start => exact .start
  | ask map _ ih =>
    exact ⟨ih.holds.snoc_idle rfl (fun _ => rfl) rfl, ih.numbers.snoc_idle rfl rfl rfl rfl rfl⟩
  | acquire map _ ih => exact ih.snoc_acquired map
  | call c _ hh ih => exact ih.snoc_called hh c
  | release _ hh ih => exact ih.snoc_released hh
  | arrange x _ ih =>
    exact ⟨ih.holds.snoc_idle rfl (fun _ => rfl) rfl, ih.numbers.snoc_idle rfl rfl rfl rfl rfl⟩

/-! ## A map of maps -/

/-- What a store answers through a handle to a map that holds the given entries. -/
structure Serves (s : MemoryStore) (h : Handle) (m : String → Option Json) : Prop where
  containsKey : ∀ key, (s.call h (.containsKey key)).1 = .ok (m key).isSome
  get : s.faults.evictGets = 0 → s.faults.corruptGets = 0 →
    ∀ key, (s.call h (.get key)).1 = .ok (m key)
  set : s.faults.failSets = 0 → ∀ key v, (s.call h (.set key v)).1 = .ok ()
  remove : ∀ key, (s.call h (.remove key)).1 = .ok (m key)
  release : (s.release h).1 = .ok ()

/-- A store answers nothing through a handle. -/
structure Refuses (s : MemoryStore) (h : Handle) : Prop where
  call : ∀ c, ∃ f, (s.call h c).1 = .error f
  release : ∃ f, (s.release h).1 = .error f

/-- What a store shows of a map that holds the given entries. -/
structure Shows (s : MemoryStore) (map : String) (m : String → Option Json) : Prop where
  ordered : (s.keysOf map).Pairwise fun key key' => bytes key < bytes key'
  mem_keysOf : ∀ key, key ∈ s.keysOf map ↔ (m key).isSome
  sizeOf : s.sizeOf map = (s.keysOf map).length

/-- Two stores have the same maps with the same entries. -/
def SameData (s s' : MemoryStore) : Prop :=
  s'.mapNames = s.mapNames ∧ ∀ map, s'.entries map = s.entries map

theorem SameData.of_maps (h : s'.maps = s.maps) : s.SameData s' :=
  ⟨congrArg Std.ExtTreeMap.keys h, fun map => congrArg (·.getD map ∅) h⟩

/-- The keys of a tree are listed in the order of their bytes. -/
theorem keys_ordered {α : Type} (t : Std.ExtTreeMap String α compare) :
    t.keys.Pairwise fun key key' => bytes key < bytes key' :=
  Std.ExtTreeMap.ordered_keys.imp fun hlt => Text.bytes_lt (compare_lt_iff_lt.mp hlt)

theorem Told.shows (t : Told es s) (map : String) : s.Shows map (plain (changes map es)) where
  ordered := keys_ordered _
  mem_keysOf key := by
    rw [keysOf, Std.ExtTreeMap.mem_keys, ← t.holds.contents, Std.ExtTreeMap.mem_iff_isSome_getElem?]
  sizeOf := Std.ExtTreeMap.length_keys.symm

theorem Told.serves (t : Told es s) (hh : h ∈ given es) (hlive : h ∉ freed es) :
    s.Serves h (plain (changes h.map es)) := by
  have hgone : s.isReleased h = false :=
    Bool.eq_false_iff.mpr fun hgone => hlive ((t.numbers.isReleased_iff hh).mp hgone)
  have hcontents := t.holds.contents h.map
  have hanswer := fun c hget hset => (call_spared hgone c hget hset).answer
  refine ⟨fun key => ?_, fun hevict hcorrupt key => ?_, fun hfail key v => ?_, fun key => ?_,
    (release_live hgone).1⟩
  · refine (hanswer (.containsKey key) (by simp) (by simp)).trans (congrArg Except.ok ?_)
    rw [← hcontents]
    exact Std.ExtTreeMap.contains_eq_isSome_getElem?
  · exact (hanswer (.get key) (fun _ _ => ⟨hevict, hcorrupt⟩) (by simp)).trans
      (congrArg Except.ok (hcontents key))
  · exact hanswer (.set key v) (by simp) fun _ _ _ => hfail
  · exact (hanswer (.remove key) (by simp) (by simp)).trans (congrArg Except.ok (hcontents key))

theorem Told.refuses (t : Told es s) (hfreed : h ∈ freed es) : s.Refuses h := by
  have hgone : s.isReleased h = true :=
    (t.numbers.isReleased_iff (t.numbers.owned hfreed)).mpr hfreed
  exact ⟨fun c => (call_refused hgone c).1, (release_refused hgone).1⟩

/-- Unless it is set to fail, a request for a map is answered with a new handle. -/
theorem Told.opens (t : Told es s) (hfails : s.faults.failGetMap = false) (map : String) :
    ∃ h, (s.acquire map).1 = .ok h ∧ h.map = map ∧ h ∉ given es := by
  obtain ⟨hok, -⟩ := acquire_willing hfails map
  exact ⟨_, hok, rfl, fun hgiven => absurd (t.numbers.number_lt hgiven) (lt_irrefl _)⟩

/-- A store is a map of plain maps: those that the successful changes in a history make, map by
    map. -/
structure Refines (es : List Event) (s : MemoryStore) : Prop where
  serves : ∀ h ∈ given es, h ∉ freed es → s.Serves h (plain (changes h.map es))
  refuses : ∀ h ∈ freed es, s.Refuses h
  tidy : s.Tidy
  opens : s.faults.failGetMap = false →
    ∀ map, ∃ h, (s.acquire map).1 = .ok h ∧ h.map = map ∧ h ∉ given es
  shows : ∀ map, s.Shows map (plain (changes map es))
  names_ordered : s.mapNames.Pairwise fun map map' => bytes map < bytes map'
  mem_mapNames : ∀ map, map ∈ s.mapNames ↔ map ∈ opened es
  same_of_acquire : ∀ map f, (s.acquire map).1 = .error f → s.SameData (s.acquire map).2
  same_of_call : ∀ h c f, (s.call h c).1 = .error f → s.SameData (s.call h c).2
  same_of_get : ∀ h key, s.SameData (s.call h (.get key)).2
  same_of_release : ∀ h, s.SameData (s.release h).2
  /-- What happens to other maps does not show in a map. -/
  independent : ∀ es' s' map, History es' s' → changes map es' = changes map es →
    s'.entries map = s.entries map

/-- A store in memory refines a map of plain maps.  After any history, whatever handles it was made
    with and whatever faults were set: through a handle that was given out and not released the store
    answers from the changes that succeeded so far through any handle to the same map, a get only if
    no fault hits it, and a released handle is refused everything.  No handle is released that was
    not given out.  What the store shows of a map are the keys that these changes leave, in the order
    of their bytes.  Its maps are those that handles were given out to, and a request for a map gets
    a new handle unless such requests are set to fail.  A request for a map that fails, a call that
    fails, a get, and a release leave all maps as they are. -/
theorem History.refines_plain_maps (hist : History es s) : Refines es s where
  serves _ := hist.told.serves
  refuses _ := hist.told.refuses
  tidy := hist.told.numbers.tidy
  opens := hist.told.opens
  shows := hist.told.shows
  names_ordered := keys_ordered _
  mem_mapNames map := by
    rw [mapNames, Std.ExtTreeMap.mem_keys]
    exact hist.told.holds.maps map
  same_of_acquire _ _ hf := .of_maps (acquire_maps_of_error hf)
  same_of_call h c f hf := by
    refine .of_maps ?_
    rcases s.call_maps h c with hmaps | ⟨-, ⟨a, ha⟩, -⟩
    · exact hmaps
    · cases ha.symm.trans hf
  same_of_get h key := by
    refine .of_maps ?_
    rcases s.call_maps h (.get key) with hmaps | ⟨hchange, -⟩
    · exact hmaps
    · cases hchange
  same_of_release h := .of_maps (s.release_maps h)
  independent es' s' map hist' hsame := by
    refine Std.ExtTreeMap.ext_getElem? fun key => ?_
    rw [hist'.told.holds.contents, hist.told.holds.contents, hsame]

theorem History.refines_plain_maps_sample :
    ∃ es s, History es s ∧ given es = [⟨0, "m"⟩, ⟨1, "m"⟩, ⟨2, "n"⟩] ∧ freed es = [⟨0, "m"⟩] ∧
      opened es = ["m", "m", "n"] ∧
      changes "m" es = [("b", some (.ofNat 1)), ("a", some (.ofNat 3)), ("b", none)] ∧
      s.Serves ⟨1, "m"⟩
        (plain [("b", some (.ofNat 1)), ("a", some (.ofNat 3)), ("b", none)]) ∧
      s.Refuses ⟨0, "m"⟩ ∧ "a" ∈ s.keysOf "m" ∧ "b" ∉ s.keysOf "m" ∧ "x" ∉ s.mapNames := by
  -- Two handles share a map, the first of them is released, a get and a set meet a fault, and a
  -- request for a third map fails.
  have hist := (History.start.ask "m").acquire "m"
    |>.acquire "m"
    |>.acquire "n"
    |>.call (h := ⟨0, "m"⟩) (.set "b" (.ofNat 1)) (by decide)
    |>.call (h := ⟨2, "n"⟩) (.set "b" (.ofNat 2)) (by decide)
    |>.call (h := ⟨1, "m"⟩) (.set "a" (.ofNat 3)) (by decide)
    |>.release (h := ⟨0, "m"⟩) (by decide)
    |>.arrange (.evictGets 1)
    |>.arrange (.failSets 1)
    |>.arrange (.failGetMap true)
    |>.call (h := ⟨1, "m"⟩) (.get "a") (by decide)
    |>.call (h := ⟨1, "m"⟩) (.set "a" (.ofNat 4)) (by decide)
    |>.call (h := ⟨0, "m"⟩) (.remove "a") (by decide)
    |>.call (h := ⟨1, "m"⟩) (.remove "b") (by decide)
    |>.acquire "x"
  have hplain := hist.refines_plain_maps
  refine ⟨_, _, hist, by rfl, by rfl, by rfl, by rfl, hplain.serves _ (by decide) (by decide),
    hplain.refuses _ (by decide), ((hplain.shows "m").mem_keysOf "a").mpr (by rfl), fun hb => ?_,
    fun hx => ?_⟩
  · exact absurd (((hplain.shows "m").mem_keysOf "b").mp hb) (by decide)
  · exact absurd ((hplain.mem_mapNames "x").mp hx) (by decide)

end GridBench.MemoryStore
