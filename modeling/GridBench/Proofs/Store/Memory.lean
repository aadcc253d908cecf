/-
  GridBench.Proofs.Store.Memory

  The store in memory.  A call touches one entry of one map, and answers by this
  entry alone (`apply_congr`, `apply_other`).  A call with a handle that was not
  released is answered from the entries of its map, or it is one of the calls
  that are set to misbehave (`call_met`); on a calm store there are none of them
  (`call_calm`).  A request brings in no map but its own, and none goes away
  again (`grows_finish`).
-/
import GridBench.Store.Memory

namespace GridBench

namespace MapCall

variable {e e' : Entries} {c : MapCall}

/-- Entries that agree on the key of a call give the same answer and agree on it afterwards. -/
theorem apply_congr (h : e[c.key]? = e'[c.key]?) :
    (c.apply e).1 = (c.apply e').1 ∧ (c.apply e).2[c.key]? = (c.apply e').2[c.key]? := by
  match c with
  | .containsKey k =>
    refine ⟨?_, h⟩
    show e.contains k = e'.contains k
    rw [Std.ExtTreeMap.contains_eq_isSome_getElem?, Std.ExtTreeMap.contains_eq_isSome_getElem?]
    exact congrArg Option.isSome h
  | .get k => exact ⟨h, h⟩
  | .set k v =>
    refine ⟨rfl, ?_⟩
    exact Std.ExtTreeMap.getElem?_insert_self.trans Std.ExtTreeMap.getElem?_insert_self.symm
  | .remove k =>
    refine ⟨h, ?_⟩
    exact Std.ExtTreeMap.getElem?_erase_self.trans Std.ExtTreeMap.getElem?_erase_self.symm

/-- A call leaves all entries but one as they are. -/
theorem apply_other {key : String} (h : key ≠ c.key) : (c.apply e).2[key]? = e[key]? := by
  match c with
  | .containsKey _ | .get _ => rfl
  | .set k v =>
    refine Std.ExtTreeMap.getElem?_insert.trans (if_neg ?_)
    rw [Std.LawfulEqCmp.compare_eq_iff_eq]
    exact Ne.symm h
  | .remove k =>
    refine Std.ExtTreeMap.getElem?_erase.trans (if_neg ?_)
    rw [Std.LawfulEqCmp.compare_eq_iff_eq]
    exact Ne.symm h

/-- What a call changes if it is carried out: a key, and what is under it from then on. -/
def change? : MapCall → Option (String × Option Json)
  | .set k v => some (k, some v)
  | .remove k => some (k, none)
  | _ => none

/-- A call that changes nothing leaves the entries as they are. -/
theorem apply_of_change?_eq_none (h : c.change? = none) : (c.apply e).2 = e := by
  cases c with
  | containsKey | get => rfl
  | set | remove => cases h

/-- A call that changes a key leaves there what it says. -/
theorem getElem?_apply_of_change? {key : String} {v : Option Json} (h : c.change? = some (key, v)) :
    c.key = key ∧ (c.apply e).2[key]? = v := by
  cases c with
  | containsKey | get => cases h
  | set k w =>
    cases h
    exact ⟨rfl, Std.ExtTreeMap.getElem?_insert_self⟩
  | remove k =>
    cases h
    exact ⟨rfl, Std.ExtTreeMap.getElem?_erase_self⟩

end MapCall

namespace MemoryStore

variable {s : MemoryStore}

/-- Every handle that was released had been issued.  This holds of a new store, and still does after
    anything that may happen to it. -/
def Tidy (s : MemoryStore) : Prop := ∀ n ∈ s.released, n < s.issued

/-- Nothing is set to go wrong. -/
def Calm (s : MemoryStore) : Prop := s.faults = {}

theorem entries_withEntries (s : MemoryStore) (map map' : String) (e : Entries) :
    (s.withEntries map e).entries map' = if map = map' then e else s.entries map' := by
  unfold withEntries entries
  rw [Std.ExtTreeMap.getD_insert]
  split
  · rename_i h
    rw [if_pos (Std.LawfulEqCmp.compare_eq_iff_eq.mp h)]
  · rename_i h
    rw [if_neg fun hm => h (Std.LawfulEqCmp.compare_eq_iff_eq.mpr hm)]

/-- Replacing the entries of a map by what they are changes no entries. -/
theorem entries_withEntries_self (s : MemoryStore) (map map' : String) :
    (s.withEntries map (s.entries map)).entries map' = s.entries map' := by
  rw [entries_withEntries]
  split
  · rename_i h
    rw [h]
  · rfl

/-- Acquiring a map gives a new handle and changes no entries, unless it is set to fail. -/
theorem acquire_willing (h : s.faults.failGetMap = false) (map : String) :
    (s.acquire map).1 = .ok ⟨s.issued, map⟩ ∧
      (∀ map', (s.acquire map).2.entries map' = s.entries map') ∧
      (s.acquire map).2.faults = s.faults ∧ (s.acquire map).2.issued = s.issued + 1 ∧
      (s.acquire map).2.released = s.released := by
  unfold acquire
  rw [if_neg (by simp [h])]
  exact ⟨rfl, entries_withEntries_self s map, rfl, rfl, rfl⟩

/-- Acquiring a map changes no entries, and the handle is one to this map. -/
theorem acquire_entries (s : MemoryStore) (map : String) :
    (∀ map', (s.acquire map).2.entries map' = s.entries map') ∧
      ∀ h, (s.acquire map).1 = .ok h → h.map = map := by
  unfold acquire
  split
  · exact ⟨fun _ => rfl, fun _ hh => by cases hh⟩
  · exact ⟨entries_withEntries_self s map, fun _ hh => by cases hh; rfl⟩

/-- Releasing a handle changes no entries. -/
theorem release_entries (s : MemoryStore) (h : Handle) (map : String) :
    (s.release h).2.entries map = s.entries map := by
  simp only [release]
  split <;> rfl

/-- A call carried out is answered from the entries of the map, and changes them only. -/
structure Answered (s : MemoryStore) (h : Handle) (c : MapCall)
    (r : Except Fault c.Answer × MemoryStore) : Prop where
  answer : r.1 = .ok (c.apply (s.entries h.map)).1
  entries : ∀ map, r.2.entries map =
    if h.map = map then (c.apply (s.entries h.map)).2 else s.entries map
  faults : r.2.faults = s.faults
  issued : r.2.issued = s.issued
  released : r.2.released = s.released

theorem answered_applyCall (s : MemoryStore) (h : Handle) (c : MapCall) :
    s.Answered h c (s.applyCall h c) :=
  ⟨rfl, fun map => entries_withEntries s h.map map _, rfl, rfl, rfl⟩

/-- A call that only looks at the entries may leave the store as it is. -/
theorem answered_of_read {h : Handle} {c : MapCall}
    (hread : (c.apply (s.entries h.map)).2 = s.entries h.map) :
    s.Answered h c (.ok (c.apply (s.entries h.map)).1, s) := by
  refine ⟨rfl, fun map => ?_, rfl, rfl, rfl⟩
  split
  · rename_i hmap
    rw [hread, hmap]
  · rfl

/-- A call that is carried out is answered like one on other entries `x`, if they agree with those
    of its map on the keys in `P`, and its own is one of them.  They agree on them afterwards, and
    nothing else has changed. -/
theorem Answered.agree {h : Handle} {c : MapCall} {r : Except Fault c.Answer × MemoryStore}
    (hcall : s.Answered h c r) {x : Entries} {P : String → Prop} (hc : P c.key)
    (hx : ∀ key, P key → (s.entries h.map)[key]? = x[key]?) :
    r.1 = .ok (c.apply x).1 ∧ (∀ key, P key → (r.2.entries h.map)[key]? = (c.apply x).2[key]?) ∧
      ∀ map key, ¬ (map = h.map ∧ P key) → (r.2.entries map)[key]? = (s.entries map)[key]? := by
  obtain ⟨hsame, hafter⟩ := MapCall.apply_congr (hx c.key hc)
  refine ⟨hcall.answer.trans (congrArg _ hsame), fun key hkey => ?_, fun map key hother => ?_⟩
  · rw [hcall.entries, if_pos rfl]
    by_cases hck : key = c.key
    · rw [hck]
      exact hafter
    · rw [MapCall.apply_other hck, MapCall.apply_other hck]
      exact hx key hkey
  · rw [hcall.entries]
    split
    · rename_i hm
      have hck : key ≠ c.key := fun hck => hother ⟨hm.symm, hck ▸ hc⟩
      rw [MapCall.apply_other hck, hm]
    · rfl

/-- How many calls are still set to misbehave. -/
def units (s : MemoryStore) : Nat :=
  s.faults.evictGets + s.faults.corruptGets + s.faults.failSets

/-- What a call that misbehaves answers. -/
inductive Strike : (c : MapCall) → Except Fault c.Answer → Prop
  | evicted (key : String) : Strike (.get key) (.ok none)
  | corrupted (key : String) : Strike (.get key) (.ok (some corrupted))
  | rejected (key : String) (value : Json) (f : Fault) : Strike (.set key value) (.error f)

/-- A call that misbehaved changes no entries, and one call fewer is to misbehave. -/
structure Struck (s : MemoryStore) (c : MapCall) (r : Except Fault c.Answer × MemoryStore) :
    Prop where
  answer : Strike c r.1
  entries : ∀ map, r.2.entries map = s.entries map
  units : r.2.units + 1 = s.units
  failGetMap : r.2.faults.failGetMap = s.faults.failGetMap
  getMapDelayMs : r.2.faults.getMapDelayMs = s.faults.getMapDelayMs
  issued : r.2.issued = s.issued
  released : r.2.released = s.released

/-- A read is answered from the entries, or it is one of those that misbehave. -/
theorem readValue_met (s : MemoryStore) (h : Handle) (key : String) :
    s.Answered h (.get key) (s.readValue h key) ∨ s.Struck (.get key) (s.readValue h key) := by
  unfold readValue
  split
  · rename_i hevict
    refine .inr ⟨.evicted key, fun _ => rfl, ?_, rfl, rfl, rfl, rfl⟩
    simp only [MemoryStore.units]
    omega
  · split
    · rename_i hcorrupt
      refine .inr ⟨.corrupted key, fun _ => rfl, ?_, rfl, rfl, rfl, rfl⟩
      simp only [MemoryStore.units]
      omega
    · exact .inl (answered_of_read (c := .get key) rfl)

/-- A write is carried out, or it is one of those that misbehave. -/
theorem writeValue_met (s : MemoryStore) (h : Handle) (key : String) (value : Json) :
    s.Answered h (.set key value) (s.writeValue h key value) ∨
      s.Struck (.set key value) (s.writeValue h key value) := by
  unfold writeValue
  split
  · rename_i hfail
    refine .inr ⟨.rejected key value _, fun _ => rfl, ?_, rfl, rfl, rfl, rfl⟩
    simp only [MemoryStore.units]
    omega
  · exact .inl (answered_applyCall s h (.set key value))

/-- A call with a handle that was not released is carried out, or it misbehaves. -/
theorem call_met {h : Handle} (hlive : s.isReleased h = false) (c : MapCall) :
    s.Answered h c (s.call h c) ∨ s.Struck c (s.call h c) := by
  have hlive' : ({ s with calls := s.calls.note c } : MemoryStore).isReleased h = false := hlive
  -- Counting the call shows in nothing that is looked at here.
  have hcounted : ∀ r, ({ s with calls := s.calls.note c } : MemoryStore).Answered h c r ∨
      ({ s with calls := s.calls.note c } : MemoryStore).Struck c r →
      s.Answered h c r ∨ s.Struck c r := by
    rintro r (hr | hr)
    · exact .inl ⟨hr.answer, hr.entries, hr.faults, hr.issued, hr.released⟩
    · exact .inr ⟨hr.answer, hr.entries, hr.units, hr.failGetMap, hr.getMapDelayMs, hr.issued,
        hr.released⟩
  refine hcounted _ ?_
  unfold call
  simp only [hlive', if_false, Bool.false_eq_true]
  match c with
  | .containsKey key => exact .inl (answered_of_read (c := .containsKey key) rfl)
  | .get key => exact readValue_met _ h key
  | .set key value => exact writeValue_met _ h key value
  | .remove key => exact .inl (answered_applyCall _ h (.remove key))

/-- A call with a handle that was released fails and changes no entries. -/
theorem call_refused {h : Handle} (hgone : s.isReleased h = true) (c : MapCall) :
    (∃ f, (s.call h c).1 = .error f) ∧ ∀ map, (s.call h c).2.entries map = s.entries map := by
  have hgone' : ({ s with calls := s.calls.note c } : MemoryStore).isReleased h = true := hgone
  unfold call
  rw [if_pos hgone']
  exact ⟨⟨_, rfl⟩, fun _ => rfl⟩

/-- A call with a handle that was not released is carried out if no call of its kind is set to
    misbehave. -/
theorem call_spared {h : Handle} (hlive : s.isReleased h = false) (c : MapCall)
    (hget : ∀ key, c = .get key → s.faults.evictGets = 0 ∧ s.faults.corruptGets = 0)
    (hset : ∀ key value, c = .set key value → s.faults.failSets = 0) :
    s.Answered h c (s.call h c) := by
  refine (call_met hlive c).resolve_right fun hstruck => ?_
  have hunits := hstruck.units
  have hlive' : ({ s with calls := s.calls.note c } : MemoryStore).isReleased h = false := hlive
  -- A call that misbehaves uses a unit up, and with no unit for its kind it uses up none.
  suffices hfaults : (s.call h c).2.faults = s.faults by
    rw [units, units, hfaults] at hunits
    omega
  match c with
  | .containsKey key | .remove key =>
    have hstrike := hstruck.answer
    cases hstrike
  | .get key =>
    obtain ⟨hevict, hcorrupt⟩ := hget key rfl
    simp [call, hlive', readValue, hevict, hcorrupt]
  | .set key value =>
    have hfail := hset key value rfl
    simp [call, hlive', writeValue, hfail, applyCall, withEntries]

/-- Calls on a calm store with a handle that was not released are carried out. -/
theorem call_calm {h : Handle} (hcalm : s.Calm) (hlive : s.isReleased h = false) (c : MapCall) :
    s.Answered h c (s.call h c) := by
  have hfaults : s.faults = {} := hcalm
  refine call_spared hlive c (fun _ _ => ?_) fun _ _ _ => ?_
  · rw [hfaults]
    exact ⟨rfl, rfl⟩
  · rw [hfaults]

/-- Releasing a handle for the first time succeeds and changes no entries. -/
theorem release_live {h : Handle} (hlive : s.isReleased h = false) :
    (s.release h).1 = .ok () ∧ (∀ map, (s.release h).2.entries map = s.entries map) ∧
      (s.release h).2.faults = s.faults ∧ (s.release h).2.issued = s.issued ∧
      (s.release h).2.released = h.number :: s.released := by
  unfold release
  have hlive' : ({ s with calls := { s.calls with destroy := s.calls.destroy + 1 } } :
    MemoryStore).isReleased h = false := hlive
  rw [if_neg (by simp [hlive'])]
  exact ⟨rfl, fun _ => rfl, rfl, rfl, rfl⟩

/-- A handle that was released cannot be released again. -/
theorem release_refused {h : Handle} (hgone : s.isReleased h = true) :
    (∃ f, (s.release h).1 = .error f) ∧ (s.release h).2.issued = s.issued ∧
      (s.release h).2.released = s.released := by
  have hgone' : ({ s with calls := { s.calls with destroy := s.calls.destroy + 1 } } :
    MemoryStore).isReleased h = true := hgone
  unfold release
  rw [if_pos hgone']
  exact ⟨⟨_, rfl⟩, rfl, rfl⟩

/-! ## Maps -/

/-- A store later on: it has all maps it had, and at most one more. -/
structure Grows (map : String) (s s' : MemoryStore) : Prop where
  kept : ∀ m ∈ s.maps, m ∈ s'.maps
  named : ∀ m ∈ s'.maps, m = map ∨ m ∈ s.maps

section Maps

variable {s' : MemoryStore} {map : String}

theorem Grows.of_eq (h : s'.maps = s.maps) : Grows map s s' :=
  ⟨fun _ hm => h ▸ hm, fun _ hm => .inr (h ▸ hm)⟩

theorem mem_maps_insert {e : Entries} (h : s'.maps = s.maps.insert map e) (m : String) :
    m ∈ s'.maps ↔ m = map ∨ m ∈ s.maps := by
  rw [h, Std.ExtTreeMap.mem_insert, Std.LawfulEqCmp.compare_eq_iff_eq, eq_comm]

theorem Grows.of_insert {e : Entries} (h : s'.maps = s.maps.insert map e) : Grows map s s' :=
  ⟨fun m hm => (mem_maps_insert h m).mpr (.inr hm), fun m => (mem_maps_insert h m).mp⟩

/-- Only a call that writes and succeeds replaces the entries of its map. -/
theorem call_maps (s : MemoryStore) (h : Handle) (c : MapCall) :
    (s.call h c).2.maps = s.maps ∨
      c.change?.isSome ∧ (∃ a, (s.call h c).1 = .ok a) ∧
        ∃ e, (s.call h c).2.maps = s.maps.insert h.map e := by
  cases c with
  | containsKey key =>
    simp only [call]
    split <;> exact .inl rfl
  | get key =>
    simp only [call, readValue]
    split
    · exact .inl rfl
    · split
      · exact .inl rfl
      · split <;> exact .inl rfl
  | set key value =>
    simp only [call, writeValue]
    split
    · exact .inl rfl
    · split
      · exact .inl rfl
      · exact .inr ⟨rfl, ⟨_, rfl⟩, _, rfl⟩
  | remove key =>
    simp only [call]
    split
    · exact .inl rfl
    · exact .inr ⟨rfl, ⟨_, rfl⟩, _, rfl⟩

theorem grows_call (s : MemoryStore) (h : Handle) (c : MapCall) :
    Grows h.map s (s.call h c).2 := by
  rcases s.call_maps h c with hmaps | ⟨-, -, e, hmaps⟩
  · exact .of_eq hmaps
  · exact .of_insert hmaps

theorem grows_acquire (s : MemoryStore) (map : String) : Grows map s (s.acquire map).2 := by
  unfold acquire
  split
  · exact .of_eq rfl
  · exact .of_insert rfl

/-- Whoever is given a map finds it in the store. -/
theorem mem_maps_acquire {h : Handle} (hok : (s.acquire map).1 = .ok h) :
    map ∈ (s.acquire map).2.maps := by
  unfold acquire at hok ⊢
  split at hok
  · cases hok
  · rename_i hwilling
    rw [if_neg hwilling]
    exact (mem_maps_insert rfl map).mpr (.inl rfl)

/-- A request for a map that fails brings in none. -/
theorem acquire_maps_of_error {f : Fault} (herror : (s.acquire map).1 = .error f) :
    (s.acquire map).2.maps = s.maps := by
  unfold acquire at herror ⊢
  split at herror
  · rename_i hfails
    rw [if_pos hfails]
  · cases herror

theorem release_maps (s : MemoryStore) (h : Handle) : (s.release h).2.maps = s.maps := by
  simp only [release]
  split <;> rfl

theorem grows_finish (s : MemoryStore) (n : Nat) (r : Request) :
    Grows r.map s (grid.finish s n r).2 := by
  cases r with
  | acquire m => exact s.grows_acquire m
  | call h c => exact s.grows_call h c
  | release h => exact .of_eq (s.release_maps h)

end Maps

/-! ## Handles -/

/-- A call issues and releases nothing, whatever goes wrong. -/
theorem call_handles (s : MemoryStore) (h : Handle) (c : MapCall) :
    (s.call h c).2.issued = s.issued ∧ (s.call h c).2.released = s.released := by
  -- Every branch, those of the faults included, touches entries and counters only.
  match c with
  | .containsKey _ | .remove _ =>
    simp only [call]
    split <;> exact ⟨rfl, rfl⟩
  | .get _ =>
    simp only [call, readValue]
    split
    · exact ⟨rfl, rfl⟩
    · split
      · exact ⟨rfl, rfl⟩
      · split <;> exact ⟨rfl, rfl⟩
  | .set .. =>
    simp only [call, writeValue]
    split
    · exact ⟨rfl, rfl⟩
    · split <;> exact ⟨rfl, rfl⟩

end MemoryStore

end GridBench
