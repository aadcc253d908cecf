/-
  GridBench.Proofs.Store.Rations

  The calls of a store that are set to misbehave are meted out: what is left of
  each number after a call is determined by the call (`call_get`, `call_set`),
  and only gets and sets through a handle that was not released use anything up
  (`Sparing`).

  Over a history this comes to a count.  After the numbers were set, the reads
  that follow are numbered through all maps, and so are the writes; the number of
  a read says whether it is evicted, corrupted or answered from its map, and the
  number of a write whether it is rejected (`Rationed`).  The counters of the
  store number all requests, whatever became of them.  Main statement:
  `History.rations_and_counts`.
-/
import Mathlib.Data.List.Induction
import GridBench.Proofs.Store.Counters
import GridBench.Proofs.Store.History

namespace GridBench.MemoryStore

variable {es later : List Event} {ev : Event} {s s' : MemoryStore} {h : Handle}

/-! ## Calls one by one -/

/-- What the read with the number `i` answers, counted from zero, if `e` reads are to be evicted, `c`
    after them are to be corrupted, and the map holds `stored`. -/
def offered (e c i : Nat) (stored : Option Json) : Option Json :=
  if i < e then none else if i < e + c then some corrupted else stored

/-- How a write is rejected. -/
def rejection (h : Handle) (key : String) : Fault :=
  .remote ("set of key '" ++ key ++ "' in map '" ++ h.map ++ "' rejected")

/-- A read uses up one eviction or, when none is left, one corruption. -/
theorem call_get (hlive : s.isReleased h = false) (key : String) :
    s.call h (.get key) =
      (.ok (offered s.faults.evictGets s.faults.corruptGets 0 (s.entries h.map)[key]?),
        { s with
          calls := s.calls.note (.get key)
          faults := { s.faults with
            evictGets := s.faults.evictGets - 1
            corruptGets := s.faults.corruptGets - (1 - s.faults.evictGets) } }) := by
  have hlive' : ({ s with calls := s.calls.note (.get key) } : MemoryStore).isReleased h = false :=
    hlive
  simp only [call, if_neg (Bool.eq_false_iff.mp hlive')]
  obtain ⟨maps, ⟨e, c, f, fails, delay⟩, calls, issued, released⟩ := s
  -- Either number is zero, or it is one more than what is left of it.
  cases e with
  | succ e => simp [readValue, offered]
  | zero =>
    cases c with
    | succ c => simp [readValue, offered]
    | zero => rfl

/-- A write is rejected as long as rejections are left, and is carried out when there are none. -/
theorem call_set (hlive : s.isReleased h = false) (key : String) (value : Json) :
    s.call h (.set key value) =
      if 0 < s.faults.failSets then
        (.error (rejection h key),
          { s with
            calls := s.calls.note (.set key value)
            faults := { s.faults with failSets := s.faults.failSets - 1 } })
      else
        (.ok (), { s with calls := s.calls.note (.set key value) }.withEntries h.map
          ((s.entries h.map).insert key value)) := by
  have hlive' : ({ s with calls := s.calls.note (.set key value) } : MemoryStore).isReleased h =
    false := hlive
  simp only [call, if_neg (Bool.eq_false_iff.mp hlive')]
  rfl

/-- What uses up nothing of what is set to misbehave. -/
structure Sparing (es : List Event) (s : MemoryStore) : Prop where
  released : ∀ h ∈ freed es, ∀ c, (s.call h c).2.faults = s.faults
  containsKey : ∀ h key, (s.call h (.containsKey key)).2.faults = s.faults
  remove : ∀ h key, (s.call h (.remove key)).2.faults = s.faults
  release : ∀ h, (s.release h).2.faults = s.faults
  ask : s.noteAcquire.faults = s.faults
  acquire : ∀ map, (s.acquire map).2.faults = s.faults

theorem faults_of_released (hgone : s.isReleased h = true) (c : MapCall) :
    (s.call h c).2.faults = s.faults := by
  have hgone' : ({ s with calls := s.calls.note c } : MemoryStore).isReleased h = true := hgone
  simp only [call, if_pos hgone']

theorem History.sparing (hist : History es s) : s.Sparing es where
  released h hfreed c := by
    have hgiven : h ∈ given es := hist.told.numbers.owned hfreed
    exact faults_of_released ((hist.told.numbers.isReleased_iff hgiven).mpr hfreed) c
  containsKey h key := by
    simp only [MemoryStore.call]
    split <;> rfl
  remove h key := by
    simp only [MemoryStore.call]
    split <;> rfl
  release h := by
    simp only [MemoryStore.release]
    split <;> rfl
  ask := rfl
  acquire map := by
    unfold MemoryStore.acquire
    split <;> rfl

/-! ## Events one by one -/

/-- What an event makes of a store. -/
inductive Next (es : List Event) (s : MemoryStore) : Event → MemoryStore → Prop
  | asked (map : String) : Next es s (.asked map) s.noteAcquire
  | acquired (map : String) : Next es s (.acquired map (s.acquire map).1) (s.acquire map).2
  | called {h : Handle} (c : MapCall) : h ∈ given es →
      Next es s (.called h c (s.call h c).1) (s.call h c).2
  | released {h : Handle} : h ∈ given es →
      Next es s (.released h (s.release h).1) (s.release h).2
  | arranged (x : FaultSetting) : Next es s (.arranged x) (s.setFault x)

/-- The last event of a history, and the history before it. -/
theorem History.of_concat (hist : History (es ++ [ev]) s') :
    ∃ s, History es s ∧ Next es s ev s' := by
  generalize hall : es ++ [ev] = all at hist
  -- The last event of the list is the last one of the history.
  have hlast {es₁ : List Event} {ev₁ : Event} (heq : es ++ [ev] = es₁ ++ [ev₁]) :
      es = es₁ ∧ ev = ev₁ := by
    obtain ⟨hes, hev⟩ := List.append_inj' heq rfl
    exact ⟨hes, List.singleton_inj.mp hev⟩
  cases hist with
  | start => exact absurd hall (List.append_ne_nil_of_right_ne_nil _ (List.cons_ne_nil _ _))
  | ask map hist =>
    obtain ⟨rfl, rfl⟩ := hlast hall
    exact ⟨_, hist, .asked map⟩
  | acquire map hist =>
    obtain ⟨rfl, rfl⟩ := hlast hall
    exact ⟨_, hist, .acquired map⟩
  | call c hist hgiven =>
    obtain ⟨rfl, rfl⟩ := hlast hall
    exact ⟨_, hist, .called c hgiven⟩
  | release hist hgiven =>
    obtain ⟨rfl, rfl⟩ := hlast hall
    exact ⟨_, hist, .released hgiven⟩
  | arrange x hist =>
    obtain ⟨rfl, rfl⟩ := hlast hall
    exact ⟨_, hist, .arranged x⟩

/-- Something that is looked for in the events behind a history, each of them told together with all
    events before it. -/
def along {α : Type} (f : List Event → Event → Option α) : List Event → List Event → List α
  | _, [] => []
  | es, ev :: later => (f es ev).toList ++ along f (es ++ [ev]) later

theorem along_concat {α : Type} (f : List Event → Event → Option α) (es later : List Event)
    (ev : Event) :
    along f es (later ++ [ev]) = along f es later ++ (f (es ++ later) ev).toList := by
  induction later generalizing es with
  | nil => simp [along]
  | cons ev' later ih =>
    rw [List.cons_append, along, along, ih, List.append_assoc, List.append_assoc,
      List.singleton_append]

/-- A get through a handle that is not released: what its map holds under the key, and the answer. -/
def read? (es : List Event) : Event → Option (Option Json × Except Fault (Option Json))
  | .called h (.get key) a =>
    if h ∈ freed es then none else some (plain (changes h.map es) key, a)
  | _ => none

/-- A set through a handle that is not released: the handle, the key, and the answer. -/
def write? (es : List Event) : Event → Option (Handle × String × Except Fault Unit)
  | .called h (.set key _) a => if h ∈ freed es then none else some (h, key, a)
  | _ => none

/-- Whether an event says anew how many reads and writes are to misbehave. -/
def Event.isRationing : Event → Bool
  | .arranged (.evictGets _) | .arranged (.corruptGets _) | .arranged (.failSets _) => true
  | _ => false

/-- What becomes of the reads and writes in the events `later` behind the history `es`, with which
    `e` evictions, `c` corruptions and `f` rejections were set; and what is left of them. -/
structure Rationed (e c f : Nat) (es later : List Event) (s : MemoryStore) : Prop where
  reads : ∀ i stored (a : Except Fault (Option Json)), (along read? es later)[i]? = some (stored, a) →
    a = .ok (offered e c i stored)
  writes : ∀ i h key (a : Except Fault Unit), (along write? es later)[i]? = some (h, key, a) →
    a = if i < f then .error (rejection h key) else .ok ()
  evictGets : s.faults.evictGets = e - (along read? es later).length
  corruptGets : s.faults.corruptGets = c - ((along read? es later).length - e)
  failSets : s.faults.failSets = f - (along write? es later).length

variable {e c f : Nat}

theorem rationed_nil (es : List Event) (s : MemoryStore) :
    Rationed s.faults.evictGets s.faults.corruptGets s.faults.failSets es [] s where
  reads i stored a hread := by cases hread
  writes i h key a hwrite := by cases hwrite
  evictGets := rfl
  corruptGets := by rw [along, List.length_nil, Nat.zero_sub, Nat.sub_zero]
  failSets := rfl

/-- An event that is no read and no write, and leaves what is set to misbehave. -/
theorem Rationed.concat_idle (hr : Rationed e c f es later s)
    (hread : read? (es ++ later) ev = none) (hwrite : write? (es ++ later) ev = none)
    (hevict : s'.faults.evictGets = s.faults.evictGets)
    (hcorrupt : s'.faults.corruptGets = s.faults.corruptGets)
    (hfail : s'.faults.failSets = s.faults.failSets) :
    Rationed e c f es (later ++ [ev]) s' := by
  have hreads : along read? es (later ++ [ev]) = along read? es later := by
    rw [along_concat, hread, Option.toList_none, List.append_nil]
  have hwrites : along write? es (later ++ [ev]) = along write? es later := by
    rw [along_concat, hwrite, Option.toList_none, List.append_nil]
  constructor
  · rw [hreads]
    exact hr.reads
  · rw [hwrites]
    exact hr.writes
  · rw [hreads, hevict]
    exact hr.evictGets
  · rw [hreads, hcorrupt]
    exact hr.corruptGets
  · rw [hwrites, hfail]
    exact hr.failSets

/-- What is left of the evictions and corruptions after some reads decides the next ones. -/
theorem offered_add (e c n i : Nat) (stored : Option Json) :
    offered (e - n) (c - (n - e)) i stored = offered e c (n + i) stored := by
  unfold offered
  by_cases hevict : n + i < e
  · rw [if_pos (by omega), if_pos hevict]
  · rw [if_neg (by omega), if_neg hevict]
    by_cases hcorrupt : n + i < e + c
    · rw [if_pos (by omega), if_pos hcorrupt]
    · rw [if_neg (by omega), if_neg hcorrupt]

/-- The last place of a list that has become longer by one. -/
theorem getElem?_concat_cases {α : Type} {xs : List α} {x y : α} {i : Nat}
    (hi : (xs ++ [x])[i]? = some y) : xs[i]? = some y ∨ i = xs.length ∧ y = x := by
  rcases Nat.lt_trichotomy i xs.length with hlt | heq | hgt
  · rw [List.getElem?_append_left hlt] at hi
    exact .inl hi
  · subst heq
    rw [List.getElem?_concat_length] at hi
    exact .inr ⟨rfl, (Option.some.inj hi).symm⟩
  · have hnone : (xs ++ [x])[i]? = none := by
      rw [List.getElem?_eq_none_iff, List.length_append, List.length_singleton]
      omega
    rw [hnone] at hi
    cases hi

/-- A read through a handle that is not released. -/
theorem Rationed.concat_read (hr : Rationed e c f es later s) (ht : Told (es ++ later) s)
    (hh : h ∈ given (es ++ later)) (hlive : h ∉ freed (es ++ later)) (key : String) :
    Rationed e c f es (later ++ [.called h (.get key) (s.call h (.get key)).1])
      (s.call h (.get key)).2 := by
  have hgone : s.isReleased h = false :=
    Bool.eq_false_iff.mpr fun hgone => hlive ((ht.numbers.isReleased_iff hh).mp hgone)
  have hcall := call_get hgone key
  rw [ht.holds.contents, hr.evictGets, hr.corruptGets, offered_add, Nat.add_zero] at hcall
  rw [hcall]
  have hreads : along read? es (later ++ [.called h (.get key) (.ok (offered e c
        (along read? es later).length (plain (changes h.map (es ++ later)) key)))]) =
      along read? es later ++ [(plain (changes h.map (es ++ later)) key, .ok (offered e c
        (along read? es later).length (plain (changes h.map (es ++ later)) key)))] := by
    rw [along_concat, read?, if_neg hlive, Option.toList_some]
  have hwrites : along write? es (later ++ [.called h (.get key) (.ok (offered e c
        (along read? es later).length (plain (changes h.map (es ++ later)) key)))]) =
      along write? es later := by
    rw [along_concat, write?, Option.toList_none, List.append_nil]
    simp
  constructor
  · intro i stored a hi
    rw [hreads] at hi
    rcases getElem?_concat_cases hi with hi | ⟨rfl, hlast⟩
    · exact hr.reads i stored a hi
    · obtain ⟨rfl, rfl⟩ := Prod.mk.inj hlast
      rfl
  · rw [hwrites]
    exact hr.writes
  · rw [hreads, List.length_append, List.length_singleton]
    show e - (along read? es later).length - 1 = _
    omega
  · rw [hreads, List.length_append, List.length_singleton]
    show c - ((along read? es later).length - e) - (1 - (e - (along read? es later).length)) = _
    omega
  · rw [hwrites]
    exact hr.failSets

/-- A write through a handle that is not released. -/
theorem Rationed.concat_write (hr : Rationed e c f es later s) (ht : Told (es ++ later) s)
    (hh : h ∈ given (es ++ later)) (hlive : h ∉ freed (es ++ later)) (key : String) (value : Json) :
    Rationed e c f es (later ++ [.called h (.set key value) (s.call h (.set key value)).1])
      (s.call h (.set key value)).2 := by
  have hgone : s.isReleased h = false :=
    Bool.eq_false_iff.mpr fun hgone => hlive ((ht.numbers.isReleased_iff hh).mp hgone)
  have hanswer : (s.call h (.set key value)).1 =
      if (along write? es later).length < f then .error (rejection h key) else .ok () := by
    rw [call_set hgone, hr.failSets]
    by_cases hleft : (along write? es later).length < f
    · rw [if_pos hleft, if_pos (by omega)]
    · rw [if_neg hleft, if_neg (by omega)]
  have hfaults : (s.call h (.set key value)).2.faults =
      { s.faults with failSets := s.faults.failSets - 1 } := by
    rw [call_set hgone]
    split
    · rfl
    · rename_i hnone
      have hzero : s.faults.failSets - 1 = s.faults.failSets := by omega
      rw [hzero]
      rfl
  have hreads (a : Except Fault Unit) :
      along read? es (later ++ [.called h (.set key value) a]) = along read? es later := by
    rw [along_concat]
    exact List.append_nil _
  have hwrites (a : Except Fault Unit) :
      along write? es (later ++ [.called h (.set key value) a]) =
        along write? es later ++ [(h, key, a)] := by
    rw [along_concat, write?, if_neg hlive, Option.toList_some]
  constructor
  · rw [hreads]
    exact hr.reads
  · intro i h' key' a hi
    rw [hwrites] at hi
    rcases getElem?_concat_cases hi with hi | ⟨rfl, hlast⟩
    · exact hr.writes i h' key' a hi
    · obtain ⟨rfl, hlast⟩ := Prod.mk.inj hlast
      obtain ⟨rfl, rfl⟩ := Prod.mk.inj hlast
      exact hanswer
  · rw [hreads, hfaults]
    exact hr.evictGets
  · rw [hreads, hfaults]
    exact hr.corruptGets
  · rw [hwrites, hfaults, List.length_append, List.length_singleton]
    have hleft := hr.failSets
    show s.faults.failSets - 1 = _
    omega

/-- Any event that sets nothing anew. -/
theorem Rationed.next (hr : Rationed e c f es later s) (hist : History (es ++ later) s)
    (hev : ev.isRationing = false) (hnext : Next (es ++ later) s ev s') :
    Rationed e c f es (later ++ [ev]) s' := by
  have hspared := hist.sparing
  have hsame {s' : MemoryStore} {ev : Event} (hread : read? (es ++ later) ev = none)
      (hwrite : write? (es ++ later) ev = none) (hfaults : s'.faults = s.faults) :
      Rationed e c f es (later ++ [ev]) s' := by
    refine hr.concat_idle hread hwrite ?_ ?_ ?_
    · rw [hfaults]
    · rw [hfaults]
    · rw [hfaults]
  cases hnext with
  | asked map => exact hsame rfl rfl hspared.ask
  | acquired map => exact hsame rfl rfl (hspared.acquire map)
  | released _ => exact hsame rfl rfl (hspared.release _)
  | @called h call hh =>
    by_cases hfreed : h ∈ freed (es ++ later)
    · refine hsame ?_ ?_ (hspared.released h hfreed call)
      · cases call with
        | get key => exact if_pos hfreed
        | containsKey | set | remove => rfl
      · cases call with
        | set key value => exact if_pos hfreed
        | containsKey | get | remove => rfl
    · cases call with
      | containsKey key => exact hsame rfl rfl (hspared.containsKey h key)
      | remove key => exact hsame rfl rfl (hspared.remove h key)
      | get key => exact hr.concat_read hist.told hh hfreed key
      | set key value => exact hr.concat_write hist.told hh hfreed key value
  | arranged x =>
    cases x with
    | evictGets | corruptGets | failSets => cases hev
    | failGetMap | getMapDelayMs => exact hr.concat_idle rfl rfl rfl rfl rfl

/-! ## Settings and counters over a history -/

/-- How many evictions are set. -/
def evicts? : FaultSetting → Option Nat
  | .evictGets n => some n
  | _ => none

/-- How many corruptions are set. -/
def corrupts? : FaultSetting → Option Nat
  | .corruptGets n => some n
  | _ => none

/-- How many rejections are set. -/
def rejects? : FaultSetting → Option Nat
  | .failSets n => some n
  | _ => none

/-- Of each number the last one that is set: a new value replaces the one before. -/
structure Sets (xs : List FaultSetting) (e c f : Nat) : Prop where
  evictGets : xs.reverse.findSome? evicts? = some e
  corruptGets : xs.reverse.findSome? corrupts? = some c
  failSets : xs.reverse.findSome? rejects? = some f

/-- One of the numbers after some settings, if `number?` tells which settings are about it. -/
theorem History.number_set (number : StoreFaults → Nat) (number? : FaultSetting → Option Nat)
    (hset : ∀ g x, number (g.set x) = (number? x).getD (number g))
    {before : List Event} {xs : List FaultSetting} {n : Nat}
    (hist : History (before ++ xs.map .arranged) s) (hxs : xs.reverse.findSome? number? = some n) :
    number s.faults = n := by
  induction xs using List.reverseRecOn generalizing s with
  | nil => cases hxs
  | append_singleton xs x ih =>
    rw [List.map_append, List.map_singleton, ← List.append_assoc] at hist
    obtain ⟨s₀, hist₀, hnext⟩ := hist.of_concat
    cases hnext
    rw [List.reverse_concat, List.findSome?_cons] at hxs
    show number (s₀.faults.set x) = n
    rw [hset]
    cases hx : number? x with
    | none =>
      rw [hx] at hxs
      exact ih hist₀ hxs
    | some n' =>
      rw [hx] at hxs
      exact Option.some.inj hxs

/-- The reads and writes behind the settings, up to the next one. -/
theorem Sets.rationed {before : List Event} {xs : List FaultSetting} (hxs : Sets xs e c f)
    (hist : History (before ++ xs.map .arranged ++ later) s)
    (hlater : ∀ ev ∈ later, ev.isRationing = false) :
    Rationed e c f (before ++ xs.map .arranged) later s := by
  -- The events are taken off at the end, where the history ends.
  induction later using List.reverseRecOn generalizing s with
  | nil =>
    rw [List.append_nil] at hist
    have hevict : s.faults.evictGets = e :=
      hist.number_set StoreFaults.evictGets evicts? (fun _ x => by cases x <;> rfl) hxs.evictGets
    have hcorrupt : s.faults.corruptGets = c :=
      hist.number_set StoreFaults.corruptGets corrupts? (fun _ x => by cases x <;> rfl)
        hxs.corruptGets
    have hfail : s.faults.failSets = f :=
      hist.number_set StoreFaults.failSets rejects? (fun _ x => by cases x <;> rfl) hxs.failSets
    rw [← hevict, ← hcorrupt, ← hfail]
    exact rationed_nil _ s
  | append_singleton later ev ih =>
    rw [← List.append_assoc] at hist
    obtain ⟨s', hist, hnext⟩ := hist.of_concat
    have hr := ih hist fun ev hev => hlater ev (List.mem_append_left _ hev)
    exact hr.next hist (hlater ev (List.mem_append_right _ (List.mem_singleton_self _))) hnext

/-- The request that an event shows.  A request for a map shows when it is asked for, and once. -/
def Event.request? : Event → Option Request
  | .asked map => some (.acquire map)
  | .called h c _ => some (.call h c)
  | .released h _ => some (.release h)
  | _ => none

/-- The requests made so far. -/
def requests (es : List Event) : List Request := es.filterMap Event.request?

theorem tolled_requests_snoc (k : Counter) (es : List Event) (ev : Event) :
    tolled k (requests (es ++ [ev])) =
      tolled k (requests es) + tolled k ev.request?.toList := by
  rw [requests, filterMap_snoc, tolled_append]
  rfl

/-- Every counter shows the requests made so far that it counts. -/
theorem History.shown_calls (hist : History es s) (k : Counter) :
    s.calls.shown k = tolled k (requests es) := by
  induction hist with
  | start => cases k <;> rfl
  | @ask es s map _ ih =>
    rw [tolled_requests_snoc, ← ih]
    cases k <;> rfl
  | @acquire es s map _ ih =>
    rw [tolled_requests_snoc, ← ih]
    exact (s.shown_finish 0 (.acquire map) k).trans (by cases k <;> rfl)
  | @call es s h c _ _ ih =>
    rw [tolled_requests_snoc, ← ih, calls_call, CallCounts.shown_note]
    cases c <;> cases k <;> rfl
  | @release es s h _ _ ih =>
    rw [tolled_requests_snoc, ← ih, calls_release]
    cases k <;> rfl
  | arrange x _ ih =>
    rw [tolled_requests_snoc]
    exact ih

/-- The total of the counters is the number of the requests. -/
theorem History.total_calls (hist : History es s) : s.calls.total = (requests es).length := by
  rw [CallCounts.total_eq_shown, ← sum_tolled]
  simp only [hist.shown_calls]

/-! ## Over all histories -/

/-- What a store metes out, and what it counts. -/
structure Metes (es : List Event) (s : MemoryStore) : Prop where
  /-- Behind settings to `e`, `c` and `f`, and up to the next setting. -/
  rationed : ∀ before xs later e c f, es = before ++ xs.map .arranged ++ later → Sets xs e c f →
    (∀ ev ∈ later, ev.isRationing = false) → Rationed e c f (before ++ xs.map .arranged) later s
  sparing : s.Sparing es
  shown : ∀ k, s.calls.shown k = tolled k (requests es)
  total : s.calls.total = (requests es).length
  /-- After fewer requests than there are 64-bit words. -/
  fits : (requests es).length < UInt64.size → s.calls.Fits

/-- The faults and the counters of a store in memory, after any history with any number of handles
    and maps.  Let evictions, corruptions and rejections be set to `e`, `c` and `f` somewhere in it,
    a new value replacing the old one, and none of them again.  Of the reads since then, through all
    handles that are not released and over all maps, the first `e` answer nothing, the next `c` the
    corrupted value, and all others what the map holds.  Of the writes the first `f` are rejected and
    all others carried out.  A call through a released handle, and every other operation, leaves all
    that is set.  Every counter shows how many requests of its kind were made, whatever the answers
    were, and the total is the number of all requests; as long as this is a 64-bit word, so are all
    counters. -/
theorem History.rations_and_counts (hist : History es s) : Metes es s where
  rationed before xs later e c f hes hxs hlater := by
    subst hes
    exact hxs.rationed hist hlater
  sparing := hist.sparing
  shown := hist.shown_calls
  total := hist.total_calls
  fits hfew := by
    rw [← hist.total_calls] at hfew
    exact CallCounts.fits_of_total_lt hfew

theorem History.rations_and_counts_sample :
    ∃ before xs later s, Rationed 1 1 1 (before ++ xs.map .arranged) later s ∧ Sets xs 1 1 1 ∧
      History (before ++ xs.map .arranged ++ later) s ∧
      freed before = [⟨2, "m"⟩] ∧ s.Sparing (before ++ xs.map .arranged ++ later) ∧
      (∃ a₀ a₁ a₂, along read? (before ++ xs.map .arranged) later =
          [(some (.ofNat 1), a₀), (none, a₁), (some (.ofNat 1), a₂)] ∧
        a₀ = .ok none ∧ a₁ = .ok (some corrupted) ∧ a₂ = .ok (some (.ofNat 1))) ∧
      (∃ a₀ a₁, along write? (before ++ xs.map .arranged) later =
          [(⟨0, "m"⟩, "b", a₀), (⟨1, "n"⟩, "b", a₁)] ∧
        a₀ = .error (rejection ⟨0, "m"⟩ "b") ∧ a₁ = .ok ()) ∧
      s.calls.shown .get = 4 ∧ s.calls.total = 11 ∧ s.calls.Fits := by
  -- Three evictions are set first, and replaced.  A get through a released handle comes in between.
  have hist := (History.start.ask "m").acquire "m"
    |>.ask "n"
    |>.acquire "n"
    |>.ask "m"
    |>.acquire "m"
    |>.call (h := ⟨0, "m"⟩) (.set "a" (.ofNat 1)) (by decide)
    |>.release (h := ⟨2, "m"⟩) (by decide)
    |>.arrange (.evictGets 3)
    |>.arrange (.corruptGets 1)
    |>.arrange (.evictGets 1)
    |>.arrange (.failSets 1)
    |>.call (h := ⟨0, "m"⟩) (.get "a") (by decide)
    |>.call (h := ⟨2, "m"⟩) (.get "a") (by decide)
    |>.call (h := ⟨1, "n"⟩) (.get "a") (by decide)
    |>.call (h := ⟨0, "m"⟩) (.set "b" (.ofNat 2)) (by decide)
    |>.call (h := ⟨1, "n"⟩) (.set "b" (.ofNat 2)) (by decide)
    |>.call (h := ⟨0, "m"⟩) (.get "a") (by decide)
  have hmetes := hist.rations_and_counts
  have hsets : Sets [.evictGets 3, .corruptGets 1, .evictGets 1, .failSets 1] 1 1 1 :=
    ⟨rfl, rfl, rfl⟩
  have hr := hmetes.rationed [_, _, _, _, _, _, _, _] _ [_, _, _, _, _, _] 1 1 1 rfl hsets (by decide)
  exact ⟨_, _, _, _, hr, hsets, hist, by rfl, hmetes.sparing,
    ⟨_, _, _, by rfl, hr.reads 0 _ _ (by rfl), hr.reads 1 _ _ (by rfl), hr.reads 2 _ _ (by rfl)⟩,
    ⟨_, _, by rfl, hr.writes 0 _ _ _ (by rfl), hr.writes 1 _ _ _ (by rfl)⟩,
    hmetes.shown .get, hmetes.total, hmetes.fits (by decide)⟩

end GridBench.MemoryStore
