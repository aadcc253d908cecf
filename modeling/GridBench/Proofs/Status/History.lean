/-
  GridBench.Proofs.Status.History

  What a gatherer's table holds after anything that may have happened to it.  A
  history is a list of events: direct writes, updates and stops sent through the
  gatherer or any of its senders, the start of the task, senders handed out and
  given up, and the steps of the task (`History`).  What was written can be read
  off the events alone (`written`): the updates inserted before the task was
  started, then as many of those sent as the task has taken.  `Standing` tells
  how far the task has come and is kept by every event.  Main statement
  (`History.table_eq_written`).
-/
import GridBench.Proofs.Status.Table
import GridBench.Proofs.Naming.Keys
import Mathlib.Data.List.Induction

namespace GridBench

namespace StatusUpdate

/-- The value that an update gives to a key. -/
def value? (key : String) : StatusUpdate → Option Json
  | .update key' value => if key' = key then some value else none
  | .stop => none

/-- What the task writes when it takes an update: a stop marks the run as finished. -/
def carriedOut : StatusUpdate → StatusUpdate
  | .update key value => .update key value
  | .stop => .update runnerFinishedKey (.bool true)

end StatusUpdate

namespace Progress

theorem getElem?_write_eq_or (t : Progress) (key : String) (u : StatusUpdate) :
    (t.write u)[key]? = (u.value? key).or t[key]? := by
  cases u with
  | stop => rfl
  | update key' value =>
    simp only [write, StatusUpdate.value?]
    split
    · rename_i hkey
      subst hkey
      exact getElem?_insert_self t key' value
    · rename_i hkey
      exact getElem?_insert_of_ne t hkey value

/-- The last update that gives a value to a key wins. -/
theorem getElem?_writeAll (t : Progress) (key : String) (us : List StatusUpdate) :
    (t.writeAll us)[key]? = (us.reverse.findSome? (·.value? key)).or t[key]? := by
  induction us generalizing t with
  | nil => rfl
  | cons u us ih =>
    have hcons : t.writeAll (u :: us) = (t.write u).writeAll us := rfl
    have hu : [u].findSome? (·.value? key) = u.value? key := by
      cases h : u.value? key <;> simp [h]
    rw [hcons, ih, List.reverse_cons, List.findSome?_append, hu, getElem?_write_eq_or,
      Option.or_assoc]

end Progress

namespace Gatherer

/-! ## Histories -/

/-- What may happen to a gatherer. -/
inductive Event where
  /-- Someone writes an update directly. -/
  | insert (u : StatusUpdate)
  /-- Someone sends an update or a stop through a sender. -/
  | send (u : StatusUpdate)
  /-- Someone sends an update or a stop through the gatherer. -/
  | post (u : StatusUpdate)
  /-- Someone asks for the task to be started. -/
  | listen
  /-- Another sender is handed out. -/
  | hold
  /-- A sender is given up. -/
  | letGo
  /-- The gatherer is given up. -/
  | discard
  /-- The task takes a step. -/
  | gather

/-- What an event makes of a gatherer.  What is refused leaves it as it is. -/
def after (g : Gatherer) : Event → Gatherer
  | .insert u => (g.insertNow u).toOption.getD g
  | .send u => (g.send u).1
  | .post u => (g.post u).1
  | .listen => g.listen.toOption.getD g
  | .hold => g.hold
  | .letGo => g.letGo
  | .discard => g.discard
  | .gather => (g.step?.map Prod.fst).getD g

/-- What can happen after a history.  A gatherer that was given up is used no more, sending and
    handing out take a sender, the gatherer keeps its own one, and the task waits for something
    to do. -/
def Allows (h : List Event) (g : Gatherer) : Event → Prop
  | .insert _ | .post _ | .listen | .discard => .discard ∉ h
  | .send _ | .hold => 0 < g.senders
  | .letGo => 0 < g.senders ∧ (.discard ∉ h → 1 < g.senders)
  | .gather => g.step?.isSome

/-- What has happened to a new gatherer, and what has become of it. -/
inductive History : List Event → Gatherer → Prop
  | start : History [] {}
  | next {h : List Event} {g : Gatherer} (e : Event) :
      History h g → Allows h g e → History (h ++ [e]) (g.after e)

/-! ## What a history tells -/

/-- The update that an event sends, be it accepted or not. -/
def Event.sent? : Event → Option StatusUpdate
  | .send u | .post u => some u
  | _ => none

def Event.isGather : Event → Bool
  | .gather => true
  | _ => false

/-- The updates inserted before the task was started. -/
def inserted : List Event → List StatusUpdate
  | .listen :: _ => []
  | .insert u :: h => u :: inserted h
  | _ :: h => inserted h
  | [] => []

/-- The updates sent, by anyone. -/
def sent (h : List Event) : List StatusUpdate := h.filterMap Event.sent?

/-- How many steps the task has taken. -/
def gathers (h : List Event) : Nat := h.countP Event.isGather

/-- The updates the task has taken: one at each step, in the order in which they were sent. -/
def taken (h : List Event) : List StatusUpdate := (sent h).take (gathers h)

/-- Everything written into the table. -/
def written (h : List Event) : List StatusUpdate :=
  inserted h ++ (taken h).map StatusUpdate.carriedOut

variable {h h' : List Event} {g g' : Gatherer} {us : List StatusUpdate}

@[simp] theorem sent_snoc (h : List Event) (e : Event) :
    sent (h ++ [e]) = sent h ++ e.sent?.toList := by
  cases he : e.sent? <;> simp [sent, he]

@[simp] theorem gathers_snoc (h : List Event) (e : Event) :
    gathers (h ++ [e]) = gathers h + e.isGather.toNat := by
  cases he : e.isGather <;> simp [gathers, he]

/-- Once the task was started, nothing is inserted. -/
theorem inserted_append_of_mem (hlisten : .listen ∈ h) (h' : List Event) :
    inserted (h ++ h') = inserted h := by
  fun_induction inserted h with
  | case1 h => rfl
  | case2 u h ih => exact congrArg (u :: ·) (ih (by simpa using hlisten))
  | case3 e h hne hni ih =>
    rw [List.cons_append, inserted]
    · exact ih ((List.mem_cons.mp hlisten).resolve_left fun he => hne he.symm)
    · exact hne
    · exact hni
  | case4 => cases hlisten

theorem inserted_append_of_not_mem (hlisten : .listen ∉ h) (h' : List Event) :
    inserted (h ++ h') = inserted h ++ inserted h' := by
  fun_induction inserted h with
  | case1 h => exact absurd List.mem_cons_self hlisten
  | case2 u h ih => exact congrArg (u :: ·) (ih fun hmem => hlisten (List.mem_cons_of_mem _ hmem))
  | case3 e h hne hni ih =>
    rw [List.cons_append, inserted]
    · exact ih fun hmem => hlisten (List.mem_cons_of_mem _ hmem)
    · exact hne
    · exact hni
  | case4 => rfl

/-- Only an insertion inserts. -/
theorem inserted_snoc_of_ne {e : Event} (he : ∀ u, e ≠ .insert u) :
    inserted (h ++ [e]) = inserted h := by
  by_cases hlisten : .listen ∈ h
  · exact inserted_append_of_mem hlisten [e]
  · rw [inserted_append_of_not_mem hlisten]
    cases e with
    | insert u => exact absurd rfl (he u)
    | send | post | listen | hold | letGo | discard | gather => exact List.append_nil _

/-! ## How far the task has come -/

/-- Where a gatherer stands after a history. -/
inductive Standing (h : List Event) (g : Gatherer) : Prop
  /-- The task was not started, and everything sent waits for it. -/
  | idle : g.phase = .idle → .listen ∉ h → .discard ∉ h → gathers h = 0 → g.queue = sent h →
      Standing h g
  /-- The task has taken some updates, none of them a stop, and the others wait. -/
  | listening (us : List StatusUpdate) : g.phase = .listening → .listen ∈ h →
      sent h = us ++ g.queue → gathers h = us.length → .stop ∉ us → Standing h g
  /-- The last update that the task took is the first stop. -/
  | stopped (us rest : List StatusUpdate) : g.phase = .finished → .listen ∈ h →
      sent h = us ++ .stop :: rest → gathers h = us.length + 1 → .stop ∉ us → Standing h g
  /-- The task has taken everything, and there was no stop, nor is there a sender. -/
  | deserted : g.phase = .finished → .listen ∈ h → g.senders = 0 → .stop ∉ sent h →
      (sent h).length < gathers h → Standing h g
  /-- The gatherer was given up before the task was started. -/
  | abandoned : g.phase = .abandoned → .listen ∉ h → .discard ∈ h → gathers h = 0 → Standing h g

/-- What holds of a gatherer after every history. -/
structure Told (h : List Event) (g : Gatherer) : Prop where
  table : g.table = (∅ : Progress).writeAll (written h)
  owner : .discard ∉ h → 0 < g.senders
  standing : Standing h g

/-- What the task has taken, from the number of its steps. -/
theorem taken_eq {rest : List StatusUpdate} (hsent : sent h = us ++ rest)
    (hn : gathers h = us.length) : taken h = us := by
  rw [taken, hn, hsent, List.take_left]

/-- Likewise if the last update it has taken is known. -/
theorem taken_eq_concat {u : StatusUpdate} {rest : List StatusUpdate}
    (hsent : sent h = us ++ u :: rest) (hn : gathers h = us.length + 1) :
    taken h = us ++ [u] :=
  taken_eq (hsent.trans (List.append_cons us u rest)) (hn.trans (by simp))

theorem taken_of_gathers_eq_zero (hn : gathers h = 0) : taken h = [] := by
  rw [taken, hn, List.take_zero]

/-- As long as someone can send, the task has taken no more than what was sent. -/
theorem Standing.gathers_le (st : Standing h g) (hs : 0 < g.senders) :
    gathers h ≤ (sent h).length := by
  cases st with
  | idle _ _ _ hn _ | abandoned _ _ _ hn => omega
  | listening us _ _ hsent hn _ => rw [hsent, List.length_append]; omega
  | stopped us rest _ _ hsent hn _ => rw [hsent, List.length_append, List.length_cons]; omega
  | deserted _ _ hzero _ _ => omega

/-- Before the task was started, it has taken nothing. -/
theorem Standing.listen_of_taken (st : Standing h g) {u : StatusUpdate} (hu : u ∈ taken h) :
    .listen ∈ h := by
  cases st with
  | idle _ _ _ n _ | abandoned _ _ _ n => simp [taken_of_gathers_eq_zero n] at hu
  | listening _ _ hl _ _ _ | stopped _ _ _ hl _ _ _ | deserted _ hl _ _ _ => exact hl

theorem Standing.phase_eq_idle (st : Standing h g) (hlisten : .listen ∉ h)
    (hdiscard : .discard ∉ h) : g.phase = .idle := by
  cases st with
  | idle hphase _ _ _ _ => exact hphase
  | listening _ _ hl _ _ _ | stopped _ _ _ hl _ _ _ | deserted _ hl _ _ _ => exact absurd hl hlisten
  | abandoned _ _ hd _ => exact absurd hd hdiscard

theorem Standing.phase_ne_idle (st : Standing h g) (hlisten : .listen ∈ h) :
    g.phase ≠ .idle ∧ g.phase ≠ .abandoned := by
  cases st with
  | idle _ hl _ _ _ | abandoned _ hl _ _ => exact absurd hlisten hl
  | listening _ hphase _ _ _ _ | stopped _ _ hphase _ _ _ _ | deserted hphase _ _ _ _ =>
    simp [hphase]

/-- Where a gatherer stands depends only on a few things that happened, and on these fields. -/
theorem Standing.congr (st : Standing h g) (hlisten : .listen ∈ h' ↔ .listen ∈ h)
    (hdiscard : .discard ∈ h' ↔ .discard ∈ h) (hsent : sent h' = sent h)
    (hgathers : gathers h' = gathers h) (hphase : g'.phase = g.phase) (hqueue : g'.queue = g.queue)
    (hsenders : g.senders = 0 → g'.senders = 0) : Standing h' g' := by
  cases st with
  | idle ph l d n q =>
    exact .idle (hphase.trans ph) (mt hlisten.mp l) (mt hdiscard.mp d) (hgathers.trans n)
      (by rw [hqueue, hsent, q])
  | listening us ph l s n hs =>
    exact .listening us (hphase.trans ph) (hlisten.mpr l) (by rw [hqueue, hsent, s])
      (hgathers.trans n) hs
  | stopped us rest ph l s n hs =>
    exact .stopped us rest (hphase.trans ph) (hlisten.mpr l) (hsent.trans s) (hgathers.trans n) hs
  | deserted ph l z hs hn =>
    exact .deserted (hphase.trans ph) (hlisten.mpr l) (hsenders z) (by rwa [hsent])
      (by rwa [hsent, hgathers])
  | abandoned ph l d n =>
    exact .abandoned (hphase.trans ph) (mt hlisten.mp l) (hdiscard.mpr d) (hgathers.trans n)

/-! ## What each event keeps -/

theorem Told.start : Told [] {} :=
  ⟨rfl, fun _ => Nat.one_pos, .idle rfl (by simp) (by simp) rfl rfl⟩

theorem written_eq (hinserted : inserted h' = inserted h) (htaken : taken h' = taken h) :
    written h' = written h := by
  rw [written, written, hinserted, htaken]

/-- What is sent while someone can send does not change what the task has taken. -/
theorem Standing.taken_snoc_sent (st : Standing h g) (hs : 0 < g.senders) {e : Event}
    (he : e.isGather = false) : taken (h ++ [e]) = taken h := by
  have hle := st.gathers_le hs
  rw [taken, taken, sent_snoc, gathers_snoc, he, Bool.toNat_false, Nat.add_zero,
    List.take_append_of_le_length hle]

/-- An update is sent, and is queued if the queue is open. -/
theorem Told.snoc_sent (t : Told h g) (hs : 0 < g.senders) {e : Event} {u : StatusUpdate}
    (he : e = .send u ∨ e = .post u) : Told (h ++ [e]) (g.send u).1 := by
  have hsent : e.sent? = some u := by rcases he with rfl | rfl <;> rfl
  have hgather : e.isGather = false := by rcases he with rfl | rfl <;> rfl
  have hl : .listen ∈ h ++ [e] ↔ .listen ∈ h := by rcases he with rfl | rfl <;> simp
  have hd : .discard ∈ h ++ [e] ↔ .discard ∈ h := by rcases he with rfl | rfl <;> simp
  have hinsert : inserted (h ++ [e]) = inserted h :=
    inserted_snoc_of_ne fun v hv => by rcases he with rfl | rfl <;> cases hv
  have hwritten := written_eq hinsert (t.standing.taken_snoc_sent hs hgather)
  have hfields : (g.send u).1.table = g.table ∧ (g.send u).1.senders = g.senders ∧
      (g.send u).1.phase = g.phase := by
    rw [send]
    split <;> exact ⟨rfl, rfl, rfl⟩
  obtain ⟨htable, hsenders, hphase⟩ := hfields
  have hn : gathers (h ++ [e]) = gathers h := by simp [hgather]
  have hs' : sent (h ++ [e]) = sent h ++ [u] := by simp [hsent]
  refine ⟨by rw [htable, hwritten, t.table], fun hnd => ?_, ?_⟩
  · rw [hsenders]
    exact t.owner (mt hd.mpr hnd)
  · cases t.standing with
    | idle ph l d n q =>
      refine .idle (hphase.trans ph) (mt hl.mp l) (mt hd.mp d) (hn.trans n) ?_
      simp [send, isOpen, ph, q, hs']
    | listening us ph l s n hns =>
      refine .listening us (hphase.trans ph) (hl.mpr l) ?_ (hn.trans n) hns
      simp [send, isOpen, ph, s, hs']
    | stopped us rest ph l s n hns =>
      refine .stopped us (rest ++ [u]) (hphase.trans ph) (hl.mpr l) ?_ (hn.trans n) hns
      simp [s, hs']
    | deserted ph l z hns hlt => omega
    | abandoned ph l d n => exact .abandoned (hphase.trans ph) (mt hl.mp l) (hd.mpr d) (hn.trans n)

theorem insertNow_of_idle (hphase : g.phase = .idle) (u : StatusUpdate) :
    g.insertNow u = .ok { g with table := g.table.write u } := by
  cases u with
  | update key value => rw [insertNow, if_pos hphase]; rfl
  | stop => rw [insertNow, if_pos hphase]; rfl

theorem insertNow_of_ne (hphase : g.phase ≠ .idle) (u : StatusUpdate) :
    ∃ f, g.insertNow u = .error f := by
  simp [insertNow, hphase]

/-- An update is written directly, or refused if the task was started. -/
theorem Told.snoc_insert (t : Told h g) (hd : .discard ∉ h) (u : StatusUpdate) :
    Told (h ++ [.insert u]) (g.after (.insert u)) := by
  have hstanding : ∀ t' : Progress, Standing (h ++ [.insert u]) { g with table := t' } := fun t' =>
    t.standing.congr (by simp) (by simp) (by simp [Event.sent?]) (by simp [Event.isGather]) rfl rfl
      fun hz => hz
  by_cases hlisten : .listen ∈ h
  · have hafter : g.after (.insert u) = g := by
      have hphase := (t.standing.phase_ne_idle hlisten).1
      simp [after, insertNow, hphase, Except.toOption]
    have hwritten : written (h ++ [.insert u]) = written h :=
      written_eq (inserted_append_of_mem hlisten _) (by simp [taken, Event.sent?, Event.isGather])
    rw [hafter]
    exact ⟨by rw [hwritten, t.table], fun _ => t.owner hd, hstanding g.table⟩
  · have hphase := t.standing.phase_eq_idle hlisten hd
    have hafter : g.after (.insert u) = { g with table := g.table.write u } := by
      rw [after, insertNow_of_idle hphase]
      rfl
    have hn : gathers h = 0 := by
      cases t.standing with
      | idle _ _ _ hn _ | abandoned _ _ _ hn => exact hn
      | listening _ ph _ _ _ _ | stopped _ _ ph _ _ _ _ | deserted ph _ _ _ _ =>
        exact absurd (hphase.symm.trans ph) (by decide)
    -- Nothing was taken so far, so that the update is the last one written.
    have hwritten : written (h ++ [.insert u]) = written h ++ [u] := by
      have hnone : taken (h ++ [.insert u]) = [] :=
        taken_of_gathers_eq_zero (by simp [Event.isGather, hn])
      rw [written, written, hnone, taken_of_gathers_eq_zero hn,
        inserted_append_of_not_mem hlisten]
      simp [inserted]
    rw [hafter]
    refine ⟨?_, fun _ => t.owner hd, hstanding _⟩
    rw [hwritten, Progress.writeAll_append, ← t.table]
    rfl

/-- An event that neither writes, nor sends, nor takes anything leaves what was written. -/
theorem written_snoc_of_silent {e : Event} (hsent : e.sent? = none) (hgather : e.isGather = false)
    (hinsert : ∀ u, e ≠ .insert u) : written (h ++ [e]) = written h :=
  written_eq (inserted_snoc_of_ne hinsert) (by simp [taken, hsent, hgather])

/-- The task is started, unless it was before. -/
theorem Told.snoc_listen (t : Told h g) (hd : .discard ∉ h) :
    Told (h ++ [.listen]) (g.after .listen) := by
  have hwritten : written (h ++ [.listen]) = written h :=
    written_snoc_of_silent rfl rfl fun _ he => by cases he
  have hsent : sent (h ++ [.listen]) = sent h := by simp [Event.sent?]
  have hn : gathers (h ++ [.listen]) = gathers h := by simp [Event.isGather]
  by_cases hlisten : .listen ∈ h
  · have hafter : g.after .listen = g := by
      have hphase := (t.standing.phase_ne_idle hlisten).1
      simp [after, listen, hphase, Except.toOption]
    rw [hafter]
    refine ⟨by rw [hwritten, t.table], fun _ => t.owner hd, ?_⟩
    exact t.standing.congr (by simp [hlisten]) (by simp) hsent hn rfl rfl fun hz => hz
  · have hphase := t.standing.phase_eq_idle hlisten hd
    have hafter : g.after .listen = { g with phase := .listening } := by
      simp [after, listen, hphase, Except.toOption]
    rw [hafter]
    refine ⟨by rw [hwritten]; exact t.table, fun _ => t.owner hd, ?_⟩
    cases t.standing with
    | idle _ _ _ n q =>
      exact .listening [] rfl (by simp) (by simp [hsent, q]) (hn.trans n) List.not_mem_nil
    | abandoned ph _ _ _ | listening _ ph _ _ _ _ | stopped _ _ ph _ _ _ _ | deserted ph _ _ _ _ =>
      exact absurd (hphase.symm.trans ph) (by decide)

/-- A sender is handed out or given up. -/
theorem Told.snoc_senders (t : Told h g) {e : Event} (he : e = .hold ∨ e = .letGo) {n : Nat}
    (howner : .discard ∉ h → 0 < n) (hzero : g.senders = 0 → n = 0) :
    Told (h ++ [e]) { g with senders := n } := by
  have hwritten : written (h ++ [e]) = written h := by
    rcases he with rfl | rfl <;> exact written_snoc_of_silent rfl rfl fun _ he => by cases he
  have hl : .listen ∈ h ++ [e] ↔ .listen ∈ h := by rcases he with rfl | rfl <;> simp
  have hd : .discard ∈ h ++ [e] ↔ .discard ∈ h := by rcases he with rfl | rfl <;> simp
  have hsent : sent (h ++ [e]) = sent h := by rcases he with rfl | rfl <;> simp [Event.sent?]
  have hn : gathers (h ++ [e]) = gathers h := by rcases he with rfl | rfl <;> simp [Event.isGather]
  exact ⟨by rw [hwritten]; exact t.table, fun hnd => howner (mt hd.mpr hnd),
    t.standing.congr hl hd hsent hn rfl rfl hzero⟩

/-- The gatherer is given up, and its queue with it unless the task holds it. -/
theorem Told.snoc_discard (t : Told h g) (hd : .discard ∉ h) :
    Told (h ++ [.discard]) (g.after .discard) := by
  have hwritten : written (h ++ [.discard]) = written h :=
    written_snoc_of_silent rfl rfl fun _ he => by cases he
  have hsent : sent (h ++ [.discard]) = sent h := by simp [Event.sent?]
  have hn : gathers (h ++ [.discard]) = gathers h := by simp [Event.isGather]
  have htable : (g.after .discard).table = g.table := by
    by_cases hphase : g.phase = .idle <;> simp [after, discard, letGo, hphase]
  refine ⟨by rw [htable, hwritten, t.table], fun hnd => absurd (by simp) hnd, ?_⟩
  cases t.standing with
  | idle ph l _ n _ =>
    exact .abandoned (by simp [after, discard, letGo, ph]) (by simp [l]) (by simp) (hn.trans n)
  | listening us ph l s n hs =>
    refine .listening us ?_ (by simp [l]) ?_ (hn.trans n) hs
    · simp [after, discard, letGo, ph]
    · simp [after, discard, letGo, ph, hsent, s]
  | stopped us rest ph l s n hs =>
    exact .stopped us rest (by simp [after, discard, letGo, ph]) (by simp [l]) (hsent.trans s)
      (hn.trans n) hs
  | deserted _ _ z _ _ => exact absurd z (Nat.pos_iff_ne_zero.mp (t.owner hd))
  | abandoned _ _ d _ => exact absurd d hd

/-- While the task is listening, it has taken what is no longer in the queue. -/
theorem Standing.of_listening (st : Standing h g) (hphase : g.phase = .listening) :
    ∃ us, .listen ∈ h ∧ sent h = us ++ g.queue ∧ gathers h = us.length ∧ .stop ∉ us := by
  cases st with
  | listening us _ l s n hs => exact ⟨us, l, s, n, hs⟩
  | idle ph _ _ _ _ | stopped _ _ ph _ _ _ _ | deserted ph _ _ _ _ | abandoned ph _ _ _ =>
    exact absurd (hphase.symm.trans ph) (by decide)

/-- The task writes what stands first in the queue, and nothing else. -/
theorem written_snoc_gather {u : StatusUpdate} {rest : List StatusUpdate}
    (s : sent h = us ++ u :: rest) (n : gathers h = us.length) :
    written (h ++ [.gather]) = written h ++ [u.carriedOut] := by
  have hinserted : inserted (h ++ [.gather]) = inserted h :=
    inserted_snoc_of_ne fun _ he => by cases he
  have hsent : sent (h ++ [.gather]) = us ++ u :: rest := by simp [Event.sent?, s]
  have hn : gathers (h ++ [.gather]) = us.length + 1 := by simp [Event.isGather, n]
  rw [written, written, hinserted, taken_eq s n, taken_eq_concat hsent hn, List.map_append,
    List.map_singleton, List.append_assoc]

/-- The task takes a step. -/
theorem Told.snoc_gather (t : Told h g) (hstep : g.step?.isSome) :
    Told (h ++ [.gather]) (g.after .gather) := by
  have hsent : sent (h ++ [.gather]) = sent h := by simp [Event.sent?]
  have hl : .listen ∈ h ++ [.gather] ↔ .listen ∈ h := by simp
  have hphase : g.phase = .listening := Classical.byContradiction fun hne => by
    simp [step?, hne] at hstep
  obtain ⟨us, l, s, n, hs⟩ := t.standing.of_listening hphase
  have hn : gathers (h ++ [.gather]) = us.length + 1 := by simp [Event.isGather, n]
  match hq : g.queue with
  | .update key value :: rest =>
    have hafter : g.after .gather =
        { g with table := g.table.insert key value, queue := rest } := by
      simp [after, step?, hphase, hq]
    rw [hafter]
    refine ⟨?_, fun hnd => t.owner fun hd => hnd (by simp [hd]), ?_⟩
    · rw [written_snoc_gather (hq ▸ s) n, Progress.writeAll_append, ← t.table]
      rfl
    · refine .listening (us ++ [.update key value]) hphase (hl.mpr l) ?_ ?_ ?_
      · simp [hsent, s, hq]
      · simp [hn]
      · simp [hs]
  | .stop :: rest =>
    have hafter : g.after .gather = { g with
        table := g.table.insert runnerFinishedKey (.bool true), queue := [],
        phase := .finished } := by
      simp [after, step?, hphase, hq]
    rw [hafter]
    refine ⟨?_, fun hnd => t.owner fun hd => hnd (by simp [hd]), ?_⟩
    · rw [written_snoc_gather (hq ▸ s) n, Progress.writeAll_append, ← t.table]
      rfl
    · exact .stopped us rest rfl (hl.mpr l) (by rw [hsent, s, hq]) hn hs
  | [] =>
    have hz : g.senders = 0 := Classical.byContradiction fun hne => by
      simp [step?, hphase, hq, hne] at hstep
    have hafter : g.after .gather = { g with phase := .finished } := by
      simp [after, step?, hphase, hq, hz]
    rw [hq, List.append_nil] at s
    have htaken : taken (h ++ [.gather]) = taken h := by
      rw [taken, taken, hn, hsent, n, s, List.take_length, List.take_of_length_le (Nat.le_succ _)]
    have hinserted : inserted (h ++ [.gather]) = inserted h :=
      inserted_snoc_of_ne fun _ he => by cases he
    rw [hafter]
    refine ⟨?_, fun hnd => t.owner fun hd => hnd (by simp [hd]), ?_⟩
    · rw [written_eq hinserted htaken]
      exact t.table
    · exact .deserted rfl (hl.mpr l) hz (by rwa [hsent, s]) (by rw [hsent, s, hn]; omega)

/-- What holds of a gatherer is kept by whatever happens to it. -/
theorem Told.next (t : Told h g) (e : Event) (he : Allows h g e) : Told (h ++ [e]) (g.after e) := by
  cases e with
  | insert u => exact t.snoc_insert he u
  | send u => exact t.snoc_sent he (.inl rfl)
  | post u =>
    have hpost : g.after (.post u) = (g.send u).1 := rfl
    rw [hpost]
    exact t.snoc_sent (t.owner he) (.inr rfl)
  | listen => exact t.snoc_listen he
  | hold =>
    have hheld : 0 < g.senders := he
    exact t.snoc_senders (.inl rfl) (fun _ => Nat.succ_pos _) fun hz => by omega
  | letGo =>
    obtain ⟨_, howner⟩ := he
    exact t.snoc_senders (.inr rfl) (fun hd => Nat.sub_pos_of_lt (howner hd)) fun hz => by omega
  | discard => exact t.snoc_discard he
  | gather => exact t.snoc_gather he

theorem History.told (hist : History h g) : Told h g := by
  induction hist with
  | start => exact .start
  | next e _ he ih => exact ih.next e he

/-! ## Stops -/

/-- The task takes nothing behind the first stop. -/
theorem Told.taken_prefix (t : Told h g) {rest : List StatusUpdate}
    (hsent : sent h = us ++ .stop :: rest) (hus : .stop ∉ us) : taken h <+: us ++ [.stop] := by
  cases t.standing with
  | idle _ _ _ n _ | abandoned _ _ _ n =>
    rw [taken_of_gathers_eq_zero n]
    exact List.nil_prefix
  | listening vs _ _ s n hvs =>
    have htaken : taken h = vs := taken_eq s n
    have hfirst : vs <+: us ++ .stop :: rest := ⟨g.queue, by rw [← s, hsent]⟩
    rw [htaken]
    -- Were it longer, the stop would be in it.
    rcases List.prefix_or_prefix_of_prefix hfirst ⟨rest, List.append_cons .. |>.symm⟩ with hle | hle
    · exact hle
    · exact absurd (hle.subset (by simp)) hvs
  | stopped vs rest' _ _ s n hvs =>
    obtain ⟨rfl, -⟩ := append_separator_inj hus hvs (hsent.symm.trans s)
    exact taken_eq_concat s n ▸ List.prefix_rfl
  | deserted _ _ _ hs _ => exact absurd (by simp [hsent]) hs

/-- If the task has taken a stop, it has taken the first one, and everything before it. -/
theorem Told.taken_eq_of_stop (t : Told h g) (hstop : .stop ∈ taken h) :
    ∃ us rest, sent h = us ++ .stop :: rest ∧ .stop ∉ us ∧ taken h = us ++ [.stop] := by
  obtain ⟨us, rest, hsent, hus⟩ := List.eq_append_cons_of_mem (List.mem_of_mem_take hstop)
  refine ⟨us, rest, hsent, hus, ?_⟩
  have hbegins := t.taken_prefix hsent hus
  obtain ⟨vs, ws, htaken, hvs⟩ := List.eq_append_cons_of_mem hstop
  obtain ⟨zs, hzs⟩ := hbegins
  rw [htaken, List.append_assoc, List.cons_append] at hzs
  obtain ⟨rfl, hnil⟩ := append_separator_inj hvs hus hzs
  rw [htaken, (List.append_eq_nil_iff.mp hnil).1]

theorem sent_append (h h' : List Event) : sent (h ++ h') = sent h ++ sent h' :=
  List.filterMap_append

theorem taken_prefix_taken (h h' : List Event) : taken h <+: taken (h ++ h') := by
  have hle : gathers h ≤ gathers (h ++ h') := by
    rw [gathers, gathers, List.countP_append]
    exact Nat.le_add_right _ _
  rw [taken, taken, sent_append, List.take_append]
  exact (List.take_prefix_take_left hle).trans (List.prefix_append _ _)

/-- Once a stop was taken, nothing more is. -/
theorem Told.taken_append (t : Told (h ++ h') g') (hstop : .stop ∈ taken h) :
    taken (h ++ h') = taken h := by
  have hbegins := taken_prefix_taken h h'
  obtain ⟨us, rest, -, hus, htaken'⟩ := t.taken_eq_of_stop (hbegins.subset hstop)
  obtain ⟨vs, ws, htaken, hvs⟩ := List.eq_append_cons_of_mem hstop
  obtain ⟨zs, hzs⟩ := hbegins
  rw [htaken', htaken, List.append_assoc, List.cons_append] at hzs
  obtain ⟨rfl, hnil⟩ := append_separator_inj hvs hus hzs
  rw [htaken', htaken, (List.append_eq_nil_iff.mp hnil).1]

/-! ## Waiting for the task, and nobody left to send -/

/-- A task that has nothing more to do has taken a stop, or everything that was sent. -/
theorem Told.taken_of_done (t : Told h g) (hlisten : .listen ∈ h) (hdone : g.step? = none) :
    .stop ∈ taken h ∨ taken h = sent h := by
  cases t.standing with
  | idle _ hl _ _ _ | abandoned _ hl _ _ => exact absurd hlisten hl
  | listening us ph _ s n _ =>
    have hqueue : g.queue = [] := by
      match hq : g.queue with
      | [] => rfl
      | .update key value :: rest => simp [step?, ph, hq] at hdone
      | .stop :: rest => simp [step?, ph, hq] at hdone
    rw [hqueue, List.append_nil] at s
    exact .inr (by rw [taken, n, s, List.take_length])
  | stopped us rest _ _ s n _ =>
    rw [taken_eq_concat s n]
    exact .inl (by simp)
  | deserted _ _ _ _ hlt => exact .inr (List.take_of_length_le (Nat.le_of_lt hlt))

theorem History.of_snoc {e : Event} (hist : History (h ++ [e]) g') :
    ∃ g, History h g ∧ Allows h g e ∧ g' = g.after e := by
  generalize hl : h ++ [e] = l at hist
  cases hist with
  | start => simp at hl
  | next e' hist he =>
    obtain ⟨rfl, rfl⟩ := List.append_singleton_inj.mp hl
    exact ⟨_, hist, he, rfl⟩

theorem senders_after_gather (g : Gatherer) : (g.after .gather).senders = g.senders := by
  simp only [after, step?]
  split
  · split
    · rfl
    · rfl
    · split <;> rfl
  · rfl

/-- If nobody is left to send, only the task goes on. -/
theorem History.sent_of_deserted (hist : History (h ++ h') g')
    (hdeserted : ∀ g, History h g → g.senders = 0) : sent (h ++ h') = sent h ∧ g'.senders = 0 := by
  induction h' using List.reverseRecOn generalizing g' with
  | nil =>
    rw [List.append_nil] at hist ⊢
    exact ⟨rfl, hdeserted _ hist⟩
  | append_singleton h' e ih =>
    rw [← List.append_assoc] at hist ⊢
    obtain ⟨g, hist', he, rfl⟩ := hist.of_snoc
    obtain ⟨hsent, hzero⟩ := ih hist'
    have hdiscard : .discard ∈ h ++ h' := Classical.byContradiction fun hd =>
      absurd hzero (Nat.pos_iff_ne_zero.mp (hist'.told.owner hd))
    cases e with
    | insert | post | listen | discard => exact absurd hdiscard he
    | send | hold => exact absurd hzero (Nat.pos_iff_ne_zero.mp he)
    | letGo => exact absurd hzero (Nat.pos_iff_ne_zero.mp he.1)
    | gather =>
      refine ⟨?_, (senders_after_gather g).trans hzero⟩
      rw [sent_snoc, hsent]
      exact List.append_nil _

/-- A history ends in one gatherer only. -/
theorem History.eq_foldl (hist : History h g) : g = h.foldl after {} := by
  induction hist with
  | start => rfl
  | next e _ _ ih => rw [List.foldl_append, ← ih]; rfl

/-- How many steps the task can take at most if nothing more is sent. -/
def pending (g : Gatherer) : Nat := if g.phase = .listening then g.queue.length + 1 else 0

theorem pending_after_gather (hstep : g.step?.isSome) : (g.after .gather).pending < g.pending := by
  have hphase : g.phase = .listening := Classical.byContradiction fun hne => by
    simp [step?, hne] at hstep
  match hq : g.queue with
  | .update key value :: rest => simp [after, step?, pending, hphase, hq]
  | .stop :: rest => simp [after, step?, pending, hphase, hq]
  | [] =>
    have hz : g.senders = 0 := Classical.byContradiction fun hne => by
      simp [step?, hphase, hq, hne] at hstep
    simp [after, step?, pending, hphase, hq, hz]

/-- A task that is left alone comes to have nothing more to do. -/
theorem History.exists_done (hist : History h g) :
    ∃ n g', History (h ++ List.replicate n .gather) g' ∧ g'.step? = none := by
  induction hm : g.pending using Nat.strongRecOn generalizing h g with
  | ind m ih =>
    cases hstep : g.step? with
    | none => exact ⟨0, g, by simpa using hist, hstep⟩
    | some r =>
      have hsome : g.step?.isSome := by rw [hstep]; rfl
      obtain ⟨n, g', hist', hdone⟩ :=
        ih _ (hm ▸ pending_after_gather hsome) (hist.next .gather hsome) rfl
      refine ⟨n + 1, g', ?_, hdone⟩
      rwa [List.append_assoc, List.singleton_append, ← List.replicate_succ] at hist'

/-! ## Every history -/

/-- What a gatherer's table holds after any history: the updates inserted before the task was
    started and then the first of those sent, as many as the task took, where the last value of a
    key counts.  Insertions are accepted up to the start only.  A task that is left alone takes
    everything, or everything up to the first stop.  Once it took the stop, the table holds what
    was sent before it and the mark that the run is finished, for good; and if nobody is left to
    send without a stop, it ends up with what was sent and without a mark from the task. -/
theorem History.table_eq_written (hist : History h g) :
    (g.table = (∅ : Progress).writeAll (written h) ∧
      ∀ key, g.table[key]? = (written h).reverse.findSome? (·.value? key)) ∧
    (.discard ∉ h → ∀ u, (∃ g', g.insertNow u = .ok g') ↔ .listen ∉ h) ∧
    (.listen ∈ h → (g.step? = none → .stop ∈ taken h ∨ taken h = sent h) ∧
      ∃ n g', History (h ++ List.replicate n .gather) g' ∧ g'.step? = none) ∧
    (∀ us rest, sent h = us ++ .stop :: rest → .stop ∉ us → taken h <+: us ++ [.stop]) ∧
    (.stop ∈ taken h → ∃ us rest, sent h = us ++ .stop :: rest ∧ .stop ∉ us ∧
      g.table = ((∅ : Progress).writeAll (inserted h ++ us)).insert runnerFinishedKey (.bool true) ∧
      ∀ h' g', History (h ++ h') g' → g'.table = g.table) ∧
    (.listen ∈ h → g.senders = 0 → .stop ∉ sent h → ∀ h' g', History (h ++ h') g' →
      sent (h ++ h') = sent h ∧
      (g'.step? = none → g'.table = (∅ : Progress).writeAll (inserted h ++ sent h))) := by
  have t := hist.told
  -- Updates are carried out as they are, up to the first stop.
  have hcarried : ∀ us : List StatusUpdate, .stop ∉ us → us.map StatusUpdate.carriedOut = us := by
    intro us hus
    refine (List.map_congr_left fun u hu => ?_).trans (List.map_id us)
    cases u with
    | update => rfl
    | stop => exact absurd hu hus
  refine ⟨⟨t.table, fun key => ?_⟩, fun hd u => ⟨?_, fun hlisten => ?_⟩,
    fun hlisten => ⟨t.taken_of_done hlisten, hist.exists_done⟩, fun us rest => t.taken_prefix,
    fun hstop => ?_, fun hlisten hzero hstop h' g' hist' => ?_⟩
  · rw [t.table, Progress.getElem?_writeAll]
    exact Option.or_none
  · rintro ⟨g', hok⟩ hlisten
    obtain ⟨f, hf⟩ := insertNow_of_ne (t.standing.phase_ne_idle hlisten).1 u
    cases hok.symm.trans hf
  · exact ⟨_, insertNow_of_idle (t.standing.phase_eq_idle hlisten hd) u⟩
  · obtain ⟨us, rest, hsent, hus, htaken⟩ := t.taken_eq_of_stop hstop
    have hlisten := t.standing.listen_of_taken hstop
    refine ⟨us, rest, hsent, hus, ?_, fun h' g' hist' => ?_⟩
    · rw [t.table, written, htaken, List.map_append, hcarried us hus, ← List.append_assoc,
        Progress.writeAll_append]
      rfl
    · rw [hist'.told.table, t.table]
      have hwritten := written_eq (inserted_append_of_mem hlisten h')
        (hist'.told.taken_append hstop)
      exact congrArg _ hwritten
  · obtain ⟨hsent, -⟩ := hist'.sent_of_deserted fun g₁ hist₁ => by
      rw [hist₁.eq_foldl, ← hist.eq_foldl, hzero]
    refine ⟨hsent, fun hdone => ?_⟩
    have hstop' : .stop ∉ sent (h ++ h') := by rwa [hsent]
    have htaken : taken (h ++ h') = sent h := by
      rcases hist'.told.taken_of_done (List.mem_append_left _ hlisten) hdone with hs | ht
      · exact absurd (List.mem_of_mem_take hs) hstop'
      · rw [ht, hsent]
    rw [hist'.told.table, written, htaken, hcarried _ hstop, inserted_append_of_mem hlisten]

theorem History.table_eq_written_sample :
    (∃ h g, History h g ∧ sent h = [.update "a" (.ofNat 1), .stop, .update "a" (.ofNat 2)] ∧
      .stop ∈ taken h ∧ g.table["a"]? = some (.ofNat 1) ∧ g.table["b"]? = some (.ofNat 3)) ∧
    ∃ h g, History h g ∧ .listen ∈ h ∧ g.senders = 0 ∧ sent h = [.update "a" (.ofNat 1)] ∧
      g.table["a"]? = some (.ofNat 1) ∧ g.table[runnerFinishedKey]? = none := by
  constructor
  -- An update waits for the task, a direct stop does nothing, and the last update comes too late.
  · have hist := (History.start.next (.insert (.update "b" (.ofNat 3))) List.not_mem_nil)
      |>.next (.insert .stop) (by simp [Allows])
      |>.next (.send (.update "a" (.ofNat 1))) Nat.one_pos
      |>.next .listen (by simp [Allows])
      |>.next (.post .stop) (by simp [Allows])
      |>.next (.send (.update "a" (.ofNat 2))) Nat.one_pos
      |>.next .gather rfl
      |>.next .gather rfl
    have htable := hist.table_eq_written.1.2
    exact ⟨_, _, hist, rfl, List.mem_cons_of_mem _ List.mem_cons_self,
      (htable "a").trans rfl, (htable "b").trans rfl⟩
  -- The only sender goes with the gatherer.
  · have hist := (History.start.next .listen List.not_mem_nil)
      |>.next (.post (.update "a" (.ofNat 1))) (by simp [Allows])
      |>.next .discard (by simp [Allows])
      |>.next .gather rfl
      |>.next .gather rfl
    have htable := hist.table_eq_written.1.2
    exact ⟨_, _, hist, by simp, rfl, rfl, (htable "a").trans rfl,
      (htable runnerFinishedKey).trans rfl⟩

end Gatherer

end GridBench
