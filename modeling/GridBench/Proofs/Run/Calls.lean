/-
  GridBench.Proofs.Run.Calls

  The calls a worker makes on its map, whatever the map answers and whenever
  the run is cancelled.  Between acquiring the map and giving it back there is
  one block of calls for each round.  A block keeps to a course through the
  elements; the round is completed if the block is a whole course and every
  answer was good, and otherwise the block breaks off behind the first answer
  that was not, or where a cancellation kept the next call from being made
  (`Orderly`).  Main statement: `calls_in_blocks`.
-/
import GridBench.Proofs.Run.Discipline
import GridBench.Proofs.Run.Undisturbed

namespace GridBench

variable {σ : Type} {g : Grid σ}

namespace Request

/-- The call that a request makes on a map. -/
def call? : Request → Option MapCall
  | .call _ c => some c
  | _ => none

end Request

/-! ## Calls that were made -/

/-- The call that an act made, with the answer to it.  A call that was refused because of a
    cancellation was not made. -/
def Act.made? (a : Act σ) : Option MadeCall :=
  match a.entry.worker with
  | .waiting .. => a.deed.call?
  | _ => none

/-- The calls that were made in a log. -/
def callsMade (as : List (Act σ)) : List MadeCall := as.filterMap Act.made?

theorem callsMade_append (as bs : List (Act σ)) :
    callsMade (as ++ bs) = callsMade as ++ callsMade bs := List.filterMap_append

theorem callsMade_cons (a : Act σ) (as : List (Act σ)) :
    callsMade (a :: as) = a.made?.toList ++ callsMade as := by
  cases hm : a.made? with
  | none => exact List.filterMap_cons_none hm
  | some x => exact List.filterMap_cons_some hm

theorem callsOf_deedsOf (as : List (Act σ)) :
    callsOf (deedsOf as) = as.filterMap fun a => a.deed.call? :=
  List.filterMap_map

/-- A call in a diary was made, unless a cancellation kept it from being made. -/
theorem Act.Genuine.made? {a : Act σ} (h : a.Genuine g) :
    a.made? = a.deed.call? ∨ a.made? = none ∧
      (∃ c, a.deed.call? = some ⟨c, .error .cancelled⟩) ∧ a.entry.before.cancelled = true := by
  cases h with
  | answered _ => exact .inl rfl
  | @refused r withinMs k w hc _ =>
    match r with
    | .call h c => exact .inr ⟨rfl, ⟨c, rfl⟩, hc⟩
    | .acquire _ | .release _ => exact .inl rfl
  | @other e k reply w w' he _ _ =>
    match e with
    | .ask _ _ => cases he
    | .pause _ | .clock | .pick _ | .log _ | .publish _ => exact .inl rfl

/-- The requests that were answered show the calls that were made. -/
theorem filterMap_answered {as : List (Act σ)} (has : ∀ a ∈ as, a.Genuine g) :
    (answered as).filterMap Request.call? = (callsMade as).map Sigma.fst := by
  induction as with
  | nil => rfl
  | cons a as ih =>
    have ih := ih fun b hb => has b (List.mem_cons_of_mem _ hb)
    have hact : a.entry.worker.pending.filterMap Request.call? =
        a.made?.toList.map Sigma.fst := by
      cases has a List.mem_cons_self with
      | @answered r f k b w w' _ =>
        match r with
        | .acquire _ | .call .. | .release _ => rfl
      | refused | other => rfl
    have hanswered : answered (a :: as) = a.entry.worker.pending ++ answered as :=
      List.flatMap_cons
    rw [hanswered, List.filterMap_append, hact, ih, callsMade_cons, List.map_append]

/-- Once a worker has ended, all its requests were answered. -/
theorem Worker.Path.filterMap_requestsOf {q : Proc (Option String)} {L : List (Entry σ)}
    {t : Worker} (h : Worker.Path g (.running q) L t) (hended : t.hasEnded = true) :
    (requestsOf L).filterMap Request.call? = (callsMade (actsOf g L)).map Sigma.fst := by
  have hsent := h.requestsOf_eq
  rw [Worker.pending_of_hasEnded hended, List.append_nil] at hsent
  rw [← filterMap_answered h.genuine, ← hsent]
  rfl

/-- A number that was picked is one that the draws of its world stand for. -/
theorem Act.Genuine.isDrawn {a : Act σ} (h : a.Genuine g) : a.deed.IsDrawn := by
  cases h with
  | answered _ | refused _ _ => trivial
  | @other e k reply w w' _ _ hpick =>
    match e with
    | .pick p => exact ⟨_, hpick p reply rfl⟩
    | .ask _ _ | .pause _ | .clock | .log _ | .publish _ => trivial

theorem forall_isDrawn {as : List (Act σ)} (has : ∀ a ∈ as, a.Genuine g) :
    ∀ d ∈ deedsOf as, d.IsDrawn := by
  intro d hd
  obtain ⟨a, ha, rfl⟩ := List.mem_map.mp hd
  exact (has a ha).isDrawn

namespace Partition

variable {p : Partition}

/-- Calls of which none was refused because of a cancellation were made. -/
theorem callsMade_of_unrefused {as : List (Act σ)} (has : ∀ a ∈ as, a.Genuine g)
    (hcalls : ∀ c, ⟨c, .error .cancelled⟩ ∉ callsOf (deedsOf as)) :
    callsMade as = callsOf (deedsOf as) := by
  rw [callsOf_deedsOf] at hcalls ⊢
  refine List.filterMap_congr fun a ha => ?_
  rcases (has a ha).made? with hmade | ⟨_, ⟨c, hc⟩, _⟩
  · exact hmade
  · exact absurd (List.mem_filterMap.mpr ⟨a, ha, hc⟩) (hcalls c)

/-- Calls that were answered well were made. -/
theorem callsMade_of_well {as : List (Act σ)} (has : ∀ a ∈ as, a.Genuine g)
    (hwell : ∀ x ∈ callsOf (deedsOf as), p.verdict x = .ok ()) :
    callsMade as = callsOf (deedsOf as) := by
  refine callsMade_of_unrefused has fun c hc => ?_
  have hgood := hwell _ hc
  rw [verdict_error] at hgood
  cases hgood

/-- Behind calls that were answered well, the next one was made as well, or a cancellation kept it
    from being made. -/
theorem callsMade_of_broken {as : List (Act σ)} {xs : List MadeCall} {x : MadeCall}
    (has : ∀ a ∈ as, a.Genuine g) (hcalls : callsOf (deedsOf as) = xs ++ [x])
    (hwell : ∀ y ∈ xs, p.verdict y = .ok ()) :
    callsMade as = xs ++ [x] ∨ callsMade as = xs ∧ p.verdict x = .error .cancelled ∧
      ∃ a ∈ as, a.entry.before.cancelled = true := by
  rw [callsOf_deedsOf, List.filterMap_eq_append_iff] at hcalls
  obtain ⟨bs, cs, rfl, hbs, hcs⟩ := hcalls
  have hbs' : callsMade bs = xs := by
    rw [callsMade_of_well (p := p) (fun a ha => has a (List.mem_append_left _ ha)) ?_,
      callsOf_deedsOf, hbs]
    rw [callsOf_deedsOf, hbs]
    exact hwell
  obtain ⟨cs₁, a, cs₂, rfl, hcs₁, ha, hcs₂⟩ := List.filterMap_eq_cons_iff.mp hcs
  -- Where there is no call in the diary, none was made.
  have hnone : ∀ b ∈ bs ++ (cs₁ ++ a :: cs₂), b.deed.call? = none → b.made? = none := by
    intro b hb hcall
    rcases (has b hb).made? with hmade | ⟨hmade, _⟩
    · exact hmade.trans hcall
    · exact hmade
  have hcs₁' : callsMade cs₁ = [] := List.filterMap_eq_nil_iff.mpr fun b hb =>
    hnone b (by simp [hb]) (hcs₁ b hb)
  have hcs₂' : callsMade cs₂ = [] := List.filterMap_eq_nil_iff.mpr fun b hb =>
    hnone b (by simp [hb]) (List.filterMap_eq_nil_iff.mp hcs₂ b hb)
  rw [callsMade_append, callsMade_append, callsMade_cons, hbs', hcs₁', hcs₂', List.nil_append,
    List.append_nil]
  rcases (has a (by simp)).made? with hmade | ⟨hmade, ⟨c, hc⟩, hcancelled⟩
  · rw [hmade, ha]
    exact .inl rfl
  · rw [hmade]
    have hx : x = ⟨c, .error .cancelled⟩ := Option.some.inj (ha.symm.trans hc)
    exact .inr ⟨List.append_nil _, hx ▸ p.verdict_error c _, a, by simp, hcancelled⟩

/-- What is said of the calls made in a lap, when the removal goes through the first `r` elements.
    They are the beginning of a whole course, but for the last answer; the round is completed if
    they are a whole course and all answers are good; and if it failed, then behind the first answer
    that is not good, or because a cancellation kept the next call from being made. -/
structure Orderly (p : Partition) (items : List (String × Json)) (r : Nat) (l : Lap σ) : Prop where
  bound : r = 0 ∨ r < items.length
  course : ∃ xs, p.Course items r xs ∧
    (callsMade l.acts).map Sigma.fst <+: xs.map Sigma.fst ∧ (callsMade l.acts).dropLast <+: xs
  completed_iff : l.roundEnd = .completed ↔
    p.Course items r (callsMade l.acts) ∧ ∀ x ∈ callsMade l.acts, p.verdict x = .ok ()
  failed : ∀ action cause, l.roundEnd = .failed action cause →
    (∃ xs x, callsMade l.acts = xs ++ [x] ∧ (∀ y ∈ xs, p.verdict y = .ok ()) ∧
      p.verdict x = .error cause) ∨
    ((∀ y ∈ callsMade l.acts, p.verdict y = .ok ()) ∧ cause = .cancelled ∧
      ∃ a ∈ l.acts, a.entry.before.cancelled = true)
  drawn : l.roundEnd = .completed ∨ (∃ cause, l.roundEnd = .failed .remove cause) →
    ⟨.pick (removalCount items.length), r⟩ ∈ deedsOf l.acts

variable {items : List (String × Json)}

/-- The calls of every round are orderly. -/
theorem exists_orderly {l : Lap σ} {h : Handle} (helements : p.config.elements = listed items)
    (hplays : Proc.Plays (p.round h) (deedsOf l.acts) (.done l.roundEnd))
    (hacts : ∀ a ∈ l.acts, a.Genuine g) : ∃ r, p.Orderly items r l := by
  obtain ⟨r, hr, hends, hpick⟩ := round_goes helements hplays (forall_isDrawn hacts)
  refine ⟨r, ?_⟩
  rcases hends with ⟨he, htracks⟩ | ⟨action, f, he, htracks⟩
  -- All answers were good, so all calls were made.
  · obtain ⟨hcourse, hwell⟩ := htracks.of_none
    rw [← callsMade_of_well hacts hwell] at hcourse hwell
    exact {
      bound := hr
      course := ⟨_, hcourse, List.prefix_rfl, List.dropLast_prefix _⟩
      completed_iff := ⟨fun _ => ⟨hcourse, hwell⟩, fun _ => he⟩
      failed := fun action cause hfailed => by
        rw [he] at hfailed
        cases hfailed
      drawn := hpick }
  · generalize hcalls : callsOf (deedsOf l.acts) = ys at htracks
    cases htracks with
    | @broken xs rest c a a' _ hcourse hwell hbad =>
      have hnot : l.roundEnd ≠ .completed := by
        rw [he]
        nofun
      rcases callsMade_of_broken hacts hcalls hwell with hmade | ⟨hmade, hcause, hcancelled⟩
      -- The answer that was not good is the last one.
      · refine ⟨hr, ⟨_, hcourse, ?_, ?_⟩, ⟨fun hc => absurd hc hnot, fun hc => ?_⟩,
          fun action' cause hfailed => .inl ⟨xs, _, hmade, hwell, ?_⟩, hpick⟩
        · rw [hmade, List.map_append, List.map_append, List.map_cons, List.map_cons]
          exact ⟨rest.map Sigma.fst, by simp⟩
        · rw [hmade, List.dropLast_concat]
          exact List.prefix_append _ _
        · have hgood := hc.2 ⟨c, a⟩ (by simp [hmade])
          rw [hbad] at hgood
          cases hgood
        · rw [he] at hfailed
          cases hfailed
          exact hbad
      -- The last call was not made, so those that were made are not a whole course.
      · rw [hbad] at hcause
        cases hcause
        refine ⟨hr, ⟨_, hcourse, ?_, ?_⟩, ⟨fun hc => absurd hc hnot, fun hc => ?_⟩,
          fun action' cause hfailed => .inr ⟨hmade ▸ hwell, ?_, hcancelled⟩, hpick⟩
        · rw [hmade, List.map_append]
          exact List.prefix_append _ _
        · rw [hmade]
          exact (List.dropLast_prefix _).trans (List.prefix_append _ _)
        · rw [hmade] at hc
          have hnil := hc.1.eq_nil hcourse
          cases hnil
        · rw [he] at hfailed
          cases hfailed
          rfl

/-- Elements whose keys and values can be computed crash no round. -/
theorem rounds_uncrashed {h : Handle} (helements : p.config.elements = listed items)
    {left run completed failed : Nat} {ds : List Deed} {crash : Option String}
    (hplays : Proc.Plays (p.rounds h left run completed failed) ds (.done crash))
    (hdrawn : ∀ d ∈ ds, d.IsDrawn) : crash = none := by
  induction left generalizing run completed failed ds with
  | zero =>
    rw [rounds] at hplays
    cases hplays with
    | cons hplays =>
      obtain ⟨_, hr⟩ := hplays.done_nil
      cases hr
      rfl
  | succ left ih =>
    rw [rounds_succ] at hplays
    obtain ⟨ds₁, _, e, rfl, h₁, h'⟩ := hplays.of_bind_done
    obtain ⟨ds₂, ds₃, _, rfl, _, h₃⟩ := Proc.Plays.of_bind_done h'
    rw [iteration_eq] at h₁
    obtain ⟨ds₀, ds₁, _, rfl, _, h₁⟩ := h₁.of_bind_done
    obtain ⟨r, _, hends, _⟩ := round_goes helements h₁ fun d hd => hdrawn d (by simp [hd])
    have hdrawn₃ : ∀ d ∈ ds₃, d.IsDrawn := fun d hd => hdrawn d (by simp [hd])
    rcases hends with ⟨rfl, _⟩ | ⟨action, f, rfl, _⟩
    · exact ih h₃ hdrawn₃
    · exact ih h₃ hdrawn₃

/-- A worker whose elements can be computed ends without a crash, unless it panics. -/
theorem work_uncrashed (helements : p.config.elements = listed items) {ds : List Deed}
    {crash : Option String} (hplays : Proc.Plays p.work ds (.done crash))
    (hdrawn : ∀ d ∈ ds, d.IsDrawn) : crash = none := by
  rcases plays_work_cases hplays with ⟨e, k, _, hq⟩ | ⟨f, _, hq⟩ |
    ⟨ds₁, ds₂, m, e, k, _, _, _, hq⟩ | ⟨ds₁, ds₂, ds₃, m, crash', rfl, _, hrounds, hleave⟩
  · cases hq
  · cases hq
    rfl
  · cases hq
  · have hnone := rounds_uncrashed helements hrounds fun d hd => hdrawn d (by simp [hd])
    have hsame : crash = crash' := hleave.result (Terms.plain_grants _ _ _) (leave_aside m crash')
    exact hsame.trans hnone

/-! ## All calls of a worker -/

theorem call?_of_not_isAsk {d : Deed} (h : d.effect.isAsk = false) : d.call? = none := by
  match d, h with
  | ⟨.pause _, _⟩, _ | ⟨.clock, _⟩, _ | ⟨.pick _, _⟩, _ | ⟨.log _, _⟩, _ | ⟨.publish _, _⟩, _ => rfl

theorem Aside.call?_eq_none {d : Deed} (h : Aside d.effect) : d.call? = none := by
  match d, h with
  | ⟨.ask (.acquire _) _, _⟩, _ | ⟨.ask (.release _) _, _⟩, _ | ⟨.pause _, _⟩, _ | ⟨.clock, _⟩, _
  | ⟨.log _, _⟩, _ => rfl

section

variable {β : Type} {f : Act σ → Option β} {h : Handle} {as : List (Act σ)} {ls : List (Lap σ)}

/-- What a tour shows of its calls, it shows in its laps. -/
theorem Tour.filterMap_eq (hf : ∀ a : Act σ, a.deed.call? = none → f a = none) {run : Nat}
    (htour : p.Tour h run as ls) : as.filterMap f = ls.flatMap fun l => l.acts.filterMap f := by
  have hnone : ∀ bs : List (Act σ), (∀ b ∈ bs, b.deed.effect.isAsk = false) →
      bs.filterMap f = [] := fun bs hbs =>
    List.filterMap_eq_nil_iff.mpr fun b hb => hf b (call?_of_not_isAsk (hbs b hb))
  induction htour with
  | done hunasked => exact hnone _ hunasked
  | lap hlead _ _ hunasked _ ih =>
    rw [List.filterMap_append, List.filterMap_append, List.filterMap_append, ih,
      hnone _ (forall_acts hlead (lead_unasked _)), hnone _ hunasked, List.nil_append,
      List.nil_append, List.flatMap_cons]

/-- What a worker shows of its calls, it shows in its laps. -/
theorem Worked.filterMap_eq (hf : ∀ a : Act σ, a.deed.call? = none → f a = none)
    (hworked : p.Worked h as ls) : as.filterMap f = ls.flatMap fun l => l.acts.filterMap f := by
  have hnone : ∀ bs : List (Act σ), (∀ b ∈ bs, Aside b.deed.effect) → bs.filterMap f = [] :=
    fun bs hbs => List.filterMap_eq_nil_iff.mpr fun b hb => hf b (hbs b hb).call?_eq_none
  obtain ⟨as₁, as₂, as₃, rfl, haside₁, htour, haside₃⟩ := hworked.parts
  rw [List.filterMap_append, List.filterMap_append, htour.filterMap_eq hf, hnone _ haside₁,
    hnone _ haside₃, List.nil_append, List.append_nil]

/-- All calls of a worker are made in its laps. -/
theorem Worked.callsMade_eq (hworked : p.Worked h as ls) :
    callsMade as = ls.flatMap fun l => callsMade l.acts := by
  refine hworked.filterMap_eq fun a ha => ?_
  unfold Act.made?
  split
  · exact ha
  · rfl

/-- All calls in the diary of a worker are in those of its laps. -/
theorem Worked.callsOf_eq (hworked : p.Worked h as ls) :
    callsOf (deedsOf as) = ls.flatMap fun l => callsOf (deedsOf l.acts) := by
  simp only [callsOf_deedsOf]
  exact hworked.filterMap_eq fun _ ha => ha

end

/-- Everything a worker has sent that was handed a handle and has ended. -/
theorem Life.requestsOf_eq {panicked : Bool} {ds : List Deed} {L : List (Entry σ)} {t : Worker}
    {h : Handle} (hlife : p.Life g panicked ds L t) (hended : t.hasEnded = true)
    (hhanded : handed (deedsOf (actsOf g L)) = [h])
    (hcalls : (requestsOf L).filterMap Request.call? =
      (callsMade (actsOf g L)).map Sigma.fst) :
    requestsOf L = .acquire p.mapName ::
      ((callsMade (actsOf g L)).map (fun x => Request.call h x.1) ++ [.release h]) := by
  have hover := hlife.handover
  rw [hhanded, hended] at hover
  generalize requestsOf L = rs at hover hcalls ⊢
  cases hover with
  | behind _ cs =>
    have hcs : (Request.acquire p.mapName :: (cs.map (Request.call h) ++ [.release h])).filterMap
        Request.call? = cs := by
      rw [List.filterMap_cons_none rfl, List.filterMap_append, List.filterMap_map]
      exact (List.append_nil _).trans List.filterMap_some
    have hmade : cs = (callsMade (actsOf g L)).map Sigma.fst := hcs.symm.trans hcalls
    rw [hmade, List.map_map]
    rfl

end Partition

namespace Watched

variable {config : LoopConfig} {S : Outside σ} {s : Watched σ} {log : Log σ} {w : World σ}
variable {items : List (String × Json)}

/-- If no panics come from outside, a worker whose elements can be computed does not crash. -/
theorem ReachesBy.uncrashed (hpanics : ¬ S.panics)
    (helements : config.elements = Partition.listed items)
    (hs : ReachesBy g S (start config w) log s) {p : Nat} {t : Worker}
    (ht : s.run.workers[p]? = some t) : t.crash? = none := by
  obtain ⟨hpath, -⟩ := hs.chronicled.path (congrFun (hs.panicked_eq hpanics) p)
  have hplays := hpath.plays
  rw [workerOf_of_getElem? ht] at hplays
  match t with
  | .running (.done crash) =>
    exact Partition.work_uncrashed (p := teamOf config p) helements hplays
      (forall_isDrawn hpath.genuine)
  | .running (.op _ _) | .pausing .. | .waiting .. => rfl

/-- The calls of a worker against any map.  A worker that was handed a handle, has ended and did
    not panic has sent its request for the map, one block of calls for each of its rounds, and the
    release of the handle, and nothing else.  The calls of each block are orderly; and when the run
    has finished, its table counts the rounds as they ended. -/
theorem calls_in_blocks (hs : ReachesBy g S (start config w) log s)
    (helements : config.elements = Partition.listed items) {p : Nat} {t : Worker}
    (ht : s.run.workers[p]? = some t) (hended : t.hasEnded = true) (hcalm : s.panicked p = false)
    {h : Handle} (hmap : h ∈ log.handed g p) :
    ∃ ls : List (Lap σ), ls.length = config.plan.numRuns.toNat ∧
      requestsOf (log p) = .acquire (teamOf config p).mapName ::
        ((ls.flatMap fun l => callsMade l.acts).map (fun x => Request.call h x.1)
          ++ [.release h]) ∧
      (∀ l ∈ ls, (l.roundEnd = .completed ∨ ∃ action cause, l.roundEnd = .failed action cause) ∧
        ∃ r, (teamOf config p).Orderly items r l) ∧
      (s.run.phase = .finished →
        s.completed p = (ls.map Lap.roundEnd).countP RoundEnd.isCompleted ∧
        s.failed p = (ls.map Lap.roundEnd).countP RoundEnd.isFailed) := by
  obtain ⟨hpath, hdiary⟩ := hs.chronicled.path hcalm
  have hgenuine := hpath.genuine
  have hplays := hpath.plays
  rw [workerOf_of_getElem? ht, Worker.program_of_hasEnded hended] at hplays
  have hcrash : t.crash? = none :=
    Partition.work_uncrashed (p := teamOf config p) helements hplays (forall_isDrawn hgenuine)
  have hacquired : s.Acquired p := ⟨h, hdiary ▸ mem_handed.mp hmap⟩
  obtain ⟨h', ls, hworked, hends⟩ := hs.exists_laps ht hended hcrash hacquired
  have hhanded : log.handed g p = [h'] := hworked.handed
  obtain rfl : h = h' := List.mem_singleton.mp (hhanded ▸ hmap)
  refine ⟨ls, hworked.length, ?_, fun l hl => ?_, fun hphase => ?_⟩
  · rw [← hworked.callsMade_eq]
    have hended' : (workerOf config s.run.workers p).hasEnded = true := by
      rw [workerOf_of_getElem? ht]
      exact hended
    refine (hs.chronicled p).requestsOf_eq hended' hhanded ?_
    exact hpath.filterMap_requestsOf hended'
  · obtain ⟨hpiece, -, hround, hcrashed⟩ := hworked.forall_laps l hl
    refine ⟨?_, Partition.exists_orderly (g := g) helements hround fun a ha => ?_⟩
    · cases he : l.roundEnd with
      | completed => exact .inl rfl
      | failed action cause => exact .inr ⟨action, cause, rfl⟩
      | crashed message =>
        rw [he] at hcrashed
        cases hcrashed
    · exact hgenuine a (hpiece.subset (List.mem_append_right _ ha))
  · rw [← hends]
    refine hs.sound.counts_of_ends hphase hacquired fun t' ht' => ?_
    rw [ht] at ht'
    cases ht'
    exact hcrash

/-- The sample run comes to its end with a handle handed to the worker of its first partition. -/
theorem exists_handed_sample :
    ∃ plan log s t h, sampleSettings.resolve "map-tests.load" "load" = .ok plan ∧
      ReachesBy MemoryStore.grid (.still _) (start (sampleConfig plan) { grid := {} }) log s ∧
      s.run.phase = .finished ∧ s.run.workers[0]? = some t ∧ t.hasEnded = true ∧
      s.panicked 0 = false ∧ h ∈ log.handed MemoryStore.grid 0 := by
  obtain ⟨plan, hplan⟩ := exists_samplePlan
  have helements : (sampleConfig plan).elements = sampleItems.map fun i => ⟨.ok i.1, .ok i.2⟩ := rfl
  have hcheck : ∀ i ∈ sampleItems, LoadElement.shape.check i.2 = .ok () := by decide
  have hstock : (teamOf (sampleConfig plan) 0).Stock sampleItems := ⟨helements, by decide, hcheck⟩
  have hcalm : ({} : MemoryStore).Calm := rfl
  have htidy : ({} : MemoryStore).Tidy := fun n hn => by cases hn
  have hstart : Undisturbed (sampleConfig plan) {} (start (sampleConfig plan) { grid := {} }) :=
    @undisturbed_start (sampleConfig plan) { grid := {} } hcalm htidy rfl
  obtain ⟨log, s, hlog, hphase⟩ := exists_finished_by MemoryStore.grid (.still _)
    (sampleConfig plan) { grid := {} }
  have hs := hstart.reaches (apart_teamOf helements) hlog.reaches
  have hmaps : 0 < (sampleConfig plan).plan.numMaps.toNat := by
    cases hplan
    decide
  have houtcome := hs.outcome hphase hmaps (numRuns_ne_zero hplan) hstock
    fun i _ => .inl (by simp [MemoryStore.entries])
  obtain ⟨t, ht, hended, _⟩ := houtcome.worker
  obtain ⟨h, hh⟩ := houtcome.acquired
  rw [(hlog.chronicled.path (hs.unpanicked 0)).2] at hh
  exact ⟨plan, log, s, t, h, hplan, hlog, hphase, ht, hended, hs.unpanicked 0, mem_handed.mpr hh⟩

/-- The first worker of the sample run made its calls in two blocks. -/
theorem calls_in_blocks_sample :
    ∃ plan, sampleSettings.resolve "map-tests.load" "load" = .ok plan ∧
      ∃ (log : Log MemoryStore) (h : Handle) (ls : List (Lap MemoryStore)), ls.length = 2 ∧
        requestsOf (log 0) = .acquire (teamOf (sampleConfig plan) 0).mapName ::
          ((ls.flatMap fun l => callsMade l.acts).map (fun x => Request.call h x.1)
            ++ [.release h]) ∧
        ∀ l ∈ ls, ∃ r, (teamOf (sampleConfig plan) 0).Orderly sampleItems r l := by
  obtain ⟨plan, log, s, t, h, hplan, hs, hphase, ht, hended, hcalm, hmap⟩ := exists_handed_sample
  have helements : (sampleConfig plan).elements = Partition.listed sampleItems := rfl
  obtain ⟨ls, hlength, hsent, hlaps, -⟩ := calls_in_blocks hs helements ht hended hcalm hmap
  have hruns : plan.numRuns.toNat = 2 := by
    cases hplan
    rfl
  exact ⟨plan, hplan, log, h, ls, hlength.trans hruns, hsent, fun l hl => (hlaps l hl).2⟩

end Watched

end GridBench
