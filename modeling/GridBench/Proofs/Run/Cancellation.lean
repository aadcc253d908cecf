/-
  GridBench.Proofs.Run.Cancellation

  What a run does once it is cancelled.  From then on a worker sends nothing
  but the release of its handle, and leaves the grid alone otherwise
  (`Entry.IsSilent`).  A worker without a handle gives up; one that has its
  handle goes on through all its rounds, pauses included, but each round that
  is still to come fails at its first call (`Lap.IsAbandoned`).  Main statement:
  `cancelled_run`.
-/
import GridBench.Proofs.Run.Calls
import GridBench.Proofs.Run.Onward

namespace GridBench

variable {σ : Type} {g : Grid σ}

/-! ## Steps in a cancelled world -/

/-- A step that sends no request but a release, and that leaves the grid as it is unless it sends
    one or is about the answer to one. -/
structure Entry.IsSilent (e : Entry σ) : Prop where
  sends : ∀ r ∈ e.worker.sends e.before, r.isRelease = true
  grid : e.after.grid = e.before.grid ∨
    ∃ r ∈ e.worker.sends e.before ++ e.worker.pending, r.isRelease = true

/-- A step that sends nothing and leaves the grid as it is. -/
theorem Entry.isSilent_of_idle {e : Entry σ} (hsends : e.worker.sends e.before = [])
    (hgrid : e.after.grid = e.before.grid) : e.IsSilent := by
  refine ⟨fun r hr => ?_, .inl hgrid⟩
  rw [hsends] at hr
  cases hr

theorem Request.isRelease_of_not_isCancellable {r : Request} (h : r.isCancellable = false) :
    r.isRelease = true := by
  match r with
  | .release _ => rfl
  | .acquire _ | .call .. => cases h

/-- In a cancelled world, a request on its way that can be given up is given up. -/
theorem Flight.answer?_cancelled {w : World σ} {r : Request} (f : Flight)
    (hc : w.cancelled = true) (hr : r.isCancellable = true) :
    f.answer? g w r = some (.error .cancelled, w) := by
  rw [answer?, hc, hr]
  rfl

/-- Every step in a cancelled world is silent. -/
theorem Worker.isSilent_of_step? {w w' : World σ} {t t' : Worker} {us : List StatusUpdate}
    (h : t.step? g w = some (w', t', us)) (hc : w.cancelled = true) :
    (⟨t, w, w'⟩ : Entry σ).IsSilent := by
  match t with
  | .running (.done _) => cases h
  | .running (.op (.ask r withinMs) k) =>
    by_cases hr : r.isCancellable = true
    -- The request is refused before it is sent.
    · have hrefused : (w.cancelled && r.isCancellable) = true := by rw [hc, hr]; rfl
      simp only [step?, send, if_pos hrefused] at h
      cases h
      refine Entry.isSilent_of_idle ?_ rfl
      simp only [sends, if_pos hrefused]
    · have hsent : ¬(w.cancelled && r.isCancellable) = true := by
        rw [hc, Bool.true_and]
        exact hr
      have hrelease := r.isRelease_of_not_isCancellable (Bool.eq_false_iff.mpr hr)
      have hsends : (Worker.running (.op (.ask r withinMs) k)).sends w = [r] := by
        simp only [sends, if_neg hsent]
      refine ⟨fun r' hr' => ?_, .inr ⟨r, ?_, hrelease⟩⟩
      · rw [hsends] at hr'
        rw [List.mem_singleton.mp hr']
        exact hrelease
      · rw [hsends]
        exact List.mem_cons_self
  | .running (.op (.pause _) _) | .running (.op .clock _) | .running (.op (.pick _) _)
  | .running (.op (.log _) _) | .running (.op (.publish _) _) =>
    cases h
    exact Entry.isSilent_of_idle rfl rfl
  | .pausing wakeAt q =>
    simp only [step?] at h
    split at h
    · cases h
      exact Entry.isSilent_of_idle rfl rfl
    · cases h
  | .waiting r f k =>
    by_cases hr : r.isCancellable = true
    -- The request is given up, whatever the grid would have answered.
    · simp only [step?, f.answer?_cancelled hc hr, Option.map_some] at h
      cases h
      exact Entry.isSilent_of_idle rfl rfl
    · refine ⟨fun r' hr' => ?_, .inr ⟨r, List.mem_cons_self,
        r.isRelease_of_not_isCancellable (Bool.eq_false_iff.mpr hr)⟩⟩
      cases hr'

/-- A request that a cancellation makes be given up was given up. -/
def Deed.IsGivenUp : Deed → Prop
  | ⟨.ask r _, a⟩ => r.isCancellable = true → a = .error .cancelled
  | _ => True

/-- In a cancelled world, all requests that can be given up are given up. -/
theorem Act.Genuine.isGivenUp {a : Act σ} (h : a.Genuine g)
    (hc : a.entry.before.cancelled = true) : a.deed.IsGivenUp := by
  cases h with
  | @answered r f k b w w' hanswer =>
    intro hr
    rw [f.answer?_cancelled (w := w) hc hr] at hanswer
    cases hanswer
    rfl
  | refused => exact fun _ => rfl
  | @other e k reply w w' he _ _ =>
    match e with
    | .ask _ _ => cases he
    | .pause _ | .clock | .pick _ | .log _ | .publish _ => trivial

/-- An act that is no release leaves the grid as it is, if it makes no request or the world is
    cancelled. -/
theorem Act.Genuine.grid_eq {a : Act σ} (h : a.Genuine g)
    (hquiet : a.deed.effect.isAsk = false ∨
      a.entry.before.cancelled = true ∧ ∃ m c withinMs, a.deed.effect = .ask (.call m c) withinMs) :
    a.entry.after.grid = a.entry.before.grid := by
  cases h with
  | @answered r f k b w w' hanswer =>
    rcases hquiet with hask | ⟨hc, m, c, withinMs, heffect⟩
    · cases hask
    · obtain rfl : r = .call m c := (Effect.ask.inj heffect).1
      rw [f.answer?_cancelled (w := w) hc rfl] at hanswer
      cases hanswer
      rfl
  | refused => rfl
  | other _ hgrid _ => exact hgrid

/-- Where all requests for a map are given up, no handle is handed out. -/
theorem handed_eq_nil {ds : List Deed} (h : ∀ d ∈ ds, d.IsGivenUp) : handed ds = [] := by
  refine List.eq_nil_iff_forall_not_mem.mpr fun m hm => ?_
  obtain ⟨d, hd, hacquired⟩ := List.mem_filterMap.mp (mem_handed.mp hm)
  match d, h d hd, hacquired with
  | ⟨.ask (.acquire _) _, .error _⟩, _, hacquired => cases hacquired
  | ⟨.ask (.acquire _) _, .ok _⟩, hgiven, _ => cases hgiven rfl

/-! ## Rounds in a cancelled world -/

/-- The pause before a round was taken in full: it was as long as the policy had it, and nothing
    was done before it was over. -/
def Lap.Rested (s : SleepPolicy) (l : Lap σ) : Prop :=
  s.enabled = true → ∃ (as bs : List (Act σ)) (a : Act σ) (ms : Nat), l.lead = as ++ a :: bs ∧
    lastPick? (deedsOf as) = some (s.duration, ms) ∧ a.deed = ⟨.pause ms, ()⟩ ∧
    ∀ b ∈ bs ++ l.acts, a.entry.before.clock + ms ≤ b.entry.before.clock

/-- The round came to nothing: its first call was given up, so it failed in its ingest, and neither
    it nor the pause before it changed the grid. -/
structure Lap.IsAbandoned (h : Handle) (l : Lap σ) : Prop where
  roundEnd : l.roundEnd = .failed .ingest .cancelled
  acts : ∃ key a, l.acts = [a] ∧
    a.deed = ⟨.ask (.call h (.containsKey key)) none, .error .cancelled⟩
  grid : ∀ a ∈ l.lead ++ l.acts, a.entry.after.grid = a.entry.before.grid

namespace Partition

open Proc

variable {p : Partition}

/-- A round of a partition that has elements begins with a call, unless it crashes; and if that is
    given up, the round has come to its end. -/
theorem round_of_plays {h : Handle} {ds : List Deed} {e : RoundEnd}
    (helements : p.config.elements ≠ []) (hplays : Plays (p.round h) ds (.done e))
    (hcrash : e.isCrash = false) :
    ∃ (key : String) (a : Except Fault Bool) (es : List Deed),
      ds = ⟨.ask (.call h (.containsKey key)) none, a⟩ :: es ∧
        (a = .error .cancelled → es = [] ∧ e = .failed .ingest .cancelled) := by
  obtain ⟨x, xs, hxs⟩ := List.exists_cons_of_ne_nil helements
  rw [round, ingestAll, hxs, ingest] at hplays
  cases hkey : p.key x with
  -- An element without a key crashes the round before any call is made.
  | error message =>
    simp only [keyOf, hkey] at hplays
    obtain ⟨_, he⟩ := hplays.done_nil
    cases he
    cases hcrash
  | ok key =>
    simp only [keyOf, hkey, pure_bind] at hplays
    cases hplays with
    | @cons _ _ a es _ hrest =>
      refine ⟨key, a, es, rfl, ?_⟩
      rintro rfl
      obtain ⟨hes, he⟩ := Plays.done_nil hrest
      cases he
      exact ⟨hes, rfl⟩

/-- The pause before a round comes first in its lap. -/
theorem rested_of_plays {l : Lap σ} {n : Nat}
    (hplays : Plays (p.lead n) (deedsOf l.lead) (.done ()))
    (hl : (l.lead ++ l.acts).Pairwise Act.Precedes) : l.Rested p.config.plan.betweenRuns := by
  intro henabled
  obtain ⟨ds, es, _, hds, hrest, -⟩ := hplays.of_bind_done
  rw [rest, if_pos henabled] at hrest
  -- The pause is the third deed, behind the draw and a message about it.
  cases hrest with
  | @cons _ _ ms _ _ hrest =>
    cases hrest with
    | @cons _ _ said _ _ hrest =>
      cases hrest with
      | cons hrest =>
        cases hrest
        obtain ⟨as, cs, hlead, has, hcs⟩ := exists_of_deedsOf_eq_append (hds.trans
          (List.append_assoc [_, _] [_] es))
        obtain ⟨a, bs, rfl, ha, -⟩ := List.map_eq_cons_iff.mp hcs
        refine ⟨as, bs, a, ms, hlead, by rw [has]; rfl, ha, fun b hb => ?_⟩
        rw [hlead, List.append_assoc] at hl
        have hbehind := (List.pairwise_append.mp hl).2.1
        exact (List.rel_of_pairwise_cons hbehind hb).pause_le ms ha

/-- A round that is to begin in a cancelled world comes to nothing. -/
theorem abandoned_of_plays {h : Handle} {l : Lap σ} {n : Nat}
    (helements : p.config.elements ≠ [])
    (hlead : Plays (p.lead n) (deedsOf l.lead) (.done ()))
    (hround : Plays (p.round h) (deedsOf l.acts) (.done l.roundEnd))
    (hcrash : l.roundEnd.isCrash = false) (hgenuine : ∀ a ∈ l.lead ++ l.acts, a.Genuine g)
    (hl : (l.lead ++ l.acts).Pairwise Act.Precedes)
    (hc : ∃ a ∈ l.lead ++ l.acts.take 1, a.entry.before.cancelled = true) :
    l.IsAbandoned h := by
  obtain ⟨key, reply, es, hdeeds, hgiven⟩ := round_of_plays helements hround hcrash
  obtain ⟨a, as, hacts, ha, has⟩ := List.map_eq_cons_iff.mp hdeeds
  -- A cancellation before the first call of the round is in force at that call.
  have hcancelled : a.entry.before.cancelled = true := by
    obtain ⟨b, hb, hbc⟩ := hc
    rw [hacts, List.take_succ_cons, List.take_zero, List.mem_append, List.mem_singleton] at hb
    rcases hb with hb | rfl
    · rw [hacts] at hl
      have hprecedes := (List.pairwise_append.mp hl).2.2 b hb a List.mem_cons_self
      exact hprecedes.onward.cancelled hbc
    · exact hbc
  have hmem : a ∈ l.lead ++ l.acts := by
    rw [hacts]
    exact List.mem_append_right _ List.mem_cons_self
  have hup := (hgenuine a hmem).isGivenUp hcancelled
  rw [ha] at hup
  obtain ⟨hes, hend⟩ := hgiven (hup rfl)
  rw [hes] at has
  obtain rfl : as = [] := List.map_eq_nil_iff.mp has
  refine ⟨hend, ⟨key, a, hacts, ?_⟩, fun b hb => (hgenuine b hb).grid_eq ?_⟩
  · rw [ha, hup rfl]
  · rw [hacts, List.mem_append, List.mem_singleton] at hb
    rcases hb with hb | rfl
    · exact .inl (forall_acts hlead (lead_unasked n) b hb)
    · exact .inr ⟨hcancelled, h, _, none, by rw [ha]⟩

/-- The deeds of a worker show a handle exactly if its log does. -/
theorem Life.acquired_iff {panicked : Bool} {ds : List Deed} {L : List (Entry σ)} {t : Worker}
    (hlife : p.Life g panicked ds L t) :
    (∃ h, .ok h ∈ acquisitions ds) ↔ handed (deedsOf (actsOf g L)) ≠ [] := by
  cases hlife with
  | calm _ =>
    constructor
    · rintro ⟨h, hh⟩
      exact List.ne_nil_of_mem (mem_handed.mpr hh)
    · intro hne
      obtain ⟨h, hh⟩ := List.exists_mem_of_ne_nil _ hne
      exact ⟨h, mem_handed.mp hh⟩
  -- A worker panics only in its rounds, and it has its handle there.
  | @broken L₁ L₂ _ _ ds₁ ds₂ h _ _ _ _ hdeeds henter _ _ =>
    have hbefore : .ok h ∈ acquisitions (deedsOf (actsOf g L₁)) := by
      rw [hdeeds, acquisitions_append, acquisitions_enter henter]
      exact List.mem_append_left _ List.mem_cons_self
    refine ⟨fun _ => List.ne_nil_of_mem (a := h) ?_, fun _ => ⟨h, hbefore⟩⟩
    rw [actsOf_append, deedsOf_append, handed_append]
    exact List.mem_append_left _ (mem_handed.mpr hbefore)

/-! ## Elements without a key -/

/-- The first of the partition's elements has no key. -/
def Keyless (p : Partition) : Prop :=
  ∃ e es message, p.config.elements = e :: es ∧ p.key e = .error message

/-- Without the first key, a round crashes before it does anything. -/
theorem Keyless.round_eq (hp : p.Keyless) (h : Handle) :
    ∃ message, p.round h = .done (.crashed message) := by
  obtain ⟨e, es, message, helements, hkey⟩ := hp
  refine ⟨message, ?_⟩
  rw [round, ingestAll, helements, ingest]
  simp only [keyOf, hkey]
  rfl

/-- Such rounds are never counted. -/
theorem Keyless.rounds_silent (hp : p.Keyless) (h : Handle) (left run completed failed : Nat) :
    (p.rounds h left run completed failed).Keeps (.plain Silent) (fun _ _ => True) () := by
  cases left with
  | zero =>
    rw [rounds]
    exact ⟨trivial, fun _ _ => trivial⟩
  | succ left =>
    obtain ⟨message, hround⟩ := hp.round_eq h
    have hlead : (p.lead run).Keeps (.plain Silent) (fun _ _ => True) () :=
      ((((rest_routine _).bind fun _ => announce_routine run).keeps (c := .plain Silent) (h := h)
        (fun _ he => he.silent) fun _ _ _ => rfl)).mono fun _ _ _ => trivial
    rw [rounds_succ, iteration_eq, bind_assoc, hround]
    exact hlead.bind fun _ _ _ => trivial

theorem Keyless.publishes_nothing (hp : p.Keyless) {ds : List Deed} {q : Proc (Option String)}
    (hplays : Plays p.work ds q) : published ds = [] := by
  rcases plays_work_cases hplays with ⟨e, k, henter, _⟩ | ⟨f, henter, _⟩ |
    ⟨ds₁, ds₂, m, e, k, rfl, henter, hrounds, _⟩ |
    ⟨ds₁, ds₂, ds₃, m, crash, rfl, henter, hrounds, hleave⟩
  · exact published_enter henter
  · exact published_enter henter
  · rw [published_append, published_enter henter,
      published_eq_nil (hrounds.forall_effect (hp.rounds_silent m _ _ _ _))]
    rfl
  · have haside := hleave.forall_effect (leave_aside m crash)
    rw [published_append, published_append, published_enter henter,
      published_eq_nil (hrounds.forall_effect (hp.rounds_silent m _ _ _ _)),
      published_eq_nil fun d hd => (haside d hd).1.silent]
    rfl

end Partition

/-! ## The run after its cancellation -/

namespace Watched

variable {config : LoopConfig} {S : Outside σ} {s s' : Watched σ} {log log' : Log σ} {w : World σ}

/-- When the run has finished, a worker that was handed a handle has ended. -/
theorem ReachesBy.exists_ended (hs : ReachesBy g S (start config w) log s)
    (hphase : s.run.phase = .finished) {p : Nat} (hmap : s.Acquired p) :
    ∃ t, s.run.workers[p]? = some t ∧ t.hasEnded = true := by
  cases ht : s.run.workers[p]? with
  | none =>
    obtain ⟨h, hh⟩ := hmap
    rw [(hs.sound.unlaunched p ht).1] at hh
    cases hh
  | some t => exact ⟨t, rfl, (hs.sound.closed_of_phase hphase).1.hasEnded ht⟩

/-- A worker that was given no map sends nothing to the gatherer. -/
theorem Sound.sent_eq_nil (h : s.Sound config) {p : Nat} (hmap : ¬ s.Acquired p) :
    s.sent.filter (·.isAbout p) = [] := by
  obtain ⟨q, hq, -⟩ := h.plays p
  obtain ⟨n, hn, -, hnone⟩ := Partition.accounted_of_plays hq
  rw [h.sent_filter p, hn.counted, hnone fun m hm => hmap ⟨m, hm⟩, List.take_zero]
  rfl

/-- What a worker does after the cancellation is silent, and it is handed no handle. -/
theorem ReachesBy.silent (hS : S.Onward) (hs : ReachesBy g S (start config w) log s)
    (hc : s.world.cancelled = true) (hs' : ReachesBy g S s log' s') (p : Nat) :
    (∀ e ∈ log' p, e.IsSilent) ∧ log'.handed g p = [] := by
  have hlife := (hs.trans hs').chronicled p
  have hcancelled : ∀ e ∈ log' p, e.before.cancelled = true := fun e he =>
    ((hs'.timely hS).after p e he).cancelled hc
  refine ⟨fun e he => ?_, handed_eq_nil fun d hd => ?_⟩
  · obtain ⟨t, us, hstep⟩ := hlife.step_of_mem (List.mem_append_right _ he)
    exact e.worker.isSilent_of_step? hstep (hcancelled e he)
  · obtain ⟨a, ha, rfl⟩ := List.mem_map.mp hd
    refine (hlife.genuine a ?_).isGivenUp (hcancelled _ (entry_mem_of_mem_actsOf ha))
    rw [actsOf_append]
    exact List.mem_append_right _ ha

/-- The rounds of a worker as its log and the table of its run show them when the run has finished.
    There are as many as the plan asks for, with each pause before them taken in full; those that
    were to begin in a cancelled world came to nothing; and all of them are counted. -/
structure SeenThrough (config : LoopConfig) (g : Grid σ) (L : List (Entry σ)) (s : Watched σ)
    (p : Nat) (h : Handle) (ls : List (Lap σ)) : Prop where
  worked : (teamOf config p).Worked h (actsOf g L) ls
  rested : ∀ l ∈ ls, l.Rested config.plan.betweenRuns
  abandoned : ∀ l ∈ ls, (∃ a ∈ l.lead ++ l.acts.take 1, a.entry.before.cancelled = true) →
    l.IsAbandoned h
  completed : s.completed p = (ls.map Lap.roundEnd).countP RoundEnd.isCompleted
  failed : s.failed p = (ls.map Lap.roundEnd).countP RoundEnd.isFailed
  counts : s.completed p + s.failed p = config.plan.numRuns.toNat

/-- A worker that was handed a handle and did not crash sees all its rounds through. -/
theorem ReachesBy.seenThrough (hS : S.Onward) (helements : config.elements ≠ [])
    (hs : ReachesBy g S (start config w) log s) (hphase : s.run.phase = .finished) {p : Nat}
    {h : Handle} (hmap : log.handed g p = [h])
    (hcalm : ∀ t : Worker, s.run.workers[p]? = some t → t.crash? = none) :
    ∃ ls, SeenThrough config g (log p) s p h ls := by
  have hacquired : s.Acquired p := by
    refine (hs.chronicled p).acquired_iff.mpr ?_
    rw [Log.handed] at hmap
    rw [hmap]
    exact List.cons_ne_nil _ _
  obtain ⟨t, ht, hended⟩ := hs.exists_ended hphase hacquired
  obtain ⟨h', ls, hworked, hends⟩ := hs.exists_laps ht hended (hcalm t ht) hacquired
  obtain rfl : h = h' := (List.cons.inj (hmap.symm.trans hworked.handed)).1
  obtain ⟨hpath, -⟩ := hs.chronicled.path (hs.sound.unpanicked ht hended (hcalm t ht))
  have hpairwise := hpath.precedes ((hs.timely hS).ordered p)
  have hcounts := hs.sound.counts_of_ends hphase hacquired hcalm
  rw [hends] at hcounts
  refine ⟨ls, hworked, fun l hl => ?_, fun l hl hc => ?_, hcounts.1, hcounts.2,
    hs.sound.counts_complete hphase hacquired hcalm⟩
  -- What holds all along the log holds in each lap.
  · obtain ⟨hpiece, ⟨n, hlead⟩, -, -⟩ := hworked.forall_laps l hl
    exact Partition.rested_of_plays hlead (hpairwise.sublist hpiece.sublist)
  · obtain ⟨hpiece, ⟨n, hlead⟩, hround, hcrash⟩ := hworked.forall_laps l hl
    exact Partition.abandoned_of_plays (p := teamOf config p) helements hlead hround hcrash
      (fun a ha => hpath.genuine a (hpiece.subset ha)) (hpairwise.sublist hpiece.sublist) hc

/-! ## Runs that hold a handle when they are cancelled -/

/-- A run goes on with the step of a worker. -/
theorem ReachesBy.work {s₁ : Watched σ} (hs : ReachesBy g S s log s₁) {p : Nat} {t t' : Worker}
    {us : List StatusUpdate} (ht : s₁.run.workers[p]? = some t)
    (hstep : t.step? g s₁.world = some (w, t', us)) :
    ∃ s₂, ReachesBy g S s (Function.update log p (log p ++ [⟨t, s₁.world, w⟩])) s₂ ∧
      s₂.world = w ∧ s₂.run.workers[p]? = some t' := by
  have hp : p < s₁.run.workers.size := (Array.getElem?_eq_some_iff.mp ht).1
  obtain ⟨s₂, hmove⟩ : ∃ s₂, s₁.advance g (.worker p) = some s₂ := by
    simp only [advance, LoopRun.step?, LoopRun.workerStep?, ht, Option.bind_some, hstep,
      Option.map_some]
    exact ⟨_, rfl⟩
  obtain ⟨u, u', _, hu, hstep', hworkers, -⟩ := step?_of_advance hmove
  cases hu.symm.trans ht
  have heq := Option.some.inj (hstep'.symm.trans hstep)
  have hreach := hs.move hmove
  rw [logged_worker hu] at hreach
  cases heq
  refine ⟨s₂, hreach, rfl, ?_⟩
  rw [hworkers, Array.getElem?_setIfInBounds_self_of_lt hp]

/-- On an empty store, the first worker of a run can be handed its handle before anything else
    happens. -/
theorem exists_holding {config : LoopConfig} (hmaps : 0 < config.plan.numMaps.toNat)
    (S : Outside MemoryStore) :
    ∃ log s, ReachesBy MemoryStore.grid S (start config { grid := {} }) log s ∧
      log.handed MemoryStore.grid 0 = [⟨0, (teamOf config 0).mapName⟩] := by
  -- The run begins and launches its first worker.
  obtain ⟨s₁, h₁, hworld, hconfig, hphase, hworkers⟩ : ∃ s₁, ReachesBy MemoryStore.grid S
      (start config { grid := {} }) (fun _ => []) s₁ ∧
      s₁.world = ({ grid := {} } : World MemoryStore).log (LoopRun.boundaryWarning config) ∧
      s₁.run.config = config ∧ s₁.run.phase = .launching ∧ s₁.run.workers = #[] :=
    ⟨_, ReachesBy.refl.move (show (start config _).advance _ .main = some _ from rfl),
      rfl, rfl, rfl, rfl⟩
  obtain ⟨s₂, h₂, hworld₂, ht₂⟩ : ∃ s₂, ReachesBy MemoryStore.grid S
      (start config { grid := {} }) (fun _ => []) s₂ ∧ s₂.world = s₁.world ∧
      s₂.run.workers[0]? = some (.running (teamOf config 0).work) := by
    have hmove : s₁.advance MemoryStore.grid .main = some { s₁ with run := { s₁.run with
        workers :=
          s₁.run.workers.push (LoopRun.newWorker s₁.run.config s₁.run.workers.size) } } := by
      simp only [advance, LoopRun.step?, LoopRun.mainStep?, hphase, hworkers, hconfig]
      rw [if_pos (show (#[] : Array Worker).size < _ from hmaps)]
      rfl
    exact ⟨_, h₁.move hmove, rfl, by simp [hworkers, hconfig, LoopRun.newWorker]⟩
  -- The worker says what it is about to do, looks at the clock, asks for its map, and gets it.
  have hw₂ := hworld₂.trans hworld
  obtain ⟨s₃, h₃, hw₃, ht₃⟩ := h₂.work ht₂ (by rw [hw₂]; rfl)
  obtain ⟨s₄, h₄, hw₄, ht₄⟩ := h₃.work ht₃ (by rw [hw₃]; rfl)
  obtain ⟨s₅, h₅, hw₅, ht₅⟩ := h₄.work ht₄ (by rw [hw₄]; rfl)
  obtain ⟨s₆, h₆, hw₆, ht₆⟩ := h₅.work ht₅ (by rw [hw₅]; rfl)
  refine ⟨_, s₆, h₆, ?_⟩
  rw [hw₅, hw₄, hw₃, hw₂]
  rfl

/-- Time passes, and the run may be cancelled at any moment. -/
def cancelling (σ : Type) : Outside σ where
  stirs w w' := (∃ moment, w' = w.passUntil moment) ∨ w' = w.cancel
  passes _ moment := .inl ⟨moment, rfl⟩
  panics := False

theorem cancelling_onward : (cancelling σ).Onward := by
  rintro w _ (⟨moment, rfl⟩ | rfl)
  · exact ⟨Nat.le_max_left _ _, fun h => h⟩
  · exact ⟨Nat.le_refl _, fun _ => rfl⟩

/-- A run on an empty store may be cancelled when its first worker has just been handed its handle,
    and then go on to its end. -/
theorem exists_cancelled {config : LoopConfig} (hmaps : 0 < config.plan.numMaps.toNat) :
    ∃ log s log' s', ReachesBy MemoryStore.grid (cancelling _) (start config { grid := {} }) log s ∧
      s.world.cancelled = true ∧ ⟨0, (teamOf config 0).mapName⟩ ∈ log.handed MemoryStore.grid 0 ∧
      ReachesBy MemoryStore.grid (cancelling _) s log' s' ∧ s'.run.phase = .finished := by
  obtain ⟨log, s, hs, hhanded⟩ := exists_holding hmaps (cancelling _)
  have hcancel := hs.stir (w := s.world.cancel) (.inr rfl)
  obtain ⟨s', hmoves, hphase, _⟩ :=
    (hcancel.sound.inevitable_finished (g := MemoryStore.grid) (S := cancelling _)).exists_reaches
  obtain ⟨log', hlog'⟩ := exists_log_of_moves hmoves
  refine ⟨log, _, log', s', hcancel, rfl, ?_, hlog', hphase⟩
  rw [hhanded]
  exact List.mem_cons_self

/-- A partition whose first element has no key counts no round. -/
theorem Sound.counts_of_keyless (h : s.Sound config) {p : Nat} (hp : (teamOf config p).Keyless) :
    s.completed p + s.failed p = 0 := by
  obtain ⟨q, hq, -⟩ := h.plays p
  obtain ⟨m, hm, -⟩ := h.applied_filter p
  have hp' : (s.partition p).Keyless := by
    rw [partition, h.config_eq]
    exact hp
  have hprefix : s.applied.filter (·.isAbout p) <+: s.sent.filter (·.isAbout p) :=
    h.stage.applied_prefix.filter _
  rw [h.sent_filter p, hp'.publishes_nothing hq, List.prefix_nil] at hprefix
  have hlength : (s.applied.filter (·.isAbout p)).length = m := by
    rw [hm.counted, Partition.tally_length hm.not_crash, List.length_take,
      Nat.min_eq_left hm.le_length]
  rw [h.sum_counts hm, ← hlength, hprefix, List.length_nil]

/-! ## Cancelled runs -/

/-- A run that is cancelled, at any moment, and goes on to any later one.  From the cancellation on
    all that its workers do is silent.  A partition that had no handle by then gets none: it sends
    nothing but its request for one, and the table never counts a round of it.  When the run has
    finished, the table says so, every handle is given back, and a worker that had its handle and
    did not crash has seen all its rounds through.  And the run finishes. -/
theorem cancelled_run (hS : S.Onward) (helements : config.elements ≠ [])
    (hs : ReachesBy g S (start config w) log s) (hc : s.world.cancelled = true)
    (hs' : ReachesBy g S s log' s') :
    (∀ p, ∀ e ∈ log' p, e.IsSilent) ∧
    (∀ p, log.handed g p = [] → log'.handed g p = [] ∧
      requestsOf (log p ++ log' p) <+: [.acquire (teamOf config p).mapName] ∧
      s'.sent.filter (·.isAbout p) = [] ∧
      s'.run.gatherer.table[completedKey p]? = none ∧
      s'.run.gatherer.table[failedKey p]? = none) ∧
    (s'.run.phase = .finished → s'.run.gatherer.table[runnerFinishedKey]? = some (.bool true) ∧
      ∀ p h, h ∈ log.handed g p →
        (∃ cs : List MapCall, requestsOf (log p ++ log' p) =
          .acquire (teamOf config p).mapName :: (cs.map (.call h) ++ [.release h])) ∧
        ((∀ t : Worker, s'.run.workers[p]? = some t → t.crash? = none) →
          ∃ ls, SeenThrough config g (log p ++ log' p) s' p h ls)) ∧
    Inevitable (Fares g S) (fun s => s.run.phase = .finished) s' := by
  have hall := hs.trans hs'
  have hsilent := hs.silent hS hc hs'
  have hhanded : ∀ p, Log.handed g (fun p => log p ++ log' p) p = log.handed g p := by
    intro p
    have hnone : handed (deedsOf (actsOf g (log' p))) = [] := (hsilent p).2
    show handed (deedsOf (actsOf g (log p ++ log' p))) = _
    rw [actsOf_append, deedsOf_append, handed_append, hnone, List.append_nil]
    rfl
  have hover : ∀ p, Handover (teamOf config p).mapName (log.handed g p)
      (requestsOf (log p ++ log' p)) (workerOf config s'.run.workers p).hasEnded := fun p =>
    hhanded p ▸ (hall.chronicled p).handover
  refine ⟨fun p => (hsilent p).1, fun p hmap => ?_, fun hphase => ?_,
    hall.sound.inevitable_finished_of_fares⟩
  · have hlast := hover p
    rw [hmap] at hlast
    have hacquired : ¬ s'.Acquired p := by
      intro hmap'
      exact (hall.chronicled p).acquired_iff.mp hmap' ((hhanded p).trans hmap)
    obtain ⟨m, hm, -, hnone⟩ := hall.sound.applied_filter p
    obtain ⟨hcompleted, hfailed⟩ := hall.sound.shows_counts hm
    rw [hnone hacquired] at hcompleted hfailed
    refine ⟨(hsilent p).2, ?_, hall.sound.sent_eq_nil hacquired, hcompleted, hfailed⟩
    generalize requestsOf (log p ++ log' p) = rs at hlast ⊢
    cases hlast with
    | without hrs => exact hrs
  · refine ⟨hall.sound.finished_of_phase hphase, fun p h hh => ?_⟩
    have hlast := hover p
    have hmap : log.handed g p = [h] := hlast.eq_singleton hh
    refine ⟨?_, fun hcalm => hall.seenThrough hS helements hphase ((hhanded p).trans hmap) hcalm⟩
    have hacquired : s'.Acquired p := by
      refine (hall.chronicled p).acquired_iff.mpr fun hnil => ?_
      rw [(hhanded p).symm.trans hnil] at hh
      cases hh
    obtain ⟨t, ht, hended⟩ := hall.exists_ended hphase hacquired
    rw [hmap, workerOf_of_getElem? ht, hended] at hlast
    generalize requestsOf (log p ++ log' p) = rs at hlast ⊢
    cases hlast with
    | behind _ cs => exact ⟨cs, rfl⟩

/-- In the sample run, cancelled when the first worker had just been handed its handle, that worker
    sees its two rounds through. -/
theorem cancelled_run_sample :
    ∃ plan log s log' s' h ls, sampleSettings.resolve "map-tests.load" "load" = .ok plan ∧
      ReachesBy MemoryStore.grid (cancelling _) (start (sampleConfig plan) { grid := {} }) log s ∧
      s.world.cancelled = true ∧ h ∈ log.handed MemoryStore.grid 0 ∧
      ReachesBy MemoryStore.grid (cancelling _) s log' s' ∧ s'.run.phase = .finished ∧
      SeenThrough (sampleConfig plan) MemoryStore.grid (log 0 ++ log' 0) s' 0 h ls ∧
      s'.completed 0 + s'.failed 0 = 2 := by
  obtain ⟨plan, hplan⟩ := exists_samplePlan
  have hmaps : 0 < (sampleConfig plan).plan.numMaps.toNat := by
    cases hplan
    decide
  have hruns : (sampleConfig plan).plan.numRuns.toNat = 2 := by
    cases hplan
    rfl
  have helements : (sampleConfig plan).elements = Partition.listed sampleItems := rfl
  obtain ⟨log, s, log', s', hs, hc, hhanded, hs', hphase⟩ := exists_cancelled hmaps
  have hrun := cancelled_run cancelling_onward (List.cons_ne_nil _ _) hs hc hs'
  obtain ⟨ls, hls⟩ := ((hrun.2.2.1 hphase).2 0 _ hhanded).2 fun t ht =>
    (hs.trans hs').uncrashed id helements ht
  exact ⟨plan, log, s, log', s', _, ls, hplan, hs, hc, hhanded, hs', hphase, hls,
    hls.counts.trans hruns⟩

/-- The sample run with one element, whose identifier cannot be had. -/
def keylessConfig (plan : RunPlan) : LoopConfig :=
  { sampleConfig plan with elements := [⟨.error "element 7 has no id", .ok (.text "7")⟩] }

/-- If asking for an identifier panics, a worker that had its handle at the cancellation crashes in
    its first round, and none of its two rounds is counted. -/
theorem cancelled_run_keyless :
    ∃ plan log s log' s' h, sampleSettings.resolve "map-tests.load" "load" = .ok plan ∧
      (keylessConfig plan).elements ≠ [] ∧
      ReachesBy MemoryStore.grid (cancelling _) (start (keylessConfig plan) { grid := {} }) log s ∧
      s.world.cancelled = true ∧ h ∈ log.handed MemoryStore.grid 0 ∧
      ReachesBy MemoryStore.grid (cancelling _) s log' s' ∧ s'.run.phase = .finished ∧
      (keylessConfig plan).plan.numRuns.toNat = 2 ∧ s'.completed 0 + s'.failed 0 = 0 := by
  obtain ⟨plan, hplan⟩ := exists_samplePlan
  have hmaps : 0 < (keylessConfig plan).plan.numMaps.toNat := by
    cases hplan
    decide
  have hruns : (keylessConfig plan).plan.numRuns.toNat = 2 := by
    cases hplan
    rfl
  obtain ⟨log, s, log', s', hs, hc, hhanded, hs', hphase⟩ := exists_cancelled hmaps
  have hkeyless : (teamOf (keylessConfig plan) 0).Keyless := ⟨_, [], _, rfl, rfl⟩
  exact ⟨plan, log, s, log', s', _, hplan, List.cons_ne_nil _ _, hs, hc, hhanded, hs', hphase,
    hruns, (hs.trans hs').sound.counts_of_keyless hkeyless⟩

end Watched

end GridBench
