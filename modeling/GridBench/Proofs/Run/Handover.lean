/-
  GridBench.Proofs.Run.Handover

  Every handle that is given out is given back, once and last.  A worker stands
  in one of four relations to its map (`Tenure`), and each determines what it
  has sent and been handed so far (`Tenure.Books`).  What one act does to the
  books is said once (`Books.act`) and carried along a worker's log, across a
  panic too (`Life.books`).  Main statement: `handles_released`.
-/
import Mathlib.Algebra.BigOperators.Group.Finset.Basic
import GridBench.Proofs.Run.Finalisation
import GridBench.Proofs.Run.Caught

namespace GridBench

/-- The handles a worker was given, by its deeds. -/
def handed (ds : List Deed) : List Handle :=
  (Partition.acquisitions ds).filterMap Except.toOption

theorem handed_append (ds es : List Deed) : handed (ds ++ es) = handed ds ++ handed es := by
  rw [handed, Partition.acquisitions_append, List.filterMap_append]
  rfl

theorem mem_handed {ds : List Deed} {h : Handle} :
    h ∈ handed ds ↔ .ok h ∈ Partition.acquisitions ds := by
  rw [handed, List.mem_filterMap]
  constructor
  · rintro ⟨a, ha, hok⟩
    cases a with
    | error f => cases hok
    | ok h' =>
      cases hok
      exact ha
  · intro ha
    exact ⟨_, ha, rfl⟩

/-- How a worker stands with its map. -/
inductive Tenure where
  /-- It has not been answered yet. -/
  | outside
  /-- It got no handle. -/
  | away
  | holding (h : Handle)
  /-- It has given the handle back. -/
  | behind (h : Handle)

namespace Tenure

/-- What a worker in a tenure was handed, and which of its requests were answered. -/
inductive Books (m : String) : Tenure → List Handle → List Request → Prop
  | outside : Books m .outside [] []
  | refused : Books m .away [] []
  | failed : Books m .away [] [.acquire m]
  | holding (h : Handle) (cs : List MapCall) :
      Books m (.holding h) [h] (.acquire m :: cs.map (.call h))
  | behind (h : Handle) (cs : List MapCall) :
      Books m (.behind h) [h] (.acquire m :: (cs.map (.call h) ++ [.release h]))

end Tenure

namespace Partition

open Proc

variable (p : Partition)

/-- The terms of a partition's worker as to its tenure: it asks for its own map, once; it calls with
    the handle it holds, and gives that handle back, once. -/
def tenancy : Terms Tenure where
  may t
    | .ask (.acquire m) _ => t = .outside ∧ m = p.mapName
    | .ask (.call h _) _ => t = .holding h
    | .ask (.release h) _ => t = .holding h
    | _ => True
  admits _ _ := True
  after t
    | ⟨.ask (.acquire _) _, .ok h⟩ => .holding h
    | ⟨.ask (.acquire _) _, .error _⟩ => .away
    | ⟨.ask (.release h) _, _⟩ => .behind h
    | _ => t

variable {p}

/-! ## The worker keeps to its tenancy -/

theorem enter_tenancy :
    p.enter.Keeps p.tenancy
      (fun t a => match a with
        | .ok h => t = .holding h
        | .error _ => t = .away) .outside := by
  refine ⟨trivial, fun _ _ => ⟨trivial, fun start _ => ⟨⟨rfl, rfl⟩, fun a _ => ?_⟩⟩⟩
  match a with
  | .error f => exact ⟨trivial, fun _ _ => rfl⟩
  | .ok h => exact ⟨trivial, fun _ _ => ⟨trivial, fun _ _ => rfl⟩⟩

/-- What the rounds do is allowed to a worker that holds the handle. -/
theorem Minds.tenancy {h : Handle} {e : Effect} (he : p.Minds h e) :
    p.tenancy.may (.holding h) e := by
  rcases he with he | ⟨u, rfl, _⟩
  · match e with
    | .ask (.call _ _) _ => exact congrArg _ he.1.symm
    | .ask (.acquire _) _ | .ask (.release _) _ | .clock | .publish _ => exact he.elim
    | .pause _ | .pick _ | .log _ => trivial
  · trivial

/-- What the rounds do does not change a worker's tenure. -/
theorem Minds.after_tenancy {h : Handle} {e : Effect} (he : p.Minds h e) (r : e.Reply)
    (t : Tenure) : p.tenancy.after t ⟨e, r⟩ = t := by
  rcases he with he | ⟨u, rfl, _⟩
  · match e with
    | .ask (.acquire _) _ | .ask (.release _) _ | .clock | .publish _ => exact he.elim
    | .ask (.call ..) _ | .pause _ | .pick _ | .log _ => rfl
  · rfl

theorem rounds_tenancy (h : Handle) (left run completed failed : Nat) :
    (p.rounds h left run completed failed).Keeps p.tenancy (fun t _ => t = .holding h)
      (.holding h) :=
  (rounds_routine left run completed failed).keeps (fun _ he => he.tenancy)
    fun _ r he => he.after_tenancy r _

theorem leave_tenancy (h : Handle) (crash : Option String) :
    (p.leave h crash).Keeps p.tenancy (fun t _ => t = .behind h) (.holding h) := by
  refine ⟨rfl, fun a _ => ?_⟩
  match a with
  | .ok () => rfl
  | .error f => exact ⟨trivial, fun _ _ => rfl⟩

/-- A worker ends without a handle, or behind its release. -/
theorem work_tenancy :
    p.work.Keeps p.tenancy (fun t _ => t = .away ∨ ∃ h, t = .behind h) .outside := by
  rw [work_eq]
  refine enter_tenancy.bind fun t a ht => ?_
  match a with
  | .error f => exact .inl ht
  | .ok h =>
    subst ht
    refine (rounds_tenancy h _ _ _ _).bind fun t crash ht => ?_
    subst ht
    exact (leave_tenancy h crash).mono fun _ _ ht => .inr ⟨h, ht⟩

end Partition

/-! ## The books along a log -/

variable {σ : Type} {g : Grid σ} {p : Partition}

/-- What is booked for one act. -/
theorem Tenure.Books.act {t : Tenure} {hs : List Handle} {rs : List Request} {a : Act σ}
    (h : Tenure.Books p.mapName t hs rs) (ha : a.Genuine g) (hmay : p.tenancy.may t a.deed.effect) :
    Tenure.Books p.mapName (p.tenancy.after t a.deed) (hs ++ handed [a.deed])
      (rs ++ a.entry.worker.pending) := by
  cases ha with
  | @answered r f k b w w' _ =>
    match r with
    | .acquire m =>
      obtain ⟨rfl, rfl⟩ := hmay
      cases h
      match b with
      | .ok hd => exact .holding hd []
      | .error _ => exact .failed
    | .call hd c =>
      obtain rfl : t = .holding hd := hmay
      cases h with
      | holding _ cs =>
        have hbooks := Tenure.Books.holding (m := p.mapName) hd (cs ++ [c])
        rw [List.map_append] at hbooks
        exact hbooks
    | .release hd =>
      obtain rfl : t = .holding hd := hmay
      cases h with
      | holding _ cs => exact .behind hd cs
  | @refused r withinMs k w _ hr =>
    show Tenure.Books p.mapName _ _ (rs ++ [])
    rw [List.append_nil]
    match r with
    | .acquire m =>
      obtain ⟨rfl, rfl⟩ := hmay
      cases h
      exact .refused
    | .call hd c => rwa [show handed [_] = [] from rfl, List.append_nil]
    | .release hd => cases hr
  | @other e k reply w w' he _ _ =>
    show Tenure.Books p.mapName _ _ (rs ++ [])
    rw [List.append_nil]
    match e with
    | .ask _ _ => cases he
    | .pause _ | .clock | .pick _ | .log _ | .publish _ =>
      rwa [show handed [_] = [] from rfl, List.append_nil]

/-- What is booked for a number of acts. -/
theorem Tenure.Books.acts {q q' : Proc (Option String)} {Q : Tenure → Option String → Prop}
    {t : Tenure} {hs : List Handle} {rs : List Request} {as : List (Act σ)}
    (h : Tenure.Books p.mapName t hs rs) (hplays : Proc.Plays q (deedsOf as) q')
    (has : ∀ a ∈ as, a.Genuine g) (hkeeps : q.Keeps p.tenancy Q t) :
    Tenure.Books p.mapName (p.tenancy.afterAll t (deedsOf as)) (hs ++ handed (deedsOf as))
      (rs ++ answered as) := by
  induction as generalizing q t hs rs with
  | nil => simpa [deedsOf, handed, answered, Partition.acquisitions] using h
  | cons a as ih =>
    obtain ⟨d, e⟩ := a
    cases hplays with
    | cons hplays =>
      have hact := h.act (has _ List.mem_cons_self) hkeeps.1
      have hrest := ih hact hplays (fun b hb => has b (List.mem_cons_of_mem _ hb))
        (hkeeps.2 _ trivial)
      rw [List.append_assoc, ← handed_append, List.append_assoc] at hrest
      exact hrest

/-- The books along the way of a worker.  What it waits for is not booked yet. -/
theorem Worker.Path.books {Q : Tenure → Option String → Prop} {x : Tenure} {hs : List Handle}
    {rs : List Request} {t t' : Worker} {L : List (Entry σ)} (h : Worker.Path g t L t')
    (hbooks : Tenure.Books p.mapName x hs rs) (hkeeps : t.program.Keeps p.tenancy Q x)
    (hidle : t.pending = []) :
    ∃ rs', Tenure.Books p.mapName (p.tenancy.afterAll x (deedsOf (actsOf g L)))
        (hs ++ handed (deedsOf (actsOf g L))) rs' ∧
      rs ++ requestsOf L = rs' ++ t'.pending ∧
      t'.program.Keeps p.tenancy Q (p.tenancy.afterAll x (deedsOf (actsOf g L))) := by
  have hsent := h.requestsOf_eq
  rw [hidle, List.nil_append] at hsent
  refine ⟨_, hbooks.acts h.plays h.genuine hkeeps, ?_,
    h.plays.keeps (Terms.grants_of_admits (fun _ _ => trivial) _ _) hkeeps⟩
  rw [hsent, List.append_assoc]

namespace Partition

/-- In its rounds a worker holds the handle. -/
theorem afterAll_tenancy {h : Handle} {left run completed failed : Nat} {ds₁ ds₂ : List Deed}
    {q : Proc (Option String)} (henter : Proc.Plays p.enter ds₁ (.done (.ok h)))
    (hrounds : Proc.Plays (p.rounds h left run completed failed) ds₂ q) :
    p.tenancy.afterAll .outside (ds₁ ++ ds₂) = .holding h := by
  have hholding : p.tenancy.afterAll .outside ds₁ = .holding h :=
    henter.result (Terms.grants_of_admits (fun _ _ => trivial) _ _) enter_tenancy
  have hminds := hrounds.forall_effect ((rounds_routine left run completed failed).keeps_plain h)
  rw [Terms.afterAll_append, hholding]
  exact Terms.afterAll_eq_self (fun d hd t => (hminds d hd).after_tenancy d.reply t) _

/-- A worker in its rounds that waits for something waits for a call. -/
theorem pending_of_rounds {h : Handle} {left run completed failed : Nat}
    {ds : List Deed} {e : Effect} {k : e.Reply → Proc (Option String)}
    (hrounds : Proc.Plays (p.rounds h left run completed failed) ds (.op e k)) {t : Worker}
    (ht : t.program = (.op e k >>= p.leave h)) :
    ∃ cs : List MapCall, t.pending = cs.map (.call h) := by
  have hminds : p.Minds h e := (hrounds.keeps (Terms.plain_grants _ _ _)
    ((rounds_routine left run completed failed).keeps_plain h)).1
  match t with
  | .running _ | .pausing _ _ => exact ⟨[], rfl⟩
  | .waiting r f k' =>
    rw [Worker.program, Proc.op_bind] at ht
    injection ht with he
    rw [← he] at hminds
    match r with
    | .call h' c =>
      obtain ⟨rfl, -, -⟩ := hminds.resolve_right (by rintro ⟨u, hu, -⟩; cases hu)
      exact ⟨[c], rfl⟩
    | .acquire _ | .release _ =>
      exact (hminds.resolve_right (by rintro ⟨u, hu, -⟩; cases hu)).elim

/-- The books of a worker in a run, whether or not it panicked. -/
theorem Life.books {panicked : Bool} {ds : List Deed} {L : List (Entry σ)} {t : Worker}
    (h : p.Life g panicked ds L t) :
    ∃ x rs, Tenure.Books p.mapName x (handed (deedsOf (actsOf g L))) rs ∧
      requestsOf L = rs ++ t.pending ∧
      t.program.Keeps p.tenancy (fun x _ => x = .away ∨ ∃ h, x = .behind h) x := by
  cases h with
  | calm hpath =>
    obtain ⟨rs, hbooks, hsent, hkeeps⟩ := hpath.books .outside work_tenancy rfl
    exact ⟨_, rs, hbooks, hsent, hkeeps⟩
  | @broken L₁ L₂ t₁ t ds₁ ds₂ m e k message hpath hdeeds henter hrounds hpath' =>
    -- At the panic the worker holds its handle, and it may wait for the answer to a call.
    obtain ⟨rs, hbooks, hsent, -⟩ := hpath.books .outside work_tenancy rfl
    have hprogram : t₁.program = (.op e k >>= p.leave m) := by
      have hplays := hpath.plays
      rw [Worker.program, work_eq, hdeeds] at hplays
      exact hplays.unique ((henter.bind p.stay).append (hrounds.bind (p.leave m)))
    obtain ⟨cs', hpending⟩ := pending_of_rounds hrounds hprogram
    rw [hdeeds, afterAll_tenancy henter hrounds, ← hdeeds, List.nil_append] at hbooks
    rw [actsOf_append, deedsOf_append, handed_append, requestsOf_append]
    generalize handed (deedsOf (actsOf g L₁)) = hs at hbooks ⊢
    cases hbooks with
    | holding _ cs =>
      have hheld := Tenure.Books.holding (m := p.mapName) m (cs ++ cs')
      rw [List.map_append, ← List.cons_append, ← hpending, ← hsent, List.nil_append] at hheld
      obtain ⟨rs', hbooks', hsent', hkeeps'⟩ := hpath'.books hheld (leave_tenancy m _) rfl
      exact ⟨_, rs', hbooks', hsent', hkeeps'.mono fun _ _ hx => .inr ⟨m, hx⟩⟩

end Partition

/-! ## All workers of a run -/

/-- What became of the handle of a partition's map: the handles its worker was handed, what it has
    sent, and whether it has ended. -/
inductive Handover (m : String) : List Handle → List Request → Bool → Prop
  /-- No handle was handed out, and nothing is sent but the request for one. -/
  | without {rs : List Request} {ended : Bool} : rs <+: [.acquire m] → Handover m [] rs ended
  /-- The worker has a handle, and has not ended. -/
  | within (h : Handle) (cs : List MapCall) :
      Handover m [h] (.acquire m :: cs.map (.call h)) false
  /-- The handle is given back once, behind all calls made with it. -/
  | behind (h : Handle) (cs : List MapCall) (ended : Bool) :
      Handover m [h] (.acquire m :: (cs.map (.call h) ++ [.release h])) ended

/-- A partition has one handle at most. -/
theorem Handover.eq_singleton {m : String} {hs : List Handle} {rs : List Request} {ended : Bool}
    {h : Handle} (hover : Handover m hs rs ended) (hmem : h ∈ hs) : hs = [h] := by
  cases hover with
  | without => cases hmem
  | within | behind => rw [List.mem_singleton.mp hmem]

/-- The books of a worker that waits for nothing. -/
theorem Tenure.Books.handover_idle {x : Tenure} {hs : List Handle} {rs : List Request}
    {ended : Bool} (h : Tenure.Books p.mapName x hs rs)
    (hended : ended = true → x = .away ∨ ∃ h, x = .behind h) :
    Handover p.mapName hs rs ended := by
  cases h with
  | outside => exact .without List.nil_prefix
  | refused => exact .without List.nil_prefix
  | failed => exact .without List.prefix_rfl
  | behind h cs => exact .behind h cs ended
  | holding h cs =>
    -- A worker does not end while it holds its handle.
    cases ended with
    | false => exact .within h cs
    | true =>
      rcases hended rfl with hx | ⟨h', hx⟩
      · cases hx
      · cases hx

/-- The books of a worker that waits for an answer. -/
theorem Tenure.Books.handover_waiting {x : Tenure} {hs : List Handle} {rs : List Request}
    (h : Tenure.Books p.mapName x hs rs) {r : Request} {withinMs : Option Nat}
    (hmay : p.tenancy.may x (.ask r withinMs)) : Handover p.mapName hs (rs ++ [r]) false := by
  match r with
  | .acquire m =>
    obtain ⟨rfl, rfl⟩ := hmay
    cases h
    exact .without List.prefix_rfl
  | .call hd c =>
    obtain rfl : x = .holding hd := hmay
    cases h with
    | holding _ cs =>
      have hwithin := Handover.within (m := p.mapName) hd (cs ++ [c])
      rw [List.map_append] at hwithin
      exact hwithin
  | .release hd =>
    obtain rfl : x = .holding hd := hmay
    cases h with
    | holding _ cs => exact .behind hd cs false

/-- The handover of a partition's map, in any life of its worker. -/
theorem Partition.Life.handover {panicked : Bool} {ds : List Deed} {L : List (Entry σ)}
    {t : Worker} (h : p.Life g panicked ds L t) :
    Handover p.mapName (handed (deedsOf (actsOf g L))) (requestsOf L) t.hasEnded := by
  obtain ⟨x, rs, hbooks, hsent, hkeeps⟩ := h.books
  rw [hsent]
  match t with
  | .waiting r f k => exact hbooks.handover_waiting hkeeps.1
  | .pausing _ _ =>
    rw [show rs ++ Worker.pending _ = rs from List.append_nil _]
    exact hbooks.handover_idle nofun
  | .running q =>
    rw [show rs ++ Worker.pending _ = rs from List.append_nil _]
    refine hbooks.handover_idle fun hended => ?_
    cases q with
    | done c => exact hkeeps
    | op e k => cases hended

namespace Request

def isRelease : Request → Bool
  | .release _ => true
  | _ => false

end Request

/-- A worker that has ended has asked for as many releases as it was handed handles. -/
theorem Handover.countP_isRelease {m : String} {hs : List Handle} {rs : List Request}
    (h : Handover m hs rs true) : rs.countP Request.isRelease = hs.length := by
  cases h with
  | without hrs =>
    rcases List.prefix_cons_iff.mp hrs with rfl | ⟨rs', rfl, hrs'⟩
    · rfl
    · rw [List.prefix_nil.mp hrs']
      rfl
  | behind h cs =>
    have hcalls : (cs.map (Request.call h)).countP Request.isRelease = 0 := by
      rw [List.countP_map, List.countP_eq_zero]
      intro c _ hc
      cases hc
    rw [List.countP_cons, List.countP_append, hcalls]
    rfl

namespace Watched

variable {config : LoopConfig} {S : Outside σ} {s : Watched σ} {log : Log σ} {w : World σ}

/-- The handles that the worker of a partition was handed, by its log. -/
def Log.handed (g : Grid σ) (log : Log σ) (p : Nat) : List Handle :=
  GridBench.handed (deedsOf (actsOf g (log p)))

/-- Every handle that is handed out is given back once, behind all calls made with it, and a worker
    without a handle sends nothing behind its request for one.  This holds of every partition in
    every state of a run, whatever the grid answers, whatever happens to the world, and whichever
    workers panic in their rounds.  When the run has finished, as many releases were asked for as
    handles were handed out, and the table says so; and every run finishes. -/
theorem handles_released (hs : ReachesBy g S (start config w) log s) :
    (∀ p, Handover (teamOf config p).mapName (log.handed g p) (requestsOf (log p))
      (workerOf config s.run.workers p).hasEnded) ∧
    (s.run.phase = .finished →
      ∑ p ∈ Finset.range config.plan.numMaps.toNat, (requestsOf (log p)).countP Request.isRelease =
        ∑ p ∈ Finset.range config.plan.numMaps.toNat, (log.handed g p).length ∧
      s.run.gatherer.table[runnerFinishedKey]? = some (.bool true)) ∧
    Inevitable (Fares g S) (fun s' => s'.run.phase = .finished) s := by
  have hover : ∀ p, Handover (teamOf config p).mapName (log.handed g p) (requestsOf (log p))
      (workerOf config s.run.workers p).hasEnded := fun p => (hs.chronicled p).handover
  refine ⟨hover, fun hphase => ⟨?_, hs.sound.finished_of_phase hphase⟩,
    hs.sound.inevitable_finished_of_fares⟩
  refine Finset.sum_congr rfl fun p hp => ?_
  obtain ⟨t, ht, hended⟩ := hs.sound.exists_ended hphase (Finset.mem_range.mp hp)
  have hlast := hover p
  rw [workerOf_of_getElem? ht, hended] at hlast
  exact hlast.countP_isRelease

/-- The sample run has asked for as many releases as it was handed handles when it has finished. -/
theorem handles_released_sample :
    ∃ plan log s, sampleSettings.resolve "map-tests.load" "load" = .ok plan ∧
      ReachesBy MemoryStore.grid (.still _) (start (sampleConfig plan) { grid := {} }) log s ∧
      s.run.phase = .finished ∧
      ∑ p ∈ Finset.range 2, (requestsOf (log p)).countP Request.isRelease =
        ∑ p ∈ Finset.range 2, (log.handed MemoryStore.grid p).length := by
  obtain ⟨plan, hplan⟩ := exists_samplePlan
  obtain ⟨log, s, hs, hphase⟩ := exists_finished_by MemoryStore.grid (.still _) (sampleConfig plan)
    { grid := {} }
  have hmaps : plan.numMaps.toNat = 2 := by
    cases hplan
    rfl
  have hsum := ((handles_released hs).2.1 hphase).1
  rw [show (sampleConfig plan).plan.numMaps.toNat = 2 from hmaps] at hsum
  exact ⟨plan, log, s, hplan, hs, hphase, hsum⟩

end Watched

end GridBench
