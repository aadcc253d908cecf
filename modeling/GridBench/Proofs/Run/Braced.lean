/-
  GridBench.Proofs.Run.Braced

  What a worker does on a store whose calls may misbehave.  It keeps track of the
  entries of its map by the calls that succeeded (`Partition.braced`), and
  whatever becomes of its calls, all values under the keys of its elements stay
  fit to be read (`Fit`).  Within a round, an ingest that comes to its end
  leaves nothing out (`Full`), so that the worker only ever reads what is there
  and passes the check: `work_braced`.
-/
import GridBench.Proofs.Run.Laps
import GridBench.Proofs.Run.Round

namespace GridBench

namespace Proc

variable {α β τ : Type} {c : Terms τ} {t : τ}

/-- A sequence of two parts, the first of which may fail. -/
theorem Keeps.attempt_cases {F : Attempt α} {G : α → Attempt β} {Q : τ → Except Trouble α → Prop}
    {R : τ → Except Trouble β → Prop} (h : F.run.Keeps c Q t)
    (herror : ∀ t e, Q t (.error e) → R t (.error e))
    (hok : ∀ t a, Q t (.ok a) → (G a).run.Keeps c R t) : (F >>= G).run.Keeps c R t := by
  refine h.bind fun t r hr => ?_
  match r with
  | .ok a => exact hok t a hr
  | .error e => exact herror t e hr

end Proc

namespace Partition

open Proc

/-! ## Terms -/

/-- The terms of a worker whose calls may fail.  Its state are the entries of its map as far as it
    can tell, by the calls that succeeded.  It reads only what is there and passes the check, and
    it reckons with any answers, but for those about the presence of a key. -/
def braced (p : Partition) : Terms Entries where
  may t
    | .ask (.acquire _) withinMs => withinMs = some p.config.getMapTimeoutMs
    | .ask (.call _ (.get key)) _ =>
      ∃ v, t[key]? = some v ∧ p.config.check v = .ok ()
    | _ => True
  admits t
    | ⟨.ask (.acquire m) _, a⟩ => ∃ n, a = .ok ⟨n, m⟩
    | ⟨.ask (.call _ (.containsKey key)) _, a⟩ => a = .ok (t.contains key)
    | _ => True
  after t
    | ⟨.ask (.call _ c) _, .ok _⟩ => (c.apply t).2
    | _ => t

variable {p : Partition} {items is : List (String × Json)} {t : Entries}

/-- Parts of a program that make no request leave the entries alone. -/
theorem braced_of_unasked {α : Type} {F : Proc α} {Q : Unit → α → Prop}
    (hF : F.Keeps (.plain fun e => e.isAsk = false) Q ()) (t : Entries) :
    F.Keeps p.braced (fun t' _ => t' = t) t := by
  induction F with
  | done a => rfl
  | op e k ih =>
    obtain ⟨he, hk⟩ := hF
    have hsame : ∀ r, p.braced.after t ⟨e, r⟩ = t := by
      match e, he with
      | .pause _, _ | .clock, _ | .pick _, _ | .log _, _ | .publish _, _ => exact fun _ => rfl
    refine ⟨?_, fun r _ => ?_⟩
    · match e, he with
      | .pause _, _ | .clock, _ | .pick _, _ | .log _, _ | .publish _, _ => trivial
    · rw [hsame r]
      exact ih r (hk r trivial)

theorem say_braced (severity : Severity) (message : String) (t : Entries) :
    (liftM (say severity message) : Attempt Unit).run.Keeps p.braced
      (fun t' r => r = .ok () ∧ t' = t) t :=
  ⟨trivial, fun _ _ => ⟨rfl, rfl⟩⟩

/-! ## Calls -/

/-- Looking for a key is answered truthfully. -/
theorem contains_braced (h : Handle) (key : String) (t : Entries) :
    (Attempt.call h (.containsKey key)).run.Keeps p.braced
      (fun t' r => r = .ok (t.contains key) ∧ t' = t) t := by
  refine ⟨trivial, fun a ha => ?_⟩
  obtain rfl : a = .ok (t.contains key) := ha
  exact ⟨rfl, rfl⟩

/-- Any other call has its effect, or it fails and has none. -/
theorem call_braced (h : Handle) (c : MapCall)
    (hmay : p.braced.may t (.ask (.call h c) none)) :
    (Attempt.call h c).run.Keeps p.braced
      (fun t' r => t' = match r with
        | .ok _ => (c.apply t).2
        | .error _ => t) t := by
  refine ⟨hmay, fun a _ => ?_⟩
  match a with
  | .ok a => rfl
  | .error f => rfl

/-! ## What is kept up, and what an ingest brings about -/

/-- The partition's elements have keys and serialised forms, which pass the check. -/
structure Provided (p : Partition) (items : List (String × Json)) : Prop where
  elements : p.config.elements = listed items
  check : ∀ i ∈ items, p.config.check i.2 = .ok ()

/-- Whatever is stored under the key of an element passes the check. -/
def Fit (p : Partition) (items : List (String × Json)) (t : Entries) : Prop :=
  ∀ i ∈ items, ∀ v, t[p.place i]? = some v → p.config.check v = .ok ()

/-- There is something under the key of each of the given elements. -/
def Full (p : Partition) (is : List (String × Json)) (t : Entries) : Prop :=
  ∀ i ∈ is, t.contains (p.place i) = true

/-- Storing a value that passes the check keeps the entries fit, under whichever key. -/
theorem Fit.insert (h : p.Fit items t) {key : String} {v : Json}
    (hv : p.config.check v = .ok ()) : p.Fit items (t.insert key v) := by
  intro i hi u hu
  rw [Std.ExtTreeMap.getElem?_insert] at hu
  split at hu
  · cases hu
    exact hv
  · exact h i hi u hu

theorem Fit.erase (h : p.Fit items t) (key : String) : p.Fit items (t.erase key) := by
  intro i hi u hu
  rw [Std.ExtTreeMap.getElem?_erase] at hu
  split at hu
  · cases hu
  · exact h i hi u hu

/-- What is there and fit may be read. -/
theorem Fit.may_get (h : p.Fit items t) {i : String × Json} (hi : i ∈ items)
    (hfull : t.contains (p.place i) = true) (hd : Handle) :
    p.braced.may t (.ask (.call hd (.get (p.place i))) none) := by
  rw [Std.ExtTreeMap.contains_eq_isSome_getElem?] at hfull
  obtain ⟨v, hv⟩ := Option.isSome_iff_exists.mp hfull
  exact ⟨v, hv, h i hi v hv⟩

/-! ## Actions -/

/-- Ingesting keeps the entries fit, and if it comes to its end, none of the elements it went
    through is left out, and nothing that was there is lost. -/
theorem ingest_braced (hp : p.Provided items) (h : Handle) (his : ∀ i ∈ is, i ∈ items) (n : Nat)
    (hfit : p.Fit items t) :
    (p.ingest h (listed is) n).run.Keeps p.braced
      (fun t' r => p.Fit items t' ∧ ((∃ m, r = .ok m) → p.Full is t' ∧
        ∀ key, t.contains key = true → t'.contains key = true)) t := by
  induction is generalizing n t with
  | nil =>
    simp only [listed, List.map_nil, ingest]
    refine .attempt_cases (say_braced _ _ t) (fun _ _ hr => by cases hr.1) fun t' _ ht' => ?_
    obtain rfl := ht'.2
    exact ⟨hfit, fun _ => ⟨fun i hi => absurd hi List.not_mem_nil, fun _ hkey => hkey⟩⟩
  | cons j is ih =>
    have hj : j ∈ items := his j List.mem_cons_self
    have ih := fun m (t : Entries) => ih (t := t) (fun i hi => his i (List.mem_cons_of_mem _ hi)) m
    -- The rest of the elements is gone through with the first of them in the map.
    have hrest : ∀ (m : Nat) (t' : Entries), p.Fit items t' → t'.contains (p.place j) = true →
        (∀ key, t.contains key = true → t'.contains key = true) →
        (p.ingest h (listed is) m).run.Keeps p.braced
          (fun t' r => p.Fit items t' ∧ ((∃ m, r = .ok m) → p.Full (j :: is) t' ∧
            ∀ key, t.contains key = true → t'.contains key = true)) t' := by
      intro m t' hfit' hj' hkept
      refine (ih m t' hfit').mono fun t'' r hr => ⟨hr.1, fun hok => ?_⟩
      obtain ⟨hfull, hkept'⟩ := hr.2 hok
      refine ⟨fun i hi => ?_, fun key hkey => hkept' key (hkept key hkey)⟩
      rcases List.mem_cons.mp hi with rfl | hi
      · exact hkept' _ hj'
      · exact hfull i hi
    simp only [listed, List.map_cons, ingest, key_item, pure_bind]
    refine .attempt_cases (contains_braced h _ t) (fun _ _ hr => by cases hr.1)
      fun t' present ht' => ?_
    obtain ⟨hpresent, rfl⟩ := ht'
    obtain rfl : present = t'.contains (p.place j) := Except.ok.inj hpresent
    split
    · rename_i hthere
      exact hrest n t' hfit hthere fun _ hkey => hkey
    · simp only [ofExcept_ok, pure_bind]
      refine .attempt_cases (call_braced h (.set (p.place j) j.2) trivial) (fun t'' e hr => ?_)
        fun t'' _ ht'' => ?_
      -- Nothing came of a call that failed.
      · obtain rfl := hr
        exact ⟨hfit, fun hok => by cases hok.choose_spec⟩
      · obtain rfl : t'' = t'.insert (p.place j) j.2 := ht''
        refine hrest (n + 1) _ (hfit.insert (hp.check j hj)) Std.ExtTreeMap.contains_insert_self
          fun key hkey => ?_
        rw [Std.ExtTreeMap.contains_insert, hkey, Bool.or_true]

/-- Reading back changes nothing, if everything is there. -/
theorem readAll_braced (h : Handle) (his : ∀ i ∈ is, i ∈ items) (hfit : p.Fit items t)
    (hfull : p.Full is t) :
    (p.readAll h (listed is)).run.Keeps p.braced (fun t' _ => t' = t) t := by
  induction is with
  | nil =>
    simp only [listed, List.map_nil, readAll]
    exact .attempt_cases (say_braced _ _ t) (fun _ _ hr => by cases hr.1) fun _ _ ht' => ht'.2
  | cons j is ih =>
    have ih := ih (fun i hi => his i (List.mem_cons_of_mem _ hi))
      fun i hi => hfull i (List.mem_cons_of_mem _ hi)
    have hmay := hfit.may_get (his j List.mem_cons_self) (hfull j List.mem_cons_self) h
    simp only [listed, List.map_cons, readAll, key_item, pure_bind]
    refine .attempt_cases (call_braced h (.get (p.place j)) hmay) (fun _ _ hr => hr)
      fun t' answer ht' => ?_
    obtain rfl : t' = t := ht'
    cases answer with
    | none => exact rfl
    | some v =>
      -- The check ends the action, or it goes on with the next element.
      cases hcheck : p.config.check v with
      | error f =>
        simp only [hcheck]
        exact rfl
      | ok _ =>
        simp only [hcheck, ofExcept_ok, pure_bind]
        exact ih

/-- Removing keeps the entries fit. -/
theorem remove_braced (h : Handle) (n : Nat) (hfit : p.Fit items t) :
    (p.remove h (listed is) n).run.Keeps p.braced (fun t' _ => p.Fit items t') t := by
  induction is generalizing n t with
  | nil =>
    simp only [listed, List.map_nil, remove]
    refine .attempt_cases (say_braced _ _ t) (fun _ _ hr => by cases hr.1) fun t' _ ht' => ?_
    obtain rfl := ht'.2
    exact hfit
  | cons j is ih =>
    simp only [listed, List.map_cons, remove, key_item, pure_bind]
    refine .attempt_cases (contains_braced h _ t) (fun _ _ hr => by cases hr.1)
      fun t' present ht' => ?_
    obtain ⟨_, rfl⟩ := ht'
    split
    · refine .attempt_cases (call_braced h (.remove (p.place j)) trivial) (fun t'' e hr => ?_)
        fun t'' _ ht'' => ?_
      · obtain rfl := hr
        exact hfit
      · obtain rfl : t'' = t'.erase (p.place j) := ht''
        exact ih (n + 1) (hfit.erase _)
    · exact ih n hfit

/-! ## Rounds -/

theorem removeSome_braced (hp : p.Provided items) (h : Handle) (hfit : p.Fit items t) :
    (p.removeSome h).run.Keeps p.braced (fun t' _ => p.Fit items t') t := by
  rw [removeSome]
  refine ⟨trivial, fun count _ => ?_⟩
  have htake : p.config.elements.take count = listed (items.take count) := by
    rw [hp.elements, listed, listed, List.map_take]
  show (p.remove h (p.config.elements.take count) 0).run.Keeps p.braced _ t
  rw [htake]
  exact remove_braced h 0 hfit

/-- An action, after which the round goes on unless it failed. -/
theorem attempt_braced {α : Type} {action : Action} {F : Attempt α} {next : Proc RoundEnd}
    {Q : Entries → Except Trouble α → Prop} {R : Entries → Prop} (hF : F.run.Keeps p.braced Q t)
    (hR : ∀ t' r, Q t' r → R t')
    (hnext : ∀ t' a, Q t' (.ok a) → next.Keeps p.braced (fun t' _ => R t') t') :
    (attempt action F next).Keeps p.braced (fun t' _ => R t') t := by
  refine hF.bind fun t' r hr => ?_
  match r with
  | .ok a => exact hnext t' a hr
  | .error (.failed cause) => exact hR t' _ hr
  | .error (.crashed message) => exact hR t' _ hr

/-- A round keeps the entries fit, whatever becomes of its calls. -/
theorem round_braced (hp : p.Provided items) (h : Handle) (hfit : p.Fit items t) :
    (p.round h).Keeps p.braced (fun t' _ => p.Fit items t') t := by
  have hingest : (p.ingestAll h).run.Keeps p.braced (fun t' r => p.Fit items t' ∧
      ((∃ m, r = .ok m) → p.Full items t')) t := by
    rw [ingestAll, hp.elements]
    exact (ingest_braced hp h (fun _ hi => hi) 0 hfit).mono fun _ _ hr =>
      ⟨hr.1, fun hok => (hr.2 hok).1⟩
  refine attempt_braced hingest (fun _ _ hr => hr.1) fun t₁ m h₁ => ?_
  refine (braced_of_unasked (rest_unasked _) t₁).bind fun t₂ _ ht₂ => ?_
  subst ht₂
  have hread : (p.readAll h p.config.elements).run.Keeps p.braced (fun t' _ => t' = t₂) t₂ := by
    rw [hp.elements]
    exact readAll_braced h (fun _ hi => hi) h₁.1 (h₁.2 ⟨m, rfl⟩)
  refine attempt_braced hread (fun t' _ ht' => ht' ▸ h₁.1) fun t₃ _ ht₃ => ?_
  subst ht₃
  refine (braced_of_unasked (rest_unasked _) t₃).bind fun t₄ _ ht₄ => ?_
  subst ht₄
  exact attempt_braced (removeSome_braced hp h h₁.1) (fun _ _ hr => hr) fun _ _ hr => hr

theorem rounds_braced (hp : p.Provided items) (h : Handle) (left run completed failed : Nat)
    (hfit : p.Fit items t) :
    (p.rounds h left run completed failed).Keeps p.braced (fun t' _ => p.Fit items t') t := by
  induction left generalizing run completed failed t with
  | zero =>
    exact (braced_of_unasked (conclusion_unasked h run completed failed) t).mono
      fun _ _ ht => ht ▸ hfit
  | succ left ih =>
    rw [rounds_succ, iteration_eq]
    -- What comes before a round and behind it makes no request.
    have hround : (p.lead run >>= fun _ => p.round h).Keeps p.braced
        (fun t' _ => p.Fit items t') t := by
      refine (braced_of_unasked (lead_unasked run) t).bind fun t₁ _ ht₁ => ?_
      subst ht₁
      exact round_braced hp h hfit
    refine hround.bind fun t₂ e h₂ => ?_
    refine (braced_of_unasked (account_unasked run completed failed e) t₂).bind fun t₃ _ ht₃ => ?_
    subst ht₃
    cases e with
    | completed => exact ih _ _ _ h₂
    | failed action cause => exact ih _ _ _ h₂
    | crashed message => exact h₂

/-- A worker that reckons with being given its map is given it. -/
theorem enter_braced (t : Entries) :
    p.enter.Keeps p.braced (fun t' a => (∃ h, a = .ok h) ∧ t' = t) t := by
  refine ⟨trivial, fun _ _ => ⟨trivial, fun start _ => ⟨rfl, fun a ha => ?_⟩⟩⟩
  obtain ⟨n, rfl⟩ : ∃ n, a = .ok ⟨n, p.mapName⟩ := ha
  exact ⟨trivial, fun _ _ => ⟨trivial, fun _ _ => ⟨⟨_, rfl⟩, rfl⟩⟩⟩

/-- A worker whose calls may misbehave reads only what is there and passes the check. -/
theorem work_braced (hp : p.Provided items) (hfit : p.Fit items t) :
    p.work.Keeps p.braced (fun _ _ => True) t := by
  rw [work_eq]
  refine (enter_braced t).bind fun t₁ a h₁ => ?_
  obtain ⟨⟨h, rfl⟩, rfl⟩ := h₁
  refine (rounds_braced hp h _ 0 0 0 hfit).bind fun t₂ crash _ => ?_
  refine ⟨trivial, fun a _ => ?_⟩
  match a with
  | .ok () => trivial
  | .error f => exact ⟨trivial, fun _ _ => trivial⟩

end Partition

end GridBench
