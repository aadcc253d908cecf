/-
  GridBench.Proofs.Run.Custody

  What a worker may do to the entries of its map, whatever becomes of its calls.
  It knows them as far as its calls succeeded, by the terms `braced`.  It writes
  only where it has just seen nothing, and then the value of the element that
  belongs there; it removes elements, but never the last one (`work_custody`).
  So each deed treats each entry in one of three ways (`Treated`), and once an
  ingest has come to its end, the last element stays (`contains_of_ingested`).
-/
import GridBench.Proofs.Run.Siege

namespace GridBench

namespace Element

/-- Whether two elements have different identifiers, or one of them has none. -/
def Differs (a b : Element) : Prop := ∀ i, a.id = .ok i → b.id ≠ .ok i

instance : Std.Symm Differs := ⟨fun _ _ h i hb ha => h i ha hb⟩

end Element

namespace Deed

/-- Whether a deed removed what was under a key. -/
def Removes (key : String) : Deed → Prop
  | ⟨.ask (.call _ (.remove k)) _, .ok _⟩ => k = key
  | _ => False

theorem Removes.eq {key : String} {d : Deed} (h : d.Removes key) :
    ∃ m withinMs v, d = ⟨.ask (.call m (.remove key)) withinMs, .ok v⟩ := by
  unfold Removes at h
  split at h
  · subst h
    exact ⟨_, _, _, rfl⟩
  · exact h.elim

end Deed

namespace Proc

variable {α β τ : Type} {c : Terms τ} {t : τ}

/-- A diary in two parts. -/
theorem Plays.of_append {p q : Proc α} {ds es : List Deed} (h : Plays p (ds ++ es) q) :
    ∃ r, Plays p ds r ∧ Plays r es q := by
  induction ds generalizing p with
  | nil => exact ⟨p, .nil p, h⟩
  | cons d ds ih =>
    cases h with
    | cons h =>
      obtain ⟨r, hr, hq⟩ := ih h
      exact ⟨r, .cons hr, hq⟩

/-- A sequence of two parts of which nothing is asked but that they keep to their terms. -/
theorem Keeps.attempt_any {F : Attempt α} {G : α → Attempt β} {Q : τ → Except Trouble α → Prop}
    (h : F.run.Keeps c Q t)
    (hok : ∀ t a, Q t (.ok a) → (G a).run.Keeps c (fun _ _ => True) t) :
    (F >>= G).run.Keeps c (fun _ _ => True) t :=
  h.attempt_cases (fun _ _ _ => trivial) hok

end Proc

namespace Partition

open Proc

/-- The terms of a worker that has the entries of its map in its care.  Its state are these
    entries.  It writes where nothing is, the value of an element under the key of the element,
    and it removes what is under the key of an element that is not the last one.  It reckons with
    truthful answers about the presence of a key, or none, and with numbers that are drawn. -/
def custody (p : Partition) : Terms Entries where
  may t
    | .ask (.call _ (.set key v)) _ =>
      t.contains key = false ∧ ∃ e ∈ p.config.elements, p.key e = .ok key ∧ e.value = .ok v
    | .ask (.call _ (.remove key)) _ => ∃ e ∈ p.config.elements.dropLast, p.key e = .ok key
    | _ => True
  admits t
    | ⟨.ask (.call _ (.containsKey key)) _, .ok present⟩ => present = t.contains key
    | ⟨.pick q, n⟩ => Deed.IsDrawn ⟨.pick q, n⟩
    | _ => True
  after := p.braced.after

variable {p : Partition} {es : List Element} {t : Entries}

/-- There is something under the key of each of the given elements. -/
def Holds (p : Partition) (es : List Element) (t : Entries) : Prop :=
  ∀ e ∈ es, ∀ key, p.key e = .ok key → t.contains key = true

theorem Holds.cons {e : Element} {key : String} (h : p.Holds es t) (hk : p.key e = .ok key)
    (hthere : t.contains key = true) : p.Holds (e :: es) t := by
  intro e' he' key' hkey'
  rcases List.mem_cons.mp he' with rfl | he'
  · obtain rfl : key = key' := Except.ok.inj (hk.symm.trans hkey')
    exact hthere
  · exact h e' he' key' hkey'

/-! ## Parts of a worker -/

theorem custody_of_unasked {α : Type} {F : Proc α} {Q : Unit → α → Prop}
    (hF : F.Keeps (.plain fun e => e.isAsk = false) Q ()) (t : Entries) :
    F.Keeps p.custody (fun _ _ => True) t :=
  hF.of_plain (fun t e he => by
    match e, he with
    | .pause _, _ | .clock, _ | .pick _, _ | .log _, _ | .publish _, _ => trivial) t

theorem say_custody (severity : Severity) (message : String) (t : Entries) :
    (liftM (say severity message) : Attempt Unit).run.Keeps p.custody
      (fun t' r => r = .ok () ∧ t' = t) t :=
  ⟨trivial, fun _ _ => ⟨rfl, rfl⟩⟩

/-- Looking for a key is answered truthfully or not at all. -/
theorem contains_custody (h : Handle) (key : String) (t : Entries) :
    (Attempt.call h (.containsKey key)).run.Keeps p.custody
      (fun t' r => t' = t ∧ ∀ present, r = .ok present → present = t.contains key) t := by
  refine ⟨trivial, fun a ha => ?_⟩
  match a with
  | .ok present => exact ⟨rfl, fun _ hr => by cases hr; exact ha⟩
  | .error f => exact ⟨rfl, fun _ hr => by cases hr⟩

/-- A call that is allowed has its effect, or it fails and has none. -/
theorem call_custody (h : Handle) (c : MapCall)
    (hmay : p.custody.may t (.ask (.call h c) none)) :
    (Attempt.call h c).run.Keeps p.custody
      (fun t' r => t' = match r with
        | .ok _ => (c.apply t).2
        | .error _ => t) t := by
  refine ⟨hmay, fun a _ => ?_⟩
  match a with
  | .ok a => rfl
  | .error f => rfl

/-- An ingest writes what is missing.  If it comes to its end, none of the elements it went through
    is missing any more, and nothing that was there is lost. -/
theorem ingest_custody (h : Handle) (hes : ∀ e ∈ es, e ∈ p.config.elements) (n : Nat)
    (t : Entries) :
    (p.ingest h es n).run.Keeps p.custody
      (fun t' r => (∃ m, r = .ok m) → p.Holds es t' ∧
        ∀ key, t.contains key = true → t'.contains key = true) t := by
  induction es generalizing n t with
  | nil =>
    simp only [ingest]
    refine .attempt_cases (say_custody _ _ t) (fun _ _ hr => by cases hr.1) fun t' _ ht' => ?_
    obtain rfl := ht'.2
    exact fun _ => ⟨fun e he => absurd he List.not_mem_nil, fun _ hkey => hkey⟩
  | cons e es ih =>
    have ih := ih fun e' he' => hes e' (List.mem_cons_of_mem _ he')
    cases hk : p.key e with
    | error message =>
      simp only [ingest, keyOf, hk]
      exact fun hok => by cases hok.choose_spec
    | ok key =>
      -- The rest of the elements is gone through with the first of them in the map.
      have hrest : ∀ (m : Nat) (t' : Entries), t'.contains key = true →
          (∀ key, t.contains key = true → t'.contains key = true) →
          (p.ingest h es m).run.Keeps p.custody
            (fun t' r => (∃ m, r = .ok m) → p.Holds (e :: es) t' ∧
              ∀ key, t.contains key = true → t'.contains key = true) t' := by
        intro m t' hthere hkept
        refine (ih m t').mono fun t'' r hr hok => ?_
        obtain ⟨hholds, hkept'⟩ := hr hok
        exact ⟨hholds.cons hk (hkept' key hthere), fun key' hkey' => hkept' key' (hkept key' hkey')⟩
      simp only [ingest, keyOf, hk, pure_bind]
      refine .attempt_cases (contains_custody h key t)
        (fun _ _ _ hok => by cases hok.choose_spec) fun t' present ht' => ?_
      obtain ⟨rfl, htrue⟩ := ht'
      obtain rfl := htrue present rfl
      split
      · rename_i hthere
        exact hrest n t' hthere fun _ hkey => hkey
      · rename_i habsent
        cases hv : e.value with
        | error f =>
          simp only [Attempt.ofExcept]
          exact fun hok => by cases hok.choose_spec
        | ok v =>
          simp only [ofExcept_ok, pure_bind]
          have hmay : p.custody.may t' (.ask (.call h (.set key v)) none) :=
            ⟨Bool.eq_false_iff.mpr habsent, e, hes e List.mem_cons_self, hk, hv⟩
          refine .attempt_cases (call_custody h (.set key v) hmay)
            (fun _ _ _ hok => by cases hok.choose_spec) fun t'' _ ht'' => ?_
          obtain rfl : t'' = t'.insert key v := ht''
          refine hrest (n + 1) _ Std.ExtTreeMap.contains_insert_self fun key' hkey' => ?_
          rw [Std.ExtTreeMap.contains_insert, hkey', Bool.or_true]

theorem readAll_custody (h : Handle) (es : List Element) (t : Entries) :
    (p.readAll h es).run.Keeps p.custody (fun _ _ => True) t := by
  induction es generalizing t with
  | nil =>
    simp only [readAll]
    exact .attempt_any (say_custody _ _ t) fun _ _ _ => trivial
  | cons e es ih =>
    cases hk : p.key e with
    | error message =>
      simp only [readAll, keyOf, hk]
      trivial
    | ok key =>
      simp only [readAll, keyOf, hk, pure_bind]
      refine .attempt_any (call_custody h (.get key) trivial) fun t' answer _ => ?_
      cases answer with
      | none => trivial
      | some v =>
        cases hcheck : p.config.check v with
        | error f =>
          simp only [hcheck]
          trivial
        | ok _ =>
          simp only [hcheck, ofExcept_ok, pure_bind]
          exact ih t'

/-- Removing takes away elements that are not the last one. -/
theorem remove_custody (h : Handle) (hes : ∀ e ∈ es, e ∈ p.config.elements.dropLast) (n : Nat)
    (t : Entries) : (p.remove h es n).run.Keeps p.custody (fun _ _ => True) t := by
  induction es generalizing n t with
  | nil =>
    simp only [remove]
    exact .attempt_any (say_custody _ _ t) fun _ _ _ => trivial
  | cons e es ih =>
    have ih := ih fun e' he' => hes e' (List.mem_cons_of_mem _ he')
    cases hk : p.key e with
    | error message =>
      simp only [remove, keyOf, hk]
      trivial
    | ok key =>
      simp only [remove, keyOf, hk, pure_bind]
      refine .attempt_any (contains_custody h key t) fun t' present _ => ?_
      split
      · exact .attempt_any (call_custody h (.remove key) ⟨e, hes e List.mem_cons_self, hk⟩)
          fun t'' _ _ => ih (n + 1) t''
      · exact ih n t'

/-- The number drawn for a removal leaves out the last element. -/
theorem removeSome_custody (h : Handle) (t : Entries) :
    (p.removeSome h).run.Keeps p.custody (fun _ _ => True) t := by
  rw [removeSome]
  refine ⟨trivial, fun count hcount => ?_⟩
  obtain ⟨d, rfl⟩ : Deed.IsDrawn ⟨.pick (removalCount p.config.elements.length), count⟩ := hcount
  refine remove_custody h (fun e he => ?_) 0 _
  have hle : ((removalCount p.config.elements.length).take d).1 ≤ p.config.elements.length - 1 := by
    have := take_removalCount p.config.elements.length d
    omega
  rw [List.dropLast_eq_take]
  exact (List.take_prefix_take_left hle).subset he

/-! ## The whole worker -/

theorem attempt_custody {α : Type} {action : Action} {F : Attempt α} {next : Proc RoundEnd}
    {Q : Entries → Except Trouble α → Prop} (hF : F.run.Keeps p.custody Q t)
    (hnext : ∀ t, next.Keeps p.custody (fun _ _ => True) t) :
    (attempt action F next).Keeps p.custody (fun _ _ => True) t :=
  attempt_keeps hF (fun _ _ _ => trivial) (fun _ _ _ => trivial) fun t' _ _ => hnext t'

theorem round_custody (h : Handle) (t : Entries) :
    (p.round h).Keeps p.custody (fun _ _ => True) t := by
  have hrest : ∀ (t : Entries), (rest p.config.plan.betweenActionBatches).Keeps p.custody
      (fun _ _ => True) t := custody_of_unasked (rest_unasked _)
  refine attempt_custody (ingest_custody h (fun _ he => he) 0 t) fun t₁ => ?_
  refine (hrest t₁).bind fun t₂ _ _ => ?_
  refine attempt_custody (readAll_custody h _ t₂) fun t₃ => ?_
  refine (hrest t₃).bind fun t₄ _ _ => ?_
  exact attempt_custody (removeSome_custody h t₄) fun _ => trivial

theorem rounds_custody (h : Handle) (left run completed failed : Nat) (t : Entries) :
    (p.rounds h left run completed failed).Keeps p.custody (fun _ _ => True) t := by
  induction left generalizing run completed failed t with
  | zero => exact custody_of_unasked (conclusion_unasked h run completed failed) t
  | succ left ih =>
    rw [rounds_succ, iteration_eq]
    have hround : (p.lead run >>= fun _ => p.round h).Keeps p.custody (fun _ _ => True) t :=
      (custody_of_unasked (lead_unasked run) t).bind fun t' _ _ => round_custody h t'
    refine hround.bind fun t₁ e _ => ?_
    refine (custody_of_unasked (account_unasked run completed failed e) t₁).bind fun t₂ _ _ => ?_
    cases e with
    | completed => exact ih _ _ _ t₂
    | failed action cause => exact ih _ _ _ t₂
    | crashed message => trivial

/-- A worker has its map in its care, whatever becomes of its calls. -/
theorem work_custody (t : Entries) : p.work.Keeps p.custody (fun _ _ => True) t := by
  rw [work_eq]
  have henter : p.enter.Keeps p.custody (fun _ _ => True) t := by
    refine ⟨trivial, fun _ _ => ⟨trivial, fun start _ => ⟨trivial, fun a _ => ?_⟩⟩⟩
    match a with
    | .error f => exact ⟨trivial, fun _ _ => trivial⟩
    | .ok h => exact ⟨trivial, fun _ _ => ⟨trivial, fun _ _ => trivial⟩⟩
  refine henter.bind fun t₁ a _ => ?_
  match a with
  | .error f => trivial
  | .ok h =>
    refine (rounds_custody h _ 0 0 0 t₁).bind fun t₂ crash _ => ?_
    refine ⟨trivial, fun a _ => ?_⟩
    match a with
    | .ok () => trivial
    | .error f => exact ⟨trivial, fun _ _ => trivial⟩

/-! ## Entries in a worker's care -/

/-- What a deed makes of the entry under a key. -/
inductive Treated (p : Partition) (key : String) (d : Deed) (t t' : Entries) : Prop
  | kept : ¬ d.Removes key → t'[key]? = t[key]? → Treated p key d t t'
  | written (e : Element) (v : Json) : e ∈ p.config.elements → p.key e = .ok key →
      e.value = .ok v → t[key]? = none → t'[key]? = some v → Treated p key d t t'
  | removed (e : Element) : d.Removes key → e ∈ p.config.elements.dropLast → p.key e = .ok key →
      t'[key]? = none → Treated p key d t t'

/-- A deed that the terms allow treats every entry in one of these ways. -/
theorem treated_of_may {d : Deed} (hmay : p.custody.may t d.effect) (key : String) :
    p.Treated key d t (p.custody.after t d) := by
  match d with
  | ⟨.ask (.call _ (.set k v)) _, .ok ()⟩ =>
    obtain ⟨habsent, e, he, hk, hv⟩ := hmay
    by_cases hkey : k = key
    · subst hkey
      exact .written e v he hk hv (Std.ExtTreeMap.getElem?_eq_none_of_contains_eq_false habsent)
        Std.ExtTreeMap.getElem?_insert_self
    · exact .kept (fun hd => hd) (MapCall.apply_other (c := .set k v) (Ne.symm hkey))
  | ⟨.ask (.call _ (.remove k)) _, .ok _⟩ =>
    obtain ⟨e, he, hk⟩ := hmay
    by_cases hkey : k = key
    · subst hkey
      exact .removed e rfl he hk Std.ExtTreeMap.getElem?_erase_self
    · exact .kept hkey (MapCall.apply_other (c := .remove k) (Ne.symm hkey))
  | ⟨.ask (.call _ (.containsKey _)) _, .ok _⟩ | ⟨.ask (.call _ (.get _)) _, .ok _⟩ =>
    exact .kept (fun hd => hd) rfl
  | ⟨.ask (.call _ (.containsKey _)) _, .error _⟩ | ⟨.ask (.call _ (.get _)) _, .error _⟩
  | ⟨.ask (.call _ (.set _ _)) _, .error _⟩ | ⟨.ask (.call _ (.remove _)) _, .error _⟩ =>
    exact .kept (fun hd => hd) rfl
  | ⟨.ask (.acquire _) _, .ok _⟩ | ⟨.ask (.acquire _) _, .error _⟩
  | ⟨.ask (.release _) _, .ok _⟩ | ⟨.ask (.release _) _, .error _⟩ =>
    exact .kept (fun hd => hd) rfl
  | ⟨.pause _, _⟩ | ⟨.clock, _⟩ | ⟨.pick _, _⟩ | ⟨.log _, _⟩ | ⟨.publish _, _⟩ =>
    exact .kept (fun hd => hd) rfl

/-! ## Elements that differ -/

theorem key_eq_ok {e : Element} {key : String} (h : p.key e = .ok key) :
    ∃ i, e.id = .ok i ∧ storageKey p.config.client p.number i = key := by
  unfold Partition.key at h
  cases hid : e.id with
  | error message =>
    rw [hid] at h
    cases h
  | ok i =>
    rw [hid] at h
    exact ⟨i, rfl, Except.ok.inj h⟩

/-- Elements that differ have different keys. -/
theorem key_ne_of_differs {a b : Element} (h : a.Differs b) {key : String}
    (ha : p.key a = .ok key) : p.key b ≠ .ok key := by
  intro hb
  obtain ⟨i, hi, rfl⟩ := key_eq_ok ha
  obtain ⟨j, hj, hij⟩ := key_eq_ok hb
  exact h i hi ((storageKey_inj_of_client hij).2 ▸ hj)

variable {key : String}

theorem eq_of_key (hids : p.config.elements.Pairwise Element.Differs) {a b : Element}
    (ha : a ∈ p.config.elements) (hb : b ∈ p.config.elements) (hka : p.key a = .ok key)
    (hkb : p.key b = .ok key) : a = b :=
  Classical.byContradiction fun hne => key_ne_of_differs (hids.forall ha hb hne) hka hkb

theorem key_ne_of_mem_dropLast (hids : p.config.elements.Pairwise Element.Differs) {e : Element}
    (hlast : p.config.elements.getLast? = some e) (hk : p.key e = .ok key) {a : Element}
    (ha : a ∈ p.config.elements.dropLast) : p.key a ≠ .ok key := by
  obtain ⟨es, hes⟩ := List.getLast?_eq_some_iff.mp hlast
  rw [hes] at hids
  rw [hes, List.dropLast_concat] at ha
  have hdiffers := (List.pairwise_append.mp hids).2.2 a ha e (List.mem_singleton_self e)
  exact fun hka => key_ne_of_differs hdiffers hka hk

/-! ## Along a diary -/

variable {q q' : Proc (Option String)} {ds : List Deed}

/-- How the last deed of a diary treats an entry. -/
theorem treated_of_plays {d : Deed} (hplays : Plays p.work (ds ++ [d]) q)
    (hgrants : p.custody.Grants t (ds ++ [d])) (key : String) :
    p.Treated key d (p.custody.afterAll t ds) (p.custody.afterAll t (ds ++ [d])) := by
  obtain ⟨r, hr, hd⟩ := hplays.of_append
  have hkeeps := hr.keeps ((Terms.grants_append _ _ _ _).mp hgrants).1 (work_custody t)
  cases hd with
  | cons _ =>
    rw [Terms.afterAll_append]
    exact treated_of_may hkeeps.1 key

/-- What is there under the key of an element was there before and was not removed, or it is the
    value of this very element. -/
theorem value_of_plays (hids : p.config.elements.Pairwise Element.Differs) {e : Element}
    (he : e ∈ p.config.elements) (hk : p.key e = .ok key) {v : Json} (hplays : Plays q ds q')
    (hkeeps : q.Keeps p.custody (fun _ _ => True) t) (hgrants : p.custody.Grants t ds)
    (hv : (p.custody.afterAll t ds)[key]? = some v) :
    (t[key]? = some v ∧ ∀ d ∈ ds, ¬ d.Removes key) ∨ e.value = .ok v := by
  induction hplays generalizing t with
  | nil q => exact .inl ⟨hv, fun d hd => absurd hd List.not_mem_nil⟩
  | @cons f k r ds q' _ ih =>
    rcases ih (hkeeps.2 r hgrants.1) hgrants.2 hv with ⟨hafter, hnone⟩ | hvalue
    · cases treated_of_may (d := ⟨f, r⟩) hkeeps.1 key with
      | kept hkept heq =>
        refine .inl ⟨heq ▸ hafter, fun d hd => ?_⟩
        rcases List.mem_cons.mp hd with rfl | hd
        · exact hkept
        · exact hnone d hd
      | written e' v' he' hk' hv' _ hwritten =>
        obtain rfl := eq_of_key hids he he' hk hk'
        obtain rfl := Option.some.inj (hwritten.symm.trans hafter)
        exact .inr hv'
      | removed _ _ _ _ hgone => cases hgone.symm.trans hafter
    · exact .inr hvalue

/-- The last element stays, once it is there. -/
theorem contains_of_plays (hids : p.config.elements.Pairwise Element.Differs) {e : Element}
    (hlast : p.config.elements.getLast? = some e) (hk : p.key e = .ok key)
    (hplays : Plays q ds q') (hkeeps : q.Keeps p.custody (fun _ _ => True) t)
    (hgrants : p.custody.Grants t ds) (hthere : t.contains key = true) :
    (p.custody.afterAll t ds).contains key = true := by
  induction hplays generalizing t with
  | nil q => exact hthere
  | @cons f k r ds q' _ ih =>
    refine ih (hkeeps.2 r hgrants.1) hgrants.2 ?_
    rw [Std.ExtTreeMap.contains_eq_isSome_getElem?] at hthere ⊢
    cases treated_of_may (d := ⟨f, r⟩) hkeeps.1 key with
    | kept _ heq => rwa [heq]
    | written _ _ _ _ _ _ hwritten => exact Option.isSome_iff_exists.mpr ⟨_, hwritten⟩
    | removed a _ ha hka _ => exact absurd hka (key_ne_of_mem_dropLast hids hlast hk ha)

/-- Behind an ingest that came to its end, the last element is there. -/
theorem contains_of_ingested (hids : p.config.elements.Pairwise Element.Differs) {e : Element}
    (hlast : p.config.elements.getLast? = some e) (hk : p.key e = .ok key) {h : Handle} {n : Nat}
    {ds₁ ds₂ ds₃ : List Deed} (hplays : Plays p.work (ds₁ ++ (ds₂ ++ ds₃)) q)
    (hgrants : p.custody.Grants t (ds₁ ++ (ds₂ ++ ds₃)))
    (hingest : Plays (p.ingestAll h).run ds₂ (.done (.ok n))) :
    (p.custody.afterAll t (ds₁ ++ (ds₂ ++ ds₃))).contains key = true := by
  obtain ⟨hgrants₁, hgrants'⟩ := (Terms.grants_append _ _ _ _).mp hgrants
  obtain ⟨hgrants₂, hgrants₃⟩ := (Terms.grants_append _ _ _ _).mp hgrants'
  obtain ⟨q₁, hplays₁, hplays'⟩ := hplays.of_append
  obtain ⟨q₂, hplays₂, hplays₃⟩ := hplays'.of_append
  have hkeeps₁ := hplays₁.keeps hgrants₁ (work_custody t)
  have hkeeps₂ := hplays₂.keeps hgrants₂ hkeeps₁
  have hholds := hingest.result hgrants₂ (ingest_custody h (fun _ he => he) 0 _) ⟨n, rfl⟩
  rw [Terms.afterAll_append, Terms.afterAll_append]
  exact contains_of_plays hids hlast hk hplays₃ hkeeps₂ hgrants₃
    (hholds.1 e (List.mem_of_getLast? hlast) key hk)

end Partition

end GridBench
