/-
  GridBench.Proofs.Form.Sections

  A section is restored if each of its fields is: every entry that an edit has
  kept makes its field's change, the changes of different fields commute, and a
  field that was taken out would have changed nothing of the usual section.
-/
import Mathlib.Data.List.Nodup
import GridBench.Proofs.Form.Entries
import GridBench.Proofs.Form.Restores

namespace GridBench.Form

open GridBench.Yaml

/-- Every edit of what a field wrote for `c` is read as the change `p`, which changes nothing of
    the usual section if the edit keeps nothing. -/
structure FieldRestores (keep : List String → Bool) (admits : List String → Node → Prop)
    (c usual : σ) (reads : SectionField σ → Node → (σ → σ) → Prop) (f : SectionField σ)
    (p : σ → σ) : Prop where
  reads : ∀ n, Edited (under keep f.key) (under admits f.key) (Node.ofDatum (f.toDatum c)) n →
    reads f n p
  unkept : (∀ path, under keep f.key path = false) → p usual = usual

variable {keep : List String → Bool} {admits : List String → Node → Prop}

namespace FieldRestores

variable {c usual : σ} {depth level : Nat}

/-- A field whose shape restores its value. -/
theorem of_direct {key : String} {shape : Shape α} {get : σ → α} {set : α → σ → σ} {v : α}
    (h : Restores (under keep key) (under admits key) (shape.toDatum (get c))
      (direct level shape.ofNode) v (get usual)) (hset : set (get usual) usual = usual) :
    FieldRestores keep admits c usual (fun f => direct level f.ofNode)
      (.of key shape get set) (set v) where
  reads n hn d place hplace := by
    simp only [SectionField.of, h.reads n hn d place hplace, Except.map]
  unkept hkeep := by rw [h.unkept hkeep, hset]

theorem of_typed {key : String} {shape : Shape α} {get : σ → α} {set : α → σ → σ} {v : α}
    (h : Restores (under keep key) (under admits key) (shape.toDatum (get c))
      (typed depth shape.ofDatum) v (get usual)) (hset : set (get usual) usual = usual) :
    FieldRestores keep admits c usual (fun f => typed depth f.ofDatum)
      (.of key shape get set) (set v) where
  reads n hn d place := by
    obtain ⟨x, hx, hread⟩ := h.reads n hn d place
    exact ⟨x, hx, by simp only [SectionField.of, hread, Except.map]⟩
  unkept hkeep := by rw [h.unkept hkeep, hset]

end FieldRestores

theorem commute_iff {p q : σ → σ} : Function.Commute p q ↔ ∀ s, p (q s) = q (p s) := Iff.rfl

/-- Changes that commute with another one can be made before or after it. -/
theorem foldl_commute {ps : List (σ → σ)} {p : σ → σ} (h : ∀ q ∈ ps, Function.Commute p q) (s : σ) :
    ps.foldl (fun s p => p s) (p s) = p (ps.foldl (fun s p => p s) s) := by
  induction ps generalizing s with
  | nil => rfl
  | cons q ps ih =>
    rw [List.foldl_cons, List.foldl_cons, ← (h q (.head _)).eq s,
      ih fun q' hq' => h q' (.tail _ hq')]

/-- Changes that change nothing of a section do so together. -/
theorem foldl_fixed {ps : List (σ → σ)} {s : σ} (h : ∀ p ∈ ps, p s = s) :
    ps.foldl (fun s p => p s) s = s := by
  induction ps with
  | nil => rfl
  | cons p ps ih => rw [List.foldl_cons, h p (.head _), ih fun q hq => h q (.tail _ hq)]

/-- An entry that an edit has kept of a field: it stands under the field's key, and the field
    reads its change from it. -/
structure KeptEntry (fields : List (SectionField σ))
    (reads : SectionField σ → Node → (σ → σ) → Prop) (e : Node × Node) (c : Change σ) : Prop where
  key : e.1 = Node.text c.1.key
  mem : c.1 ∈ fields
  reads : reads c.1 e.2 c.2

theorem KeptEntry.mono {fields fields' : List (SectionField σ)}
    {reads : SectionField σ → Node → (σ → σ) → Prop} (h : ∀ f ∈ fields, f ∈ fields')
    {e : Node × Node} {c : Change σ} (he : KeptEntry fields reads e c) :
    KeptEntry fields' reads e c :=
  ⟨he.key, h _ he.mem, he.reads⟩

section

variable {fields : List (SectionField σ)} {puts : List (σ → σ)} {c usual : σ}
  {reads : SectionField σ → Node → (σ → σ) → Prop}

/-- The entries that are kept make the changes of some of the fields, and these make the same of
    the usual section as the changes of all fields do. -/
theorem EditedEntries.exists_sublist
    (hf : List.Forall₂ (FieldRestores keep admits c usual reads) fields puts)
    (hcomm : puts.Pairwise Function.Commute) {kept : List (Node × Node)}
    (h : EditedEntries keep admits (Node.ofEntries (Section.toPairs fields c)) kept) :
    ∃ cs : List (Change σ), cs.Sublist (fields.zip puts) ∧
      List.Forall₂ (KeptEntry fields reads) kept cs ∧
      applyAll cs usual = puts.foldl (fun s p => p s) usual := by
  -- Field by field.  The change of the first field is made before all others on both sides, and
  -- is moved behind them so that the others start from the usual section again.
  induction hf generalizing kept with
  | nil =>
    cases h
    exact ⟨[], .slnil, .nil, rfl⟩
  | @cons f p fields puts hfield hf ih =>
    obtain ⟨hp, hcomm⟩ := List.pairwise_cons.mp hcomm
    have hmono : ∀ {kept cs}, List.Forall₂ (KeptEntry fields reads) kept cs →
        List.Forall₂ (KeptEntry (f :: fields) reads) kept cs :=
      fun hk => hk.imp fun _ _ he => he.mono fun _ hg => .tail _ hg
    cases h with
    | @keep _ _ _ _ n _ kept hn hes =>
      obtain ⟨cs, hsub, hkept, heq⟩ := ih hcomm hes
      refine ⟨(f, p) :: cs, hsub.cons_cons _, .cons ⟨rfl, .head _, hfield.reads n hn⟩ (hmono hkept),
        ?_⟩
      have hcs : ∀ q ∈ cs.map Prod.snd, Function.Commute p q := by
        intro q hq
        obtain ⟨c', hc', rfl⟩ := List.mem_map.mp hq
        exact hp _ (List.of_mem_zip (hsub.subset hc')).2
      have hmap : ∀ s, applyAll cs s = (cs.map Prod.snd).foldl (fun s p => p s) s := by
        intro s
        rw [applyAll, List.foldl_map]
      rw [applyAll_cons, List.foldl_cons, foldl_commute hp, ← heq, hmap, hmap, foldl_commute hcs]
    | drop hdrop hes =>
      -- The change is missing on the left, and on the right it changes nothing.
      obtain ⟨cs, hsub, hkept, heq⟩ := ih hcomm hes
      exact ⟨cs, hsub.cons _, hmono hkept,
        by rw [List.foldl_cons, hfield.unkept hdrop, heq]⟩

/-- The keys of the changes of a section's fields. -/
theorem nodup_keys_of_sublist (hkeys : (fields.map (·.key)).Nodup)
    (hlen : fields.length = puts.length) {cs : List (Change σ)} (hsub : cs.Sublist (fields.zip puts)) :
    (cs.map (·.1.key)).Nodup := by
  have hzip : (fields.zip puts).map (·.1.key) = fields.map (·.key) := calc
    _ = ((fields.zip puts).map Prod.fst).map (·.key) := List.map_map.symm
    _ = fields.map (·.key) := by rw [List.map_fst_zip (Nat.le_of_eq hlen)]
  exact (hzip ▸ hkeys).sublist (hsub.map _)

/-- The changes of different fields commute with each other. -/
theorem commute_of_sublist (hcomm : puts.Pairwise Function.Commute) {cs : List (Change σ)}
    (hsub : cs.Sublist (fields.zip puts)) : ∀ c ∈ cs, ∀ c' ∈ cs, Function.Commute c.2 c'.2 := by
  have : Std.Symm (@Function.Commute σ) := ⟨fun _ _ h => h.symm⟩
  have hall := hcomm.forall_of_forall fun p _ => Function.Commute.refl p
  intro c hc c' hc'
  exact hall (List.of_mem_zip (hsub.subset hc)).2 (List.of_mem_zip (hsub.subset hc')).2

/-- What is kept of a section's entries makes the same of the usual section as the changes of all
    its fields do, in whatever order the changes are made. -/
theorem EditedEntries.exists_changes
    (hf : List.Forall₂ (FieldRestores keep admits c usual reads) fields puts)
    (hkeys : (fields.map (·.key)).Nodup) (hcomm : puts.Pairwise Function.Commute)
    {kept : List (Node × Node)}
    (h : EditedEntries keep admits (Node.ofEntries (Section.toPairs fields c)) kept) :
    ∃ cs : List (Change σ), List.Forall₂ (KeptEntry fields reads) kept cs ∧
      ∀ cs', cs.Perm cs' → (cs'.map (·.1.key)).Nodup ∧
        applyAll cs' usual = puts.foldl (fun s p => p s) usual := by
  obtain ⟨cs, hsub, hkept, heq⟩ := h.exists_sublist hf hcomm
  refine ⟨cs, hkept, fun cs' hperm => ⟨?_, ?_⟩⟩
  · exact (hperm.map _).nodup_iff.mp (nodup_keys_of_sublist hkeys hf.length_eq hsub)
  · rw [← applyAll_perm hperm (commute_of_sublist hcomm hsub), heq]

theorem ofEntries_append (es₁ es₂ : List (Datum × Datum)) :
    Node.ofEntries (es₁ ++ es₂) = Node.ofEntries es₁ ++ Node.ofEntries es₂ := by
  induction es₁ with
  | nil => rfl
  | cons e es₁ ih => exact congrArg (_ :: ·) ih

theorem mem_ofEntries {k v : Datum} {es : List (Datum × Datum)} (h : (k, v) ∈ es) :
    (Node.ofDatum k, Node.ofDatum v) ∈ Node.ofEntries es := by
  induction es with
  | nil => cases h
  | cons e es ih =>
    cases h with
    | head => exact .head _
    | tail _ h => exact .tail _ (ih h)

theorem NewEntry.exists_scalar {admits : Node → Prop} {es : List (Node × Node)} {k n : Node}
    (h : NewEntry admits es (k, n)) : ∃ s, k = .scalar s := by
  cases h
  exact ⟨_, rfl⟩

/-- A new entry of a written table stands under no key of its fields. -/
theorem NewEntry.not_mem {s : Scalar} {n : Node} {es : List (Datum × Datum)}
    (h : NewEntry (admits []) (Node.ofEntries es) (.scalar s, n))
    (hes : ∀ e ∈ Section.toPairs fields c, e ∈ es) : s.text ∉ fields.map (·.key) := by
  intro hmem
  obtain ⟨f, hf, hkey⟩ := List.mem_map.mp hmem
  cases h with
  | intro _ _ unknown _ =>
    have hentry : (Datum.text f.key, f.toDatum c) ∈ es :=
      hes _ (List.mem_map_of_mem (f := fun f => (Datum.text f.key, f.toDatum c)) hf)
    have hkeyed := List.any_eq_false.mp unknown _ (mem_ofEntries hentry)
    simp [Node.ofDatum, Node.text, hkey] at hkeyed

/-- An edited section is a table; its entries, however they are read one by one, make together
    what the changes of all fields make of the usual section. -/
theorem Edited.exists_reading {R : Node × Node → Option (Change σ) → Prop}
    (hf : List.Forall₂ (FieldRestores keep admits c usual reads) fields puts)
    (hkeys : (fields.map (·.key)).Nodup) (hcomm : puts.Pairwise Function.Commute)
    (hknown : ∀ e c, KeptEntry fields reads e c → R e (some c))
    (hnew : ∀ s m, Section.find? fields s.text = none →
      NewEntry (admits []) (Node.ofEntries (Section.toPairs fields c)) (.scalar s, m) →
      R (.scalar s, m) none)
    {n : Node} (hn : Edited keep admits (Node.ofDatum (.table (Section.toPairs fields c))) n) :
    ∃ es ms, n = .table none es ∧ List.Forall₂ R es ms ∧ (ms.reduceOption.map (·.1.key)).Nodup ∧
      applyAll ms.reduceOption usual = puts.foldl (fun s p => p s) usual := by
  rw [Node.ofDatum] at hn
  cases hn with
  | leaf hleaf => cases hleaf
  | @table _ _ _ kept es new hkept hadded hperm =>
    obtain ⟨cs, hentries, hall⟩ := hkept.exists_changes hf hkeys hcomm
    have hmarks : List.Forall₂ R kept (cs.map some) :=
      List.forall₂_map_right_iff.mpr (hentries.imp hknown)
    have hblank : ∀ e ∈ new, R e none := by
      intro e he
      have hentry := hadded e he
      cases e with
      | mk k m =>
        obtain ⟨s, rfl⟩ := hentry.exists_scalar
        exact hnew s m (Section.find?_eq_none (hentry.not_mem fun _ h => h)) hentry
    obtain ⟨ms, hms, hperm⟩ := exists_marks hmarks hblank hperm
    have hcs : cs.Perm ms.reduceOption := by
      have := hperm.filterMap id
      simpa [List.reduceOption] using this
    exact ⟨es, ms, rfl, hms, hall _ hcs⟩

end

/-- What may be put into a section is a tree of scalars for which there is room. -/
def Roomy (depth : Nat) (admits : List String → Node → Prop) : Prop :=
  ∀ path n, admits path n → Buffer.fits (depth - path.length) n

theorem Roomy.under {depth : Nat} (h : Roomy (depth + 1) admits) (key : String) :
    Roomy depth (under admits key) := by
  intro path n hn
  simpa [Nat.add_sub_add_right] using h (key :: path) n hn

section

variable {fields : List (SectionField σ)} {d : Document} {place : Place} {depth level : Nat}

theorem KeptEntry.entryReads {e : Node × Node} {c : Change σ} (hkeys : (fields.map (·.key)).Nodup)
    (hplace : place.length = level)
    (he : KeptEntry fields (fun f => direct (level + 1) f.ofNode) e c) :
    Section.EntryReads fields d place e (some c) := by
  obtain ⟨k, m⟩ := e
  obtain rfl : k = _ := he.key
  exact .known (Section.find?_key hkeys he.mem) (he.reads d _ (by rw [List.length_cons, hplace]))

theorem KeptEntry.typedReads {e : Node × Node} {c : Change σ} (hkeys : (fields.map (·.key)).Nodup)
    (he : KeptEntry fields (fun f => typed depth f.ofDatum) e c) :
    Section.TypedReads fields d depth place e (some c) := by
  obtain ⟨k, m⟩ := e
  obtain rfl : k = _ := he.key
  obtain ⟨x, hx, hread⟩ := he.reads d (.key c.1.key :: place)
  exact .intro rfl (value_text _) hx (.known (Section.find?_key hkeys he.mem) hread)

theorem NewEntry.typedReads {es : List (Node × Node)} {s : Scalar} {m : Node}
    (hroom : Roomy depth admits) (hfind : Section.find? fields s.text = none)
    (h : NewEntry (admits []) es (.scalar s, m)) :
    Section.TypedReads fields d depth place (.scalar s, m) none := by
  cases h with
  | intro untagged isText _ admitted =>
    obtain ⟨x, hx⟩ := Buffer.node_of_fits d (hroom [] m admitted) (.key s.text :: place)
    exact .intro untagged isText hx (.unknown hfind)

end

section

variable {f : Flattened σ ι} {d : Document} {place : Place} {depth level : Nat}

/-- An entry kept of the section inside. -/
theorem KeptEntry.ofInner {e : Node × Node} {c : Change ι}
    (hdepth : depthLimit - (place.length + 1) = depth)
    (hkeys : (f.inner.map (·.key) ++ f.own.map (·.key)).Nodup)
    (he : KeptEntry f.inner (fun g => typed depth g.ofDatum) e c) :
    f.EntryReads d place e (none, some c) := by
  subst hdepth
  obtain ⟨hkeysInner, -, hdisjoint⟩ := List.nodup_append'.mp hkeys
  have hread : Section.TypedReads f.inner d _ place e (some c) := he.typedReads hkeysInner
  obtain ⟨k, m⟩ := e
  obtain rfl : k = _ := he.key
  have hother := Section.find?_eq_none (hdisjoint (List.mem_map_of_mem he.mem))
  exact .other hother hread

/-- An entry kept of the section's own fields. -/
theorem KeptEntry.ofOwn {e : Node × Node} {c : Change σ} (hplace : place.length = level)
    (hkeys : (f.own.map (·.key)).Nodup)
    (he : KeptEntry f.own (fun g => direct (level + 1) g.ofNode) e c) :
    f.EntryReads d place e (some c, none) := by
  cases he.entryReads (d := d) hkeys hplace with
  | known hfind hread => exact .own hfind hread

/-- An entry that neither section knows. -/
theorem NewEntry.ofNeither {e : Node × Node} {c : σ}
    (hdepth : depthLimit - (place.length + 1) = depth) (hroom : Roomy depth admits)
    (h : NewEntry (admits []) (Node.ofEntries
      (Section.toPairs f.inner (f.get c) ++ Section.toPairs f.own c)) e) :
    f.EntryReads d place e (none, none) := by
  subst hdepth
  obtain ⟨k, m⟩ := e
  obtain ⟨s, rfl⟩ := h.exists_scalar
  have hinner := h.not_mem fun e he => List.mem_append_left _ he
  have hown := h.not_mem fun e he => List.mem_append_right _ he
  exact .other (Section.find?_eq_none hown)
    (h.typedReads hroom (Section.find?_eq_none hinner))

end

namespace Restores

variable {name : String} {fields : List (SectionField σ)} {puts : List (σ → σ)} {c usual v : σ}
  {depth level : Nat}

theorem unkept_of_fields {reads : SectionField σ → Node → (σ → σ) → Prop}
    (hf : List.Forall₂ (FieldRestores keep admits c usual reads) fields puts)
    (hkeep : ∀ path, keep path = false) : puts.foldl (fun s p => p s) usual = usual := by
  refine foldl_fixed fun p hp => ?_
  induction hf with
  | nil => cases hp
  | cons hfield _ ih =>
    cases hp with
    | head => exact hfield.unkept fun path => hkeep _
    | tail _ hp => exact ih hp

/-- A section that is read where it stands. -/
theorem section_direct
    (hf : List.Forall₂
      (FieldRestores keep admits c usual fun f => direct (level + 1) f.ofNode) fields puts)
    (hkeys : (fields.map (·.key)).Nodup) (hcomm : puts.Pairwise Function.Commute)
    (hv : puts.foldl (fun s p => p s) usual = v) :
    Restores keep admits ((Shape.section name fields usual).toDatum c)
      (direct level (Shape.section name fields usual).ofNode) v usual where
  reads n hn := by
    intro d place hplace
    obtain ⟨es, ms, rfl, hms, hnodup, heq⟩ :=
      hn.exists_reading (R := Section.EntryReads fields d place) hf hkeys hcomm
        (fun _ _ he => he.entryReads hkeys hplace) (fun _ _ hfind _ => .unknown hfind)
    rw [← hv, ← heq]
    exact Section.ofEntries_eq hms (.of_nodup hnodup) usual
  unkept hkeep := hv ▸ unkept_of_fields hf hkeep

/-- A section that is read after it was given its type. -/
theorem section_typed (hroom : Roomy depth admits)
    (hf : List.Forall₂
      (FieldRestores keep admits c usual fun f => typed depth f.ofDatum) fields puts)
    (hkeys : (fields.map (·.key)).Nodup) (hcomm : puts.Pairwise Function.Commute)
    (hv : puts.foldl (fun s p => p s) usual = v) :
    Restores keep admits ((Shape.section name fields usual).toDatum c)
      (typed (depth + 1) (Shape.section name fields usual).ofDatum) v usual where
  reads n hn := by
    intro d place
    obtain ⟨es, ms, rfl, hms, hnodup, heq⟩ :=
      hn.exists_reading (R := Section.TypedReads fields d depth place) hf hkeys hcomm
        (fun _ _ he => he.typedReads hkeys) (fun _ _ hfind hentry => hentry.typedReads hroom hfind)
    obtain ⟨vs, hvs, hpairs⟩ := Section.entries_of_typed hms
    refine ⟨.table vs, ?_, ?_⟩
    · exact Buffer.node_table d rfl hvs
    · rw [← hv, ← heq]
      exact Section.ofPairs_eq hpairs (.of_nodup hnodup) usual
  unkept hkeep := hv ▸ unkept_of_fields hf hkeep

/-- A section that is read where it stands, except that the section inside it is read after its
    entries were given their types. -/
theorem flattened_direct {f : Flattened σ ι} {c : σ} {own : List (σ → σ)} {inner : List (ι → ι)}
    (hdepth : depthLimit - (level + 1) = depth) (hroom : Roomy depth admits)
    (hinner : List.Forall₂
      (FieldRestores keep admits (f.get c) f.innerStart fun g => typed depth g.ofDatum) f.inner inner)
    (hown : List.Forall₂
      (FieldRestores keep admits c f.start fun g => direct (level + 1) g.ofNode) f.own own)
    (hkeys : (f.inner.map (·.key) ++ f.own.map (·.key)).Nodup)
    (hcommInner : inner.Pairwise Function.Commute) (hcommOwn : own.Pairwise Function.Commute)
    (hset : f.set f.innerStart f.start = f.start)
    (hv : f.set (inner.foldl (fun s p => p s) f.innerStart) (own.foldl (fun s p => p s) f.start) = v) :
    Restores keep admits (f.shape.toDatum c) (direct level f.shape.ofNode) v f.start where
  reads n hn := by
    intro d place hplace
    subst hdepth hplace
    obtain ⟨hkeysInner, hkeysOwn, -⟩ := List.nodup_append'.mp hkeys
    replace hn : Edited keep admits (.table none (Node.ofEntries
      (Section.toPairs f.inner (f.get c) ++ Section.toPairs f.own c))) n := hn
    cases hn with
    | leaf hleaf => cases hleaf
    | @table _ _ _ kept es new hkept hadded hperm =>
      rw [ofEntries_append] at hkept
      obtain ⟨kept₁, kept₂, rfl, hkept₁, hkept₂⟩ := hkept.append_inv
      obtain ⟨cs₁, hentries₁, hall₁⟩ := hkept₁.exists_changes hinner hkeysInner hcommInner
      obtain ⟨cs₂, hentries₂, hall₂⟩ := hkept₂.exists_changes hown hkeysOwn hcommOwn
      have hmarks₁ : List.Forall₂ (Flattened.EntryReads f d place) kept₁
          (cs₁.map fun c => (none, some c)) :=
        List.forall₂_map_right_iff.mpr (hentries₁.imp fun _ _ he => he.ofInner rfl hkeys)
      have hmarks₂ : List.Forall₂ (Flattened.EntryReads f d place) kept₂
          (cs₂.map fun c => (some c, none)) :=
        List.forall₂_map_right_iff.mpr (hentries₂.imp fun _ _ he => he.ofOwn rfl hkeysOwn)
      have hblank : ∀ e ∈ new, Flattened.EntryReads f d place e (none, none) :=
        fun e he => (hadded e he).ofNeither rfl hroom
      obtain ⟨ms, hms, hperm⟩ := exists_marks (List.rel_append hmarks₁ hmarks₂) hblank hperm
      -- The order of the file is one order for both sections; each sees its own part of it.
      obtain ⟨hnodup₁, heq₁⟩ := hall₁ (ms.filterMap Prod.snd) (by
        simpa using hperm.filterMap Prod.snd)
      obtain ⟨hnodup₂, heq₂⟩ := hall₂ (ms.filterMap Prod.fst) (by
        simpa using hperm.filterMap Prod.fst)
      rw [← hv, ← heq₁, ← heq₂]
      exact Flattened.ofEntries_eq hms hnodup₂ hnodup₁ f.start
  unkept hkeep := by
    rw [← hv, unkept_of_fields hinner hkeep, unkept_of_fields hown hkeep, hset]

end Restores

end GridBench.Form
