/-
  GridBench.Proofs.Form.Entries

  What the entries of a table make of a section, in whatever order they stand:
  an entry under a field's key makes the change it was read as, any other
  entry makes none.  An entry is read in one of three ways: where it stands,
  after it was given its type, or, in a section with another one inside it, in
  either of these ways.
-/
import Mathlib.Data.List.Forall2
import Mathlib.Data.List.Pairwise
import Mathlib.Data.List.Perm.Basic
import Mathlib.Data.List.ReduceOption
import Mathlib.Logic.Function.Conjugate
import GridBench.Proofs.Form.Edited

namespace GridBench.Form

open GridBench.Yaml

/-- A field, and the change that an entry under its key makes. -/
abbrev Change (σ : Type) := SectionField σ × (σ → σ)

/-- Makes one change after the other. -/
def applyAll (cs : List (Change σ)) (s : σ) : σ := cs.foldl (fun s c => c.2 s) s

theorem applyAll_cons (c : Change σ) (cs : List (Change σ)) (s : σ) :
    applyAll (c :: cs) s = applyAll cs (c.2 s) := rfl

/-- The order of changes that commute does not matter. -/
theorem applyAll_perm {cs cs' : List (Change σ)} (h : cs.Perm cs')
    (hcomm : ∀ c ∈ cs, ∀ c' ∈ cs, Function.Commute c.2 c'.2) (s : σ) :
    applyAll cs s = applyAll cs' s :=
  h.foldl_eq' (fun c hc c' hc' s => (hcomm c' hc' c hc).eq s) s

/-- Lists that are related entry by entry stay so when new entries are put in, related to a blank,
    and the entries change places. -/
theorem exists_marks {α β : Type} {R : α → β → Prop} {kept new es : List α} {ms : List β} {blank : β}
    (hkept : List.Forall₂ R kept ms) (hnew : ∀ e ∈ new, R e blank) (hperm : (kept ++ new).Perm es) :
    ∃ ms', List.Forall₂ R es ms' ∧ (ms ++ List.replicate new.length blank).Perm ms' := by
  have hblank : List.Forall₂ R new (List.replicate new.length blank) := by
    clear hperm
    induction new with
    | nil => exact .nil
    | cons e new ih => exact .cons (hnew e (.head _)) (ih fun m hm => hnew m (.tail _ hm))
  obtain ⟨ms', hms', hperm'⟩ := List.perm_comp_forall₂ hperm.symm (List.rel_append hkept hblank)
  exact ⟨ms', hms', hperm'.symm⟩

/-- The changes are of different fields, none of whose keys has been met. -/
def Fresh (cs : List (Change σ)) (seen : List String) : Prop :=
  (cs.map (·.1.key)).Nodup ∧ ∀ c ∈ cs, c.1.key ∉ seen

theorem Fresh.of_nodup {cs : List (Change σ)} (h : (cs.map (·.1.key)).Nodup) : Fresh cs [] :=
  ⟨h, fun _ _ => List.not_mem_nil⟩

theorem Fresh.head {c : Change σ} {cs : List (Change σ)} {seen : List String}
    (h : Fresh (c :: cs) seen) : c.1.key ∉ seen :=
  h.2 c (.head _)

theorem Fresh.tail {c : Change σ} {cs : List (Change σ)} {seen : List String}
    (h : Fresh (c :: cs) seen) : Fresh cs (c.1.key :: seen) := by
  obtain ⟨hout, hnodup⟩ := List.nodup_cons.mp h.1
  refine ⟨hnodup, fun c' hc' hmem => ?_⟩
  rcases List.mem_cons.mp hmem with heq | hmem
  · exact hout (List.mem_map.mpr ⟨c', hc', heq⟩)
  · exact h.2 c' (.tail _ hc') hmem

namespace Section

variable {fields : List (SectionField σ)} {d : Document} {place : Place}

theorem find?_eq_some {f : SectionField σ} {key : String} (h : find? fields key = some f) :
    f ∈ fields ∧ f.key = key := by
  refine ⟨List.mem_of_find?_eq_some h, ?_⟩
  simpa using List.find?_some h

/-- A field is found under its key if no two fields share one. -/
theorem find?_key {f : SectionField σ} (hnodup : (fields.map (·.key)).Nodup) (hf : f ∈ fields) :
    find? fields f.key = some f := by
  induction fields with
  | nil => cases hf
  | cons g fields ih =>
    obtain ⟨hg, hnodup⟩ := List.nodup_cons.mp hnodup
    cases hf with
    | head => simp [find?]
    | tail _ hf =>
      have hne : g.key ≠ f.key := fun heq => hg (List.mem_map.mpr ⟨f, hf, heq.symm⟩)
      rw [find?, List.find?_cons_of_neg (by simpa using hne)]
      exact ih hnodup hf

theorem find?_eq_none {key : String} (h : key ∉ fields.map (·.key)) : find? fields key = none := by
  refine List.find?_eq_none.mpr fun f hf => ?_
  rw [decide_eq_true_eq]
  rintro rfl
  exact h (List.mem_map_of_mem hf)

/-! ## Entries read where they stand -/

/-- What an entry of a table makes of a section: the change its field reads from it, or nothing. -/
inductive EntryReads (fields : List (SectionField σ)) (d : Document) (place : Place) :
    Node × Node → Option (Change σ) → Prop
  | known {s : Scalar} {n : Node} {f : SectionField σ} {p : σ → σ}
      (hfind : find? fields s.text = some f) (hread : f.ofNode d (.key s.text :: place) n = .ok p) :
      EntryReads fields d place (.scalar s, n) (some (f, p))
  | unknown {s : Scalar} {n : Node} (hfind : find? fields s.text = none) :
      EntryReads fields d place (.scalar s, n) none

/-- Entries whose fields come once each make their changes. -/
theorem ofEntries_eq {es : List (Node × Node)} {ms : List (Option (Change σ))}
    (h : List.Forall₂ (EntryReads fields d place) es ms) {seen : List String}
    (hfresh : Fresh ms.reduceOption seen) (s : σ) :
    ofEntries fields d place es seen s = .ok (applyAll ms.reduceOption s) := by
  -- Along the entries, with the keys met so far; `Fresh` says that the check for a key that
  -- comes again never strikes.
  induction h generalizing seen s with
  | nil => rfl
  | cons hread _ ih =>
    cases hread with
    | @known k n f p hfind hread =>
      rw [List.reduceOption_cons_of_some] at hfresh ⊢
      have hkey : f.key = k.text := (find?_eq_some hfind).2
      have hnew : k.text ∉ seen := hkey ▸ hfresh.head
      simp only [ofEntries, keyOfNode, Document.follow_scalar, bind, Except.bind, hfind,
        List.contains_eq_mem, hnew, decide_false, Bool.false_eq_true, if_false, Buffer.stepOf,
        hread, Except.mapError]
      exact ih (hkey ▸ hfresh.tail) _
    | unknown hfind =>
      rw [List.reduceOption_cons_of_none] at hfresh ⊢
      simp only [ofEntries, keyOfNode, Document.follow_scalar, bind, Except.bind, hfind]
      exact ih hfresh s

/-! ## Entries that were given their types -/

/-- What an entry of a typed table makes of a section. -/
inductive PairReads (fields : List (SectionField σ)) : Datum × Datum → Option (Change σ) → Prop
  | known {key : String} {v : Datum} {f : SectionField σ} {p : σ → σ}
      (hfind : find? fields key = some f) (hread : f.ofDatum .buffered v = .ok p) :
      PairReads fields (.text key, v) (some (f, p))
  | unknown {key : String} {v : Datum} (hfind : find? fields key = none) :
      PairReads fields (.text key, v) none

theorem ofPairs_eq {es : List (Datum × Datum)} {ms : List (Option (Change σ))}
    (h : List.Forall₂ (PairReads fields) es ms) {seen : List String}
    (hfresh : Fresh ms.reduceOption seen) (s : σ) :
    ofPairs fields .buffered es seen s = .ok (applyAll ms.reduceOption s) := by
  induction h generalizing seen s with
  | nil => rfl
  | cons hread _ ih =>
    cases hread with
    | @known key v f p hfind hread =>
      rw [List.reduceOption_cons_of_some] at hfresh ⊢
      simp only [ofPairs, fieldOfKey, bind, Except.bind, hfind, List.contains_eq_mem, hfresh.head,
        decide_false, Bool.false_eq_true, if_false, hread]
      exact ih hfresh.tail _
    | unknown hfind =>
      rw [List.reduceOption_cons_of_none] at hfresh ⊢
      simp only [ofPairs, fieldOfKey, bind, Except.bind, hfind]
      exact ih hfresh s

/-- An entry of a table makes what it makes of a section once it has its type. -/
inductive TypedReads (fields : List (SectionField σ)) (d : Document) (depth : Nat) (place : Place) :
    Node × Node → Option (Change σ) → Prop
  | intro {s : Scalar} {n : Node} {v : Datum} {m : Option (Change σ)}
      (untagged : Tag.localName? s.tag = none) (isText : s.value = .ok (.text s.text))
      (htyped : Buffer.node d depth (.key s.text :: place) n 0 = .ok (v, 0))
      (hpair : PairReads fields (.text s.text, v) m) :
      TypedReads fields d depth place (.scalar s, n) m

theorem entries_of_typed {depth : Nat} {es : List (Node × Node)} {ms : List (Option (Change σ))}
    (h : List.Forall₂ (TypedReads fields d depth place) es ms) :
    ∃ vs, Buffer.entries (Buffer.node d depth) place es 0 = .ok (vs, 0) ∧
      List.Forall₂ (PairReads fields) vs ms := by
  induction h with
  | nil => exact ⟨[], rfl, .nil⟩
  | cons hread _ ih =>
    obtain ⟨vs, hvs, hpairs⟩ := ih
    cases hread with
    | @intro k n v m untagged isText htyped hpair =>
      have hkey : Buffer.node d depth place (.scalar k) 0 = .ok (.text k.text, 0) := by
        simp only [Buffer.node_scalar, Buffer.ofScalar, untagged, isText, Except.map]
      refine ⟨(.text k.text, v) :: vs, ?_, .cons hpair hpairs⟩
      simp only [Buffer.entries, hkey, Buffer.stepOf, htyped, hvs]

end Section

/-! ## A section with another one inside it -/

namespace Flattened

open Section

variable {f : Flattened σ ι} {d : Document} {place : Place}

/-- What an entry makes of the enclosing section, read where it stands, or of the inner one,
    read after it was given its type. -/
inductive EntryReads (f : Flattened σ ι) (d : Document) (place : Place) :
    Node × Node → Option (Change σ) × Option (Change ι) → Prop
  | own {s : Scalar} {n : Node} {g : SectionField σ} {p : σ → σ}
      (hfind : find? f.own s.text = some g) (hread : g.ofNode d (.key s.text :: place) n = .ok p) :
      EntryReads f d place (.scalar s, n) (some (g, p), none)
  | other {s : Scalar} {n : Node} {m : Option (Change ι)} (hfind : find? f.own s.text = none)
      (hread : TypedReads f.inner d (depthLimit - (place.length + 1)) place (.scalar s, n) m) :
      EntryReads f d place (.scalar s, n) (none, m)

/-- The entries that are none of the inner section's change nothing of it. -/
theorem filter_isInner {es : List (Datum × Datum)} {ms : List (Option (Change ι))}
    (h : List.Forall₂ (PairReads f.inner) es ms) :
    ∃ ms', List.Forall₂ (PairReads f.inner) (es.filter fun e => f.isInner e.1) ms' ∧
      ms'.reduceOption = ms.reduceOption := by
  induction h with
  | nil => exact ⟨[], .nil, rfl⟩
  | cons hread _ ih =>
    obtain ⟨ms', hms', heq⟩ := ih
    cases hread with
    | @known key v g p hfind hread =>
      refine ⟨some (g, p) :: ms', ?_, ?_⟩
      · rw [List.filter_cons_of_pos (by simp [isInner, hfind])]
        exact .cons (.known hfind hread) hms'
      · rw [List.reduceOption_cons_of_some, List.reduceOption_cons_of_some, heq]
    | unknown hfind =>
      refine ⟨ms', ?_, ?_⟩
      · rw [List.filter_cons_of_neg (by simp [isInner, hfind])]
        exact hms'
      · rw [List.reduceOption_cons_of_none, heq]

theorem finish_eq {es : List (Datum × Datum)} {ms : List (Option (Change ι))}
    (h : List.Forall₂ (PairReads f.inner) es ms)
    (hnodup : (ms.reduceOption.map (·.1.key)).Nodup) (s : σ) :
    f.finish s es = .ok (f.set (applyAll ms.reduceOption f.innerStart) s) := by
  obtain ⟨ms', hms', heq⟩ := filter_isInner h
  have hfresh : Fresh ms'.reduceOption [] := heq ▸ .of_nodup hnodup
  simp only [finish, bind, Except.bind, ofPairs_eq hms' hfresh, heq]

/-- The entries of the enclosing section make their changes while the others get their types. -/
theorem ofEntries_eq_finish {es : List (Node × Node)}
    {ms : List (Option (Change σ) × Option (Change ι))}
    (h : List.Forall₂ (EntryReads f d place) es ms) {seen : List String}
    (hfresh : Fresh (ms.filterMap Prod.fst) seen) (others : List (Datum × Datum)) (s : σ) :
    ∃ vs ns, List.Forall₂ (PairReads f.inner) vs ns ∧
      ns.reduceOption = ms.filterMap Prod.snd ∧
      f.ofEntries d place es seen others 0 s =
        (f.finish (applyAll (ms.filterMap Prod.fst) s) (others.reverse ++ vs)).mapError
          (.misfit (some place)) := by
  induction h generalizing seen others s with
  | nil => exact ⟨[], [], .nil, rfl, by simp [ofEntries, applyAll]⟩
  | cons hread _ ih =>
    cases hread with
    | @own k n g p hfind hread =>
      simp only [List.filterMap_cons] at hfresh ⊢
      have hkey : g.key = k.text := (find?_eq_some hfind).2
      have hnew : k.text ∉ seen := hkey ▸ hfresh.head
      obtain ⟨vs, ns, hvs, hns, heq⟩ := ih (hkey ▸ hfresh.tail) others (p s)
      refine ⟨vs, ns, hvs, hns, ?_⟩
      simp only [ofEntries, keyOfNode, Document.follow_scalar, bind, Except.bind, hfind,
        List.contains_eq_mem, hnew, decide_false, Bool.false_eq_true, if_false, Buffer.stepOf,
        hread, Except.mapError]
      exact heq
    | @other k n m hfind hread =>
      -- The typed entry goes in front of those met so far, which are kept the last one first.
      cases hread with
      | @intro _ _ v _ untagged isText htyped hpair =>
        simp only [List.filterMap_cons] at hfresh ⊢
        obtain ⟨vs, ns, hvs, hns, heq⟩ := ih hfresh ((.text k.text, v) :: others) s
        refine ⟨(.text k.text, v) :: vs, m :: ns, .cons hpair hvs, ?_, ?_⟩
        · cases m with
          | none => rw [List.reduceOption_cons_of_none, hns]
          | some c => rw [List.reduceOption_cons_of_some, hns]
        · simp only [ofEntries, keyOfNode, Document.follow_scalar, bind, Except.bind, hfind,
            Buffer.stepOf, List.length_cons, htyped]
          simpa using heq

/-- The whole section: what its own fields make of it, and the inner section made of the others. -/
theorem ofEntries_eq {es : List (Node × Node)} {ms : List (Option (Change σ) × Option (Change ι))}
    (h : List.Forall₂ (EntryReads f d place) es ms)
    (hown : ((ms.filterMap Prod.fst).map (·.1.key)).Nodup)
    (hinner : ((ms.filterMap Prod.snd).map (·.1.key)).Nodup) (s : σ) :
    f.ofEntries d place es [] [] 0 s =
      .ok (f.set (applyAll (ms.filterMap Prod.snd) f.innerStart)
        (applyAll (ms.filterMap Prod.fst) s)) := by
  obtain ⟨vs, ns, hvs, hns, heq⟩ := ofEntries_eq_finish h (.of_nodup hown) [] s
  rw [heq, List.reverse_nil, List.nil_append, finish_eq hvs (hns ▸ hinner), hns, Except.mapError]

end Flattened

end GridBench.Form
