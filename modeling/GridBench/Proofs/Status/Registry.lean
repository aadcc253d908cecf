/-
  GridBench.Proofs.Status.Registry

  The registry after any number of registrations.  A registration goes to its
  place among the others and takes that of the one before it of its kind and
  source (`Registration.Sorted.insertInto`, `Registration.find?_insertInto`), so
  that looking up a kind and source finds the last registration of them
  (`Registry.find?_registerAll`), and a registry is known by what is found in it
  (`Registration.Sorted.eq_of_find?`).  Main statement (`Registry.views_agree`):
  the list of runs, the progress of a single run and the document tell the same.
-/
import Mathlib.Data.List.Induction
import GridBench.Status.Registry
import GridBench.Proofs.Json.Members

namespace GridBench

theorem LoopKind.name_inj {k k' : LoopKind} : k.name = k'.name ↔ k = k' := by
  cases k <;> cases k' <;> decide

namespace Registration

variable {α : Type} {r a b : Registration α} {runs runs' : List (Registration α)}
  {kind : LoopKind} {source : String}

/-- Whether a registration is for a kind and source. -/
def isFor (kind : LoopKind) (source : String) (r : Registration α) : Bool :=
  r.kind = kind && r.source = source

theorem isFor_iff : r.isFor kind source = true ↔ r.kind = kind ∧ r.source = source := by
  simp [isFor]

theorem sameRun_iff : a.sameRun b = true ↔ a.kind = b.kind ∧ a.source = b.source := by
  simp [sameRun]

/-! ## The order of registrations -/

theorem before_iff : a.before b = true ↔
    a.kind.name < b.kind.name ∨ a.kind.name = b.kind.name ∧ a.source < b.source := by
  simp [before, LoopKind.name_inj]

theorem before_trans {c : Registration α} (hab : a.before b = true) (hbc : b.before c = true) :
    a.before c = true := by
  rw [before_iff] at *
  rcases hab with hab | ⟨hab, hab'⟩
  · rcases hbc with hbc | ⟨hbc, -⟩
    · exact .inl (hab.trans hbc)
    · exact .inl (hbc ▸ hab)
  · rcases hbc with hbc | ⟨hbc, hbc'⟩
    · exact .inl (hab ▸ hbc)
    · exact .inr ⟨hab.trans hbc, hab'.trans hbc'⟩

theorem not_sameRun_of_before (h : a.before b = true) : ¬ a.sameRun b = true := by
  rw [before_iff] at h
  rintro hsame
  obtain ⟨hkind, hsource⟩ := sameRun_iff.mp hsame
  rcases h with h | ⟨-, h⟩
  · exact absurd (congrArg LoopKind.name hkind) h.ne
  · exact absurd hsource h.ne

/-- Of two registrations that are not for the same kind and source, one comes first. -/
theorem before_of_not_before (hsame : ¬ a.sameRun b = true) (h : ¬ a.before b = true) :
    b.before a = true := by
  rw [before_iff] at *
  rw [sameRun_iff] at hsame
  rcases lt_trichotomy a.kind.name b.kind.name with hkind | hkind | hkind
  · exact absurd (.inl hkind) h
  · rcases lt_trichotomy a.source b.source with hsource | hsource | hsource
    · exact absurd (.inr ⟨hkind, hsource⟩) h
    · exact absurd ⟨LoopKind.name_inj.mp hkind, hsource⟩ hsame
    · exact .inr ⟨hkind.symm, hsource⟩
  · exact .inl hkind

/-- Whether registrations are listed in increasing order. -/
def Sorted (runs : List (Registration α)) : Prop := runs.Pairwise fun a b => a.before b = true

theorem eq_or_mem_of_mem_insertInto (h : a ∈ r.insertInto runs) : a = r ∨ a ∈ runs := by
  fun_induction insertInto r runs with
  | case1 => exact .inl (List.mem_singleton.mp h)
  | case2 s rest hsame => exact (List.mem_cons.mp h).imp_right (List.mem_cons_of_mem s)
  | case3 s rest hsame hbefore => exact List.mem_cons.mp h
  | case4 s rest hsame hbefore ih =>
    rcases List.mem_cons.mp h with rfl | h
    · exact .inr List.mem_cons_self
    · exact (ih h).imp_right (List.mem_cons_of_mem s)

theorem Sorted.insertInto (h : Sorted runs) (r : Registration α) : Sorted (r.insertInto runs) := by
  fun_induction Registration.insertInto r runs with
  | case1 => exact List.pairwise_singleton _ _
  | case2 s rest hsame =>
    obtain ⟨hfirst, hrest⟩ := List.pairwise_cons.mp h
    refine List.pairwise_cons.mpr ⟨fun a ha => ?_, hrest⟩
    obtain ⟨hkind, hsource⟩ := sameRun_iff.mp hsame
    have hbefore := before_iff.mp (hfirst a ha)
    exact before_iff.mpr (hkind ▸ hsource ▸ hbefore)
  | case3 s rest hsame hbefore =>
    obtain ⟨hfirst, -⟩ := List.pairwise_cons.mp h
    refine List.pairwise_cons.mpr ⟨fun a ha => ?_, h⟩
    rcases List.mem_cons.mp ha with rfl | ha
    · exact hbefore
    · exact before_trans hbefore (hfirst a ha)
  | case4 s rest hsame hbefore ih =>
    obtain ⟨hfirst, hrest⟩ := List.pairwise_cons.mp h
    refine List.pairwise_cons.mpr ⟨fun a ha => ?_, ih hrest⟩
    rcases eq_or_mem_of_mem_insertInto ha with rfl | ha
    · exact before_of_not_before hsame hbefore
    · exact hfirst a ha

/-! ## Looking up -/

/-- What is looked up after a registration is the new one, or what was there. -/
theorem find?_insertInto (r : Registration α) (runs : List (Registration α)) (kind : LoopKind)
    (source : String) : (r.insertInto runs).find? (isFor kind source) =
      if r.isFor kind source then some r else runs.find? (isFor kind source) := by
  fun_induction insertInto r runs with
  | case1 => cases h : r.isFor kind source <;> simp [h]
  | case2 s rest hsame =>
    have hs : s.isFor kind source = r.isFor kind source := by
      obtain ⟨hkind, hsource⟩ := sameRun_iff.mp hsame
      rw [isFor, isFor, hkind, hsource]
    cases h : r.isFor kind source <;> simp [hs, h]
  | case3 s rest hsame hbefore => cases h : r.isFor kind source <;> simp [List.find?_cons, h]
  | case4 s rest hsame hbefore ih =>
    rw [List.find?_cons, ih, List.find?_cons]
    cases hs : s.isFor kind source with
    | false => rfl
    | true =>
      have hr : r.isFor kind source = false := by
        refine Bool.eq_false_iff.mpr fun hr => hsame (sameRun_iff.mpr ?_)
        obtain ⟨rfl, rfl⟩ := isFor_iff.mp hs
        exact isFor_iff.mp hr
      rw [hr]
      rfl

/-- A registration that is listed is found. -/
theorem Sorted.find?_eq_some_iff (h : Sorted runs) :
    runs.find? (isFor kind source) = some r ↔ r ∈ runs ∧ r.isFor kind source = true := by
  refine ⟨fun hfind => ⟨List.mem_of_find?_eq_some hfind, List.find?_some hfind⟩, ?_⟩
  rintro ⟨hmem, hr⟩
  obtain ⟨before, after, rfl⟩ := List.append_of_mem hmem
  refine List.find?_eq_some_iff_append.mpr ⟨hr, before, after, rfl, fun a ha => ?_⟩
  -- Whatever is listed before it is for another kind or source.
  have hbefore : a.before r = true := (List.pairwise_append.mp h).2.2 a ha r List.mem_cons_self
  rw [Bool.not_eq_true', Bool.eq_false_iff]
  intro hfor
  obtain ⟨hkind, hsource⟩ := isFor_iff.mp hfor
  obtain ⟨hkind', hsource'⟩ := isFor_iff.mp hr
  exact not_sameRun_of_before hbefore
    (sameRun_iff.mpr ⟨hkind.trans hkind'.symm, hsource.trans hsource'.symm⟩)

theorem Sorted.nodup (h : Sorted runs) : runs.Nodup := by
  refine List.Pairwise.imp (fun {a b} hbefore => ?_) h
  rintro rfl
  exact not_sameRun_of_before hbefore (sameRun_iff.mpr ⟨rfl, rfl⟩)

/-- Lists in which the same is found are the same. -/
theorem Sorted.eq_of_find? (h : Sorted runs) (h' : Sorted runs')
    (hfind : ∀ kind source, runs.find? (isFor kind source) = runs'.find? (isFor kind source)) :
    runs = runs' := by
  have hself (a : Registration α) : a.isFor a.kind a.source = true := isFor_iff.mpr ⟨rfl, rfl⟩
  have hmem (a : Registration α) : a ∈ runs ↔ a ∈ runs' := by
    rw [← and_iff_left (a := a ∈ runs) (hself a), ← h.find?_eq_some_iff, hfind,
      h'.find?_eq_some_iff, and_iff_left (hself a)]
  have hperm : runs.Perm runs' := (List.perm_ext_iff_of_nodup h.nodup h'.nodup).mpr hmem
  refine hperm.eq_of_pairwise (fun a b _ _ hab hba => ?_) h h'
  exact absurd (sameRun_iff.mpr ⟨rfl, rfl⟩) (not_sameRun_of_before (before_trans hab hba))

/-- What the registrations of one kind say by source. -/
theorem lookup_filter {β : Type} (f : Registration α → β) (runs : List (Registration α))
    (kind : LoopKind) (source : String) :
    ((runs.filter fun r => r.kind = kind).map fun r => (r.source, f r)).lookup source =
      (runs.find? (isFor kind source)).map f := by
  induction runs with
  | nil => rfl
  | cons r rest ih =>
    by_cases hkind : r.kind = kind
    · rw [List.filter_cons_of_pos (by simpa using hkind), List.map_cons, List.lookup_cons, ih,
        List.find?_cons, isFor, decide_eq_true hkind, Bool.true_and]
      by_cases hsource : r.source = source
      · simp [hsource]
      · rw [beq_false_of_ne (Ne.symm hsource), decide_eq_false hsource]
    · rw [List.filter_cons_of_neg (by simpa using hkind), ih, List.find?_cons, isFor,
        decide_eq_false hkind, Bool.false_and]

/-- The registrations of one kind are in increasing order of their sources. -/
theorem Sorted.sources (h : Sorted runs) (kind : LoopKind) :
    (runs.filter fun r => r.kind = kind).Pairwise fun a b => a.source < b.source := by
  refine (h.filter fun r => r.kind = kind).imp_of_mem fun {a b} ha hb hbefore => ?_
  have hkinds : a.kind = b.kind := by
    rw [of_decide_eq_true (List.mem_filter.mp ha).2, of_decide_eq_true (List.mem_filter.mp hb).2]
  rcases before_iff.mp hbefore with hlt | ⟨-, hlt⟩
  · exact absurd (congrArg LoopKind.name hkinds) hlt.ne
  · exact hlt

end Registration

/-! ## The registrations made so far -/

namespace Registry

open Registration (isFor isFor_iff)

variable {α : Type} {rs rs' : List (Registration α)}

/-- The registry after one registration and then the next. -/
def registerAll (rs : List (Registration α)) : Registry α :=
  rs.foldl (fun g r => (g.register r).1) {}

/-- The last of some registrations that is for a kind and source. -/
def last? (rs : List (Registration α)) (kind : LoopKind) (source : String) :
    Option (Registration α) :=
  (rs.filter (isFor kind source)).getLast?

theorem registerAll_concat (rs : List (Registration α)) (r : Registration α) :
    registerAll (rs ++ [r]) = ⟨r.insertInto (registerAll rs).runs⟩ :=
  List.foldl_concat ..

theorem sorted_registerAll (rs : List (Registration α)) :
    Registration.Sorted (registerAll rs).runs := by
  induction rs using List.reverseRecOn with
  | nil => exact .nil
  | append_singleton rs r ih =>
    rw [registerAll_concat]
    exact ih.insertInto r

/-- A registry finds the last registration of a kind and source. -/
theorem find?_registerAll (rs : List (Registration α)) (kind : LoopKind) (source : String) :
    (registerAll rs).runs.find? (isFor kind source) = last? rs kind source := by
  induction rs using List.reverseRecOn with
  | nil => rfl
  | append_singleton rs r ih =>
    rw [registerAll_concat, Registration.find?_insertInto, ih, last?, last?, List.filter_append]
    cases h : r.isFor kind source <;> simp [h]

/-- Registrations that are the same ones in the same order for each kind and source make the same
    registry. -/
theorem registerAll_congr
    (h : ∀ kind source, rs'.filter (isFor kind source) = rs.filter (isFor kind source)) :
    registerAll rs' = registerAll rs := by
  have hruns : (registerAll rs').runs = (registerAll rs).runs := by
    refine (sorted_registerAll rs').eq_of_find? (sorted_registerAll rs) fun kind source => ?_
    rw [find?_registerAll, find?_registerAll, last?, last?, h]
  exact congrArg Registry.mk hruns

/-! ## The three views -/

/-- The three views of a registry show the last of some registrations for each kind and source, and
    nothing else. -/
structure Shows (read : α → Option Members) (g : Registry α) (rs : List (Registration α)) :
    Prop where
  /-- The runs are listed by kind and then by source, each kind and source once. -/
  increasing : g.registered.Pairwise fun a b =>
    a.1.name < b.1.name ∨ a.1.name = b.1.name ∧ a.2.1 < b.2.1
  registered_iff : ∀ kind source, (∃ runId, (kind, source, runId) ∈ g.registered) ↔
    ∃ r ∈ rs, r.kind = kind ∧ r.source = source
  mem_registered_iff : ∀ kind source runId, (kind, source, runId) ∈ g.registered ↔
    (last? rs kind source).map Registration.runId = some runId
  isSome_statusOf : ∀ kind source, (g.statusOf read kind source).isSome = true ↔
    ∃ r ∈ rs, r.kind = kind ∧ r.source = source
  statusOf_eq : ∀ kind source, g.statusOf read kind source =
    (last? rs kind source).map fun r => (read r.progress).getD []
  /-- The document has a member for each kind, which has a member for each source. -/
  assembled : ∃ top : Members, g.assemble read = .object top ∧
    top.map Prod.fst = ["maps", "queues"] ∧
    ∀ kind : LoopKind, ∃ ms : Members, top.get? kind.name = some (.object ms) ∧ ms.Sorted ∧
      ∀ source, ms.get? source = (g.statusOf read kind source).map .object

theorem isSome_last? (rs : List (Registration α)) (kind : LoopKind) (source : String) :
    (last? rs kind source).isSome = true ↔ ∃ r ∈ rs, r.kind = kind ∧ r.source = source := by
  simp [last?, isFor_iff]

/-- What is listed of a run is what is found. -/
theorem mem_registered {g : Registry α} (h : Registration.Sorted g.runs) {kind : LoopKind}
    {source : String} {runId : RunId} : (kind, source, runId) ∈ g.registered ↔
      (g.runs.find? (isFor kind source)).map Registration.runId = some runId := by
  rw [registered, List.mem_map, Option.map_eq_some_iff]
  refine exists_congr fun r => ?_
  rw [h.find?_eq_some_iff, isFor_iff, Prod.mk.injEq, Prod.mk.injEq, and_assoc, and_assoc]

theorem statusOf_registerAll (read : α → Option Members) (rs : List (Registration α))
    (kind : LoopKind) (source : String) : (registerAll rs).statusOf read kind source =
      (last? rs kind source).map fun r => (read r.progress).getD [] :=
  congrArg (Option.map _) (find?_registerAll rs kind source)

/-- The document of a registry shows under a kind and source what is shown of them alone. -/
theorem assemble_shows (read : α → Option Members) {g : Registry α}
    (h : Registration.Sorted g.runs) (kind : LoopKind) : ∃ ms : Members,
      g.assembleKind read kind = .object ms ∧ ms.Sorted ∧
        ∀ source, ms.get? source = (g.statusOf read kind source).map .object := by
  refine ⟨_, rfl, List.pairwise_map.mpr (h.sources kind), fun source => ?_⟩
  rw [Members.get?, Registration.lookup_filter, statusOf, Option.map_map]
  rfl

/-- Whatever has been registered, the three views of the registry show the last registration of each
    kind and source.  Registering in another order that is the same for each kind and source makes
    the same registry. -/
theorem views_agree (read : α → Option Members) (rs : List (Registration α)) :
    (registerAll rs).Shows read rs ∧ ∀ rs' : List (Registration α),
      (∀ kind source, rs'.filter (isFor kind source) = rs.filter (isFor kind source)) →
        registerAll rs' = registerAll rs := by
  have hsorted := sorted_registerAll rs
  have hmem (kind : LoopKind) (source : String) (runId : RunId) :
      (kind, source, runId) ∈ (registerAll rs).registered ↔
        (last? rs kind source).map Registration.runId = some runId := by
    rw [mem_registered hsorted, find?_registerAll]
  refine ⟨⟨?_, fun kind source => ?_, hmem, fun kind source => ?_,
    statusOf_registerAll read rs, ?_⟩, fun rs' => registerAll_congr⟩
  · exact List.pairwise_map.mpr (hsorted.imp Registration.before_iff.mp)
  · rw [exists_congr (hmem kind source), ← isSome_last?, ← Option.isSome_map,
      Option.isSome_iff_exists]
  · rw [statusOf_registerAll, Option.isSome_map, isSome_last?]
  · refine ⟨_, rfl, rfl, fun kind => ?_⟩
    obtain ⟨ms, heq, hms⟩ := assemble_shows read hsorted kind
    refine ⟨ms, ?_, hms⟩
    rw [← heq]
    cases kind <;> rfl

/-- A source of both kinds, of which one is registered anew by a run that has no progress yet. -/
theorem views_agree_sample :
    (registerAll [⟨.maps, "a", ⟨1⟩, 4⟩, ⟨.queues, "a", ⟨2⟩, 5⟩, ⟨.maps, "a", ⟨3⟩, 0⟩]).Shows
      (fun n => if n = 0 then none else some [("run", .ofNat n)])
      [⟨.maps, "a", ⟨1⟩, 4⟩, ⟨.queues, "a", ⟨2⟩, 5⟩, ⟨.maps, "a", ⟨3⟩, 0⟩] ∧
    registerAll [⟨.queues, "a", ⟨2⟩, 5⟩, ⟨.maps, "a", ⟨1⟩, 4⟩, ⟨.maps, "a", ⟨3⟩, 0⟩] =
      registerAll [⟨.maps, "a", ⟨1⟩, 4⟩, ⟨.queues, "a", ⟨2⟩, 5⟩, ⟨.maps, "a", ⟨3⟩, 0⟩] := by
  obtain ⟨hshows, hcongr⟩ := views_agree (fun n => if n = 0 then none else some [("run", .ofNat n)])
    [⟨.maps, "a", ⟨1⟩, 4⟩, ⟨.queues, "a", ⟨2⟩, 5⟩, ⟨.maps, "a", ⟨3⟩, 0⟩]
  refine ⟨hshows, hcongr _ fun kind source => ?_⟩
  by_cases hsource : "a" = source <;> cases kind <;> simp [isFor, hsource]

end Registry
end GridBench
