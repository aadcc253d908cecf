/-
  GridBench.Proofs.Text.Trim

  What trimming leaves of a text.  Nothing is left exactly if the text is blank
  (`isEmpty_trim`), so that a text is worth keeping if it has one character that
  is not white (`isBlank_eq_false_iff`).

  Trimming chooses one text for all that differ in the white characters around
  them.  What it leaves is what the text is with white characters around it
  (`Pads`), and has none at its own ends (`Tight`); there is one such rest
  (`trimList_eq_iff`), so that trimming twice is trimming once and two texts have
  the same rest exactly if both are one text with white characters around it
  (`trimList_eq_trimList_iff`).  If anything is left, the longest runs of white
  characters at the two ends are what is taken away (`exists_longestWhite`).
-/
import Mathlib.Data.List.DropRight
import GridBench.Text.White

namespace GridBench.Text

/-! ## Blank texts -/

theorem trimList_eq_nil_iff (cs : List Char) : trimList cs = [] ↔ cs.all isWhite = true := by
  have hall : (∀ c ∈ cs.dropWhile isWhite, isWhite c = true) ↔ ∀ c ∈ cs, isWhite c = true := by
    refine ⟨fun h c hc => ?_, fun h c hc => h c ((List.dropWhile_sublist _).mem hc)⟩
    -- A character is one of those that are dropped, or one of the rest.
    rw [← List.takeWhile_append_dropWhile (p := isWhite) (l := cs), List.mem_append] at hc
    exact hc.elim List.mem_takeWhile_imp (h c)
  rw [trimList, List.reverse_eq_nil_iff, List.dropWhile_eq_nil_iff, List.all_eq_true, ← hall]
  simp only [List.mem_reverse]

/-- Nothing is left of a blank text when it is trimmed, and of no other one. -/
theorem isEmpty_trim (s : String) : (trim s).isEmpty = isBlank s := by
  rw [Bool.eq_iff_iff, isBlank, ← trimList_eq_nil_iff, ← toList_trim, String.isEmpty_iff,
    String.toList_eq_nil_iff]

theorem isBlank_eq_false_iff (s : String) :
    isBlank s = false ↔ ∃ c ∈ s.toList, isWhite c = false := by
  rw [isBlank, List.all_eq_false]
  simp only [Bool.not_eq_true]

theorem trimList_ne_nil {s : String} (h : isBlank s = false) : trimList s.toList ≠ [] := by
  rw [Ne, trimList_eq_nil_iff, ← isBlank, h]
  exact Bool.false_ne_true

/-! ## White characters around others -/

/-- White characters only. -/
def AllWhite (cs : List Char) : Prop := ∀ c ∈ cs, isWhite c = true

/-- The characters `cs` are `core` with white ones around them. -/
def Pads (cs core : List Char) : Prop :=
  ∃ before after, AllWhite before ∧ AllWhite after ∧ cs = before ++ core ++ after

/-- The characters neither begin nor end with a white one. -/
structure Tight (cs : List Char) : Prop where
  first : ∀ c ∈ cs.head?, isWhite c = false
  last : ∀ c ∈ cs.getLast?, isWhite c = false

variable {cs ds core before after rest : List Char}

theorem AllWhite.reverse (h : AllWhite cs) : AllWhite cs.reverse :=
  fun c hc => h c (List.mem_reverse.mp hc)

theorem tight_of_forall (h : ∀ c ∈ cs, isWhite c = false) : Tight cs :=
  ⟨fun c hc => h c (List.mem_of_mem_head? hc), fun c hc => h c (List.mem_of_mem_getLast? hc)⟩

theorem trimList_append_left (h : AllWhite before) : trimList (before ++ cs) = trimList cs := by
  rw [trimList, trimList, List.dropWhile_append_of_pos h]

theorem trimList_append_right (h : AllWhite after) : trimList (cs ++ after) = trimList cs := by
  simp only [trimList, List.dropWhile_append]
  split
  -- If `cs` is white too, dropping from the front takes `after` along.
  case isTrue hempty =>
    rw [List.isEmpty_iff.mp hempty, List.dropWhile_eq_nil_iff.mpr h]
  case isFalse _ =>
    rw [List.reverse_append, List.dropWhile_append_of_pos h.reverse]

/-- White characters around others make no difference to what is left. -/
theorem Pads.trimList_eq (h : Pads cs core) : trimList cs = trimList core := by
  obtain ⟨before, after, hbefore, hafter, rfl⟩ := h
  rw [trimList_append_right hafter, trimList_append_left hbefore]

/-! ## What is left -/

theorem pads_trimList (cs : List Char) : Pads cs (trimList cs) := by
  refine ⟨cs.takeWhile isWhite, (cs.dropWhile isWhite).rtakeWhile isWhite,
    fun _ => List.mem_takeWhile_imp, fun _ => List.mem_rtakeWhile_imp, ?_⟩
  have hback : trimList cs ++ (cs.dropWhile isWhite).rtakeWhile isWhite = cs.dropWhile isWhite :=
    List.rdropWhile_append_rtakeWhile
  rw [List.append_assoc, hback, List.takeWhile_append_dropWhile]

theorem first_dropWhile (cs : List Char) :
    ∀ c ∈ (cs.dropWhile isWhite).head?, isWhite c = false := by
  intro c hc
  have hfirst := List.head?_dropWhile_not isWhite cs
  rw [Option.mem_def.mp hc] at hfirst
  exact hfirst

theorem tight_trimList (cs : List Char) : Tight (trimList cs) where
  first := by
    intro c hc
    -- What is dropped at the back leaves the first character where it is.
    obtain ⟨dropped, hsplit⟩ : trimList cs <+: cs.dropWhile isWhite := List.rdropWhile_prefix ..
    refine first_dropWhile cs c ?_
    rw [← hsplit, Option.mem_def, List.head?_append, Option.mem_def.mp hc]
    rfl
  last := by
    rw [trimList, List.getLast?_reverse]
    exact first_dropWhile _

theorem dropWhile_eq_self (h : ∀ c ∈ cs.head?, isWhite c = false) : cs.dropWhile isWhite = cs := by
  cases cs with
  | nil => rfl
  | cons c cs =>
    have hc : isWhite c = false := h c rfl
    exact List.dropWhile_cons_of_neg (by simp [hc])

theorem Tight.trimList_eq (h : Tight cs) : trimList cs = cs := by
  have hlast : ∀ c ∈ cs.reverse.head?, isWhite c = false := by
    rw [List.head?_reverse]
    exact h.last
  rw [trimList, dropWhile_eq_self h.first, dropWhile_eq_self hlast, List.reverse_reverse]

theorem tight_trim (s : String) : Tight (trim s).toList := by
  rw [toList_trim]
  exact tight_trimList _

theorem Tight.trim_eq {s : String} (h : Tight s.toList) : trim s = s := by
  rw [trim, h.trimList_eq, String.ofList_toList]

/-- What trimming leaves is the one list that has no white character at its ends and becomes the
    given one by white characters around it. -/
theorem trimList_eq_iff : trimList cs = core ↔ Pads cs core ∧ Tight core := by
  constructor
  · rintro rfl
    exact ⟨pads_trimList cs, tight_trimList cs⟩
  · rintro ⟨hpads, htight⟩
    rw [hpads.trimList_eq, htight.trimList_eq]

/-- The same is left of two lists exactly if they differ in white characters around them only. -/
theorem trimList_eq_trimList_iff :
    trimList cs = trimList ds ↔ ∃ core, Pads cs core ∧ Pads ds core := by
  constructor
  · intro h
    obtain ⟨hpads, -⟩ := trimList_eq_iff.mp h
    exact ⟨trimList ds, hpads, pads_trimList ds⟩
  · rintro ⟨core, hcs, hds⟩
    rw [hcs.trimList_eq, hds.trimList_eq]

/-! ## What is taken away -/

/-- A run of white characters at a place of `cs`, its beginning (`<+:`) or its end (`<:+`), that
    holds every other such run. -/
structure LongestWhite (place : List Char → List Char → Prop) (run cs : List Char) : Prop where
  placed : place run cs
  white : AllWhite run
  longest : ∀ other, place other cs → AllWhite other → place other run

/-- White characters in front of one that is not white are a longest run. -/
theorem longestWhite_front (hbefore : AllWhite before)
    (hrest : ∀ c ∈ rest.head?, isWhite c = false) :
    LongestWhite (· <+: ·) before (before ++ rest) where
  placed := List.prefix_append ..
  white := hbefore
  longest := by
    intro other hother hwhite
    rcases List.prefix_or_prefix_of_prefix hother (List.prefix_append ..) with hshort | hlong
    · exact hshort
    · obtain ⟨more, rfl⟩ := hlong
      obtain ⟨rest, rfl⟩ := (List.prefix_append_right_inj before).mp hother
      cases more with
      | nil => simp
      | cons c more =>
        -- A longer run would go on with the character that is not white.
        have hc : isWhite c = true := hwhite c (by simp)
        rw [hrest c rfl] at hc
        exact absurd hc Bool.false_ne_true

/-- White characters behind one that is not white are a longest run. -/
theorem longestWhite_back (hafter : AllWhite after)
    (hrest : ∀ c ∈ rest.getLast?, isWhite c = false) :
    LongestWhite (· <:+ ·) after (rest ++ after) where
  placed := List.suffix_append ..
  white := hafter
  longest := by
    intro other hother hwhite
    -- Read from the back, this is a run at the beginning.
    have hback : ∀ c ∈ rest.reverse.head?, isWhite c = false := by
      rw [List.head?_reverse]
      exact hrest
    have hrun := (longestWhite_front hafter.reverse hback).longest other.reverse
    rw [← List.reverse_append, List.reverse_prefix, List.reverse_prefix] at hrun
    exact hrun hother hwhite.reverse

/-- If anything is left, the longest runs of white characters at both ends are what is taken away,
    and they do not overlap. -/
theorem exists_longestWhite (h : trimList cs ≠ []) :
    ∃ before after, LongestWhite (· <+: ·) before cs ∧ LongestWhite (· <:+ ·) after cs ∧
      cs = before ++ trimList cs ++ after := by
  obtain ⟨before, after, hbefore, hafter, hcs⟩ := pads_trimList cs
  obtain ⟨hfirst, hlast⟩ := tight_trimList cs
  generalize trimList cs = core at *
  subst hcs
  refine ⟨before, after, ?_, ?_, rfl⟩
  · rw [List.append_assoc]
    refine longestWhite_front hbefore fun c hc => hfirst c ?_
    rwa [List.head?_append_of_ne_nil _ h] at hc
  · refine longestWhite_back hafter fun c hc => hlast c ?_
    rwa [List.getLast?_append_of_ne_nil _ h] at hc

end GridBench.Text
