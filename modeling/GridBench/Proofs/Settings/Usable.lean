/-
  GridBench.Proofs.Settings.Usable

  How unusable settings of a client are replaced.  Three of them are looked at,
  each on its own, and are mended alike (`Mended`): a usable setting stays as it
  is, and for any other one a usable setting and one warning come in its place.
  The usable settings are therefore what replacing comes to, and what it leaves
  alone.  Main statement: `sanitized_projects`.
-/
import GridBench.Settings.Client
import GridBench.Proofs.Text.Trim

namespace GridBench.ClientSettings

/-! ## One setting -/

/-- What may become of a setting, and the warnings about it. -/
inductive Mended {α : Type} (usable : α → Prop) (old : α) : α × List Record → Prop
  | kept : usable old → Mended usable old (old, [])
  | replaced {new : α} (message : String) : ¬usable old → usable new →
      Mended usable old (new, [⟨.warn, .configuration, message⟩])

/-- One if a setting is another one now, and zero if not. -/
def changeOf {α : Type} [DecidableEq α] (old new : α) : Nat := if new = old then 0 else 1

namespace Mended

variable {α : Type} {usable : α → Prop} {old : α} {out : α × List Record}

theorem usable_fst (h : Mended usable old out) : usable out.1 := by
  cases h with
  | kept hold => exact hold
  | replaced _ _ hnew => exact hnew

theorem eq_of_usable (h : Mended usable old out) (hold : usable old) : out = (old, []) := by
  cases h with
  | kept _ => rfl
  | replaced _ hunusable _ => exact absurd hold hunusable

theorem fst_of_usable (h : Mended usable old out) (hold : usable old) : out.1 = old :=
  congrArg Prod.fst (h.eq_of_usable hold)

theorem severity_eq (h : Mended usable old out) : ∀ r ∈ out.2, r.severity = .warn := by
  intro r hr
  cases h with
  | kept _ => exact absurd hr List.not_mem_nil
  | replaced message _ _ =>
    rw [List.mem_singleton.mp hr]

theorem length_warnings [DecidableEq α] (h : Mended usable old out) :
    out.2.length = changeOf old out.1 := by
  cases h with
  | kept _ => exact (if_pos rfl).symm
  | @replaced new message hunusable hnew =>
    -- The new setting is another one, since it is usable.
    have hne : new ≠ old := by
      rintro rfl
      exact hunusable hnew
    exact (if_neg hne).symm

end Mended

/-! ## The settings that are looked at -/

/-- A name that is more than white characters. -/
def IsName (name : String) : Prop := ∃ ch ∈ name.toList, Text.isWhite ch = false

/-- The settings of a client that can be used: the cluster has a name, there is a member, and
    acquiring a map may take some time. -/
structure Usable (c : ClientSettings) : Prop where
  named : IsName c.clusterName
  populated : c.members ≠ []
  timed : 1 ≤ c.getMapTimeoutMs.toNat

/-- The settings that stand in for those that are left out can be used. -/
theorem usable_default : Usable {} where
  named := ⟨'d', by decide, by decide⟩
  populated := by decide
  timed := by decide

theorem isName_iff (name : String) : IsName name ↔ (Text.trim name).isEmpty = false := by
  rw [Text.isEmpty_trim]
  exact (Text.isBlank_eq_false_iff name).symm

variable (c : ClientSettings)

theorem mended_name : Mended IsName c.clusterName c.sanitizedName := by
  have hname := isName_iff c.clusterName
  unfold sanitizedName
  cases hempty : (Text.trim c.clusterName).isEmpty with
  | true => exact .replaced _ (by simp [hname, hempty]) usable_default.named
  | false => exact .kept (hname.mpr hempty)

theorem mended_members : Mended (· ≠ []) c.members c.sanitizedMembers := by
  unfold sanitizedMembers
  cases hmembers : c.members with
  | nil => exact .replaced _ (by simp) usable_default.populated
  | cons m ms => exact .kept (List.cons_ne_nil m ms)

theorem mended_timeout :
    Mended (fun ms : UInt64 => 1 ≤ ms.toNat) c.getMapTimeoutMs c.sanitizedTimeout := by
  unfold sanitizedTimeout
  by_cases hzero : c.getMapTimeoutMs = 0
  · simp only [hzero, if_true]
    exact .replaced _ (by decide) usable_default.timed
  · simp only [hzero, if_false]
    have hne : c.getMapTimeoutMs.toNat ≠ 0 := fun h => hzero (UInt64.toNat_inj.mp h)
    exact .kept (Nat.one_le_iff_ne_zero.mpr hne)

/-! ## All settings -/

/-- How many settings of a client differ between two states. -/
def changes (c s : ClientSettings) : Nat :=
  changeOf c.clusterName s.clusterName + changeOf c.members s.members
    + changeOf c.getMapTimeoutMs s.getMapTimeoutMs + changeOf c.identity s.identity

/-- The settings are mended one by one, and the warnings come in the same order. -/
theorem sanitized_eq : c.sanitized =
    ({ c with
        clusterName := c.sanitizedName.1
        members := c.sanitizedMembers.1
        getMapTimeoutMs := c.sanitizedTimeout.1 },
      c.sanitizedName.2 ++ c.sanitizedMembers.2 ++ c.sanitizedTimeout.2) := by
  unfold sanitized
  generalize c.sanitizedName = name
  generalize c.sanitizedMembers = members
  generalize c.sanitizedTimeout = timeout
  rfl

theorem usable_sanitized : c.sanitized.1.Usable := by
  rw [sanitized_eq]
  exact ⟨c.mended_name.usable_fst, c.mended_members.usable_fst, c.mended_timeout.usable_fst⟩

variable {c}

/-- Usable settings are left alone. -/
theorem sanitized_eq_self (h : c.Usable) : c.sanitized = (c, []) := by
  have hname := c.mended_name.eq_of_usable h.named
  have hmembers := c.mended_members.eq_of_usable h.populated
  have htimeout := c.mended_timeout.eq_of_usable h.timed
  rw [sanitized_eq, hname, hmembers, htimeout]
  rfl

theorem length_sanitized : c.sanitized.2.length = c.changes c.sanitized.1 := by
  have hname := c.mended_name.length_warnings
  have hmembers := c.mended_members.length_warnings
  have htimeout := c.mended_timeout.length_warnings
  have hidentity : changeOf c.identity c.identity = 0 := if_pos rfl
  rw [sanitized_eq, changes, hidentity, ← hname, ← hmembers, ← htimeout]
  simp only [List.length_append, Nat.add_zero]

theorem severity_sanitized : ∀ r ∈ c.sanitized.2, r.severity = .warn := by
  intro r hr
  rw [sanitized_eq, List.mem_append, List.mem_append] at hr
  rcases hr with (hname | hmembers) | htimeout
  · exact c.mended_name.severity_eq r hname
  · exact c.mended_members.severity_eq r hmembers
  · exact c.mended_timeout.severity_eq r htimeout

/-- Replacing unusable settings is a projection onto the usable ones, for every mixture of settings:
    what comes of it is usable, the settings that were usable stay as they are to the last
    character, the identity stays in any case, and there are as many warnings as settings that
    differ now, and no other records.  Settings are left alone, without a warning, exactly if they
    are usable; so replacing once more does nothing. -/
theorem sanitized_projects (c : ClientSettings) :
    c.sanitized.1.Usable ∧
    (IsName c.clusterName → c.sanitized.1.clusterName = c.clusterName) ∧
    (c.members ≠ [] → c.sanitized.1.members = c.members) ∧
    (1 ≤ c.getMapTimeoutMs.toNat → c.sanitized.1.getMapTimeoutMs = c.getMapTimeoutMs) ∧
    c.sanitized.1.identity = c.identity ∧
    c.sanitized.2.length = c.changes c.sanitized.1 ∧
    (∀ r ∈ c.sanitized.2, r.severity = .warn) ∧
    (c.sanitized = (c, []) ↔ c.Usable) ∧
    c.sanitized.1.sanitized = (c.sanitized.1, []) := by
  have husable := c.usable_sanitized
  refine ⟨husable, ?_, ?_, ?_, ?_, length_sanitized, severity_sanitized,
    ⟨?_, sanitized_eq_self⟩, sanitized_eq_self husable⟩
  · intro hname
    rw [sanitized_eq]
    exact c.mended_name.fst_of_usable hname
  · intro hmembers
    rw [sanitized_eq]
    exact c.mended_members.fst_of_usable hmembers
  · intro htimeout
    rw [sanitized_eq]
    exact c.mended_timeout.fst_of_usable htimeout
  · rw [sanitized_eq]
  · intro hself
    rw [hself] at husable
    exact husable

/-- A cluster named by an em space and an ideographic one, and members that need no replacing. -/
def blankNamed : ClientSettings where
  clusterName := "\u2003\u3000"
  members := [" "]
  getMapTimeoutMs := 0
  identity := some "\u00a0a"

/-- Of the sample the name and the time to acquire a map are replaced, with two warnings; the member
    that is blank and the identity stay. -/
theorem sanitized_projects_blankNamed :
    blankNamed.sanitized.1 = ⟨"dev", [" "], 10000, some "\u00a0a"⟩ ∧
    blankNamed.sanitized.2.length = 2 ∧ ¬blankNamed.Usable ∧
    blankNamed.sanitized.1.sanitized.2 = [] := by
  obtain ⟨-, -, hmembers, -, hidentity, hlength, -, hself, hagain⟩ := sanitized_projects blankNamed
  have hname : blankNamed.sanitized.1.clusterName = "dev" := by decide
  have hresult : blankNamed.sanitized.1 = ⟨"dev", [" "], 10000, some "\u00a0a"⟩ := by
    rw [ClientSettings.mk.injEq]
    exact ⟨hname, hmembers (by decide), by decide, hidentity⟩
  refine ⟨hresult, ?_, ?_, congrArg Prod.snd hagain⟩
  · rw [hlength, hresult]
    decide
  · intro husable
    have hsame := congrArg (fun x => x.1.clusterName) (hself.mpr husable)
    rw [hname] at hsame
    exact absurd hsame (by decide)

end GridBench.ClientSettings
