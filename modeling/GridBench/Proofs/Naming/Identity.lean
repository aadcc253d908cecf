/-
  GridBench.Proofs.Naming.Identity

  The identity for a configured value is the value in a normal form.  Spellings
  of a value that differ in the white characters around it are one client, any
  other two are two clients, and an identity that is configured anew stays what
  it is.  A value with nothing but white characters is no name: a fresh identity
  stands in for it, which is in normal form as it is one word (`Text.IsWord`).
  Main statement: `ofConfigured_canonical`.
-/
import GridBench.Identity
import GridBench.RunId
import GridBench.Proofs.Text.Trim

namespace GridBench

/-! ## Words -/

/-- A text of at least one character, without white ones. -/
structure Text.IsWord (s : String) : Prop where
  nonblank : isBlank s = false
  unbroken : ∀ c ∈ s.toList, isWhite c = false

namespace Text

theorem isWhite_eq_false_of_mem_toDigits (n : Nat) :
    ∀ c ∈ Nat.toDigits 16 n, isWhite c = false := by
  have hdigit : ∀ d < 16, isWhite (Nat.digitChar d) = false := by decide
  induction n using Nat.strong_induction_on with
  | h n ih =>
    intro c hc
    -- The last digit comes off the end.
    rw [Nat.toDigits_eq_if (by decide)] at hc
    split at hc
    case isTrue hsmall =>
      rw [List.mem_singleton.mp hc]
      exact hdigit n hsmall
    case isFalse hlarge =>
      rcases List.mem_append.mp hc with hfront | hlast
      · exact ih (n / 16) (by omega) c hfront
      · rw [List.mem_singleton.mp hlast]
        exact hdigit (n % 16) (Nat.mod_lt n (by decide))

theorem isWhite_eq_false_of_mem_hexPadded (width n : Nat) :
    ∀ c ∈ (hexPadded width n).toList, isWhite c = false := by
  intro c hc
  rw [hexPadded, String.toList_ofList, List.mem_append] at hc
  rcases hc with hzero | hdigit
  · rw [List.eq_of_mem_replicate hzero]
    decide
  · exact isWhite_eq_false_of_mem_toDigits n c hdigit

end Text

namespace RunId

/-- The characters of an identifier, group by group. -/
theorem toList_render (id : RunId) :
    let group (start size : Nat) := ((Text.hexPadded 32 id.number).toList.drop start).take size
    id.render.toList = group 0 8 ++ ['-'] ++ (group 8 4 ++ ['-'] ++ (group 12 4 ++ ['-'] ++
      (group 16 4 ++ ['-'] ++ group 20 12))) := by
  have hdash : "-".toList = ['-'] := by decide
  simp only [render, String.toList_intercalate, hdash, List.map_cons, List.map_nil,
    String.toList_ofList, List.intercalate_cons_cons, List.intercalate_singleton]

/-- An identifier is written as a word, so that it can stand in for a name that is blank. -/
theorem isWord_render (id : RunId) : Text.IsWord id.render where
  nonblank := by
    refine (Text.isBlank_eq_false_iff _).mpr ⟨'-', ?_, by decide⟩
    rw [toList_render]
    simp
  unbroken := by
    have hgroup (start size : Nat) : ∀ c ∈
        ((Text.hexPadded 32 id.number).toList.drop start).take size, Text.isWhite c = false :=
      fun c hc => Text.isWhite_eq_false_of_mem_hexPadded 32 id.number c
        (List.mem_of_mem_drop (List.mem_of_mem_take hc))
    have hdash : ∀ c ∈ ['-'], Text.isWhite c = false :=
      List.forall_mem_singleton.mpr (by decide)
    rw [toList_render]
    simp only [List.forall_mem_append]
    exact ⟨⟨hgroup 0 8, hdash⟩, ⟨hgroup 8 4, hdash⟩, ⟨hgroup 12 4, hdash⟩, ⟨hgroup 16 4, hdash⟩,
      hgroup 20 12⟩

end RunId

namespace ClientIdentity

/-! ## Identities in normal form -/

/-- An identity with more than white characters, and none of them at its ends. -/
structure Canonical (id : ClientIdentity) : Prop where
  nonblank : Text.isBlank id.text = false
  tight : Text.Tight id.text.toList

/-- The identity is what a value holds between the longest runs of white characters at its ends. -/
def Strips (value : String) (id : ClientIdentity) : Prop :=
  ∃ before after, Text.LongestWhite (· <+: ·) before value.toList ∧
    Text.LongestWhite (· <:+ ·) after value.toList ∧
    value.toList = before ++ id.text.toList ++ after

/-- Two values are spellings of one client: one text with white characters around it. -/
def SameClient (v w : String) : Prop :=
  ∃ core, Text.Pads v.toList core ∧ Text.Pads w.toList core

variable {fresh v w : String} {id : ClientIdentity}

theorem canonical_of_isWord (h : Text.IsWord v) : Canonical ⟨v⟩ :=
  ⟨h.nonblank, Text.tight_of_forall h.unbroken⟩

theorem canonical_trim (h : Text.isBlank v = false) : Canonical ⟨Text.trim v⟩ := by
  have htight := Text.tight_trim v
  refine ⟨?_, htight⟩
  -- Trimming once more leaves what trimming has left.
  rw [← Text.isEmpty_trim, htight.trim_eq, Text.isEmpty_trim, h]

/-! ## The identity for a value -/

theorem ofConfigured_of_nonblank (fresh : String) (h : Text.isBlank v = false) :
    ofConfigured fresh v = (⟨Text.trim v⟩, []) := by
  rw [ofConfigured, Text.isEmpty_trim, h]
  rfl

theorem ofConfigured_of_blank (fresh : String) (h : Text.isBlank v = true) :
    ofConfigured fresh v = (⟨fresh⟩,
      [⟨.warn, .identity, "Configured client identity is blank, generating one instead"⟩]) := by
  rw [ofConfigured, Text.isEmpty_trim, h]
  rfl

/-- An identity in normal form stays as it is if it is configured. -/
theorem Canonical.ofConfigured_eq (h : Canonical id) (fresh : String) :
    ofConfigured fresh id.text = (id, []) := by
  rw [ofConfigured_of_nonblank fresh h.nonblank, h.tight.trim_eq]

theorem canonical_ofConfigured (hfresh : Text.IsWord fresh) (v : String) :
    Canonical (ofConfigured fresh v).1 := by
  cases h : Text.isBlank v with
  | true =>
    rw [ofConfigured_of_blank fresh h]
    exact canonical_of_isWord hfresh
  | false =>
    rw [ofConfigured_of_nonblank fresh h]
    exact canonical_trim h

theorem strips_trim (h : Text.isBlank v = false) : Strips v ⟨Text.trim v⟩ := by
  rw [Strips, Text.toList_trim]
  exact Text.exists_longestWhite (Text.trimList_ne_nil h)

theorem trim_eq_trim_iff : Text.trim v = Text.trim w ↔ SameClient v w := by
  rw [SameClient, ← Text.trimList_eq_trimList_iff, ← String.toList_inj, Text.toList_trim,
    Text.toList_trim]

/-- Configured identities are in normal form, whatever the value is, provided that fresh ones are
    words.  A value that is not blank loses the longest runs of white characters at its ends and
    nothing else, without a warning; for a blank one there is the fresh identity and one warning.
    An identity that is configured anew stays as it is, without a warning and whatever is fresh
    then.  Two values that are not blank give one identity exactly if they are spellings of one
    client. -/
theorem ofConfigured_canonical (fresh v : String) (hfresh : Text.IsWord fresh) :
    Canonical (ofConfigured fresh v).1 ∧
    (Text.isBlank v = false →
      Strips v (ofConfigured fresh v).1 ∧ (ofConfigured fresh v).2 = []) ∧
    (Text.isBlank v = true → (ofConfigured fresh v).1.text = fresh ∧
      ∃ r, (ofConfigured fresh v).2 = [r] ∧ r.severity = .warn) ∧
    (∀ again, ofConfigured again (ofConfigured fresh v).1.text = ((ofConfigured fresh v).1, [])) ∧
    ∀ again w, Text.isBlank v = false → Text.isBlank w = false →
      ((ofConfigured fresh v).1 = (ofConfigured again w).1 ↔ SameClient v w) := by
  have hcanonical := canonical_ofConfigured hfresh v
  refine ⟨hcanonical, fun hv => ?_, fun hv => ?_, hcanonical.ofConfigured_eq,
    fun again w hv hw => ?_⟩
  · rw [ofConfigured_of_nonblank fresh hv]
    exact ⟨strips_trim hv, rfl⟩
  · rw [ofConfigured_of_blank fresh hv]
    exact ⟨rfl, _, rfl, rfl⟩
  · rw [ofConfigured_of_nonblank fresh hv, ofConfigured_of_nonblank again hw, mk.injEq]
    exact trim_eq_trim_iff

/-- With an ideographic space in front and a next line behind, a value is a spelling of the client
    "lab one" still, and of none without the blank inside; two spaces are no name. -/
theorem ofConfigured_canonical_labOne :
    Text.IsWord (RunId.render ⟨7⟩) ∧
    ofConfigured (RunId.render ⟨7⟩) "\u3000lab one\u0085" = (⟨"lab one"⟩, []) ∧
    SameClient "\u3000lab one\u0085" "lab one\t" ∧ ¬SameClient "\u3000lab one\u0085" "labone" ∧
    Canonical (ofConfigured (RunId.render ⟨7⟩) "\u2003 ").1 ∧
    (ofConfigured (RunId.render ⟨7⟩) "\u2003 ").1.text = RunId.render ⟨7⟩ := by
  have hfresh := RunId.isWord_render ⟨7⟩
  obtain ⟨-, hstripped, -, -, hsame⟩ :=
    ofConfigured_canonical (RunId.render ⟨7⟩) "\u3000lab one\u0085" hfresh
  obtain ⟨hcanonical, -, hblank, -, -⟩ := ofConfigured_canonical (RunId.render ⟨7⟩) "\u2003 " hfresh
  have hnonblank : Text.isBlank "\u3000lab one\u0085" = false := by decide
  have hid : (ofConfigured (RunId.render ⟨7⟩) "\u3000lab one\u0085").1 = ⟨"lab one"⟩ := by decide
  have hlogs := (hstripped hnonblank).2
  refine ⟨hfresh, Prod.ext hid hlogs, ?_, ?_, hcanonical, (hblank (by decide)).1⟩
  · refine (hsame "" "lab one\t" hnonblank (by decide)).mp ?_
    rw [hid]
    decide
  · intro hspellings
    have heq := (hsame "" "labone" hnonblank (by decide)).mpr hspellings
    rw [hid] at heq
    exact absurd heq (by decide)

end ClientIdentity

end GridBench
