/-
  GridBench.Proofs.Yaml.Scalar

  What written scalars stand for.  A string is written in a style that keeps it
  a string, and a natural number in digits that the core schema takes for that
  number again.
-/
import GridBench.Yaml.Printer
import GridBench.Form.Shape

namespace GridBench.Yaml

/-! ## Digits -/

theorem digitIn?_digitChar {n : Nat} (h : n < 10) : digitIn? 10 n.digitChar = some n := by
  have : ∀ m < 10, digitIn? 10 (Nat.digitChar m) = some m := by decide
  exact this n h

/-- One more digit at the end. -/
theorem digitsIn?_snoc {base m d : Nat} {cs : List Char} {c : Char}
    (hm : digitsIn? base cs = some m) (hd : digitIn? base c = some d) :
    digitsIn? base (cs ++ [c]) = some (base * m + d) := by
  unfold digitsIn? at *
  split at hm
  · cases hm
  · simp [List.foldl_append, hm, hd]

theorem digitsIn?_toDigits (n : Nat) : digitsIn? 10 (Nat.toDigits 10 n) = some n := by
  -- The last digit comes off, and the others spell the tenth part.
  induction n using Nat.strongRecOn with
  | ind n ih =>
    rw [Nat.toDigits_eq_if (by omega)]
    split
    · rename_i h
      simp [digitsIn?, digitIn?_digitChar h]
    · rename_i h
      rw [digitsIn?_snoc (ih (n / 10) (by omega)) (digitIn?_digitChar (Nat.mod_lt _ (by omega)))]
      congr 1
      omega

/-- The first digit is a zero only if it is the only one. -/
theorem toDigits_head (n : Nat) :
    ∃ c cs, Nat.toDigits 10 n = c :: cs ∧ c.isDigit ∧ (c = '0' → n = 0 ∧ cs = []) := by
  induction n using Nat.strongRecOn with
  | ind n ih =>
    rw [Nat.toDigits_eq_if (by omega)]
    split
    · rename_i h
      have : ∀ m < 10, (Nat.digitChar m).isDigit ∧ (Nat.digitChar m = '0' → m = 0) := by decide
      exact ⟨_, [], rfl, (this n h).1, fun h0 => ⟨(this n h).2 h0, rfl⟩⟩
    · rename_i h
      obtain ⟨c, cs, heq, hc, h0⟩ := ih (n / 10) (by omega)
      refine ⟨c, _, by rw [heq]; rfl, hc, fun hz => ?_⟩
      have := (h0 hz).1
      omega

/-- Digits without a zero in front are read in base ten. -/
theorem natural?_of_head {limit : Nat} {c : Char} {cs : List Char} (hc : c.isDigit)
    (h0 : c = '0' → cs = []) :
    natural? limit (c :: cs) = (digitsIn? 10 (c :: cs)).filter (· < limit) := by
  have hplus : c ≠ '+' := by rintro rfl; revert hc; decide
  have hminus : c ≠ '-' := by rintro rfl; revert hc; decide
  by_cases hz : c = '0'
  · subst hz
    rw [h0 rfl]
    rfl
  · have hlead : hasLeadingZero (c :: cs) = false := by simp [hasLeadingZero, hplus, hminus, hz]
    simp [natural?, hplus, hz, hlead]

theorem natural?_toDigits {limit n : Nat} (h : n < limit) :
    natural? limit (Nat.toDigits 10 n) = some n := by
  obtain ⟨c, cs, heq, hc, h0⟩ := toDigits_head n
  rw [heq, natural?_of_head hc fun hz => (h0 hz).2, ← heq, digitsIn?_toDigits]
  simp [h]

theorem toList_toString (n : Nat) : (toString n).toList = Nat.toDigits 10 n :=
  Nat.toList_repr

/-! ## The core schema -/

/-- A text that starts with a digit is none of the words of the core schema. -/
theorem ne_word {s t : String} (hs : s.toList.head?.any Char.isDigit)
    (ht : t.toList.head?.any Char.isDigit = false) : s ≠ t := by
  rintro rfl
  simp [ht] at hs

theorem coreValue_toString {n : Nat} (h : n < Nat.pow 2 64) :
    coreValue (toString n) = .natural n := by
  have hd : (toString n).toList.head?.any Char.isDigit := by
    obtain ⟨c, cs, heq, hc, -⟩ := toDigits_head n
    rw [toList_toString, heq]
    exact hc
  have hempty : (toString n).isEmpty = false := by simp
  have hnull : isNullText (toString n) = false := by
    simp only [isNullText, ne_word hd (t := "null") (by decide), ne_word hd (t := "Null") (by decide),
      ne_word hd (t := "NULL") (by decide), ne_word hd (t := "~") (by decide), decide_false,
      Bool.or_self]
  have hbool : boolOfText? (toString n) = none := by
    simp only [boolOfText?, ne_word hd (t := "true") (by decide), ne_word hd (t := "True") (by decide),
      ne_word hd (t := "TRUE") (by decide), ne_word hd (t := "false") (by decide),
      ne_word hd (t := "False") (by decide), ne_word hd (t := "FALSE") (by decide), decide_false,
      Bool.or_self, Bool.false_eq_true, if_false]
  have hwhole : wholeOfText? (toString n) = some (.natural n) := by
    simp only [wholeOfText?, toList_toString, natural?_toDigits h]
  simp only [coreValue, hempty, hnull, hbool, hwhole, Bool.or_self, Bool.false_eq_true, if_false]

theorem wholeOfText?_ne_text (s t : String) : wholeOfText? s ≠ some (.text t) := by
  fun_cases wholeOfText?
  case case4 cs _ _ _ => cases negative? (.pow 2 127) cs <;> simp
  all_goals simp

/-- A plain scalar that is a string stands for its own text, and is no empty value. -/
theorem coreValue_eq_text {s t : String} (h : coreValue s = .text t) :
    t = s ∧ (s.isEmpty || isNullText s) = false := by
  unfold coreValue at h
  split at h
  · cases h
  · rename_i habsent
    refine ⟨?_, by simpa using habsent⟩
    split at h
    · cases h
    · split at h
      · rename_i v hv
        exact absurd (h ▸ hv) (wholeOfText?_ne_text s t)
      · split at h
        · cases h
          rfl
        · split at h <;> cases h
          rfl

/-! ## Written strings -/

/-- Only a text that reads back as a string is written plain. -/
theorem coreValue_of_plain {s : String} (h : ScalarStyle.ofText s = .plain) :
    coreValue s = .text s := by
  have hquotes : needsQuotes s = false := by
    unfold ScalarStyle.ofText at h
    grind
  unfold needsQuotes at hquotes
  split at hquotes
  · rename_i t ht
    rw [ht, (coreValue_eq_text ht).1]
  · cases hquotes

/-- A written string stands for itself. -/
theorem value_text (s : String) : Scalar.value { text := s, style := .ofText s } = .ok (.text s) := by
  unfold Scalar.value
  by_cases h : ScalarStyle.ofText s = .plain
  · simp [h, coreValue_of_plain h]
  · simp [h]

/-- A written string is no absent value. -/
theorem isAbsent_text (s : String) :
    Form.Shape.isAbsent { text := s, style := .ofText s } = .ok false := by
  unfold Form.Shape.isAbsent
  by_cases h : ScalarStyle.ofText s = .plain
  · simp only [h, ne_eq, not_true_eq_false, if_false,
      (coreValue_eq_text (coreValue_of_plain h)).2]
  · simp [h]

end GridBench.Yaml
