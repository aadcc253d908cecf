/-
  GridBench.Proofs.Settings.Search

  Which file the settings come from.  Without a file named on the command line
  the candidates are gone through in their order (`seek`): those that are missing
  or cannot be loaded are passed over, and the first that can be loaded is the
  choice, or the defaults are if there is none (`Found`).  What is logged tells
  the same story: a warning for each candidate passed over that is there, and one
  line about the choice.  A named file is the only one that counts.  Main
  statement: `load_falls_back`.
-/
import Mathlib
import GridBench.Settings.Search

namespace GridBench

/-- The name of a file and what there is under it. -/
abbrev Candidate := String × FileState

namespace Candidate

/-- Whether there is anything under the candidate's name. -/
def isThere (c : Candidate) : Bool := c.2.isPresent

/-- The candidate can be read as text, and the settings are what the text stands for. -/
def Loads (c : Candidate) (s : Settings) : Prop :=
  ∃ content text, c.2 = .bytes content ∧ String.fromUTF8? content = some text ∧
    Settings.ofYaml text = .ok s

/-- The record is the warning about a candidate that cannot be loaded. -/
def Warns (c : Candidate) (r : Record) : Prop :=
  ∃ e, Settings.ofFile c.2 = .error e ∧
    r = ⟨.warn, .configuration, "Failed to load " ++ c.1 ++ ": " ++ e.chain.headD ""⟩

theorem loads_iff {c : Candidate} {s : Settings} :
    c.Loads s ↔ c.isThere = true ∧ Settings.ofFile c.2 = .ok s := by
  obtain ⟨name, file⟩ := c
  match file with
  | .missing | .unreadable _ => simp [Loads, isThere, FileState.isPresent, Settings.ofFile]
  | .bytes content =>
    simp only [Loads, isThere, FileState.isPresent, Settings.ofFile, FileState.bytes.injEq,
      true_and]
    -- Bytes that are no text are refused before anything is parsed.
    cases htext : String.fromUTF8? content with
    | none => simp [htext]
    | some text =>
      cases hyaml : Settings.ofYaml text <;> simp [htext, hyaml, Except.mapError]

end Candidate

namespace ConfigFiles

/-- The files that are gone through if none is named: the project's, and then the user's. -/
def candidates (files : ConfigFiles) : List Candidate :=
  (projectName, files.project) :: files.user.toList

/-- The line about a candidate that is chosen. -/
def choiceOf (c : Candidate) : Record := info ("Loaded config from " ++ c.1)

/-- What the candidates come to that were not passed over, and the line about it: the first of them
    is chosen, or the defaults are if none is left. -/
inductive Chosen : List Candidate → Settings → Record → Prop
  | candidate {c : Candidate} {later : List Candidate} {s : Settings} : c.Loads s →
      Chosen (c :: later) s (choiceOf c)
  | defaults : Chosen [] {} (info "No config file found, using defaults")

/-- How a search went: which candidates were passed over and which were not, the warnings about the
    former, and the choice among the latter with the line about it. -/
structure Found (cs passed rest : List Candidate) (warnings : List Record) (s : Settings)
    (choice : Record) : Prop where
  split : cs = passed ++ rest
  unfit : ∀ c ∈ passed, ∀ s, ¬ c.Loads s
  warned : List.Forall₂ Candidate.Warns (passed.filter Candidate.isThere) warnings
  chosen : Chosen rest s choice

/-! ## Going through the candidates -/

/-- The settings and the log records that candidates yield in their order. -/
def seek : List Candidate → Settings × List Record
  | [] => ({}, [info "No config file found, using defaults"])
  | c :: cs =>
    match attempt c.1 c.2 with
    | (some (s, chosen), warnings) => (s, warnings ++ [chosen])
    | (none, warnings) => ((seek cs).1, warnings ++ (seek cs).2)

theorem load_eq_seek (files : ConfigFiles) (h : files.explicit = none) :
    files.load = (.ok (seek files.candidates).1, (seek files.candidates).2) := by
  rw [load, h]
  simp only [candidates, seek]
  -- The project's file is tried first; the user's may have no place to be.
  generalize attempt projectName files.project = x
  obtain ⟨_ | ⟨s, chosen⟩, warnings⟩ := x
  · cases huser : files.user with
    | none => simp [seek]
    | some c =>
      obtain ⟨name, file⟩ := c
      simp only [Option.toList_some, seek]
      generalize attempt name file = y
      obtain ⟨_ | ⟨s, chosen⟩, more⟩ := y <;> simp
  · rfl

theorem attempt_of_loads {c : Candidate} {s : Settings} (h : c.Loads s) :
    attempt c.1 c.2 = (some (s, choiceOf c), []) := by
  obtain ⟨hthere, hfile⟩ := Candidate.loads_iff.mp h
  rw [attempt, if_pos (show c.2.isPresent = true from hthere), hfile]
  rfl

/-- A candidate that cannot be loaded is warned about if it is there. -/
theorem attempt_of_not_loads {c : Candidate} (h : ∀ s, ¬ c.Loads s) :
    ∃ warnings, attempt c.1 c.2 = (none, warnings) ∧
      List.Forall₂ Candidate.Warns ([c].filter Candidate.isThere) warnings := by
  cases hthere : c.isThere with
  | false =>
    refine ⟨[], ?_, ?_⟩
    · rw [attempt, if_neg (show ¬ c.2.isPresent = true from Bool.eq_false_iff.mp hthere)]
    · rw [List.filter_cons_of_neg (by simp [hthere])]
      exact .nil
  | true =>
    cases hfile : Settings.ofFile c.2 with
    | ok s => exact absurd (Candidate.loads_iff.mpr ⟨hthere, hfile⟩) (h s)
    | error e =>
      have hattempt : attempt c.1 c.2 = (none, [⟨.warn, .configuration,
          "Failed to load " ++ c.1 ++ ": " ++ e.chain.headD ""⟩]) := by
        rw [attempt, if_pos (show c.2.isPresent = true from hthere), hfile]
      refine ⟨_, hattempt, ?_⟩
      rw [List.filter_cons_of_pos hthere]
      exact .cons ⟨e, hfile, rfl⟩ .nil

theorem seek_of_loads {c : Candidate} {s : Settings} (h : c.Loads s) (later : List Candidate) :
    seek (c :: later) = (s, [choiceOf c]) := by
  rw [seek, attempt_of_loads h]
  rfl

/-- A candidate that cannot be loaded is passed over, and only a warning is left of it. -/
theorem seek_of_not_loads {c : Candidate} (h : ∀ s, ¬ c.Loads s) :
    ∃ warnings, List.Forall₂ Candidate.Warns ([c].filter Candidate.isThere) warnings ∧
      ∀ cs, seek (c :: cs) = ((seek cs).1, warnings ++ (seek cs).2) := by
  obtain ⟨warnings, hattempt, hwarned⟩ := attempt_of_not_loads h
  refine ⟨warnings, hwarned, fun cs => ?_⟩
  rw [seek, hattempt]

/-- Every search comes to a choice. -/
theorem found_seek (cs : List Candidate) :
    ∃ passed rest warnings choice, Found cs passed rest warnings (seek cs).1 choice ∧
      (seek cs).2 = warnings ++ [choice] := by
  induction cs with
  | nil => exact ⟨[], [], [], _, ⟨rfl, by simp, .nil, .defaults⟩, rfl⟩
  | cons c cs ih =>
    by_cases hloads : ∃ s, c.Loads s
    · obtain ⟨s, hloads⟩ := hloads
      have hseek := seek_of_loads hloads cs
      refine ⟨[], c :: cs, [], choiceOf c, ⟨rfl, by simp, .nil, ?_⟩, by rw [hseek]; rfl⟩
      rw [hseek]
      exact .candidate hloads
    -- The candidate is passed over, and the search goes on among the others.
    · have hunfit : ∀ s, ¬ c.Loads s := fun s hs => hloads ⟨s, hs⟩
      obtain ⟨more, hmore, hseek⟩ := seek_of_not_loads hunfit
      obtain ⟨passed, rest, warnings, choice, h, hlogs⟩ := ih
      refine ⟨c :: passed, rest, more ++ warnings, choice, ⟨?_, ?_, ?_, ?_⟩, ?_⟩
      · rw [h.split, List.cons_append]
      · exact List.forall_mem_cons.mpr ⟨hunfit, h.unfit⟩
      · rw [← List.singleton_append, List.filter_append]
        exact List.rel_append hmore h.warned
      · rw [hseek]
        exact h.chosen
      · rw [hseek, hlogs, List.append_assoc]

/-- What comes behind a candidate that is chosen is not looked at. -/
theorem seek_ignores {passed : List Candidate} {c : Candidate} {s : Settings}
    (hpassed : ∀ c ∈ passed, ∀ s, ¬ c.Loads s) (hloads : c.Loads s)
    (later later' : List Candidate) :
    seek (passed ++ c :: later) = seek (passed ++ c :: later') := by
  induction passed with
  | nil => rw [List.nil_append, List.nil_append, seek_of_loads hloads, seek_of_loads hloads]
  | cons d passed ih =>
    obtain ⟨hd, hpassed⟩ := List.forall_mem_cons.mp hpassed
    obtain ⟨warnings, -, hseek⟩ := seek_of_not_loads hd
    rw [List.cons_append, List.cons_append, hseek, hseek, ih hpassed]

/-! ## Loading -/

/-- Without a named file, loading never fails: the first candidate that can be loaded yields the
    settings, or the defaults hold.  The log has one warning for each candidate in front of the
    choice that is there, and one line about the choice.  Files that begin with the same candidates
    up to a chosen one are loaded alike.  A named file is loaded or refused, without a word in the
    log, and nothing else counts. -/
theorem load_falls_back (files : ConfigFiles) :
    (files.explicit = none → ∃ passed rest warnings s choice,
      Found files.candidates passed rest warnings s choice ∧
      files.load = (.ok s, warnings ++ [choice]) ∧
      ∀ c later, ∀ files' : ConfigFiles, rest = c :: later → files'.explicit = none →
        passed ++ [c] <+: files'.candidates → files'.load = files.load) ∧
    ∀ name file, files.explicit = some (name, file) →
      files.load = ((Settings.ofFile file).mapError fun e =>
        ("Failed to load config from " ++ name) :: e.chain, []) ∧
      ∀ files' : ConfigFiles, files'.explicit = some (name, file) → files'.load = files.load := by
  refine ⟨fun hnone => ?_, fun name file hsome => ?_⟩
  · obtain ⟨passed, rest, warnings, choice, hfound, hlogs⟩ := found_seek files.candidates
    refine ⟨passed, rest, warnings, _, choice, hfound, ?_, ?_⟩
    · rw [load_eq_seek files hnone, hlogs]
    · rintro c later files' rfl hnone' ⟨later', hsame⟩
      have hsplit := hfound.split
      obtain ⟨s, hloads⟩ : ∃ s, c.Loads s := by
        generalize (seek files.candidates).1 = s at hfound
        cases hfound.chosen with
        | candidate hloads => exact ⟨s, hloads⟩
      have hseek : seek files'.candidates = seek files.candidates := by
        rw [← hsame, hsplit, List.append_assoc, List.singleton_append]
        exact seek_ignores hfound.unfit hloads later' later
      rw [load_eq_seek files' hnone', load_eq_seek files hnone, hseek]
  · have hload : ∀ files' : ConfigFiles, files'.explicit = some (name, file) →
        files'.load = ((Settings.ofFile file).mapError fun e =>
          ("Failed to load config from " ++ name) :: e.chain, []) := by
      intro files' hsome'
      rw [load, hsome']
    refine ⟨hload files hsome, fun files' hsome' => ?_⟩
    exact (hload files' hsome').trans (hload files hsome).symm

/-- The project's file cannot be read, and the user's is empty. -/
def unreadableProject : ConfigFiles where
  project := .unreadable "Permission denied (os error 13)"
  user := some ("gridload.yml", .bytes ByteArray.empty)

/-- The sample with a named file that is missing. -/
def missingNamed : ConfigFiles := { unreadableProject with explicit := some ("x.yml", .missing) }

/-- Of the sample the user's file is chosen, behind one warning; and if a missing file is named, the
    user's does not help. -/
theorem load_falls_back_sample : unreadableProject.explicit = none ∧
    (∃ w s, unreadableProject.load = (.ok s, [w, info "Loaded config from gridload.yml"]) ∧
      Candidate.Warns (projectName, unreadableProject.project) w ∧
      Candidate.Loads ("gridload.yml", .bytes ByteArray.empty) s) ∧
    missingNamed.explicit = some ("x.yml", .missing) ∧
    missingNamed.load = (.error ["Failed to load config from x.yml", "Failed to read config file",
      "No such file or directory (os error 2)"], []) := by
  refine ⟨rfl, ?_, rfl, ((load_falls_back missingNamed).2 "x.yml" .missing rfl).1⟩
  obtain ⟨passed, rest, warnings, s, choice, hfound, hload, -⟩ :=
    (load_falls_back unreadableProject).1 rfl
  have hproject : ∀ s, ¬ Candidate.Loads (projectName, unreadableProject.project) s := by
    rintro s ⟨content, text, hbytes, -⟩
    cases hbytes
  have huser : Candidate.Loads ("gridload.yml", .bytes ByteArray.empty) {} := by
    have hvalid : ByteArray.IsValidUTF8 ByteArray.empty := "".isValidUTF8
    have hempty : Yaml.Document.ofString "" = .ok { root := none, size := 1 } := by cbv
    refine ⟨_, "", rfl, dif_pos hvalid, ?_⟩
    rw [Settings.ofYaml, Form.Shape.ofYaml, hempty]
    rfl
  rw [hload]
  -- The search cannot stop before the project's file, nor go on behind the user's.
  obtain ⟨hsplit, hunfit, hwarned, hchosen⟩ := hfound
  cases passed with
  | nil =>
    obtain rfl : _ = rest := hsplit
    cases hchosen with
    | candidate hloads => exact absurd hloads (hproject s)
  | cons c passed =>
    obtain ⟨rfl, htail⟩ := List.cons.inj hsplit
    cases passed with
    | nil =>
      obtain rfl : _ = rest := htail
      cases hwarned with
      | cons hw hnone =>
        cases hnone
        cases hchosen with
        | candidate hloads => exact ⟨_, s, rfl, hw, hloads⟩
    | cons d passed =>
      have hd : ("gridload.yml", .bytes ByteArray.empty) = d := (List.cons.inj htail).1
      exact absurd huser (hunfit _ (by simp [← hd]) {})

end ConfigFiles

end GridBench
