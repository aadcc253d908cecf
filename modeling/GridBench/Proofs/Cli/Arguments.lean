/-
  GridBench.Proofs.Cli.Arguments

  Where options stand on the command line.  An invocation is spelled by a command
  word with options around it (`Invocation.Spells`): each option that it has
  stands once, in any order, those of all commands before or behind the word and
  the client's identity behind it.  Reading the options of one place puts each of
  them down (`arguments_written`), and what is put down last does not depend on
  the order, nor on the place.  Main statement: `ofArguments_spelled`.
-/
import Mathlib.Data.List.Induction
import Mathlib.Data.List.Nodup
import Mathlib.Data.List.Perm.Basic
import GridBench.Cli.Arguments

namespace GridBench

/-! ## Written options -/

/-- An option as it is written, with its value attached. -/
inductive WrittenOption where
  | config (path : String)
  | verbose
  | logStderr
  | clientId (id : String)
deriving DecidableEq, Repr

namespace WrittenOption

/-- The argument. -/
def text : WrittenOption → String
  | .config path => "--config=" ++ path
  | .verbose => "--verbose"
  | .logStderr => "--log-stderr"
  | .clientId id => "--client-id=" ++ id

/-- The option that is written. -/
def option : WrittenOption → CliOption
  | .config _ => .config
  | .verbose => .verbose
  | .logStderr => .logStderr
  | .clientId _ => .clientId

/-- The value that is attached to it. -/
def value? : WrittenOption → Option String
  | .config path => some path
  | .verbose => none
  | .logStderr => none
  | .clientId id => some id

/-- What stands behind the option's name. -/
def attachment (o : WrittenOption) : List Char :=
  match o.value? with
  | none => []
  | some v => '=' :: v.toList

theorem toList_text (o : WrittenOption) :
    o.text.toList = '-' :: '-' :: (o.option.long.toList ++ o.attachment) := by
  have hattached (stem name v : String)
      (hstem : stem.toList = '-' :: '-' :: (name.toList ++ ['='])) :
      (stem ++ v).toList = '-' :: '-' :: (name.toList ++ '=' :: v.toList) := by
    rw [String.toList_append, hstem, List.cons_append, List.cons_append, List.append_assoc]
    rfl
  cases o with
  | config path => exact hattached "--config=" "config" path (by decide)
  | verbose => rfl
  | logStderr => rfl
  | clientId id => exact hattached "--client-id=" "client-id" id (by decide)

/-- All options but the client's identity are known everywhere. -/
theorem known_of_ne {o : WrittenOption} (h : o.option ≠ .clientId) (place : Option CommandWord) :
    o.option ∈ CliOption.known place := by
  cases o with
  | clientId id => exact absurd rfl h
  | config _ | verbose | logStderr =>
    rcases place with _ | _ | _ <;> simp [option, CliOption.known]

end WrittenOption

namespace CliOption

theorem equals_not_mem_long (o : CliOption) : '=' ∉ o.long.toList := by
  cases o <;> decide

theorem long_ne_empty (o : CliOption) : o.long.toList ≠ [] := by
  cases o <;> decide

/-- Each option has a name of its own. -/
theorem long_inj {o o' : CliOption} (h : o.long = o'.long) : o = o' := by
  revert h
  cases o <;> cases o' <;> decide

theorem find?_known {place : Option CommandWord} {o : CliOption} (h : o ∈ known place) :
    (known place).find? (fun o' => o'.long = o.long) = some o := by
  have hsome : ((known place).find? fun o' => o'.long = o.long).isSome = true :=
    List.find?_isSome.mpr ⟨o, h, decide_eq_true rfl⟩
  obtain ⟨o', ho'⟩ := Option.isSome_iff_exists.mp hsome
  have hlong : o'.long = o.long := by simpa using List.find?_some ho'
  rw [ho', long_inj hlong]

end CliOption

/-! ## What is given -/

namespace GivenOptions

/-- An option is put down among those that are given. -/
def put (g : GivenOptions) : WrittenOption → GivenOptions
  | .config path => { g with config := some path }
  | .verbose => { g with verbose := true }
  | .logStderr => { g with logStderr := true }
  | .clientId id => { g with clientId := some id }

/-- An option is not given yet. -/
def Lacks (g : GivenOptions) : WrittenOption → Prop
  | .config _ => g.config = none
  | .verbose => g.verbose = false
  | .logStderr => g.logStderr = false
  | .clientId _ => g.clientId = none

/-- Accepts an option with what is attached to it. -/
def accept (g : GivenOptions) (o : WrittenOption) : Except UsageError GivenOptions :=
  match o.value? with
  | none => g.acceptFlag o.option
  | some v => g.acceptValue o.option v

/-- The options of a list, put down one after the other. -/
def ofWritten (os : List WrittenOption) : GivenOptions := os.foldl put {}

@[simp] theorem lacks_empty (o : WrittenOption) : Lacks {} o := by
  cases o <;> rfl

variable {g : GivenOptions} {o o' : WrittenOption}

/-- An option that is not given yet is accepted, a path only if it is not empty. -/
theorem accept_eq (h : g.Lacks o) (hvalue : o ≠ .config "") : g.accept o = .ok (g.put o) := by
  cases o with
  | config path =>
    have hnone : g.config = none := h
    have hpath : path.isEmpty = false := by
      rw [← Bool.not_eq_true, String.isEmpty_iff]
      rintro rfl
      exact hvalue rfl
    simp [accept, acceptValue, WrittenOption.value?, WrittenOption.option, hnone, hpath, put]
  | verbose =>
    have hfalse : g.verbose = false := h
    simp [accept, acceptFlag, WrittenOption.value?, WrittenOption.option, hfalse, put]
  | logStderr =>
    have hfalse : g.logStderr = false := h
    simp [accept, acceptFlag, WrittenOption.value?, WrittenOption.option, hfalse, put]
  | clientId id =>
    have hnone : g.clientId = none := h
    simp [accept, acceptValue, WrittenOption.value?, WrittenOption.option, hnone, put]

/-- Putting an option down leaves the others alone. -/
theorem Lacks.put (h : g.Lacks o') (hne : o.option ≠ o'.option) : (g.put o).Lacks o' := by
  cases o <;> cases o' <;> first | exact h | exact absurd rfl hne

theorem put_comm (g : GivenOptions) (hne : o.option ≠ o'.option) :
    (g.put o).put o' = (g.put o').put o := by
  cases o <;> cases o' <;> first | rfl | exact absurd rfl hne

@[simp] theorem overlay_put (g h : GivenOptions) (o : WrittenOption) :
    g.overlay (h.put o) = (g.overlay h).put o := by
  cases o <;> rfl

@[simp] theorem overlay_empty (g : GivenOptions) : g.overlay {} = g := by
  obtain ⟨config, verbose, logStderr, clientId⟩ := g
  rfl

/-- Options behind the command word are put down on those before it. -/
theorem overlay_ofWritten (g : GivenOptions) (os : List WrittenOption) :
    g.overlay (ofWritten os) = os.foldl put g := by
  -- The option that is put down last is taken off the end.
  induction os using List.reverseRecOn with
  | nil => exact overlay_empty g
  | append_singleton os o ih =>
    rw [ofWritten, List.foldl_concat, List.foldl_concat, overlay_put, ← ih]
    rfl

/-- The order of different options does not matter. -/
theorem ofWritten_perm {os os' : List WrittenOption} (h : os.Perm os')
    (hnodup : (os.map WrittenOption.option).Nodup) : ofWritten os = ofWritten os' := by
  refine h.foldl_eq' (fun o ho o' ho' g => ?_) _
  by_cases hsame : o.option = o'.option
  · rw [List.inj_on_of_nodup_map hnodup ho ho' hsame]
  · exact put_comm g hsame

end GivenOptions

/-! ## Reading the arguments -/

namespace ArgumentState

variable {place : Option CommandWord} {g : GivenOptions} {o : WrittenOption}

/-- The name of an option ends at the first equals sign, whatever signs its value has. -/
theorem splitLong_written (o : WrittenOption) :
    splitLong (o.option.long.toList ++ o.attachment) = (o.option.long, o.value?) := by
  have hname : ∀ ch ∈ o.option.long.toList, decide (ch ≠ '=') = true := by
    intro ch hch
    refine decide_eq_true fun heq => ?_
    exact o.option.equals_not_mem_long (heq ▸ hch)
  have htake : (o.option.long.toList ++ o.attachment).takeWhile (· ≠ '=') =
      o.option.long.toList := by
    rw [List.takeWhile_append_of_pos hname, WrittenOption.attachment]
    cases o.value? <;> simp
  rw [splitLong, htake, List.drop_left, WrittenOption.attachment]
  cases o.value? <;> simp

theorem flag_settled (g : GivenOptions) (o : CliOption) :
    flag { given := g } o = (g.acceptFlag o).map fun g => { given := g } := by
  show (g.acceptFlag o >>= fun g => pure ({ given := g } : ArgumentState)) = _
  cases g.acceptFlag o <;> rfl

theorem attached_settled (g : GivenOptions) (o : CliOption) (v : String) :
    attached { given := g } o v = (g.acceptValue o v).map fun g => { given := g } := by
  show (g.acceptValue o v >>= fun g => pure ({ given := g } : ArgumentState)) = _
  cases g.acceptValue o v <;> rfl

/-- A written option is found by its name and accepted with what is attached to it. -/
theorem long_written (hknown : o.option ∈ CliOption.known place) :
    long place { given := g } o.option.long o.value? =
      (g.accept o).map fun g => { given := g } := by
  rw [long, CliOption.find?_known hknown, GivenOptions.accept]
  cases o with
  | config path => exact attached_settled g .config path
  | verbose => exact flag_settled g .verbose
  | logStderr => exact flag_settled g .logStderr
  | clientId id => exact attached_settled g .clientId id

/-- An option that can stand at a place, is not given there yet and has a proper value is put
    down. -/
theorem argument_written (hknown : o.option ∈ CliOption.known place) (hlacks : g.Lacks o)
    (hvalue : o ≠ .config "") :
    argument place o.text { given := g } = .ok { given := g.put o } := by
  have hargument : argument place o.text { given := g } =
      long place { given := g } o.option.long o.value? := by
    unfold argument
    rw [o.toList_text]
    simp only [splitLong_written]
  rw [hargument, long_written hknown, GivenOptions.accept_eq hlacks hvalue]
  rfl

/-- A written option is no word that stands for itself. -/
theorem text_ne {a : String} (h : a.toList.take 2 ≠ ['-', '-'] ∨ a.toList = ['-', '-'])
    (o : WrittenOption) : o.text ≠ a := by
  rintro rfl
  rw [o.toList_text] at h
  rcases h with htwo | hdashes
  · exact htwo rfl
  · have hempty : o.option.long.toList ++ o.attachment = [] :=
      (List.cons.inj (List.cons.inj hdashes).2).2
    exact o.option.long_ne_empty (List.append_eq_nil_iff.mp hempty).1

theorem commandWord?_written (s : ArgumentState) (o : WrittenOption) :
    commandWord? place s o.text = none := by
  have hword : CommandWord.ofText? o.text = none := by
    refine List.find?_eq_none.mpr fun w _ => ?_
    have hne : o.text ≠ w.text := text_ne (.inl (by cases w <;> decide)) o
    simpa using hne.symm
  rw [commandWord?, hword]
  split <;> rfl

/-- One written option is read. -/
theorem arguments_cons (hknown : o.option ∈ CliOption.known place) (hlacks : g.Lacks o)
    (hvalue : o ≠ .config "") (rest : List String) :
    arguments place (o.text :: rest) { given := g } =
      arguments place rest { given := g.put o } := by
  have hhelp : o.text ≠ helpWord := text_ne (.inl (by decide)) o
  have hdashes : o.text ≠ "--" := text_ne (.inr (by decide)) o
  conv_lhs => unfold arguments
  simp only [commandWord?_written, argument_written hknown hlacks hvalue, hhelp, hdashes,
    decide_false, Bool.and_false, Bool.false_eq_true, if_false]

/-- A list of options is written as it can be at a place: all can stand there, none twice, and a
    path is not empty. -/
structure Writable (place : Option CommandWord) (os : List WrittenOption) : Prop where
  known : ∀ o ∈ os, o.option ∈ CliOption.known place
  once : (os.map WrittenOption.option).Nodup
  proper : .config "" ∉ os

theorem Writable.tail {os : List WrittenOption} (h : Writable place (o :: os)) :
    Writable place os where
  known o' ho' := h.known o' (List.mem_cons_of_mem _ ho')
  once := (List.nodup_cons.mp h.once).2
  proper hmem := h.proper (List.mem_cons_of_mem _ hmem)

/-- The written options at the beginning of the arguments are put down in their order. -/
theorem arguments_written {os : List WrittenOption} (h : Writable place os)
    (hlacks : ∀ o ∈ os, g.Lacks o) (rest : List String) :
    arguments place (os.map WrittenOption.text ++ rest) { given := g } =
      arguments place rest { given := os.foldl GivenOptions.put g } := by
  -- What is put down first is not among the others, which are still lacking then.
  induction os generalizing g with
  | nil => rfl
  | cons o os ih =>
    have hvalue : o ≠ .config "" := by
      rintro rfl
      exact h.proper List.mem_cons_self
    have hothers : ∀ o' ∈ os, (g.put o).Lacks o' := by
      intro o' ho'
      refine (hlacks o' (List.mem_cons_of_mem _ ho')).put fun hsame => ?_
      exact (List.nodup_cons.mp h.once).1 (hsame ▸ List.mem_map_of_mem ho')
    rw [List.map_cons, List.cons_append,
      arguments_cons (h.known o List.mem_cons_self) (hlacks o List.mem_cons_self) hvalue,
      ih h.tail hothers]
    rfl

/-- Reading stops at a command word. -/
theorem arguments_word (w : CommandWord) (rest : List String) :
    arguments none (w.text :: rest) { given := g } = .ok ({ given := g }, some (w, rest)) := by
  cases w <;> rfl

end ArgumentState

/-! ## Invocations -/

namespace Command

/-- The word that stands for a command. -/
def word : Command → CommandWord
  | .run _ => .run
  | .showConfig => .showConfig

/-- The options that only this command has. -/
def options : Command → List WrittenOption
  | .run (some id) => [.clientId id]
  | .run none => []
  | .showConfig => []

end Command

namespace Invocation

/-- The options that an invocation has, each of them once. -/
def options (inv : Invocation) : List WrittenOption :=
  inv.config.toList.map .config ++ (if inv.verbose then [.verbose] else [])
    ++ (if inv.logStderr then [.logStderr] else []) ++ inv.command.options

/-- The options before the command word and those behind it are those of an invocation, in any
    order; the client's identity stands behind the word. -/
structure Spells (inv : Invocation) (before behind : List WrittenOption) : Prop where
  each : (before ++ behind).Perm inv.options
  everywhere : ∀ o ∈ before, o.option ≠ .clientId

/-- The arguments that options and a command word make up. -/
def written (w : CommandWord) (before behind : List WrittenOption) : List String :=
  before.map WrittenOption.text ++ w.text :: behind.map WrittenOption.text

variable {inv : Invocation} {before behind : List WrittenOption}

/-- The options of an invocation are some of the four, in the order of these. -/
theorem sublist_options (inv : Invocation) :
    (inv.options.map WrittenOption.option).Sublist [.config, .verbose, .logStderr, .clientId] := by
  have hconfig : ((inv.config.toList.map WrittenOption.config).map
      WrittenOption.option).Sublist [CliOption.config] := by
    cases inv.config with
    | none => exact List.nil_sublist _
    | some path => exact List.Sublist.refl _
  have hflag (present : Bool) (o : WrittenOption) :
      ((if present then [o] else []).map WrittenOption.option).Sublist [o.option] := by
    cases present with
    | false => exact List.nil_sublist _
    | true => exact List.Sublist.refl _
  have hcommand : (inv.command.options.map WrittenOption.option).Sublist [CliOption.clientId] := by
    rcases inv.command with (_ | id) | _
    · exact List.nil_sublist _
    · exact List.Sublist.refl _
    · exact List.nil_sublist _
  rw [options, List.map_append, List.map_append, List.map_append]
  exact ((hconfig.append (hflag inv.verbose .verbose)).append
    (hflag inv.logStderr .logStderr)).append hcommand

/-- No option is there twice. -/
theorem nodup_options (inv : Invocation) : (inv.options.map WrittenOption.option).Nodup :=
  inv.sublist_options.nodup (by decide)

/-- An invocation is what its options put down say, with its command. -/
theorem ofOptions_ofWritten (inv : Invocation) :
    ofOptions inv.command.word (.ofWritten inv.options) = inv := by
  obtain ⟨config, verbose, logStderr, command⟩ := inv
  cases config <;> cases verbose <;> cases logStderr <;> rcases command with (_ | _) | _ <;> rfl

/-- The options of an invocation are known behind its command word. -/
theorem known_of_mem_options {o : WrittenOption} (h : o ∈ inv.options) :
    o.option ∈ CliOption.known (some inv.command.word) := by
  by_cases hglobal : o.option = .clientId
  · cases o with
    | clientId id =>
      have hown : .clientId id ∈ inv.command.options := by simpa [options] using h
      -- Only the command that runs has an identity.
      cases hcommand : inv.command with
      | run named =>
        show CliOption.clientId ∈ CliOption.known (some .run)
        decide
      | showConfig =>
        rw [hcommand] at hown
        exact absurd hown List.not_mem_nil
    | config _ | verbose | logStderr => cases hglobal
  · exact WrittenOption.known_of_ne hglobal _

theorem config_of_mem_options {path : String} (h : .config path ∈ inv.options) :
    inv.config = some path := by
  have hown : .config path ∉ inv.command.options := by
    rcases inv.command with (_ | id) | _ <;> simp [Command.options]
  simpa [options, hown] using h

namespace Spells

variable (h : inv.Spells before behind) (hpath : inv.config ≠ some "")

include h in
theorem once : ((before ++ behind).map WrittenOption.option).Nodup :=
  (h.each.map WrittenOption.option).nodup_iff.mpr inv.nodup_options

include h hpath in
theorem writable_before : ArgumentState.Writable none before where
  known o ho := WrittenOption.known_of_ne (h.everywhere o ho) none
  once := h.once.sublist ((List.sublist_append_left _ _).map _)
  proper hmem :=
    hpath (config_of_mem_options (h.each.mem_iff.mp (List.mem_append_left _ hmem)))

include h hpath in
theorem writable_behind : ArgumentState.Writable (some inv.command.word) behind where
  known _ ho := known_of_mem_options (h.each.mem_iff.mp (List.mem_append_right _ ho))
  once := h.once.sublist ((List.sublist_append_right _ _).map _)
  proper hmem :=
    hpath (config_of_mem_options (h.each.mem_iff.mp (List.mem_append_right _ hmem)))

end Spells

/-- It does not matter where options stand.  Whatever the path of the configuration, if it is not
    empty, and whatever the client's identity, dashes and equals signs included: if the options that
    an invocation has stand around its command word, each once and in any order, with the client's
    identity behind it, then the invocation is what the arguments are read as. -/
theorem ofArguments_spelled (inv : Invocation) (hpath : inv.config ≠ some "")
    (before behind : List WrittenOption) (h : inv.Spells before behind) :
    ofArguments (written inv.command.word before behind) = .ok inv := by
  have houter : ArgumentState.arguments none (written inv.command.word before behind) {} =
      .ok ({ given := .ofWritten before },
        some (inv.command.word, behind.map WrittenOption.text)) :=
    (ArgumentState.arguments_written (h.writable_before hpath)
      (fun o _ => GivenOptions.lacks_empty o) _).trans (ArgumentState.arguments_word _ _)
  have hinner : ArgumentState.arguments (some inv.command.word)
      (behind.map WrittenOption.text) {} = .ok ({ given := .ofWritten behind }, none) := by
    have hread := ArgumentState.arguments_written (h.writable_behind hpath)
      (fun o _ => GivenOptions.lacks_empty o) []
    rw [List.append_nil] at hread
    exact hread
  have hgiven : (GivenOptions.ofWritten before).overlay (.ofWritten behind) =
      .ofWritten inv.options := by
    rw [GivenOptions.overlay_ofWritten, ← GivenOptions.ofWritten_perm h.each h.once]
    exact List.foldl_append.symm
  have hread : ofArguments (written inv.command.word before behind) =
      .ok (ofOptions inv.command.word
        ((GivenOptions.ofWritten before).overlay (.ofWritten behind))) := by
    rw [ofArguments, houter]
    show (ArgumentState.arguments (some inv.command.word) (behind.map WrittenOption.text) {} >>=
      fun x => x.1.settle >>= fun inner => pure (ofOptions inv.command.word
        ((GivenOptions.ofWritten before).overlay inner))) = _
    rw [hinner]
    rfl
  rw [hread, hgiven, ofOptions_ofWritten]

/-- A path that looks like an option with a value, and an empty identity. -/
def sampleSpelled : Invocation where
  config := some "--client-id=x"
  verbose := true
  logStderr := true
  command := .run (some "")

/-- The sample with one option before the command word and three behind it. -/
theorem ofArguments_spelled_sample : sampleSpelled.config ≠ some "" ∧
    sampleSpelled.Spells [.logStderr] [.clientId "", .config "--client-id=x", .verbose] ∧
    ofArguments ["--log-stderr", "run", "--client-id=", "--config=--client-id=x", "--verbose"] =
      .ok sampleSpelled := by
  have hpath : sampleSpelled.config ≠ some "" := by decide
  have hspells : sampleSpelled.Spells [.logStderr]
      [.clientId "", .config "--client-id=x", .verbose] := ⟨by decide, by decide⟩
  exact ⟨hpath, hspells, ofArguments_spelled sampleSpelled hpath _ _ hspells⟩

end Invocation

end GridBench
