/-
  GridBench.Proofs.Cli.Command

  The command that runs all runners, from the settings to what is printed.  It
  works under the identity that its user chose (`ClientIdentity.Chosen`), and
  its report is the one that is `Due` for the settings: every round of every
  partition is completed, or nothing runs at all.  Main statement
  (`App.run_reports`), for the runners carried out alone as for every other
  order of their steps.
-/
import GridBench.Cli.App
import GridBench.Proofs.Cli.Summary
import GridBench.Proofs.Element.Populate
import GridBench.Proofs.Json.Members
import GridBench.Proofs.Naming.Identity
import GridBench.Proofs.Run.Maps
import GridBench.Proofs.Run.Tolls
import GridBench.Proofs.Runner.Load

namespace GridBench

/-! ## The identity -/

/-- The identity that a client gets: the one named on the command line, or else the configured one,
    without white characters around it.  If that one is blank, or there is none, it is fresh. -/
structure ClientIdentity.Chosen (fresh : RunId) (named configured : Option String)
    (id : ClientIdentity) : Prop where
  of_named : ∀ v, named = some v → Text.isBlank v = false → id.text = Text.trim v
  of_configured : ∀ v, named = none → configured = some v → Text.isBlank v = false →
    id.text = Text.trim v
  of_blank : ∀ v, (named <|> configured) = some v → Text.isBlank v = true → id.text = fresh.render
  of_none : named = none → configured = none → id.text = fresh.render

theorem App.chosen_identity (fresh : RunId) (named configured : Option String) :
    ClientIdentity.Chosen fresh named configured (App.identity fresh named configured).1 := by
  have hgiven (v : String) (hv : (named <|> configured) = some v) :
      (App.identity fresh named configured).1.text =
        if Text.isBlank v then fresh.render else Text.trim v := by
    rw [App.identity, hv]
    cases hblank : Text.isBlank v with
    | true => exact congrArg (·.1.text) (ClientIdentity.ofConfigured_of_blank fresh.render hblank)
    | false =>
      exact congrArg (·.1.text) (ClientIdentity.ofConfigured_of_nonblank fresh.render hblank)
  refine ⟨fun v hv hblank => ?_, fun v hn hv hblank => ?_, fun v hv hblank => ?_, fun hn hc => ?_⟩
  · rw [hgiven v (by rw [hv]; rfl), hblank]
    rfl
  · rw [hgiven v (by rw [hn, hv]; rfl), hblank]
    rfl
  · rw [hgiven v hv, hblank]
    rfl
  · rw [App.identity, hn, hc]
    rfl

/-! ## The table of a run without failures -/

namespace Progress

theorem sorted_snapshot (t : Progress) : Members.Sorted t.snapshot :=
  (Std.ExtTreeMap.ordered_keys_toList (t := t)).imp compareOfLessAndEq_eq_lt.mp

/-- Looking a name up in the members of a table is looking it up in the table. -/
theorem lookup_snapshot {t : Progress} {key : String} {v : Json} (h : t[key]? = some v) :
    t.snapshot.lookup key = some v := by
  obtain ⟨ms, ms', hsplit⟩ := List.append_of_mem (Progress.mem_snapshot.mpr h : (key, v) ∈ _)
  refine List.lookup_eq_some_iff.mpr ⟨ms, ms', hsplit, fun m hm => ?_⟩
  have hsorted := t.sorted_snapshot
  rw [Members.Sorted, hsplit, List.pairwise_append] at hsorted
  simpa using (hsorted.2.2 m hm _ List.mem_cons_self).ne'

end Progress

namespace RunPlan

theorem nodup_finalStatus (plan : RunPlan) : plan.finalStatus.Nodup := by
  -- The names alone are different.
  refine List.Nodup.of_map Prod.fst ?_
  have hnames : plan.finalStatus.map Prod.fst =
      generalKeys ++ (List.range plan.numMaps.toNat).map completedKey := by
    simp [finalStatus, generalKeys, partitions]
  rw [hnames]
  refine List.Nodup.append (by decide) (List.nodup_range.map fun p q => completedKey_inj) ?_
  intro key hgeneral hcount
  obtain ⟨p, -, rfl⟩ := List.mem_map.mp hcount
  exact completedKey_not_mem_generalKeys p hgeneral

/-- How many rounds a run of the plan has, over all its maps. -/
def rounds (plan : RunPlan) : Nat := plan.numMaps.toNat * plan.numRuns.toNat

/-- How many maps a run of the plan uses. -/
def mapCount (plan : RunPlan) : Nat := if plan.appendMapIndex then plan.numMaps.toNat else 1

theorem total_mem_finalStatus (plan : RunPlan) :
    (totalRunsKey, .ofNat plan.rounds) ∈ plan.finalStatus := by
  simp [finalStatus, rounds]

theorem finished_mem_finalStatus (plan : RunPlan) :
    (runnerFinishedKey, .bool true) ∈ plan.finalStatus := by
  simp [finalStatus]

end RunPlan

/-! ## The report -/

namespace App

/-- What is printed about the store. -/
def storeReport (colours : Bool) (calls maps : Nat) : String :=
  Colour.cyan.paint colours "Store:" ++ " " ++ toString calls ++ " remote call(s) on "
    ++ toString maps ++ " map(s)"

/-- What is printed about a process behind its first line. -/
def report (colours : Bool) (p : Process MemoryStore) : List String :=
  summaries colours p ++ [storeLine colours p.world.grid, p.document.pretty 0]

/-- The report on a run of the load runner without failures: all its rounds are completed, and
    nothing is said of failures or of an unfinished run. -/
def flawlessReport (colours : Bool) (plan : RunPlan) (runId : RunId) (calls : Nat) : List String :=
  [Colour.green.paint colours "Finished:" ++ " maps/loadrunner (" ++ runId.render ++ ")",
    "  runs completed: " ++ Colour.green.paint colours (toString plan.rounds) ++ "/"
      ++ toString plan.rounds,
    storeReport colours calls plan.mapCount,
    (Json.ofMembers [("maps", .ofMembers [("loadrunner", .ofMembers plan.finalStatus)]),
      ("queues", .ofMembers [])]).pretty 0]

/-- The report on a process in which nothing ran. -/
def idleReport (colours : Bool) : List String :=
  [storeReport colours 0 0,
    (Json.ofMembers [("maps", .ofMembers []), ("queues", .ofMembers [])]).pretty 0]

/-- The report that is due for the section of the load runner: whether it plans a run or none. -/
structure Due (colours : Bool) (load : LoadSection) (runId : RunId) (lines : List String) :
    Prop where
  flawless : ∀ plan, load.resolve = .ok plan → plan.run.enabled = true →
    ∃ calls, lines = flawlessReport colours plan.run runId calls
  idle : load.IsIdle → lines = idleReport colours

end App

namespace Watched

variable {config : LoopConfig} {items : List (String × Json)} {s₀ : MemoryStore}
variable {s : Watched MemoryStore}

/-- The counts of a run without failures, summed up. -/
theorem sumCounts_of_outcomes (h : s.Sound config) (hphase : s.run.phase = .finished)
    (hruns : config.plan.numRuns.toNat ≠ 0)
    (hall : ∀ p < config.plan.numMaps.toNat, Outcome config items s₀ s p) :
    sumCounts s.run.gatherer.table.snapshot completedEnding = config.plan.rounds ∧
      sumCounts s.run.gatherer.table.snapshot failedEnding = 0 := by
  have hsum (kind : CountKind) (n : Nat) (hshows : ∀ p < config.plan.numMaps.toNat,
      s.run.gatherer.table.Shows (kind.key p) n) :
      sumCounts s.run.gatherer.table.snapshot kind.ending = config.plan.numMaps.toNat * n := by
    have hperm : (countedMembers kind.ending s.run.gatherer.table.snapshot).Perm
        (counters kind.key (fun _ => n) config.plan.numMaps.toNat) :=
      perm_counters (.refl _) hshows fun key value => h.counted_only
    rw [sumCounts_eq_sum, (hperm.filterMap _).sum_eq, sum_counters, Finset.sum_const,
      Finset.card_range, smul_eq_mul]
  refine ⟨hsum .completed _ fun p hp => ?_, hsum .failed 0 fun p hp => ?_⟩
  · rw [Progress.Shows, if_neg hruns]
    exact ((hall p hp).table h hphase hruns).1
  · exact ((hall p hp).table h hphase hruns).2

/-- The table of a run without failures, as it is listed. -/
theorem snapshot_of_outcomes (h : s.Sound config) (hphase : s.run.phase = .finished)
    (hruns : config.plan.numRuns.toNat ≠ 0)
    (hall : ∀ p < config.plan.numMaps.toNat, Outcome config items s₀ s p) :
    s.run.gatherer.table.snapshot = Members.ofList config.plan.finalStatus := by
  have hnodup := config.plan.nodup_finalStatus
  refine Members.eq_ofList (Progress.sorted_snapshot _) ?_
  refine (List.perm_ext_iff_of_nodup (Progress.nodup_snapshot _) hnodup).mpr ?_
  rintro ⟨key, value⟩
  exact Progress.mem_snapshot.trans (table_of_outcomes h hphase hruns hall key value)

end Watched

namespace LoadElement

/-- No two of the elements that are drawn have one identifier. -/
theorem nodup_keys_populate (count size : Nat) (d : Draws) :
    (((populate count size d).1.map item).map Prod.fst).Nodup := by
  rw [List.map_map]
  exact nodup_keys count size d

end LoadElement

namespace LoadRunner

variable {ctx : RunnerContext} {plan : LoadPlan} {w w' : World MemoryStore}
variable {s : Watched MemoryStore}

/-- The elements that a plan is carried out with, if they are drawn in the given world. -/
def drawn (plan : LoadPlan) (w : World MemoryStore) : List (String × Json) :=
  (LoadElement.populate plan.numEntries.toNat plan.payloadSize.toNat w.draws).1.map LoadElement.item

theorem stock_planned (ctx : RunnerContext) (plan : LoadPlan) (w : World MemoryStore) (p : Nat) :
    (Watched.teamOf (planned ctx plan w) p).Stock (drawn plan w) where
  elements := LoadElement.map_element _
  distinct := LoadElement.nodup_keys_populate _ _ _
  check i hi := by
    obtain ⟨e, _, rfl⟩ := List.mem_map.mp hi
    exact e.check_toJson

theorem calm_of_empty (hgrid : w'.grid = {}) : w'.grid.Calm ∧ w'.grid.Tidy := by
  rw [hgrid]
  exact ⟨rfl, fun n hn => by cases hn⟩

/-- In the run of the load runner on an empty store, nothing fails. -/
theorem outcomes_planned (hplan : ctx.settings.mapTests.load.resolve = .ok plan)
    (hgrid : w'.grid = {}) (hrun : w'.cancelled = false)
    (hs : Watched.Reaches MemoryStore.grid (.still _) (.start (planned ctx plan w) w') s)
    (hphase : s.run.phase = .finished) :
    ∀ p < plan.run.numMaps.toNat, Watched.Outcome (planned ctx plan w) (drawn plan w) {} s p := by
  obtain ⟨hcalm, htidy⟩ := calm_of_empty hgrid
  have hstart : Watched.Undisturbed (planned ctx plan w) w'.grid (.start (planned ctx plan w) w') :=
    Watched.undisturbed_start hcalm htidy hrun
  have hend := hstart.reaches (Watched.apart_teamOf (stock_planned ctx plan w 0).elements) hs
  rw [hgrid] at hend
  intro p hp
  exact hend.outcome hphase hp (LoadSection.workable_of_resolve hplan).runs
    (stock_planned ctx plan w p) fun i _ => .inl (by simp [MemoryStore.entries])

/-- It leaves as many maps as its plan uses. -/
theorem maps_planned (hplan : ctx.settings.mapTests.load.resolve = .ok plan)
    (hgrid : w'.grid = {}) (hrun : w'.cancelled = false)
    (hs : Watched.Reaches MemoryStore.grid (.still _) (.start (planned ctx plan w) w') s)
    (hphase : s.run.phase = .finished) : s.world.grid.mapNames.length = plan.run.mapCount := by
  obtain ⟨hcalm, htidy⟩ := calm_of_empty hgrid
  have hempty : ∀ m, m ∉ w'.grid.maps := by simp [hgrid]
  exact Watched.mapNames_length_of_mem (LoadSection.workable_of_resolve hplan).maps
    (Watched.mem_maps_of_finished (stock_planned ctx plan w 0).elements hcalm htidy hrun hempty hs
      hphase)

end LoadRunner

/-! ## What is reported -/

/-- The document of a registry has a member for each kind. -/
theorem Registry.assemble_eq {α : Type} (read : α → Option Members) (g : Registry α) :
    g.assemble read = .ofMembers [("maps", g.assembleKind read .maps),
      ("queues", g.assembleKind read .queues)] := by
  have hnames : "maps" < "queues" := by decide
  exact congrArg Json.object (Members.eq_ofList (List.pairwise_pair.mpr hnames) (.refl _))

/-- The summary of a run that finished without failures has neither a line of failures nor one that
    says that it did not finish. -/
theorem runSummary_flawless {progress : Members} {rounds : Nat}
    (htotal : progress.lookup totalRunsKey = some (.ofNat rounds))
    (hfinished : progress.lookup runnerFinishedKey = some (.bool true))
    (hcompleted : sumCounts progress completedEnding = rounds)
    (hfailed : sumCounts progress failedEnding = 0) (colours : Bool) (kind : LoopKind)
    (source runId : String) :
    runSummary colours kind source runId progress =
      [Colour.green.paint colours "Finished:" ++ " " ++ kind.name ++ "/" ++ source ++ " ("
          ++ runId ++ ")",
        "  runs completed: " ++ Colour.green.paint colours (toString rounds) ++ "/"
          ++ toString rounds] := by
  simp [runSummary, htotal, hfinished, hcompleted, hfailed]

namespace App

variable {colours : Bool} {ctx : RunnerContext} {w : World MemoryStore} {p : Process MemoryStore}

/-- What is reported of a process without any run on a store without maps. -/
theorem report_nothing (colours : Bool) (hregistry : p.registry = {}) (hgrid : p.world.grid = {}) :
    report colours p = idleReport colours := by
  have hmaps : p.world.grid.mapNames.length = 0 := by
    simp [hgrid, MemoryStore.mapNames]
  rw [report, summaries, Process.document, Registry.assemble_eq, hregistry, storeLine, hmaps, hgrid]
  rfl

/-- What is reported of a process with a run of the load runner. -/
theorem report_run (colours : Bool) {runId : RunId} {l : LoopRun}
    (hregistry : p.registry = ⟨[⟨.maps, LoadRunner.source, runId, 0⟩]⟩) (hruns : p.runs = #[l]) :
    report colours p = runSummary colours .maps LoadRunner.source runId.render
        l.gatherer.table.snapshot ++
      [storeLine colours p.world.grid,
        (Json.ofMembers [("maps", .ofMembers [("loadrunner", .object l.gatherer.table.snapshot)]),
          ("queues", .ofMembers [])]).pretty 0] := by
  have hprogress : p.progressOf 0 = some l.gatherer.table.snapshot := by
    rw [Process.progressOf, hruns]
    rfl
  have hstatus : p.statusOf .maps LoadRunner.source = some l.gatherer.table.snapshot := by
    simp [Process.statusOf, Registry.statusOf, Registry.find?, hregistry, hprogress]
  have hsummaries : summaries colours p = runSummary colours .maps LoadRunner.source runId.render
      l.gatherer.table.snapshot := by
    simp [summaries, hregistry, hstatus]
  have hmaps : p.registry.assembleKind p.progressOf .maps =
      .ofMembers [("loadrunner", .object l.gatherer.table.snapshot)] := by
    rw [Registry.assembleKind, hregistry, List.filter_cons_of_pos rfl, List.map_cons, hprogress]
    rfl
  have hqueues : p.registry.assembleKind p.progressOf .queues = .ofMembers [] := by
    rw [Registry.assembleKind, hregistry]
    rfl
  rw [report, hsummaries, Process.document, Registry.assemble_eq, hmaps, hqueues]

/-- The first line of the load runner's summary. -/
theorem finished_eq (colours : Bool) (runId : String) :
    Colour.green.paint colours "Finished:" ++ " " ++ LoopKind.maps.name ++ "/" ++ LoadRunner.source
        ++ " (" ++ runId ++ ")" =
      Colour.green.paint colours "Finished:" ++ " maps/loadrunner (" ++ runId ++ ")" := by
  have hname : " " ++ LoopKind.maps.name ++ "/" ++ LoadRunner.source ++ " (" =
      " maps/loadrunner (" := by decide
  rw [← hname]
  simp only [String.append_assoc]

/-- The report of a run without failures on a store that was empty. -/
theorem report_planned (colours : Bool) {plan : LoadPlan} {w' : World MemoryStore}
    {s : Watched MemoryStore} (hplan : ctx.settings.mapTests.load.resolve = .ok plan)
    (hgrid : w'.grid = {}) (hrun : w'.cancelled = false)
    (hs : Watched.Reaches MemoryStore.grid (.still _)
      (.start (LoadRunner.planned ctx plan w) w') s)
    (hphase : s.run.phase = .finished)
    (hregistry : p.registry = ⟨[⟨.maps, LoadRunner.source, ctx.runId, 0⟩]⟩)
    (hbound : p.runs = #[s.run]) (hstore : p.world.grid = s.world.grid) :
    ∃ calls, report colours p = flawlessReport colours plan.run ctx.runId calls := by
  have hruns := (LoadSection.workable_of_resolve hplan).runs
  have h := Watched.sound_of_reaches hs
  have hall := LoadRunner.outcomes_planned hplan hgrid hrun hs hphase
  -- What the table holds, and what its counts sum up to.
  have hdocument : Json.object s.run.gatherer.table.snapshot = .ofMembers plan.run.finalStatus :=
    congrArg Json.object (Watched.snapshot_of_outcomes h hphase hruns hall)
  have hlookup {key : String} {value : Json} (hmem : (key, value) ∈ plan.run.finalStatus) :
      s.run.gatherer.table.snapshot.lookup key = some value :=
    Progress.lookup_snapshot ((Watched.table_of_outcomes h hphase hruns hall key value).mpr hmem)
  obtain ⟨hcompleted, hfailed⟩ := Watched.sumCounts_of_outcomes h hphase hruns hall
  have hsummary := runSummary_flawless (hlookup plan.run.total_mem_finalStatus)
    (hlookup plan.run.finished_mem_finalStatus) hcompleted hfailed colours .maps LoadRunner.source
    ctx.runId.render
  have hmaps := LoadRunner.maps_planned hplan hgrid hrun hs hphase
  refine ⟨s.world.grid.calls.total, ?_⟩
  rw [report_run colours hregistry hbound, hsummary, finished_eq, hdocument, storeLine, hstore,
    hmaps]
  rfl

/-- What the load runner leaves behind on a store that was empty is reported as it is due. -/
theorem due_of_leaves (colours : Bool) (hgrid : w.grid = {}) (hrun : w.cancelled = false)
    (h : LoadRunner.Leaves MemoryStore.grid ctx w p) :
    Due colours ctx.settings.mapTests.load ctx.runId (report colours p) := by
  cases h with
  | nothing hidle hregistry hsame =>
    refine ⟨fun plan hplan henabled => ?_, fun _ => ?_⟩
    · exact absurd henabled (by simp [hidle plan hplan])
    · exact report_nothing colours hregistry (hsame.trans hgrid)
  | @run plan w' s hplan henabled hsame hcancelled hs hphase hregistry hruns hstore =>
    refine ⟨fun plan' hplan' _ => ?_, fun hidle => ?_⟩
    · cases hplan.symm.trans hplan'
      exact report_planned colours hplan (hsame.trans hgrid) (hcancelled.trans hrun) hs hphase
        hregistry hruns hstore
    · exact absurd henabled (by simp [hidle plan hplan])

/-! ## The command -/

/-- What a client's runners are told: the settings with the unusable ones of the client replaced. -/
def context (around : Surroundings) (settings : Settings) (id : ClientIdentity) : RunnerContext :=
  .ofSettings { settings with client := settings.client.sanitized.1 } id around.freshRun

/-- The first line that is printed. -/
def headline (colours : Bool) (ctx : RunnerContext) : String :=
  Colour.green.paint colours "Running:" ++ " 1 runner(s) on cluster '" ++ ctx.clusterName
    ++ "' as client " ++ ctx.client.text

/-- What is printed before anything else. -/
def preface (colours : Bool) (inv : Invocation) : List String :=
  if inv.verbose then [Colour.yellow.paint colours "Verbose mode enabled"] else []

/-- Before and behind the load runner, a process writes log records and does nothing else. -/
theorem exists_rehearse (ctx : RunnerContext) (draws : Draws) :
    ∃ w : World MemoryStore, ∃ logs, w.grid = {} ∧ w.cancelled = false ∧
      (rehearse ctx draws).1 =
        (LoadRunner.alone MemoryStore.grid ctx { world := w } {}).1.log logs :=
  ⟨_, _, rfl, rfl, rfl⟩

/-- The command that runs all runners, for all settings, any identity on the command line, any draws
    and no interrupt.  The program succeeds, and what it prints is a headline with the identity that
    was chosen and that the runners work under, and the report that is due: if the section of the
    load runner is accepted and enabled, all rounds are completed and the status is that of a run
    without failures; if not, there is no summary, and the store was not called.  Whatever the order
    of the steps, they come to an end, and the report is due then. -/
theorem run_reports (around : Surroundings) (clientId : Option String) (settings : Settings) :
    ∃ id p, ClientIdentity.Chosen around.freshClient clientId settings.client.identity id ∧
      p = (rehearse (context around settings id) around.draws).1 ∧
      (run around clientId settings).1 =
        headline around.colours (context around settings id) :: report around.colours p ∧
      Due around.colours settings.mapTests.load around.freshRun (report around.colours p) ∧
      Inevitable (LoadRunner.Moves MemoryStore.grid (context around settings id))
        (fun x => x.2.phase = .ended ∧
          Due around.colours settings.mapTests.load around.freshRun (report around.colours x.1))
        ({ world := { grid := {}, draws := around.draws } }, {}) ∧
      ∀ inv : Invocation, inv.command = .run clientId → around.files.load.1 = .ok settings →
        (outcome around inv).exitCode = 0 ∧
        (outcome around inv).printed =
          preface around.colours inv ++ (run around clientId settings).1 ∧
        (outcome around inv).text = "" := by
  let id := (identity around.freshClient clientId settings.client.identity).1
  let ctx := context around settings id
  refine ⟨id, (rehearse ctx around.draws).1, chosen_identity _ _ _, rfl, rfl, ?_, ?_,
    fun inv hcommand hload => ?_⟩
  · obtain ⟨w, logs, hgrid, hrun, hp⟩ := exists_rehearse ctx around.draws
    rw [hp]
    exact due_of_leaves around.colours hgrid hrun (LoadRunner.leaves_alone MemoryStore.grid ctx w)
  · refine (LoadRunner.inevitable_ended MemoryStore.grid ctx _).mono fun x hx => ⟨hx.1, ?_⟩
    exact due_of_leaves around.colours rfl rfl hx.2
  · unfold outcome
    generalize around.files.load = loaded at hload
    obtain ⟨_, early⟩ := loaded
    cases hload
    simp [perform, hcommand, Outcome.exitCode, preface]

/-- Surroundings without any file of settings. -/
def sampleSurroundings : Surroundings where
  freshClient := ⟨7⟩
  freshRun := ⟨1⟩

/-- The command line that names a blank identity. -/
def sampleInvocation : Invocation where
  command := .run (some " ")

/-- What is printed on the sample command line. -/
theorem run_reports_sample :
    ∃ id p calls, id.text = "00000000-0000-0000-0000-000000000007" ∧
      (outcome sampleSurroundings sampleInvocation).exitCode = 0 ∧
      (outcome sampleSurroundings sampleInvocation).printed =
        headline false (context sampleSurroundings {} id) :: report false p ∧
      (report false p).tail.take 2 =
        ["  runs completed: 1000/1000", storeReport false calls 10] := by
  obtain ⟨id, p, hid, -, hprinted, hdue, -, hsucceeds⟩ :=
    run_reports sampleSurroundings (some " ") {}
  obtain ⟨hexit, hlines, -⟩ := hsucceeds sampleInvocation rfl rfl
  have hblank : Text.isBlank " " = true := by decide
  obtain ⟨calls, hreport⟩ := hdue.flawless _ rfl rfl
  have hprefaced : preface sampleSurroundings.colours sampleInvocation = [] := rfl
  refine ⟨id, p, calls, hid.of_blank _ rfl hblank, hexit, ?_, ?_⟩
  · rw [hlines, hprefaced, List.nil_append]
    exact hprinted
  · rw [show report false p = _ from hreport]
    rfl

end App

end GridBench
