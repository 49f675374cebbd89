import MapperSweep.Programs
import MapperSweep.Proofs.Ranking
import MapperSweep.Proofs.Record.Store
import MapperSweep.Proofs.Sweep.Failure

/-!
# Summaries of exported records

A sweep prints the summary of its records and adds the records to its results file.  The summary can
be printed again from this file.  It is the same summary if every number that it shows is read back
as it was.  This is not so for all numbers: one that is not finite has no text in the file, so that
a measurement gets lost and a weight makes the file unreadable, and the text of a finite one may be
read as a number next to it.

## Key results

- `Report.summary_map`: a summary depends on what it shows only
- `Summariser.program_of_loads`, `Summariser.program_of_not_loads`: the summary of a file of records
- `Summariser.program_after_sweep`: the summary of the records that a sweep has exported
-/

namespace MapperSweep

/-! ## What a summary shows -/

/-- What the report shows of the record `r`: all but the idle time and the fidelity of the gates. -/
def Record.shown (r : Record) : Record :=
  { r with metrics := { r.metrics with idleTime := none, gateFidelity := none } }

namespace Report

/-- The row of a record in the report is made of what is `shown` of it. -/
private theorem recordRow_shown (l : Layout) (r : Record) :
    recordRow l r.shown = recordRow l r := by
  cases l <;> rfl

/-- The row of a record in the table of best records is made of what is `shown` of it. -/
private theorem bestCells_shown (r : Record) : bestCells r.shown = bestCells r := rfl

/-- The groups `gs` with `f` applied to each of their records. -/
private def changed (f : Record → Record) (gs : List Group) : List Group :=
  gs.map fun g => ⟨g.benchmark, g.records.map f⟩

private theorem flatMap_records_changed (f : Record → Record) (gs : List Group) :
    (changed f gs).flatMap (·.records) = (gs.flatMap (·.records)).map f := by
  rw [changed, List.flatMap_map, List.map_flatMap]

private theorem bestPerGroup_changed (f : Record → Record) (gs : List Group) :
    bestPerGroup (changed f gs) = (bestPerGroup gs).map f := by
  rw [bestPerGroup, bestPerGroup, changed, List.filterMap_map, List.map_filterMap]
  refine List.filterMap_congr fun g _ => ?_
  simp only [Function.comp, Group.best?, List.head?_map]

/-- A summary depends on nothing but what is `shown` of the records. -/
theorem summary_map (l : Layout) {f : Record → Record} {gs : List Group}
    (h : ∀ g ∈ gs, ∀ r ∈ g.records, (f r).shown = r.shown) :
    summary l (gs.map fun g => ⟨g.benchmark, g.records.map f⟩) = summary l gs := by
  have hreport : render l (changed f gs) = render l gs := by
    have hrows : ((gs.flatMap (·.records)).map f).map (recordRow l) =
        (gs.flatMap (·.records)).map (recordRow l) := by
      rw [List.map_map]
      refine List.map_congr_left fun r hr => ?_
      obtain ⟨g, hg, hr⟩ := List.mem_flatMap.1 hr
      rw [Function.comp, ← recordRow_shown, h g hg r hr, recordRow_shown]
    simp only [render, reportLines, flatMap_records_changed, hrows]
  have htable : bestTable? (changed f gs) = bestTable? gs := by
    have hcells : ((bestPerGroup gs).map f).map bestCells = (bestPerGroup gs).map bestCells := by
      rw [List.map_map]
      refine List.map_congr_left fun r hr => ?_
      -- The best record of a group is one of its records.
      obtain ⟨g, hg, hbest⟩ := List.mem_filterMap.1 hr
      rw [Function.comp, ← bestCells_shown, h g hg r (List.mem_of_mem_head? hbest), bestCells_shown]
    rw [bestTable?, bestTable?, bestPerGroup_changed]
    cases hbest : bestPerGroup gs with
    | nil => rfl
    | cons r rest =>
      rw [hbest] at hcells
      simp only [List.map_cons] at hcells ⊢
      rw [hcells]
  rw [changed] at hreport htable
  rw [summary, summary, hreport, htable]

end Report

/-! ## Summaries of files -/

namespace Summariser

private theorem layout_name (l : Report.Layout) : layout (some l.name) = .ok l := by
  cases l <;> decide

/-- The summary of a file of records each of which `Loads` is that of the records that are read
    back. -/
theorem program_of_loads {w : Workspace} {path : String} {rs : List Record} (l : Report.Layout)
    (hread : w.read path = .ok (Text.Utf8.encode (Record.store rs)))
    (h : ∀ r ∈ rs, r.Loads) :
    program w (some path) (some l.name) =
      { code := 0
        stdout := Report.summary l (rank (rs.map Record.reloaded)) ++ ['\n']
        workspace := w } := by
  have hrun : run w (some path) (some l.name) =
      .ok (Report.summary l (rank (rs.map Record.reloaded)) ++ ['\n']) := by
    simp only [run, layout_name, summarise, Option.getD_some, hread, Record.load_of_loads h,
      Except.mapError, bind, Except.bind, pure, Except.pure]
  rw [program, hrun]

/-- There is no summary of a file with a record that does not load. -/
theorem program_of_not_loads {w : Workspace} {path : String} {rs : List Record} (l : Report.Layout)
    (hread : w.read path = .ok (Text.Utf8.encode (Record.store rs)))
    (h : ∃ r ∈ rs, ¬r.Loads) : (program w (some path) (some l.name)).code = 1 := by
  have hrun : run w (some path) (some l.name) = .error (.malformed path .notRecord) := by
    simp only [run, layout_name, summarise, Option.getD_some, hread, Record.load_of_not_loads h,
      Except.mapError, bind, Except.bind]
  rw [program, hrun]

end Summariser

/-! ## Summaries of sweeps -/

/-- A sweep that ends well has `Exported` some records and printed their summary, and no other. -/
private theorem Sweep.exists_records {env : Environment} {d : Definition} {s : Settings}
    {groups : List Group} (hbuild : (d.build env.workspace.readText env.timestamp).value = .ok s)
    (hrun : (run env d).value.result = .ok groups) :
    ∃ records, groups = rank records ∧
      (run env d).value.reports = [Report.summary s.reportLayout (rank records) ++ ['\n']] ∧
      Exported s.resultsPath env.workspace (run env d).value.workspace (Record.store records) := by
  obtain ⟨s', tool, records, hbuild', -, -, hresult, hannounced, hworkspace⟩ :=
    concludes_of_result hrun
  obtain rfl : s = s' := Except.ok.inj (hbuild.symm.trans hbuild')
  obtain ⟨hgroups, hstdout, hexported⟩ := conclude_eq_ok hresult
  rw [hstdout] at hannounced
  refine ⟨records, hgroups, ?_, hworkspace ▸ hexported⟩
  -- Records that are exported to the standard output are not part of the report.
  rw [reports_of_announced hannounced]
  simp only [Completion.reports, printout]
  split <;> simp [Print.text]

namespace Summariser

/-- The summary of the results file `path` of a sweep, if there was no such file before.  It can be
    printed exactly if every record `Loads`, and it is the summary of the records that are read
    back.  If these show the same numbers then it is the report that the sweep itself has
    printed. -/
theorem program_after_sweep (env : Sweep.Environment) (d : Definition) (s : Settings) (path : String)
    (groups : List Group)
    (hbuild : (d.build env.workspace.readText env.timestamp).value = .ok s)
    (hpath : s.resultsPath = some path) (hnew : env.workspace.contains path = false)
    (hrun : (Sweep.run env d).value.result = .ok groups) :
    let swept := (Sweep.run env d).value
    let again := program swept.workspace (some path) (some s.reportLayout.name)
    (again.code = 0 ↔ ∀ g ∈ groups, ∀ r ∈ g.records, r.Loads) ∧
    (∃ records, groups = rank records ∧ (again.code = 0 →
      again.stdout = Report.summary s.reportLayout (rank (records.map Record.reloaded)) ++ ['\n'])) ∧
    ((∀ g ∈ groups, ∀ r ∈ g.records, r.Loads ∧ r.reloaded.shown = r.shown) →
      again.code = 0 ∧ swept.reports = [again.stdout]) := by
  intro swept again
  obtain ⟨records, hgroups, hreports, hexported⟩ := Sweep.exists_records hbuild hrun
  -- The results file holds the stored records and nothing else.
  have hread : swept.workspace.read path = .ok (Text.Utf8.encode (Record.store records)) := by
    rw [hpath] at hexported
    exact hexported.read_of_not_contains hnew
  have hmem : ∀ p : Record → Prop, (∀ g ∈ groups, ∀ r ∈ g.records, p r) ↔ ∀ r ∈ records, p r := by
    intro p
    rw [hgroups]
    constructor
    · intro h r hr
      obtain ⟨g, hg, hr⟩ := mem_rank.2 hr
      exact h g hg r hr
    · intro h g hg r hr
      exact h r (mem_rank.1 ⟨g, hg, hr⟩)
  have hloads : again.code = 0 ↔ ∀ r ∈ records, r.Loads := by
    constructor
    · intro hcode
      by_contra hnot
      have hfailed : again.code = 1 :=
        program_of_not_loads s.reportLayout hread (by simpa using hnot)
      rw [hcode] at hfailed
      exact nomatch hfailed
    · intro h
      exact congrArg ProgramResult.code (program_of_loads s.reportLayout hread h)
  have hprinted : again.code = 0 →
      again.stdout = Report.summary s.reportLayout (rank (records.map Record.reloaded)) ++ ['\n'] :=
    fun hcode => congrArg ProgramResult.stdout
      (program_of_loads s.reportLayout hread (hloads.1 hcode))
  refine ⟨?_, ⟨records, hgroups, hprinted⟩, ?_⟩
  · rw [hmem]
    exact hloads
  · intro h
    rw [hmem] at h
    have hcode := hloads.2 fun r hr => (h r hr).1
    refine ⟨hcode, ?_⟩
    -- The ranking is the same because benchmarks and fidelities are among what is shown.
    have hfidelity : ∀ r ∈ records, r.reloaded.metrics.fidelity = r.metrics.fidelity := by
      intro r hr
      have hshown := congrArg (fun shown : Record => shown.metrics.fidelity) (h r hr).2
      exact hshown
    have hbenchmark : ∀ r ∈ records, r.reloaded.benchmark = r.benchmark := fun _ _ => rfl
    rw [hprinted hcode, hreports, rank_map hbenchmark hfidelity, Report.summary_map]
    intro g hg r hr
    exact (h r (mem_rank.1 ⟨g, hg, hr⟩)).2

/-- A sweep with one run, with the given `weights` and with a results file that is not there yet. -/
def singleRun (weights : Weights) : Definition where
  name := "single"
  settings :=
    { binary := "./tool"
      architectures := [⟨.gate, "gate.json"⟩]
      coordinateMappings := [.trivial]
      weights := [weights]
      resultsPath := some "new" }

/-- A working directory whose tool finds the given `fidelity`. -/
def finding (fidelity : String) : Sweep.Environment :=
  let output := "Mapping circuits/qft.qasm\ntotalFidelities: " ++ fidelity ++ "\n* runtime: 5\n"
  { Sweep.rehearsal with
    course := fun _ i => Script.course { stdout := Text.Utf8.encode output.toList } false i }

/-- What `program` makes of the results file of the sweep `singleRun` in `finding fidelity`. -/
def reprinted (fidelity : String) (weights : Weights) : ProgramResult :=
  program (Sweep.run (finding fidelity) (singleRun weights)).value.workspace (some "new")
    (some "gate-based")

/-- The summary of a sweep with plain numbers is `reprinted` as it was. -/
theorem reprinted_half :
    let swept := (Sweep.run (finding "0.5") (singleRun ⟨.ofNat 1, .ofNat 1⟩)).value
    let again := reprinted "0.5" ⟨.ofNat 1, .ofNat 1⟩
    swept.result = .ok [⟨"qft", [.plain]⟩] ∧ again.code = 0 ∧ swept.reports = [again.stdout] := by
  have hrun : (Sweep.run (finding "0.5") (singleRun ⟨.ofNat 1, .ofNat 1⟩)).value.result =
      .ok [⟨"qft", [.plain]⟩] := by decide +kernel
  have hagain := program_after_sweep (finding "0.5") (singleRun ⟨.ofNat 1, .ofNat 1⟩)
    (singleRun ⟨.ofNat 1, .ofNat 1⟩).settings "new" _ (by decide +kernel) rfl
    (by decide +kernel) hrun
  exact ⟨hrun, hagain.2.2 (by decide +kernel)⟩

/-- The summary is not `reprinted` as it was if a fidelity is not a number, and not either if it is
    a number whose text is read as the one next to it.  With an infinite weight it cannot be printed
    again at all. -/
theorem reprinted_ne_of_lossy :
    let swept fidelity weights := (Sweep.run (finding fidelity) (singleRun weights)).value
    let one : Weights := ⟨.ofNat 1, .ofNat 1⟩
    let infinite : Weights := ⟨.infinity false, .ofNat 1⟩
    (∀ fidelity, (finding fidelity).workspace.contains "new" = false) ∧
    ((swept "nan" one).result.toBool = true ∧ (reprinted "nan" one).code = 0 ∧
      (swept "nan" one).reports ≠ [(reprinted "nan" one).stdout]) ∧
    ((swept "0.9007407407347405" one).result.toBool = true ∧
      (reprinted "0.9007407407347405" one).code = 0 ∧
      (swept "0.9007407407347405" one).reports ≠ [(reprinted "0.9007407407347405" one).stdout]) ∧
    ((swept "0.5" infinite).result.toBool = true ∧ (reprinted "0.5" infinite).code = 1) := by
  have hnew : Sweep.rehearsal.workspace.contains "new" = false := by decide +kernel
  refine ⟨fun _ => hnew, ?_⟩
  decide +kernel

end Summariser

end MapperSweep
