import MapperSweep.Proofs.Grid
import MapperSweep.Proofs.Ranking
import MapperSweep.Proofs.Sweep.Failure
import MapperSweep.Proofs.ToolOutput.Segments

/-!
# Where ranked records come from

A ranked record still says which run it is from.  Here its origin is a pair of numbers: the run, by
its place in the grid, and the terminal line in the output of this run that has closed the record.
The loop over the runs produces records in the order of their origins, and a stable sort keeps this
order among records of the same rank.

Labels are not kept by the program.  A list of records is traced by a list of pairs that has these
records as its second components.

## Key results

- `ToolOutput.exists_closesAt`: the terminal lines of the records of one output
- `exists_traced`: the origins of the records that the loop over the runs returns
- `Traced.ranked`: what is left of their order in a ranked group
- `groups_keep_provenance`: the origins of the records of all groups of a sweep
-/

namespace MapperSweep

/-! ## The lines of one output -/

namespace ToolOutput

/-- Line `n` of an output is terminal, and `r` is the record that it closes: the segment of `r` ends
    with this line, and begins after the terminal line before it. -/
def ClosesAt (lead : List Char) (config : RunConfig) (lines : List (List Char)) (n : Nat)
    (r : Record) : Prop :=
  ∃ earlier s later, lines = earlier ++ s.lines ++ later ∧ n = earlier.length + s.body.length ∧
    (∀ line ∈ earlier.getLast?, classify lead line = .terminal) ∧
    (∀ line ∈ s.body, classify lead line ≠ .terminal) ∧
    classify lead s.terminal = .terminal ∧ Describes lead config s r

theorem ClosesAt.describes {lead : List Char} {config : RunConfig} {lines : List (List Char)}
    {n : Nat} {r : Record} (h : ClosesAt lead config lines n r) :
    ∃ s, Describes lead config s r := by
  obtain ⟨_, s, _, _, _, _, _, _, hdescribes⟩ := h
  exact ⟨s, hdescribes⟩

/-- The `records` of the `segments` are closed one after the other, each by the terminal line of its
    segment. -/
theorem exists_closesAt {lead : List Char} {config : RunConfig} {segments : List Segment}
    {records : List Record} (hall : List.Forall₂ (Describes lead config) segments records)
    {lines earlier rest : List (List Char)}
    (hlines : lines = earlier ++ segments.flatMap Segment.lines ++ rest)
    (hearlier : ∀ line ∈ earlier.getLast?, classify lead line = .terminal)
    (hterminal : ∀ s ∈ segments, classify lead s.terminal = .terminal)
    (hbody : ∀ s ∈ segments, ∀ line ∈ s.body, classify lead line ≠ .terminal) :
    ∃ closed : List (Nat × Record), closed.map Prod.snd = records ∧
      closed.Pairwise (fun a b => a.1 < b.1) ∧
      ∀ x ∈ closed, earlier.length ≤ x.1 ∧ ClosesAt lead config lines x.1 x.2 := by
  -- Segment by segment: the lines of the first one go to `earlier`.
  induction hall generalizing earlier with
  | nil => exact ⟨[], rfl, .nil, by simp⟩
  | @cons s r segments records hs hall ih =>
    rw [List.forall_mem_cons] at hterminal hbody
    have hnext : lines = earlier ++ s.lines ++ segments.flatMap Segment.lines ++ rest := by
      rw [hlines, List.flatMap_cons, ← List.append_assoc earlier]
    obtain ⟨closed, hrecords, hordered, hcloses⟩ := ih hnext
      (by simp [Segment.lines, hterminal.1]) hterminal.2 hbody.2
    have hlength : (earlier ++ s.lines).length = earlier.length + s.body.length + 1 := by
      simp [Segment.lines]
      omega
    refine ⟨(earlier.length + s.body.length, r) :: closed, by simp [hrecords], ?_, ?_⟩
    · refine List.pairwise_cons.2 ⟨?_, hordered⟩
      intro x hx
      have hle := (hcloses x hx).1
      show earlier.length + s.body.length < x.1
      omega
    · refine List.forall_mem_cons.2 ⟨⟨Nat.le_add_right _ _, ?_⟩, ?_⟩
      · rw [List.append_assoc] at hnext
        exact ⟨earlier, s, _, hnext, rfl, hearlier, hbody.1, hterminal.1, hs⟩
      · intro x hx
        obtain ⟨hle, hclose⟩ := hcloses x hx
        exact ⟨by omega, hclose⟩

/-- The records of an output that `parse` can read are closed by its terminal lines, in order. -/
theorem exists_closesAt_of_parse {inputDir : String} {config : RunConfig} {output : String}
    {records : List Record} (h : (parse inputDir config output).value = .ok records) :
    ∃ closed : List (Nat × Record), closed.map Prod.snd = records ∧
      closed.Pairwise (fun a b => a.1 < b.1) ∧
      ∀ x ∈ closed, ClosesAt (lead inputDir) config (Text.lines output.toList) x.1 x.2 := by
  obtain ⟨last, hcollect⟩ := collect_of_parse h
  obtain ⟨segments, rest, hcut, hall, -⟩ := collect_segments (pending_nil _ 0) hcollect
  have hlines : Text.lines output.toList = [] ++ segments.flatMap Segment.lines ++ rest :=
    hcut.lines_eq
  obtain ⟨closed, hrecords, hordered, hcloses⟩ :=
    exists_closesAt hall hlines (by simp) hcut.terminal hcut.body
  exact ⟨closed, hrecords, hordered, fun x hx => (hcloses x hx).2⟩

end ToolOutput

namespace Sweep

/-! ## Origins -/

/-- Where a record comes from: the run, by its place in the grid, and the line of its output. -/
structure Origin where
  run : Nat
  line : Nat
deriving DecidableEq

/-- `a.Before b` says that `a` is an earlier run, or an earlier line of the same one. -/
def Origin.Before (a b : Origin) : Prop := a.run < b.run ∨ a.run = b.run ∧ a.line < b.line

theorem Origin.Before.ne {a b : Origin} (h : a.Before b) : a ≠ b := by
  rintro rfl
  unfold Before at h
  omega

/-- `o.Yields env s tool r` says that the run was successful and its output is well-formed, and `r`
    is the record that this line of the output has closed. -/
def Origin.Yields (env : Environment) (s : Settings) (tool : String) (o : Origin) (r : Record) :
    Prop :=
  ∃ c stdout records, (runs s)[o.run]? = some c ∧
    (attempt env s tool c).value = .done (.success stdout) ∧
    (ToolOutput.parse s.inputDir c stdout).value = .ok records ∧ r ∈ records ∧
    ToolOutput.ClosesAt (ToolOutput.lead s.inputDir) c (Text.lines stdout.toList) o.line r

/-- `traced` is the `records` with their origins, which are in order and begin with run `n`. -/
structure Traced (env : Environment) (s : Settings) (tool : String) (n : Nat)
    (records : List Record) (traced : List (Origin × Record)) : Prop where
  map_snd : traced.map Prod.snd = records
  yields : ∀ x ∈ traced, x.1.Yields env s tool x.2
  ordered : traced.Pairwise fun a b => a.1.Before b.1
  le_run : ∀ x ∈ traced, n ≤ x.1.run

variable {env : Environment} {s : Settings} {tool : String} {n : Nat}

theorem traced_nil : Traced env s tool n [] [] := ⟨rfl, by simp, .nil, by simp⟩

/-- The `records` of the run `n`, which was completed and accepted, can be traced to it. -/
theorem exists_traced_of_records {c : RunConfig} {o : Outcome} {records : List Record}
    (hget : (runs s)[n]? = some c) (hdone : (attempt env s tool c).value = .done o)
    (h : (o.records s.malformedOutput s.inputDir c).value = .ok records) :
    ∃ traced, Traced env s tool n records traced ∧ ∀ x ∈ traced, x.1.run = n := by
  have hrecords := (Outcome.records_eq_ok h).1
  cases o with
  | failed code stdout stderr => exact ⟨[], hrecords ▸ traced_nil, by simp⟩
  | timedOut => exact ⟨[], hrecords ▸ traced_nil, by simp⟩
  | success stdout =>
    cases hparse : (ToolOutput.parse s.inputDir c stdout).value with
    | error e =>
      -- Malformed output was skipped, and contributes nothing.
      have hnone : records = [] := by
        rw [hrecords, Outcome.contribution, hparse]
        rfl
      exact ⟨[], hnone ▸ traced_nil, by simp⟩
    | ok parsed =>
      have hsome : records = parsed := by
        rw [hrecords, Outcome.contribution, hparse]
        rfl
      subst hsome
      obtain ⟨closed, hmap, hordered, hcloses⟩ := ToolOutput.exists_closesAt_of_parse hparse
      -- The lines of this one output become origins in run `n`.
      refine ⟨closed.map fun x => (⟨n, x.1⟩, x.2), ⟨?_, ?_, ?_, ?_⟩, ?_⟩
      · rw [List.map_map, ← hmap]
        rfl
      · intro x hx
        obtain ⟨y, hy, rfl⟩ := List.mem_map.1 hx
        have hmem : y.2 ∈ records := hmap ▸ List.mem_map_of_mem hy
        exact ⟨c, stdout, records, hget, hdone, hparse, hmem, hcloses y hy⟩
      · refine List.pairwise_map.2 (hordered.imp ?_)
        intro a b hab
        exact .inr ⟨rfl, hab⟩
      · intro x hx
        obtain ⟨y, -, rfl⟩ := List.mem_map.1 hx
        exact Nat.le_refl n
      · intro x hx
        obtain ⟨y, -, rfl⟩ := List.mem_map.1 hx
        rfl

/-- The records of run `n` come before those of all later runs. -/
theorem Traced.append {first more : List Record} {traced traced' : List (Origin × Record)}
    (h : Traced env s tool n first traced) (hrun : ∀ x ∈ traced, x.1.run = n)
    (h' : Traced env s tool (n + 1) more traced') :
    Traced env s tool n (first ++ more) (traced ++ traced') where
  map_snd := by rw [List.map_append, h.map_snd, h'.map_snd]
  yields := List.forall_mem_append.2 ⟨h.yields, h'.yields⟩
  ordered := by
    refine List.pairwise_append.2 ⟨h.ordered, h'.ordered, ?_⟩
    intro a ha b hb
    have ha' := hrun a ha
    have hb' := h'.le_run b hb
    exact .inl (by omega)
  le_run := by
    refine List.forall_mem_append.2 ⟨h.le_run, ?_⟩
    intro x hx
    have hx' := h'.le_run x hx
    omega

/-- Whatever `runAll` returns for the runs from `n` on can be traced. -/
theorem exists_traced {cs : List RunConfig} {stop : Bool} {records : List Record}
    (hcs : (runs s).drop n = cs)
    (h : (runAll (attempt env s tool) (stopped env s tool)
      (fun c o => o.records s.malformedOutput s.inputDir c) stop cs).value.result = .ok records) :
    ∃ traced, Traced env s tool n records traced := by
  -- Run by run: `n` counts up with the runs that are done.
  induction cs generalizing n stop records with
  | nil =>
    simp only [runAll, Logged.value_pure, Except.ok.injEq] at h
    exact ⟨[], h ▸ traced_nil⟩
  | cons c cs ih =>
    cases stop with
    | true =>
      simp only [runAll, Except.ok.injEq] at h
      exact ⟨[], h ▸ traced_nil⟩
    | false =>
      rcases runAll_cons_eq_ok h with ⟨-, hnil, -⟩ | ⟨o, first, more, hdone, hfirst, hmore, rfl, -⟩
      -- A cancelled run contributes nothing, and neither does any run after it.
      · exact ⟨[], hnil ▸ traced_nil⟩
      · have hget : (runs s)[n]? = some c := by
          rw [← List.head?_drop, hcs]
          rfl
        have hrest : (runs s).drop (n + 1) = cs := by
          rw [← List.tail_drop, hcs]
          rfl
        obtain ⟨traced, htraced, hrun⟩ := exists_traced_of_records hget hdone hfirst
        obtain ⟨traced', htraced'⟩ := ih hrest hmore
        exact ⟨traced ++ traced', htraced.append hrun htraced'⟩

/-! ## Ranked groups -/

/-- The records of a group `g` of `rank records` can be traced, and no origin occurs twice.  Among
    records of the same rank the origins are still in order. -/
theorem Traced.ranked {records : List Record} {traced : List (Origin × Record)}
    (h : Traced env s tool n records traced) {g : Group} (hg : g ∈ rank records) :
    ∃ ranked : List (Origin × Record), ranked.map Prod.snd = g.records ∧
      (ranked.map Prod.fst).Nodup ∧ (∀ x ∈ ranked, x.1.Yields env s tool x.2) ∧
      ranked.Pairwise fun a b => a.2.SameRank b.2 → a.1.Before b.1 := by
  rw [rank_eq, List.mem_map] at hg
  obtain ⟨name, -, rfl⟩ := hg
  -- The labels go along with the records, first to the group and then to their places in it.
  let grouped := traced.filter (·.2.benchmark = name)
  have hgrouped : grouped.map Prod.snd = Group.recordsOf records name := by
    rw [Group.recordsOf, ← h.map_snd, List.filter_map]
    rfl
  have hordered : grouped.Pairwise fun a b => a.1.Before b.1 := h.ordered.filter _
  refine ⟨grouped.mergeSort fun a b => a.2.ranksBefore b.2, ?_, ?_, ?_, ?_⟩
  · rw [List.map_mergeSort (s := Record.ranksBefore) fun _ _ _ _ => rfl, hgrouped]
  · have hnodup : (grouped.map Prod.fst).Nodup :=
      List.pairwise_map.2 (hordered.imp Origin.Before.ne)
    exact ((List.mergeSort_perm ..).map Prod.fst).nodup_iff.2 hnodup
  · intro x hx
    exact h.yields x (List.mem_filter.1 (List.mem_mergeSort.1 hx)).1
  · exact pairwise_mergeSort_of_sameRank Prod.snd hordered

/-- If a sweep ends well then every record in its groups comes from a run of the grid that was
    successful and had well-formed output.  It has the number of this run and shows its machine,
    mapping and weights.  Within a group, records of the same rank are in the order of their runs,
    and those of one run in the order of their terminal lines, see `Origin.Before`. -/
theorem groups_keep_provenance (env : Environment) (d : Definition) (groups : List Group)
    (hrun : (run env d).value.result = .ok groups) :
    ∃ s tool, (d.build env.workspace.readText env.timestamp).value = .ok s ∧
      (ToolLookup.toolPath env.workspace env.toolVariable env.searchPath s.binary).value = .ok tool ∧
      ∀ g ∈ groups, ∃ traced : List (Origin × Record),
        traced.map Prod.snd = g.records ∧ (traced.map Prod.fst).Nodup ∧
        (∀ o r, (o, r) ∈ traced → ∃ c stdout records,
          o.run < (Grid.ofSettings s).size ∧ (Grid.ofSettings s).configs[o.run]? = some c ∧
          r.runIndex = UInt64.ofNat o.run ∧
          ((Grid.ofSettings s).size ≤ UInt64.size → r.runIndex.toNat = o.run) ∧
          r.architecture = c.architecture.kind ∧ r.coordinateMapping = c.coordinateMapping ∧
          r.weights = c.weights ∧ r.weights.isDegenerate = false ∧
          (attempt env s tool c).value = .done (.success stdout) ∧
          (ToolOutput.parse s.inputDir c stdout).value = .ok records ∧ r ∈ records ∧
          ToolOutput.ClosesAt (ToolOutput.lead s.inputDir) c (Text.lines stdout.toList) o.line r) ∧
        traced.Pairwise fun a b => a.2.SameRank b.2 → a.1.Before b.1 := by
  obtain ⟨s, tool, records, hbuild, htool, hcollect, hresult, -⟩ := concludes_of_result hrun
  obtain rfl := (conclude_eq_ok hresult).1
  rw [collect_value] at hcollect
  obtain ⟨all, htraced⟩ := exists_traced (n := 0) List.drop_zero hcollect
  refine ⟨s, tool, hbuild, htool, ?_⟩
  intro g hg
  obtain ⟨traced, hmap, hnodup, hyields, hordered⟩ := htraced.ranked hg
  refine ⟨traced, hmap, hnodup, ?_, hordered⟩
  intro o r hmem
  obtain ⟨c, stdout, records, hget, hdone, hparse, hr, hcloses⟩ := hyields (o, r) hmem
  obtain ⟨hlt, hindex, hweights⟩ : o.run < _ ∧ _ := Grid.config_of_getElem? hget
  obtain ⟨segment, hdescribes⟩ := hcloses.describes
  have hnumber : r.runIndex = UInt64.ofNat o.run := hdescribes.runIndex.trans hindex
  refine ⟨c, stdout, records, hlt, hget, hnumber, ?_, hdescribes.architecture,
    hdescribes.coordinateMapping, hdescribes.weights, ?_, hdone, hparse, hr, hcloses⟩
  · intro hsize
    rw [hnumber, UInt64.toNat_ofNat_of_lt' (by omega)]
  · rw [hdescribes.weights]
    exact hweights

/-! ## A contest

Two results of the first run have the same fidelity, the second run prints malformed output, and the
third run is better than the first one.  The weights that are zero twice are not worth a run. -/

/-- What the tool does in each run of the `contest`. -/
def contestScripts : List Script :=
  let result fidelity runtime := Text.Utf8.encode
    s!"Mapping circuits/qft.qasm\ntotalFidelities: {fidelity}\n* runtime: {runtime}\n".toList
  [{ stdout := result "0.5" "17" ++ result "0.50" "16" },
    { stdout := result "0.5" "many" },
    { stdout := result "0.75" "18" }]

/-- The contest takes place where the `rehearsal` does. -/
def contest : Environment where
  workspace := rehearsal.workspace
  course c i := (contestScripts.getD c.runIndex.toNat {}).course false i

/-- The settings of the `contest`, with three runs. -/
def contestSettings : Settings where
  binary := "./tool"
  architectures := [⟨.gate, "gate.json"⟩]
  coordinateMappings := [.trivial]
  weights :=
    [⟨.ofNat 0, .ofNat 0⟩, ⟨.ofNat 1, .ofNat 1⟩, ⟨.ofNat 0, .ofNat 1⟩, ⟨.ofNat 1, .ofNat 0⟩]

/-- The `contestSettings` as a sweep. -/
def contestDefinition : Definition where
  name := "contest"
  settings := contestSettings

/-- A record of the `contest`. -/
def contestRecord (runIndex : UInt64) (weights : Weights) (fidelity : Binary64) (ms : UInt64) :
    Record where
  benchmark := "qft"
  architecture := .gate
  coordinateMapping := .trivial
  runIndex
  weights
  metrics := { fidelity := some fidelity, runtimeMs := some ms }

/-- The first result of the first run of the `contest`. -/
def earlyRecord : Record := contestRecord 0 ⟨.ofNat 1, .ofNat 1⟩ (.ofDecimal false 5 (-1)) 17

/-- The second result of the first run, which has the same rank as `earlyRecord`. -/
def equalRecord : Record := contestRecord 0 ⟨.ofNat 1, .ofNat 1⟩ (.ofDecimal false 5 (-1)) 16

/-- The result of the third run, with a greater fidelity than `earlyRecord` has. -/
def betterRecord : Record := contestRecord 2 ⟨.ofNat 1, .ofNat 0⟩ (.ofDecimal false 75 (-2)) 18

private theorem run_contest : (run contest contestDefinition).value.result =
    .ok [⟨"qft", [betterRecord, earlyRecord, equalRecord]⟩] := by
  have hbuild : (contestDefinition.build contest.workspace.readText contest.timestamp).value =
      .ok contestSettings := by decide +kernel
  have htool : (ToolLookup.toolPath contest.workspace contest.toolVariable contest.searchPath
      contestSettings.binary).value = .ok "./tool" := by decide +kernel
  have hcollect : (collect contest contestSettings "./tool").value.result =
      .ok [earlyRecord, equalRecord, betterRecord] := by decide +kernel
  -- The sort does not reduce by itself, so that it is taken from its equations.
  have hfirst : earlyRecord.ranksBefore equalRecord = true := by decide +kernel
  have hthird : earlyRecord.ranksBefore betterRecord = false := by decide +kernel
  have hsort : [earlyRecord, equalRecord, betterRecord].mergeSort Record.ranksBefore =
      [betterRecord, earlyRecord, equalRecord] := by
    simp [List.mergeSort, List.MergeSort.Internal.splitInTwo, List.splitAt, List.splitAt.go, hfirst,
      hthird]
  have hrank : rank [earlyRecord, equalRecord, betterRecord] =
      [⟨"qft", [earlyRecord, equalRecord, betterRecord].mergeSort Record.ranksBefore⟩] := rfl
  rw [run_value_of_collect hbuild htool, announce_result, hcollect]
  show Except.ok (rank [earlyRecord, equalRecord, betterRecord]) = _
  rw [hrank, hsort]

/-- The best record of the `contest` is from the third run.  The other two are both from the first
    run, and in the order of their lines. -/
theorem contest_keeps_provenance :
    (run contest contestDefinition).value.result =
        .ok [⟨"qft", [betterRecord, earlyRecord, equalRecord]⟩] ∧
      ∃ o₁ o₂ o₃ : Origin, o₁.run = 2 ∧ o₂.run = 0 ∧ o₃.run = 0 ∧ o₂.line < o₃.line ∧
        o₁.Yields contest contestSettings "./tool" betterRecord ∧
        o₂.Yields contest contestSettings "./tool" earlyRecord ∧
        o₃.Yields contest contestSettings "./tool" equalRecord := by
  obtain ⟨s, tool, hbuild, htool, hgroups⟩ :=
    groups_keep_provenance contest contestDefinition _ run_contest
  obtain rfl : contestSettings = s := by
    refine Except.ok.inj (Eq.trans ?_ hbuild)
    decide +kernel
  obtain rfl : "./tool" = tool := by
    refine Except.ok.inj (Eq.trans ?_ htool)
    decide +kernel
  obtain ⟨traced, hrecords, -, hfrom, hordered⟩ := hgroups _ (List.mem_singleton_self _)
  -- The group has three records, so there are three origins.
  obtain ⟨⟨o₁, _⟩, rest₁, rfl, rfl, hrest₁⟩ := List.map_eq_cons_iff.1 hrecords
  obtain ⟨⟨o₂, _⟩, rest₂, rfl, rfl, hrest₂⟩ := List.map_eq_cons_iff.1 hrest₁
  obtain ⟨⟨o₃, _⟩, rest₃, rfl, rfl, hrest₃⟩ := List.map_eq_cons_iff.1 hrest₂
  obtain rfl := List.map_eq_nil_iff.1 hrest₃
  have hyields : ∀ o r, (o, r) ∈ [(o₁, betterRecord), (o₂, earlyRecord), (o₃, equalRecord)] →
      r.runIndex.toNat = o.run ∧ o.Yields contest contestSettings "./tool" r := by
    intro o r hmem
    obtain ⟨c, stdout, records, -, hget, -, hnumber, -, -, -, -, hrest⟩ := hfrom o r hmem
    exact ⟨hnumber (by decide +kernel), c, stdout, records, hget, hrest⟩
  obtain ⟨h₁, hy₁⟩ := hyields o₁ betterRecord (by simp)
  obtain ⟨h₂, hy₂⟩ := hyields o₂ earlyRecord (by simp)
  obtain ⟨h₃, hy₃⟩ := hyields o₃ equalRecord (by simp)
  have hlines : o₂.Before o₃ := by
    have hpair := (List.pairwise_cons.1 (List.pairwise_cons.1 hordered).2).1 _
      (List.mem_singleton_self _)
    exact hpair (Record.sameRank_iff.2 rfl)
  refine ⟨run_contest, o₁, o₂, o₃, h₁.symm, h₂.symm, h₃.symm, ?_, hy₁, hy₂, hy₃⟩
  have hsame : o₂.run = o₃.run := h₂.symm.trans h₃
  unfold Origin.Before at hlines
  omega

end Sweep

end MapperSweep
