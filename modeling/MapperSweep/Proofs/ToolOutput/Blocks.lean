import MapperSweep.Proofs.Numeral
import MapperSweep.Proofs.ToolOutput.Segments

/-!
# Reading back written results

Results that are written block by block, in the layout of the mapping tool, are read back as they
were, whatever their benchmarks are called and whatever other lines stand between them.

A line of a block is claimed by its own marker only: no marker is a part of another one that is
looked for later, none of them reaches over a separator, and none of them can be spelled with the
characters of a number.  The contents of all lines then determine the records
(`collect_of_contents`), and noise does not count (`recordsFrom_filter`).

## Key results

- `readLine_mappingLine`, `readLine_valueLine`, `readLine_runtimeLine`: the lines of a block
- `recordsFrom_contents`: the record of a block
- `parse_written_blocks`: all blocks, with noise between the lines
-/

namespace MapperSweep.ToolOutput

/-! ## Records from the contents of lines -/

/-- The records that lines with the given contents close in the output of the run `config`.  The
    benchmark and the measurements are those of the result under way. -/
def recordsFrom (config : RunConfig) : Option String → Metrics → List Line → List Record
  | _, _, [] => []
  | _, m, .benchmark name :: rest => recordsFrom config (some name) m rest
  | b, m, .reading r :: rest => recordsFrom config b (m.set r) rest
  | b, m, .runtime ms :: rest =>
    .ofRun config (b.getD unnamedBenchmark) { m with runtimeMs := some ms } ::
      recordsFrom config none {} rest
  | b, m, .noise :: rest => recordsFrom config b m rest

/-- Lines that can all be read give the records `recordsFrom` their contents. -/
theorem collect_of_contents {lead : List Char} {config : RunConfig} {lines : List (List Char)}
    {contents : List Line}
    (h : List.Forall₂ (fun line content => readLine lead line = .ok content) lines contents)
    (a : Accumulator) :
    ∃ last, (collect lead config a lines).value =
      .ok (recordsFrom config a.benchmark a.metrics contents, last) := by
  induction h generalizing a with
  | nil => exact ⟨a, rfl⟩
  | @cons line content lines contents hread _ ih =>
    obtain ⟨last, hlast⟩ :=
      ih (Accumulator.take config { a with lineNo := a.lineNo + 1 } content).1
    refine ⟨last, ?_⟩
    simp only [collect, Accumulator.feed, hread, Logged.andThen, Logged.value_map, hlast,
      Logged.value_pure, Except.ok.injEq, Prod.mk.injEq, and_true]
    cases content with
    | runtime ms => cases a.benchmark <;> simp [Accumulator.take, recordsFrom]
    | _ => simp [Accumulator.take, recordsFrom]

/-- `.noise` does not count for `recordsFrom`. -/
theorem recordsFrom_filter (config : RunConfig) (b : Option String) (m : Metrics)
    (contents : List Line) :
    recordsFrom config b m (contents.filter (· != .noise)) = recordsFrom config b m contents := by
  induction contents generalizing b m with
  | nil => rfl
  | cons content contents ih => cases content <;> simp [recordsFrom, ih]

/-- The measurements `rs` are taken in one after the other. -/
private theorem recordsFrom_readings (config : RunConfig) (b : Option String) (m : Metrics)
    (rs : List Reading) (rest : List Line) :
    recordsFrom config b m (rs.map .reading ++ rest) =
      recordsFrom config b (rs.foldl Metrics.set m) rest := by
  induction rs generalizing m with
  | nil => rfl
  | cons r rs ih => exact ih (m.set r)

/-! ## Blocks -/

/-- The result of one benchmark as it is written: `values` are given by their texts. -/
structure Block where
  name : List Char
  values : List (Metric × List Char)
  runtime : UInt64

/-- The measurement that a text stands for, if it stands for one. -/
def readingOf? : Metric × List Char → Option Reading
  | (.count c, text) => (readCount? text).map (.count c)
  | (.measure m, text) => (Binary64.ofText? text).map (.measure m)

/-- The name of `b` fits on a line and stops before the extension, and every text stands for a
    value. -/
structure Block.WellFormed (b : Block) : Prop where
  name_line : '\n' ∉ b.name
  name_extension : ¬".qasm".toList <:+: b.name
  values : ∀ v ∈ b.values, (readingOf? v).isSome

/-- The start of the lines that name a benchmark: `inputDir` without the slashes at its end. -/
def mappingStart (inputDir : String) : List Char :=
  "Mapping ".toList ++ inputDir.toList.rdropWhile (· == '/') ++ ['/']

/-- The line that names the benchmark `name`. -/
def mappingLine (inputDir : String) (name : List Char) : List Char :=
  mappingStart inputDir ++ (name ++ ".qasm".toList)

/-- The line with the measurement `v`, by its marker and its text. -/
def valueLine (v : Metric × List Char) : List Char := v.1.marker.toList ++ ": ".toList ++ v.2

/-- The line with the runtime `ms`. -/
def runtimeLine (ms : UInt64) : List Char := "* runtime: ".toList ++ (toString ms.toNat).toList

/-- The lines of the block `b`: its name, its values and its runtime. -/
def Block.lines (inputDir : String) (b : Block) : List (List Char) :=
  mappingLine inputDir b.name :: b.values.map valueLine ++ [runtimeLine b.runtime]

/-- The text that is given last for the metric `m`. -/
def Block.lastText (b : Block) (m : Metric) : Option (List Char) :=
  ((b.values.filter (·.1 = m)).getLast?).map Prod.snd

/-- The last value of the count `c`. -/
def Block.count (b : Block) (c : Count) : Option UInt64 := (b.lastText (.count c)).bind readCount?

/-- The last value of the real number `m`. -/
def Block.measure (b : Block) (m : Measure) : Option Binary64 :=
  (b.lastText (.measure m)).bind Binary64.ofText?

/-- The record of the block `b` in the output of the run `config`. -/
def Block.record (config : RunConfig) (b : Block) : Record where
  benchmark := String.ofList b.name
  architecture := config.architecture.kind
  coordinateMapping := config.coordinateMapping
  runIndex := config.runIndex
  weights := config.weights
  metrics :=
    { swaps := b.count .swaps
      bridges := b.count .bridges
      moves := b.count .moves
      czCount := b.count .czCount
      executionTime := b.measure .executionTime
      idleTime := b.measure .idleTime
      gateFidelity := b.measure .gateFidelity
      fidelity := b.measure .fidelity
      runtimeMs := some b.runtime }

/-- `IsNoise inputDir line` holds of a line that says nothing: it has no marker and does not start
    like one that names a benchmark. -/
structure IsNoise (inputDir : String) (line : List Char) : Prop where
  feed : '\n' ∉ line
  metric : ∀ m : Metric, ¬m.marker.toList <:+: line
  terminal : ¬"* runtime".toList <:+: line
  mapping : ¬mappingStart inputDir <+: line

/-- `Interspersed noise xs ys` says that `ys` is `xs` with noise at any places. -/
inductive Interspersed (noise : α → Prop) : List α → List α → Prop
  | nil : Interspersed noise [] []
  | keep {x : α} {xs ys : List α} :
    Interspersed noise xs ys → Interspersed noise (x :: xs) (x :: ys)
  | noise {y : α} {xs ys : List α} :
      noise y → Interspersed noise xs ys → Interspersed noise xs (y :: ys)

/-! ## The markers -/

/-- The marker of `m` finds `m`, because no marker is a part of a later one in `Metric.all`. -/
theorem find?_marker (m : Metric) :
    Metric.all.find? (fun k => k.marker.toList <:+: m.marker.toList) = some m := by
  cases m with
  | count c => cases c <;> decide
  | measure m => cases m <;> decide

private theorem separators_not_mem_marker (m : Metric) :
    ':' ∉ m.marker.toList ∧ ' ' ∉ m.marker.toList := by
  cases m with
  | count c => cases c <;> decide
  | measure m => cases m <;> decide

/-- No marker can be spelled with `numberChars` alone. -/
private theorem exists_mem_marker_not_mem_numberChars (m : Metric) :
    ∃ c ∈ m.marker.toList, c ∉ numberChars := by
  rw [← List.any_iff_exists_prop]
  cases m with
  | count c => cases c <;> decide
  | measure m => cases m <;> decide

/-- No marker occurs in the text of a number. -/
private theorem not_marker_infix_number (m : Metric) {text : List Char} (h : IsNumberText text) :
    ¬m.marker.toList <:+: text := by
  intro hpart
  obtain ⟨c, hc, hnot⟩ := exists_mem_marker_not_mem_numberChars m
  exact hnot (h c (hpart.subset hc))

/-- In a line with a number, a marker occurs in the `label` or not at all. -/
private theorem marker_infix_labelled_iff (m : Metric) {label text : List Char}
    (h : IsNumberText text) :
    m.marker.toList <:+: label ++ ": ".toList ++ text ↔ m.marker.toList <:+: label := by
  obtain ⟨hcolon, hblank⟩ := separators_not_mem_marker m
  have hempty : ¬m.marker.toList <:+: [] := not_marker_infix_number m (by simp [IsNumberText])
  -- Two separators make three parts: the label, nothing at all, and the number.
  have hline : label ++ ": ".toList ++ text = label ++ ':' :: ([] ++ ' ' :: text) := by simp
  rw [hline, Text.infix_append_cons_iff hcolon, Text.infix_append_cons_iff hblank]
  simp [hempty, not_marker_infix_number m h]

/-- `numberOn` a line with a `label` is the number after it. -/
private theorem numberOn_labelled {read : List Char → Option α} (label : List Char)
    {text : List Char} (h : IsNumberText text) :
    numberOn read (label ++ ": ".toList ++ text) = read text := by
  have hnumber : ∀ c ∈ numberChars, Text.isBlank c = false ∧ c ≠ ':' :=
    List.all_iff_forall_prop.1 (by decide)
  -- A number has no colon, so the last one is that of the label.
  have hcolon : ':' ∉ ' ' :: text := by
    simp only [List.mem_cons, not_or]
    exact ⟨by decide, fun hmem => (hnumber ':' (h ':' hmem)).2 rfl⟩
  have hline : label ++ ": ".toList ++ text = label ++ ':' :: ' ' :: text := by simp
  have hmem : ':' ∈ label ++ ':' :: ' ' :: text := by simp
  have hlast : (label ++ ':' :: ' ' :: text).rtakeWhile (· != ':') = ' ' :: text :=
    Option.some.inj ((Text.afterLast?_eq_rtakeWhile hmem).symm.trans
      (Text.afterLast?_append label hcolon))
  rw [hline, numberOn, if_pos hmem, hlast]
  rw [Text.trim_blank_cons (by decide) fun c hc => (hnumber c (h c hc)).1]

/-! ## The lines of a block -/

/-- A line that does not begin with the letter of `lead` does not start with it. -/
private theorem not_lead_of_head {inputDir : String} {c : Char} {cs : List Char} (h : c ≠ 'M') :
    ¬lead inputDir <+: c :: cs := by
  rintro ⟨rest, hrest⟩
  have hhead : 'M' = c := by
    have hlead : lead inputDir = 'M' :: (lead inputDir).tail := rfl
    rw [hlead, List.cons_append, List.cons.injEq] at hrest
    exact hrest.1
  exact h hhead.symm

/-- `readLine` reads the line of a benchmark as its `name`, whatever the name contains. -/
theorem readLine_mappingLine (inputDir : String) {name : List Char}
    (h : ¬".qasm".toList <:+: name) :
    readLine (lead inputDir) (mappingLine inputDir name) =
      .ok (.benchmark (String.ofList name)) := by
  have hstrip : Text.stripStart? (lead inputDir) (mappingLine inputDir name) =
      some (name ++ ".qasm".toList) := Text.stripStart?_eq_some.2 rfl
  -- The extension has one dot only, so it cannot begin in the name and end after it.
  have hname : Text.upTo ".qasm".toList (name ++ ".qasm".toList) = name := by
    have hpiece : Text.upTo ('.' :: "qasm".toList) (name ++ ('.' :: "qasm".toList ++ [])) = name :=
      Text.upTo_append_piece (by decide) h
    rwa [List.append_nil] at hpiece
  simp only [readLine, hstrip, benchmarkName, hname]

private theorem exists_marker_eq_cons (m : Metric) :
    ∃ c cs, m.marker.toList = c :: cs ∧ c ≠ 'M' := by
  cases m with
  | count c => cases c <;> exact ⟨_, _, rfl, by decide⟩
  | measure m => cases m <;> exact ⟨_, _, rfl, by decide⟩

/-- The line of a measurement has the class of its own marker, see `find?_marker`. -/
private theorem classify_valueLine (inputDir : String) {v : Metric × List Char}
    (h : IsNumberText v.2) : classify (lead inputDir) (valueLine v) = .metric v.1 := by
  have hlead : ¬lead inputDir <+: valueLine v := by
    obtain ⟨c, cs, hmarker, hc⟩ := exists_marker_eq_cons v.1
    rw [valueLine, hmarker, List.cons_append, List.cons_append]
    exact not_lead_of_head hc
  -- Whether a marker is found depends on the label alone.
  have hsearch : (fun k : Metric => decide (k.marker.toList <:+: valueLine v)) =
      fun k => decide (k.marker.toList <:+: v.1.marker.toList) := by
    funext k
    rw [decide_eq_decide]
    exact marker_infix_labelled_iff k h
  rw [classify, if_neg hlead, hsearch, find?_marker]

private theorem isNumberText_of_readingOf? {v : Metric × List Char} {r : Reading}
    (h : readingOf? v = some r) : IsNumberText v.2 := by
  obtain ⟨m, text⟩ := v
  cases m with
  | count c =>
    obtain ⟨n, hn, -⟩ := Option.map_eq_some_iff.1 h
    exact isNumberText_of_readCount? hn
  | measure m =>
    obtain ⟨x, hx, -⟩ := Option.map_eq_some_iff.1 h
    exact isNumberText_of_ofText? hx

/-- `readLine` reads the line of a measurement as this measurement. -/
theorem readLine_valueLine (inputDir : String) {v : Metric × List Char} {r : Reading}
    (h : readingOf? v = some r) :
    readLine (lead inputDir) (valueLine v) = .ok (.reading r) := by
  have htext := isNumberText_of_readingOf? h
  rw [readLine_eq_ok_iff]
  obtain ⟨m, text⟩ := v
  cases m with
  | count c =>
    obtain ⟨n, hn, rfl⟩ := Option.map_eq_some_iff.1 h
    exact ⟨classify_valueLine inputDir htext, (numberOn_labelled _ htext).trans hn⟩
  | measure m =>
    obtain ⟨x, hx, rfl⟩ := Option.map_eq_some_iff.1 h
    exact ⟨classify_valueLine inputDir htext, (numberOn_labelled _ htext).trans hx⟩

private theorem runtimeLine_eq (ms : UInt64) :
    runtimeLine ms = "* runtime".toList ++ ": ".toList ++ digits ms.toNat := by
  have hdigits : (toString ms.toNat).toList = digits ms.toNat := by
    rw [Nat.toString_eq_ofList_toDigits, String.toList_ofList, digits]
  have hlabel : "* runtime: ".toList = "* runtime".toList ++ ": ".toList := by decide
  exact congr (congrArg (· ++ ·) hlabel) hdigits

/-- `readLine` reads the line of a runtime as this runtime. -/
theorem readLine_runtimeLine (inputDir : String) (ms : UInt64) :
    readLine (lead inputDir) (runtimeLine ms) = .ok (.runtime ms) := by
  have hline := runtimeLine_eq ms
  have htext : IsNumberText (digits ms.toNat) := isNumberText_of_readCount? (readCount?_digits ms)
  have hlead : ¬lead inputDir <+: runtimeLine ms := not_lead_of_head (by decide)
  -- None of the markers that come first is in the label.
  have hmarkers : ∀ k : Metric, ¬k.marker.toList <:+: runtimeLine ms := by
    intro k
    rw [hline, marker_infix_labelled_iff k htext]
    cases k with
    | count c => cases c <;> decide
    | measure m => cases m <;> decide
  have hterminal : Marker.runtime.text.toList <:+: runtimeLine ms := by
    rw [hline, List.append_assoc]
    exact (List.prefix_append _ _).isInfix
  have hclass : classify (lead inputDir) (runtimeLine ms) = .terminal := by
    have hnone : (Metric.all.find? fun k => k.marker.toList <:+: runtimeLine ms) = none := by
      simp [hmarkers]
    rw [classify, if_neg hlead, hnone, if_pos hterminal]
  rw [readLine_eq_ok_iff]
  refine ⟨hclass, ?_⟩
  rw [hline, numberOn_labelled _ htext, readCount?_digits]

/-- `readLine` reads noise as `.noise`, with or without a carriage return at its end. -/
theorem readLine_noise {inputDir : String} {line : List Char} (h : IsNoise inputDir line) :
    readLine (lead inputDir) (Text.chopReturn '\r' line) = .ok .noise := by
  -- What is missing from a line is missing from any part of it.
  have hpart := Text.chopReturn_isPrefix '\r' line
  have hlead : ¬lead inputDir <+: Text.chopReturn '\r' line :=
    fun hstart => h.mapping (hstart.trans hpart)
  have hnone :
      (Metric.all.find? fun k => k.marker.toList <:+: Text.chopReturn '\r' line) = none := by
    simp only [List.find?_eq_none, decide_eq_true_eq]
    exact fun k _ hk => h.metric k (hk.trans hpart.isInfix)
  rw [readLine_eq_ok_iff]
  show classify (lead inputDir) (Text.chopReturn '\r' line) = .noise
  rw [classify, if_neg hlead, hnone, if_neg]
  exact fun hterminal => h.terminal (hterminal.trans hpart.isInfix)

/-! ## The record of a block -/

/-- The contents of the lines of the block `b`. -/
def Block.contents (b : Block) : List Line :=
  .benchmark (String.ofList b.name) :: (b.values.filterMap readingOf?).map .reading ++
    [.runtime b.runtime]

/-- The last text for the metric `m`, with one more value `v`. -/
private theorem lastText_concat (name : List Char) (vs : List (Metric × List Char)) (ms : UInt64)
    (v : Metric × List Char) (m : Metric) :
    (Block.mk name (vs ++ [v]) ms).lastText m =
      if v.1 = m then some v.2 else (Block.mk name vs ms).lastText m := by
  by_cases h : v.1 = m
  · simp [Block.lastText, h]
  · simp [Block.lastText, h]

/-- Taking in the values of a block keeps the last value of each measurement. -/
private theorem foldl_set_values (name : List Char) (vs : List (Metric × List Char)) (ms : UInt64)
    (h : ∀ v ∈ vs, (readingOf? v).isSome) :
    let m := (vs.filterMap readingOf?).foldl Metrics.set {}
    (∀ c, m.count c = (Block.mk name vs ms).count c) ∧
      ∀ c, m.measure c = (Block.mk name vs ms).measure c := by
  -- From the back: one more value hides the earlier ones for its metric.
  induction vs using List.reverseRecOn with
  | nil => exact ⟨fun c => by cases c <;> rfl, fun c => by cases c <;> rfl⟩
  | append_singleton vs v ih =>
    obtain ⟨hcount, hmeasure⟩ := ih fun w hw => h w (List.mem_append_left _ hw)
    obtain ⟨r, hr⟩ := Option.isSome_iff_exists.1 (h v (by simp))
    have hfold : ((vs ++ [v]).filterMap readingOf?).foldl Metrics.set {} =
        ((vs.filterMap readingOf?).foldl Metrics.set {}).set r := by
      simp [List.filterMap_append, hr]
    simp only [hfold, Block.count, Block.measure, lastText_concat] at hcount hmeasure ⊢
    obtain ⟨m, text⟩ := v
    cases m with
    | count d =>
      obtain ⟨n, hn, rfl⟩ := Option.map_eq_some_iff.1 hr
      refine ⟨fun c => ?_, fun c => by simp [hmeasure]⟩
      rw [Metrics.count_set_count, hcount]
      by_cases hdc : d = c
      · simp [hdc, hn]
      · simp [hdc]
    | measure d =>
      obtain ⟨x, hx, rfl⟩ := Option.map_eq_some_iff.1 hr
      refine ⟨fun c => by simp [hcount], fun c => ?_⟩
      rw [Metrics.measure_set_measure, hmeasure]
      by_cases hdc : d = c
      · simp [hdc, hx]
      · simp [hdc]

private theorem metrics_ext {m k : Metrics} (hcount : ∀ c, m.count c = k.count c)
    (hmeasure : ∀ c, m.measure c = k.measure c) (hruntime : m.runtimeMs = k.runtimeMs) : m = k := by
  have hswaps := hcount .swaps
  have hbridges := hcount .bridges
  have hmoves := hcount .moves
  have hcz := hcount .czCount
  have hexecution := hmeasure .executionTime
  have hidle := hmeasure .idleTime
  have hgate := hmeasure .gateFidelity
  have hfidelity := hmeasure .fidelity
  cases m
  cases k
  simp_all [Metrics.count, Metrics.measure]

/-- The `contents` of a block give its record, and then nothing is under way. -/
theorem recordsFrom_contents (config : RunConfig) {b : Block} (hb : b.WellFormed)
    (rest : List Line) :
    recordsFrom config none {} (b.contents ++ rest) =
      b.record config :: recordsFrom config none {} rest := by
  obtain ⟨hcount, hmeasure⟩ := foldl_set_values b.name b.values b.runtime hb.values
  have hmetrics : { (b.values.filterMap readingOf?).foldl Metrics.set {} with
      runtimeMs := some b.runtime } = (b.record config).metrics := by
    refine metrics_ext (fun c => ?_) (fun c => ?_) rfl
    · cases c with
      | czCount => exact hcount .czCount
      | bridges => exact hcount .bridges
      | swaps => exact hcount .swaps
      | moves => exact hcount .moves
    · cases c with
      | gateFidelity => exact hmeasure .gateFidelity
      | executionTime => exact hmeasure .executionTime
      | fidelity => exact hmeasure .fidelity
      | idleTime => exact hmeasure .idleTime
  rw [Block.contents, List.cons_append, List.cons_append, recordsFrom, List.append_assoc,
    recordsFrom_readings, List.singleton_append, recordsFrom, hmetrics]
  rfl

/-- The `contents` of several blocks give their records. -/
theorem recordsFrom_flatMap_contents (config : RunConfig) {blocks : List Block}
    (h : ∀ b ∈ blocks, b.WellFormed) :
    recordsFrom config none {} (blocks.flatMap Block.contents) =
      blocks.map (Block.record config) := by
  induction blocks with
  | nil => rfl
  | cons b blocks ih =>
    rw [List.flatMap_cons, recordsFrom_contents config (h b List.mem_cons_self),
      ih fun c hc => h c (List.mem_cons_of_mem b hc), List.map_cons]

/-! ## Lines with noise between them -/

private theorem readLine_valueLines (inputDir : String) {vs : List (Metric × List Char)}
    (h : ∀ v ∈ vs, (readingOf? v).isSome) :
    List.Forall₂ (fun line content => readLine (lead inputDir) line = .ok content)
      (vs.map valueLine) ((vs.filterMap readingOf?).map .reading) := by
  induction vs with
  | nil => exact .nil
  | cons v vs ih =>
    obtain ⟨r, hr⟩ := Option.isSome_iff_exists.1 (h v List.mem_cons_self)
    rw [List.map_cons, List.filterMap_cons_some hr, List.map_cons]
    exact .cons (readLine_valueLine inputDir hr) (ih fun w hw => h w (List.mem_cons_of_mem v hw))

/-- The lines of a block are read as its `contents`. -/
theorem readLine_lines (inputDir : String) {b : Block} (hb : b.WellFormed) :
    List.Forall₂ (fun line content => readLine (lead inputDir) line = .ok content)
      (b.lines inputDir) b.contents := by
  rw [Block.lines, Block.contents, List.cons_append, List.cons_append]
  exact .cons (readLine_mappingLine inputDir hb.name_extension)
    (List.rel_append (readLine_valueLines inputDir hb.values)
      (.cons (readLine_runtimeLine inputDir b.runtime) .nil))

private theorem readLine_flatMap_lines (inputDir : String) {blocks : List Block}
    (h : ∀ b ∈ blocks, b.WellFormed) :
    List.Forall₂ (fun line content => readLine (lead inputDir) line = .ok content)
      (blocks.flatMap (Block.lines inputDir)) (blocks.flatMap Block.contents) := by
  induction blocks with
  | nil => exact .nil
  | cons b blocks ih =>
    rw [List.flatMap_cons, List.flatMap_cons]
    exact List.rel_append (readLine_lines inputDir (h b List.mem_cons_self))
      (ih fun c hc => h c (List.mem_cons_of_mem b hc))

/-- `IsWritable line` holds of a line that a reader of lines gives back as it was written. -/
private structure IsWritable (line : List Char) : Prop where
  feed : '\n' ∉ line
  ret : line.getLast? ≠ some '\r'

/-- A `label` and the text of a number make a line. -/
private theorem isWritable_labelled {label text : List Char} (hfeed : '\n' ∉ label)
    (hreturn : '\r' ∉ label) (h : IsNumberText text) : IsWritable (label ++ text) := by
  have hnumber : ∀ c ∈ numberChars, c ≠ '\n' ∧ c ≠ '\r' := List.all_iff_forall_prop.1 (by decide)
  refine ⟨fun hmem => ?_, fun hlast => ?_⟩
  · exact (List.mem_append.1 hmem).elim hfeed fun hc => (hnumber _ (h _ hc)).1 rfl
  · exact (List.mem_append.1 (List.mem_of_getLast? hlast)).elim hreturn
      fun hc => (hnumber _ (h _ hc)).2 rfl

/-- The lines of a block are given back as they were written: the carriage returns of a name stand
    before the extension. -/
private theorem isWritable_of_mem_lines {inputDir : String} (hdir : '\n' ∉ inputDir.toList)
    {b : Block} (hb : b.WellFormed) {line : List Char} (h : line ∈ b.lines inputDir) :
    IsWritable line := by
  simp only [Block.lines, List.cons_append, List.mem_cons, List.mem_append, List.mem_map,
    List.not_mem_nil, or_false] at h
  rcases h with rfl | ⟨v, hv, rfl⟩ | rfl
  · have hstart : '\n' ∉ mappingStart inputDir := by
      unfold mappingStart
      rw [List.mem_append, List.mem_append]
      rintro ((hmem | hmem) | hmem)
      · exact absurd hmem (by decide)
      · exact hdir ((List.rdropWhile_prefix _ _).subset hmem)
      · exact absurd (List.mem_singleton.1 hmem) (by decide)
    refine ⟨?_, ?_⟩
    · rw [mappingLine, List.mem_append, List.mem_append]
      rintro (hmem | hmem | hmem)
      · exact hstart hmem
      · exact hb.name_line hmem
      · exact absurd hmem (by decide)
    -- The line ends with the extension, whatever the name ends with.
    · simp [mappingLine, List.getLast?_append]
  · have htext : IsNumberText v.2 := by
      obtain ⟨r, hr⟩ := Option.isSome_iff_exists.1 (hb.values v hv)
      exact isNumberText_of_readingOf? hr
    have hmarker : '\n' ∉ v.1.marker.toList ++ ": ".toList ∧
        '\r' ∉ v.1.marker.toList ++ ": ".toList := by
      cases v.1 with
      | count c => cases c <;> decide
      | measure m => cases m <;> decide
    exact isWritable_labelled hmarker.1 hmarker.2 htext
  · rw [runtimeLine_eq]
    exact isWritable_labelled (by decide) (by decide)
      (isNumberText_of_readCount? (readCount?_digits b.runtime))

/-- What holds of the lines `xs` and of noise holds of all lines with noise between them. -/
theorem Interspersed.forall_mem {noise p : α → Prop} {xs ys : List α}
    (h : Interspersed noise xs ys) (hkept : ∀ x ∈ xs, p x) (hnoise : ∀ y, noise y → p y) :
    ∀ y ∈ ys, p y := by
  induction h with
  | nil => exact hkept
  | keep _ ih =>
    obtain ⟨hx, hxs⟩ := List.forall_mem_cons.1 hkept
    exact List.forall_mem_cons.2 ⟨hx, ih hxs⟩
  | noise hy _ ih => exact List.forall_mem_cons.2 ⟨hnoise _ hy, ih hkept⟩

/-- Lines with noise between them can be read, and their contents differ by `.noise` only. -/
private theorem readLine_interspersed {inputDir : String} {written lines : List (List Char)}
    {contents : List Line} (h : Interspersed (IsNoise inputDir) written lines)
    (hread : List.Forall₂ (fun line content => readLine (lead inputDir) line = .ok content)
      written contents)
    (hwritable : ∀ line ∈ written, IsWritable line) :
    ∃ all, List.Forall₂ (fun line content => readLine (lead inputDir) line = .ok content)
        (lines.map (Text.chopReturn '\r')) all ∧
      all.filter (· != .noise) = contents.filter (· != .noise) := by
  -- Noise is added to the contents wherever it is added to the lines.
  induction h generalizing contents with
  | nil => exact ⟨contents, hread, rfl⟩
  | keep _ ih =>
    obtain ⟨hline, hlines⟩ := List.forall_mem_cons.1 hwritable
    cases hread with
    | @cons _ content _ contents hcontent hrest =>
      obtain ⟨all, hall, hfilter⟩ := ih hrest hlines
      refine ⟨content :: all, .cons ?_ hall, ?_⟩
      · rw [Text.chopReturn_of_getLast?_ne hline.ret, hcontent]
      · rw [List.filter_cons, List.filter_cons, hfilter]
  | noise hy _ ih =>
    obtain ⟨all, hall, hfilter⟩ := ih hread hwritable
    exact ⟨.noise :: all, .cons (readLine_noise hy) hall, by simpa using hfilter⟩

/-- Results that are written as `blocks`, with noise between their lines, are read back by `parse`:
    one record for each block, in order, with its name, the last value of each metric and its
    runtime. -/
theorem parse_written_blocks (inputDir : String) (config : RunConfig) (blocks : List Block)
    (lines : List (List Char)) (hdir : '\n' ∉ inputDir.toList)
    (hblocks : ∀ b ∈ blocks, b.WellFormed)
    (hlines : Interspersed (IsNoise inputDir) (blocks.flatMap (Block.lines inputDir)) lines) :
    (parse inputDir config (String.ofList (lines.flatMap (· ++ ['\n'])))).value =
      .ok (blocks.map (Block.record config)) := by
  have hwritable : ∀ line ∈ blocks.flatMap (Block.lines inputDir), IsWritable line := by
    intro line hline
    obtain ⟨b, hb, hmem⟩ := List.mem_flatMap.1 hline
    exact isWritable_of_mem_lines hdir (hblocks b hb) hmem
  have hfeed : ∀ line ∈ lines, '\n' ∉ line :=
    hlines.forall_mem (fun line hline => (hwritable line hline).feed) fun _ hnoise => hnoise.feed
  obtain ⟨all, hall, hfilter⟩ :=
    readLine_interspersed hlines (readLine_flatMap_lines inputDir hblocks) hwritable
  -- Without noise, the contents are those of the blocks.
  have hrecords : recordsFrom config none {} all = blocks.map (Block.record config) := by
    rw [← recordsFrom_filter, hfilter, recordsFrom_filter,
      recordsFrom_flatMap_contents config hblocks]
  obtain ⟨last, hlast⟩ : ∃ last,
      (collect (lead inputDir) config {} (lines.map (Text.chopReturn '\r'))).value =
        .ok (blocks.map (Block.record config), last) := by
    rw [← hrecords]
    exact collect_of_contents hall {}
  rw [parse, String.toList_ofList, Text.lines, Text.splitLines_flatMap lines hfeed]
  simp only [Logged.andThen, hlast]

/-- A block whose name looks like a measurement and a runtime and that repeats a metric, and one
    without any measurements. -/
def disguisedBlocks : List Block :=
  [{ name := "nSwaps: 2 * runtime: 9".toList
     values := [(.count .swaps, "3".toList), (.measure .idleTime, ".5".toList),
       (.count .swaps, "+4".toList)]
     runtime := 17 },
   { name := [], values := [], runtime := 18 }]

/-- The lines of `disguisedBlocks`, with noise at the start and in a block. -/
def disguisedLines : List (List Char) :=
  ["layer 2\r".toList, "Mapping in/nSwaps: 2 * runtime: 9.qasm".toList, "nSwaps: 3".toList,
    "totalIdleTime: .5".toList, "Mapping out/ghz.qasm".toList, "nSwaps: +4".toList,
    "* runtime: 17".toList, "Mapping in/.qasm".toList, "* runtime: 18".toList]

/-- In `disguisedLines` the name stays a name, and the last number of swaps counts. -/
theorem parse_disguisedLines :
    (parse "in//" sampleRun (String.ofList (disguisedLines.flatMap (· ++ ['\n'])))).value =
      .ok [.ofRun sampleRun "nSwaps: 2 * runtime: 9"
          { swaps := some 4, idleTime := some (.ofDecimal false 5 (-1)), runtimeMs := some 17 },
        .ofRun sampleRun "" { runtimeMs := some 18 }] := by
  have hblocks : ∀ b ∈ disguisedBlocks, b.WellFormed := by
    simp only [disguisedBlocks, List.forall_mem_cons]
    exact ⟨⟨by decide, by decide, by decide +kernel⟩, ⟨by decide, by decide, by decide⟩, nofun⟩
  have hlayer : IsNoise "in//" "layer 2\r".toList :=
    ⟨by decide, by rintro (m | m) <;> cases m <;> decide, by decide, by decide +kernel⟩
  have hother : IsNoise "in//" "Mapping out/ghz.qasm".toList :=
    ⟨by decide, by rintro (m | m) <;> cases m <;> decide, by decide, by decide +kernel⟩
  -- The line of another directory is noise, though it looks like one that names a benchmark.
  have hlines : Interspersed (IsNoise "in//") (disguisedBlocks.flatMap (Block.lines "in//"))
      disguisedLines := by
    have hwritten : disguisedBlocks.flatMap (Block.lines "in//") =
        ["Mapping in/nSwaps: 2 * runtime: 9.qasm".toList, "nSwaps: 3".toList,
          "totalIdleTime: .5".toList, "nSwaps: +4".toList, "* runtime: 17".toList,
          "Mapping in/.qasm".toList, "* runtime: 18".toList] := by
      decide +kernel
    rw [hwritten]
    exact .noise hlayer (.keep (.keep (.keep (.noise hother (.keep (.keep (.keep (.keep .nil))))))))
  have hrecords : disguisedBlocks.map (Block.record sampleRun) =
      [.ofRun sampleRun "nSwaps: 2 * runtime: 9"
          { swaps := some 4, idleTime := some (.ofDecimal false 5 (-1)), runtimeMs := some 17 },
        .ofRun sampleRun "" { runtimeMs := some 18 }] := by
    decide +kernel
  rw [parse_written_blocks "in//" sampleRun disguisedBlocks disguisedLines (by decide) hblocks
      hlines,
    hrecords]

end MapperSweep.ToolOutput
