import MapperSweep.Proofs.Binary64.Writing
import MapperSweep.Proofs.Text
import MapperSweep.Report.FixedWidth

/-!
# Where the cells of the report stand

Every row of the report is a frame of separators around twelve texts, each filled up to the width of
its column.  A text that is too long shifts everything after it by the characters that are too many,
and nothing else moves.  Rows whose texts all fit therefore have their columns where the labels are.

## Key results

- `labelRow_eq`, `recordRow_eq`: the frame around labels and cells
- `length_frame`, `showsAt_frame`: the length of a frame, and where its texts stand
- `lines_render`: the lines of a report
- `render_shows_cells`: the cells of a report
-/

namespace MapperSweep.Report

/-! ## Columns -/

/-- A column: where it begins in the row of labels, its `width` and the separator `after` it. -/
structure Slot where
  offset : Nat
  width : Nat
  after : String

/-- The columns of the report, from left to right. -/
def slots : List Slot :=
  [⟨2, 50, " || "⟩,
    ⟨56, 5, " | "⟩, ⟨64, 5, " | "⟩, ⟨72, 5, " | "⟩, ⟨80, 6, " | "⟩, ⟨89, 6, " || "⟩,
    ⟨99, 8, " | "⟩, ⟨110, 8, " | "⟩, ⟨121, 8, " || "⟩,
    ⟨133, 10, " | "⟩, ⟨146, 12, " || "⟩,
    ⟨162, 12, " |"⟩]

/-- The labels of the columns in the given `layout`, which chooses three of the counts. -/
def labelTexts (layout : Layout) : List (List Char) :=
  ["benchmark", "g s h", "t r g", "index", "gateW", "shutW"].map String.toList ++
    (match layout with
      | .gateBased => ["nSwaps", "nBridges", "nMoves"]
      | .czCount => ["nCZs", "nSwaps", "nMoves"]).map String.toList ++
    ["ExecTime", "Fidelity", "runtime[ms]"].map String.toList

/-- The cells of the record `r` in the given `layout`. -/
def cellTexts (layout : Layout) (r : Record) : List (List Char) :=
  [r.benchmark.toList, r.architecture.flag.toList, r.coordinateMapping.flag.toList,
    count r.runIndex, float r.weights.gate, float r.weights.shuttling] ++
    (match layout with
      | .gateBased => [r.metrics.swaps, r.metrics.bridges, r.metrics.moves]
      | .czCount => [r.metrics.czCount, r.metrics.swaps, r.metrics.moves]).map optionalCount ++
    [optionalFloat r.metrics.executionTime, optionalFloat r.metrics.fidelity,
      optionalCount r.metrics.runtimeMs]

/-- By how many characters the first `i` of the `texts` are too long for their columns. -/
def excess (texts : List (List Char)) (i : Nat) : Nat :=
  (((slots.zip texts).take i).map fun p => p.2.length - p.1.width).sum

/-- `Fits texts` holds if every text is short enough for its column. -/
def Fits (texts : List (List Char)) : Prop := ∀ p ∈ slots.zip texts, p.2.length ≤ p.1.width

instance (texts : List (List Char)) : Decidable (Fits texts) :=
  inferInstanceAs (Decidable (∀ p ∈ slots.zip texts, _))

/-- `ShowsAt shift texts line` says that `line` shows a text in every column, in full and with
    blanks up to the width, and the separator after it.  The `i`-th text begins at the offset of its
    column, moved right by `shift i`. -/
def ShowsAt (shift : Nat → Nat) (texts : List (List Char)) (line : List Char) : Prop :=
  ∀ i slot, slots[i]? = some slot → ∃ text, texts[i]? = some text ∧
    text ++ List.replicate (slot.width - text.length) ' ' ++ slot.after.toList <+:
      line.drop (slot.offset + shift i)

/-! ## Frames -/

/-- The texts of `columns`, filled up with blanks, with the separators after them. -/
def framed (columns : List (Slot × List Char)) : List Char :=
  columns.flatMap fun p => padRight p.1.width p.2 ++ p.1.after.toList

/-- A row of the report around the given `texts`. -/
def frame (texts : List (List Char)) : List Char := "| ".toList ++ framed (slots.zip texts)

theorem labelRow_eq (layout : Layout) : labelRow layout = frame (labelTexts layout) := by
  cases layout <;> rfl

theorem recordRow_eq (layout : Layout) (r : Record) :
    recordRow layout r = frame (cellTexts layout r) := by
  cases layout <;>
    simp [recordRow, row, sectionText, Layout.sections, Layout.counts, countColumn, frame, framed,
      slots, cellTexts, List.intercalate]

/-- The length of `framed columns`: the widths, the separators and what is too long. -/
private theorem length_framed (columns : List (Slot × List Char)) :
    (framed columns).length = (columns.map fun p => p.1.width + p.1.after.length).sum +
      (columns.map fun p => p.2.length - p.1.width).sum := by
  induction columns with
  | nil => rfl
  | cons p columns ih =>
    rw [framed, List.flatMap_cons, ← framed, List.length_append, ih]
    simp only [padRight, List.length_append, List.length_replicate, List.map_cons, List.sum_cons,
      String.length_toList]
    omega

/-- What is left of `framed columns` after its first `i` columns. -/
private theorem drop_framed (columns : List (Slot × List Char)) (i : Nat) :
    (framed columns).drop (framed (columns.take i)).length = framed (columns.drop i) := by
  have hsplit : framed columns = framed (columns.take i) ++ framed (columns.drop i) := by
    rw [framed, framed, framed, ← List.flatMap_append, List.take_append_drop]
  rw [hsplit, List.drop_left]

/-- The offset of a column counts the widths and separators before it, so the numbers in `slots`
    fit. -/
private theorem offset_eq {i : Nat} {slot : Slot} (h : slots[i]? = some slot) :
    slot.offset = 2 + ((slots.take i).map fun s => s.width + s.after.length).sum := by
  have hall : ∀ j : Fin 12, (slots[j.val]?.map (·.offset)) =
      some (2 + ((slots.take j).map fun s => s.width + s.after.length).sum) := by
    decide
  have hi : i < 12 := (List.getElem?_eq_some_iff.1 h).1
  have hoffset := hall ⟨i, hi⟩
  rw [h] at hoffset
  exact Option.some.inj hoffset

private theorem map_width_take {texts : List (List Char)} (h : texts.length = 12) (i : Nat) :
    (((slots.zip texts).take i).map fun p => p.1.width + p.1.after.length) =
      (slots.take i).map fun s => s.width + s.after.length := by
  have hfst : (slots.zip texts).map Prod.fst = slots := List.map_fst_zip (Nat.le_of_eq h.symm)
  calc _ = (((slots.zip texts).take i).map Prod.fst).map fun s => s.width + s.after.length := by
        rw [List.map_map]
        rfl
    _ = _ := by rw [List.map_take, hfst]

/-- The length of a row is that of the report and the `excess` of its texts. -/
theorem length_frame {texts : List (List Char)} (h : texts.length = 12) :
    (frame texts).length = 176 + excess texts 12 := by
  have hall : (slots.zip texts).take 12 = slots.zip texts :=
    List.take_of_length_le (by simp [slots, h])
  have hwidths := map_width_take h 12
  rw [hall] at hwidths
  rw [frame, List.length_append, length_framed, hwidths, excess, hall]
  have htotal : ("| ".toList).length +
      ((slots.take 12).map fun s => s.width + s.after.length).sum = 176 := by
    decide
  omega

/-- The texts of a row stand in their columns, moved right by the `excess` before them. -/
theorem showsAt_frame {texts : List (List Char)} (h : texts.length = 12) :
    ShowsAt (excess texts) texts (frame texts) := by
  intro i slot hslot
  have hi : i < 12 := (List.getElem?_eq_some_iff.1 hslot).1
  have htext : texts[i]? = some texts[i] := List.getElem?_eq_getElem (by omega)
  refine ⟨texts[i], htext, ?_⟩
  -- The columns before this one take its offset and their excess.
  have hbefore : slot.offset + excess texts i =
      ("| ".toList).length + (framed ((slots.zip texts).take i)).length := by
    rw [length_framed, map_width_take h, offset_eq hslot, excess]
    exact Nat.add_assoc ..
  have hcolumn : (slots.zip texts).drop i = (slot, texts[i]) :: (slots.zip texts).drop (i + 1) := by
    have hlength : i < (slots.zip texts).length := by
      rw [List.length_zip, h]
      exact hi
    rw [List.drop_eq_getElem_cons hlength, List.getElem_zip, (List.getElem?_eq_some_iff.1 hslot).2]
  rw [hbefore, frame, ← List.drop_drop, List.drop_left, drop_framed, hcolumn, framed,
    List.flatMap_cons]
  exact List.prefix_append _ _

theorem excess_of_fits {texts : List (List Char)} (h : Fits texts) (i : Nat) :
    excess texts i = 0 := by
  rw [excess, List.sum_eq_zero_iff]
  intro n hn
  obtain ⟨p, hp, rfl⟩ := List.mem_map.1 hn
  have hle := h p (List.mem_of_mem_take hp)
  omega

/-- Texts that fit stand in their columns, and their row is as long as the labels. -/
theorem frame_of_fits {texts : List (List Char)} (h : texts.length = 12) (hfits : Fits texts) :
    (frame texts).length = 176 ∧ ShowsAt (fun _ => 0) texts (frame texts) := by
  have hzero : excess texts = fun _ => 0 := funext (excess_of_fits hfits)
  have hlength := length_frame h
  have hshows := showsAt_frame h
  rw [hzero] at hlength hshows
  exact ⟨hlength, hshows⟩

theorem length_labelTexts (layout : Layout) : (labelTexts layout).length = 12 := by
  cases layout <;> rfl

theorem fits_labelTexts (layout : Layout) : Fits (labelTexts layout) := by
  cases layout <;> decide

theorem length_cellTexts (layout : Layout) (r : Record) : (cellTexts layout r).length = 12 := by
  cases layout <;> rfl

/-! ## Lines -/

/-- A row has a line feed only if one of its `texts` has one. -/
private theorem feed_not_mem_frame {texts : List (List Char)} (h : ∀ text ∈ texts, '\n' ∉ text) :
    '\n' ∉ frame texts := by
  have hafter : ∀ slot ∈ slots, '\n' ∉ slot.after.toList := by decide
  intro hmem
  rcases List.mem_append.1 hmem with hstart | hmem
  · exact absurd hstart (by decide)
  · obtain ⟨⟨slot, text⟩, hp, hmem⟩ := List.mem_flatMap.1 hmem
    obtain ⟨hslot, htext⟩ := List.of_mem_zip hp
    rcases List.mem_append.1 hmem with hcell | hseparator
    · rcases List.mem_append.1 hcell with hcell | hblank
      · exact h text htext hcell
      · exact absurd (List.eq_of_mem_replicate hblank) (by decide)
    · exact hafter slot hslot hseparator

private theorem feed_not_mem_number {cs : List Char} (h : IsNumberText cs) : '\n' ∉ cs :=
  fun hmem => absurd (h _ hmem) (by decide)

/-- Of the cells of `r` only the name of the benchmark can have a line feed. -/
private theorem feed_not_mem_cellTexts {layout : Layout} {r : Record}
    (h : '\n' ∉ r.benchmark.toList) : ∀ text ∈ cellTexts layout r, '\n' ∉ text := by
  have harchitecture : '\n' ∉ r.architecture.flag.toList := by
    cases r.architecture <;> decide
  have hmapping : '\n' ∉ r.coordinateMapping.flag.toList := by
    cases r.coordinateMapping <;> decide
  have hcount : ∀ n, '\n' ∉ count n := fun n =>
    feed_not_mem_number fun c hc => mem_numberChars_of_isDigit (isDigit_of_mem_digits hc)
  have hfloat : ∀ x, '\n' ∉ float x := fun x =>
    feed_not_mem_number (Binary64.isNumberText_text numberStyle x)
  have hcounts : ∀ n, '\n' ∉ optionalCount n := by
    rintro (_ | n)
    · exact List.not_mem_nil
    · exact hcount n
  have hfloats : ∀ x, '\n' ∉ optionalFloat x := by
    rintro (_ | x)
    · exact List.not_mem_nil
    · exact hfloat x
  cases layout <;> simp [cellTexts, h, harchitecture, hmapping, hcount, hfloat, hcounts, hfloats]

/-- The line over the report, with its title in the middle. -/
def titleLine : List Char := List.replicate 84 '-' ++ " Result ".toList ++ List.replicate 84 '-'

theorem length_titleLine : titleLine.length = 176 := by
  have hresult : " Result ".toList.length = 8 := by decide
  rw [titleLine, List.length_append, List.length_append, List.length_replicate, hresult]

/-- The line under the labels and under the report; it is as long as the labels. -/
def ruleLine : List Char := List.replicate 176 '-'

/-- The lines of a report: `titleLine`, the labels, `ruleLine`, the rows of the records and
    `ruleLine`. -/
theorem reportLines_eq (layout : Layout) (gs : List Group) :
    reportLines layout gs = titleLine :: labelRow layout :: ruleLine ::
      (gs.flatMap (·.records)).map (recordRow layout) ++ [ruleLine] := by
  have hwidth : (labelRow layout).length = 176 := by
    rw [labelRow_eq]
    exact (frame_of_fits (length_labelTexts layout) (fits_labelTexts layout)).1
  have htitle : centred 176 " Result ".toList = titleLine := by
    have hfill : 176 - " Result ".toList.length = 168 := by decide
    simp only [centred, hfill]
    rfl
  rw [reportLines, hwidth, htitle]
  rfl

private theorem getLast?_row (layout : Layout) (cell : Column → List Char) :
    (row layout cell).getLast? = some '|' := by
  rw [row, List.getLast?_append_of_ne_nil _ (by decide)]
  rfl

/-- The lines of `render layout gs` are those it was put together from, if no name has a line
    feed. -/
theorem lines_render (layout : Layout) {gs : List Group}
    (h : ∀ g ∈ gs, ∀ r ∈ g.records, '\n' ∉ r.benchmark.toList) :
    Text.lines (render layout gs) = reportLines layout gs := by
  have hline : ∀ line ∈ reportLines layout gs, '\n' ∉ line ∧ line.getLast? ≠ some '\r' := by
    have hlabels : ∀ text ∈ labelTexts layout, '\n' ∉ text := by
      cases layout <;> decide
    rw [reportLines_eq]
    intro line hmem
    simp only [List.cons_append, List.mem_cons, List.mem_append, List.mem_map, List.mem_flatMap,
      List.not_mem_nil, or_false] at hmem
    rcases hmem with rfl | rfl | rfl | ⟨r, ⟨g, hg, hr⟩, rfl⟩ | rfl
    · decide
    · refine ⟨?_, by simp [labelRow, getLast?_row]⟩
      rw [labelRow_eq]
      exact feed_not_mem_frame hlabels
    · decide
    · refine ⟨?_, by simp [recordRow, getLast?_row]⟩
      rw [recordRow_eq]
      exact feed_not_mem_frame (feed_not_mem_cellTexts (h g hg r hr))
    · decide
  -- No line ends with a carriage return, so nothing is taken off when the text is split.
  rw [Text.lines, render, Text.splitLines_flatMap _ fun line hmem => (hline line hmem).1]
  exact (List.map_congr_left fun line hmem =>
    Text.chopReturn_of_getLast?_ne (hline line hmem).2).trans (List.map_id _)

/-- A report is a title, the labels, a rule, one row for each record in the order of groups and
    records, and a rule.  The labels stand in their columns.  Every row shows the cells of its
    record in full, each moved right by the `excess` before it, and is longer than the labels by all
    that is too long.  So the rows whose cells fit have their columns where the labels are. -/
theorem render_shows_cells (layout : Layout) (gs : List Group)
    (hnames : ∀ g ∈ gs, ∀ r ∈ g.records, '\n' ∉ r.benchmark.toList) :
    ∃ title labels rule : List Char, ∃ rows : List (List Char),
      render layout gs = (title :: labels :: rule :: rows ++ [rule]).flatMap (· ++ ['\n']) ∧
      Text.lines (render layout gs) = title :: labels :: rule :: rows ++ [rule] ∧
      title = List.replicate 84 '-' ++ " Result ".toList ++ List.replicate 84 '-' ∧
      rule = List.replicate 176 '-' ∧
      title.length = 176 ∧ labels.length = 176 ∧ rule.length = 176 ∧
      ShowsAt (fun _ => 0) (labelTexts layout) labels ∧
      List.Forall₂ (fun r line =>
          line.length = 176 + excess (cellTexts layout r) 12 ∧
          ShowsAt (excess (cellTexts layout r)) (cellTexts layout r) line ∧
          (Fits (cellTexts layout r) →
            line.length = 176 ∧ ShowsAt (fun _ => 0) (cellTexts layout r) line))
        (gs.flatMap (·.records)) rows := by
  obtain ⟨hlength, hshows⟩ := frame_of_fits (length_labelTexts layout) (fits_labelTexts layout)
  rw [← labelRow_eq] at hlength hshows
  refine ⟨titleLine, labelRow layout, ruleLine, (gs.flatMap (·.records)).map (recordRow layout),
    by rw [render, reportLines_eq], by rw [lines_render layout hnames, reportLines_eq], rfl, rfl,
    length_titleLine, hlength, List.length_replicate, hshows, ?_⟩
  rw [List.forall₂_map_right_iff, List.forall₂_same]
  intro r _
  have htwelve := length_cellTexts layout r
  rw [recordRow_eq]
  exact ⟨length_frame htwelve, showsAt_frame htwelve, frame_of_fits htwelve⟩

/-- A record of `benchmark` with nothing measured. -/
def unmeasured (benchmark : String) : Record where
  benchmark
  architecture := .shuttling
  coordinateMapping := .graph
  runIndex := 7
  weights := ⟨.ofNat 1, .ofDecimal false 5 (-1)⟩
  metrics := {}

/-- A name of sixty characters, each of two bytes. -/
def longName : String := String.ofList (List.replicate 60 'é')

/-- `longName` makes its row longer by ten characters, and the row of the next group fits. -/
theorem render_shows_longName :
    let gs : List Group := [⟨longName, [unmeasured longName]⟩, ⟨"qft", [unmeasured "qft"]⟩]
    (∀ g ∈ gs, ∀ r ∈ g.records, '\n' ∉ r.benchmark.toList) ∧
    ∃ title labels rule long short : List Char,
      Text.lines (render .czCount gs) = [title, labels, rule, long, short, rule] ∧
      ShowsAt (excess (cellTexts .czCount (unmeasured longName)))
        (cellTexts .czCount (unmeasured longName)) long ∧ long.length = 186 ∧
      ShowsAt (fun _ => 0) (cellTexts .czCount (unmeasured "qft")) short ∧ short.length = 176 := by
  intro gs
  have hnames : ∀ g ∈ gs, ∀ r ∈ g.records, '\n' ∉ r.benchmark.toList := by decide +kernel
  have hlong : excess (cellTexts .czCount (unmeasured longName)) 12 = 10 := by decide +kernel
  have hfits : Fits (cellTexts .czCount (unmeasured "qft")) := by decide +kernel
  obtain ⟨title, labels, rule, rows, -, hlines, -, -, -, -, -, -, hrows⟩ :=
    render_shows_cells .czCount gs hnames
  obtain ⟨long, rest, ⟨hlength, hshows, -⟩, hrest, rfl⟩ := List.forall₂_cons_left_iff.1 hrows
  obtain ⟨short, tail, ⟨-, -, hshort⟩, htail, rfl⟩ := List.forall₂_cons_left_iff.1 hrest
  obtain rfl := List.forall₂_nil_left_iff.1 htail
  rw [hlong] at hlength
  exact ⟨hnames, title, labels, rule, long, short, hlines, hshows, hlength, (hshort hfits).2,
    (hshort hfits).1⟩

end MapperSweep.Report
