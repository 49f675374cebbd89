import Mathlib.Data.List.Induction
import MapperSweep.Definition
import MapperSweep.Proofs.Settings

/-!
# The settings that a definition gives

A setting can come from the command line, from a settings file, from a choice of the program or from
the defaults.  Here it is said for every setting, and for any number of choices, which of them wins.

## Key results

- `CommandLine.get_apply`, `Definition.get_choose`: what the command line and one choice do to each
  setting
- `Definition.chooseAll_eq_some`: what all choices do together: the last one of each kind counts
- `Definition.choose_comm`: choices of different kinds can be made in any order
- `Definition.build_gives_layered_settings`: which value each setting of a sweep has
-/

namespace MapperSweep

/-! ## Whole seconds -/

/-- `wholeSeconds?` rounds up: `n` seconds reach the end of the span, and one less would not. -/
theorem Duration.wholeSeconds?_eq_some_iff {d : Duration} {n : UInt64} :
    d.wholeSeconds? = some n ↔
      d.nanoseconds ≤ n.toNat * second ∧ n.toNat * second < d.nanoseconds + second := by
  have hsecond : second = 1000000000 := rfl
  simp only [wholeSeconds?, Option.ite_none_right_eq_some, Option.some.injEq]
  constructor
  · rintro ⟨hlt, rfl⟩
    rw [UInt64.toNat_ofNat_of_lt' hlt, hsecond]
    omega
  · intro hbounds
    have hseconds : (d.nanoseconds + (second - 1)) / second = n.toNat := by
      rw [hsecond] at hbounds ⊢
      omega
    rw [hseconds]
    exact ⟨n.toNat_lt_size, UInt64.ofNat_toNat⟩

/-! ## The command line -/

/-- The value that the command line `c` gives to the setting `f`.  The two flags can only switch
    something on. -/
def CommandLine.given (c : CommandLine) : (f : Setting) → Option f.Value
  | .binary => c.binary
  | .inputDir => c.inputDir
  | .outputDir => c.outputDir
  | .timeout => c.timeout
  | .gracePeriod => c.gracePeriod
  | .resultsPath => c.results.map some
  | .malformedOutput => if c.abortOnMalformed then some MalformedOutput.abortSweep else none
  | .noProgress => if c.noProgress then some true else none
  | .architectures | .coordinateMappings | .weights | .circuitMapping | .parameters
  | .reportLayout => none

/-- What the command line gives by `given` goes over the settings `s` that it is applied to. -/
theorem CommandLine.get_apply (c : CommandLine) (s : Settings) (f : Setting) :
    (c.apply s).get f = (c.given f).getD (s.get f) := by
  cases f with
  | resultsPath => simp only [apply, Settings.get, given]; cases c.results <;> rfl
  | malformedOutput => simp only [apply, Settings.get, given]; cases c.abortOnMalformed <;> rfl
  | noProgress => simp only [apply, Settings.get, given]; cases c.noProgress <;> rfl
  | _ => rfl

/-! ## Choices -/

namespace Choice

/-- The setting that a choice is about.  Only `.timestampedResults` is about none. -/
def setting? : Choice → Option Setting
  | binary _ => some .binary
  | inputDir _ => some .inputDir
  | outputDir _ => some .outputDir
  | architectures _ => some .architectures
  | coordinateMappings _ => some .coordinateMappings
  | weights _ => some .weights
  | circuitMapping _ => some .circuitMapping
  | parameters _ => some .parameters
  | timeout _ => some .timeout
  | reportLayout _ => some .reportLayout
  | malformedOutput _ => some .malformedOutput
  | resultsPath _ => some .resultsPath
  | timestampedResults => none

/-- The value that the choice `c` gives to the setting `f`. -/
def chosen : (c : Choice) → (f : Setting) → Option f.Value
  | binary path, .binary => some path
  | inputDir path, .inputDir => some path
  | outputDir path, .outputDir => some path
  | architectures all, .architectures => some all
  | coordinateMappings all, .coordinateMappings => some all
  | weights all, .weights => some all
  | circuitMapping name, .circuitMapping => some name
  | parameters p, .parameters => some p
  | timeout span, .timeout => span.wholeSeconds?
  | reportLayout l, .reportLayout => some l
  | malformedOutput m, .malformedOutput => some m
  | resultsPath path, .resultsPath => some (some path)
  | _, _ => none

/-- The value that the last one of `choices` about `f` gives to it. -/
def last (choices : List Choice) (f : Setting) : Option f.Value :=
  (choices.filterMap (·.chosen f)).getLast?

/-- `c.IsTooLong` holds of a time limit that no count of seconds holds. -/
def IsTooLong (c : Choice) : Prop := ∃ span, c = timeout span ∧ span.wholeSeconds? = none

/-- A choice gives no value to a setting that it is not about, see `setting?`. -/
theorem chosen_eq_none {c : Choice} {f : Setting} (h : c.setting? ≠ some f) :
    c.chosen f = none := by
  cases c with
  | timestampedResults => rfl
  -- Either the choice says nothing about the setting, or it is the one that `h` excludes.
  | _ => cases f <;> first | rfl | exact absurd rfl h

/-- A choice of a results path gives a path, never the absence of one. -/
theorem chosen_resultsPath_ne (c : Choice) : c.chosen .resultsPath ≠ some none := by
  cases c <;> exact nofun

theorem last_concat (choices : List Choice) (c : Choice) (f : Setting) :
    last (choices ++ [c]) f = (c.chosen f).or (last choices f) := by
  rw [last, last, List.filterMap_append]
  cases hc : c.chosen f with
  | none => simp [hc]
  | some v => simp [hc]

end Choice

namespace Definition

section

variable {d d' : Definition} {c : Choice}

/-- `d.choose c` fails only for a time limit that `IsTooLong`. -/
theorem choose_eq_none_iff : d.choose c = none ↔ c.IsTooLong := by
  cases c with
  | timeout span => simp [choose, Choice.IsTooLong]
  | _ => simp [choose, Choice.IsTooLong]

/-- `d.choose c` gives its value to the setting that `c` is about, and leaves all others. -/
theorem get_choose (h : d.choose c = some d') (f : Setting) :
    d'.settings.get f = (c.chosen f).getD (d.settings.get f) := by
  cases c with
  | timeout span =>
    simp only [choose, Option.map_eq_some_iff] at h
    obtain ⟨n, hn, rfl⟩ := h
    cases f with
    | timeout =>
      show n = span.wholeSeconds?.getD d.settings.timeout
      rw [hn, Option.getD_some]
    | _ => rfl
  | _ =>
    simp only [choose, Option.some.injEq] at h
    subst h
    cases f <;> rfl

/-- `d.choose c` leaves the name and the command line, and a time stamp once asked for stays so. -/
theorem choose_eq_some (h : d.choose c = some d') :
    d'.name = d.name ∧ d'.commandLine = d.commandLine ∧
      d'.timestamped = (d.timestamped || decide (c = .timestampedResults)) := by
  cases c with
  | timeout span =>
    simp only [choose, Option.map_eq_some_iff] at h
    obtain ⟨n, hn, rfl⟩ := h
    simp
  | _ =>
    simp only [choose, Option.some.injEq] at h
    subst h
    simp

/-- Definitions that agree in everything are the same; the settings are compared with
    `Settings.get`. -/
private theorem ext_settings (hname : d.name = d'.name) (hline : d.commandLine = d'.commandLine)
    (hstamp : d.timestamped = d'.timestamped) (h : ∀ f, d.settings.get f = d'.settings.get f) :
    d = d' := by
  cases d
  cases d'
  rw [Definition.mk.injEq]
  exact ⟨hname, hline, Settings.ext_get h, hstamp⟩

/-- Choices `a` and `b` of different kinds can be made in any order. -/
theorem choose_comm (d : Definition) {a b : Choice} (hab : a.setting? ≠ b.setting?) :
    (d.choose a).bind (·.choose b) = (d.choose b).bind (·.choose a) := by
  -- A time limit that is too long cannot be chosen, whatever was chosen before.
  cases hda : d.choose a with
  | none =>
    have hlong := choose_eq_none_iff.1 hda
    cases d.choose b with
    | none => rfl
    | some db => exact (choose_eq_none_iff.2 hlong).symm
  | some da =>
    cases hdb : d.choose b with
    | none => exact choose_eq_none_iff.2 (choose_eq_none_iff.1 hdb)
    | some db =>
      have hlong : ∀ {c : Choice} {e e' : Definition},
          d.choose c = some e' → e.choose c ≠ none := by
        intro c e e' hc hnone
        rw [choose_eq_none_iff.2 (choose_eq_none_iff.1 hnone)] at hc
        cases hc
      obtain ⟨dab, hdab⟩ := Option.ne_none_iff_exists'.1 (hlong hdb : da.choose b ≠ none)
      obtain ⟨dba, hdba⟩ := Option.ne_none_iff_exists'.1 (hlong hda : db.choose a ≠ none)
      rw [Option.bind_some, Option.bind_some, hdab, hdba, Option.some.injEq]
      obtain ⟨hname_a, hline_a, hstamp_a⟩ := choose_eq_some hda
      obtain ⟨hname_b, hline_b, hstamp_b⟩ := choose_eq_some hdb
      obtain ⟨hname_ab, hline_ab, hstamp_ab⟩ := choose_eq_some hdab
      obtain ⟨hname_ba, hline_ba, hstamp_ba⟩ := choose_eq_some hdba
      refine ext_settings ?_ ?_ ?_ fun f => ?_
      · rw [hname_ab, hname_a, hname_ba, hname_b]
      · rw [hline_ab, hline_a, hline_ba, hline_b]
      · rw [hstamp_ab, hstamp_a, hstamp_ba, hstamp_b, Bool.or_right_comm]
      · rw [get_choose hdab, get_choose hda, get_choose hdba, get_choose hdb]
        -- No setting is given a value by both choices.
        by_cases ha : a.setting? = some f
        · rw [Choice.chosen_eq_none (ha ▸ hab.symm)]
          rfl
        · rw [Choice.chosen_eq_none ha]
          rfl

theorem chooseAll_concat (d : Definition) (choices : List Choice) (c : Choice) :
    d.chooseAll (choices ++ [c]) = (d.chooseAll choices).bind (·.choose c) := by
  rw [chooseAll, List.foldlM_append]
  simp [chooseAll]

/-- After `d.chooseAll choices`, every setting has the value of the last choice about it, and one
    request for a time stamp is enough. -/
theorem chooseAll_eq_some {choices : List Choice} (h : d.chooseAll choices = some d') :
    d'.name = d.name ∧ d'.commandLine = d.commandLine ∧
      d'.timestamped = (d.timestamped || decide (.timestampedResults ∈ choices)) ∧
      ∀ f, d'.settings.get f = (Choice.last choices f).getD (d.settings.get f) := by
  -- From the last choice, which goes over all before it.
  induction choices using List.reverseRecOn generalizing d' with
  | nil =>
    obtain rfl : d = d' := Option.some.inj h
    simp [Choice.last]
  | append_singleton choices c ih =>
    rw [chooseAll_concat] at h
    obtain ⟨dc, hdc, hc⟩ := Option.bind_eq_some_iff.1 h
    obtain ⟨hname, hline, hstamp, hget⟩ := ih hdc
    obtain ⟨hname_c, hline_c, hstamp_c⟩ := choose_eq_some hc
    refine ⟨hname_c.trans hname, hline_c.trans hline, ?_, ?_⟩
    · rw [hstamp_c, hstamp, Bool.or_assoc, ← Bool.decide_or]
      simp only [List.mem_append, List.mem_singleton, eq_comm]
    · intro f
      rw [get_choose hc, hget, Choice.last_concat]
      cases c.chosen f <;> rfl

/-- Two neighbours `a` and `b` of different kinds can change places in a list of choices. -/
theorem chooseAll_swap (d : Definition) (before after : List Choice) {a b : Choice}
    (hab : a.setting? ≠ b.setting?) :
    d.chooseAll (before ++ a :: b :: after) = d.chooseAll (before ++ b :: a :: after) := by
  simp only [chooseAll, List.foldlM_append, List.foldlM_cons]
  congr 1
  funext e
  have hcomm := choose_comm e hab
  simp only [Option.bind_eq_bind, ← Option.bind_assoc, hcomm]

end

/-! ## All sources -/

/-- `Loads line readText document` says which document a sweep is defined by: none if `line` names
    no settings file, and otherwise the table of that file.  The file can be read, it is
    well-formed, and so are the values in it. -/
inductive Loads (line : CommandLine) (readText : String → Except FileError (List Char)) :
    Option Toml.Table → Prop where
  | none (hconfig : line.config = none) : Loads line readText none
  | file {path : String} {cs : List Char} {t : Toml.Table} (hconfig : line.config = some path)
    (hread : readText path = .ok cs) (hparse : Toml.parse? cs = some t)
    (hvalues : ∀ (f : Setting) v, t.lookup f.key = some v → (f.read? v).isSome) :
    Loads line readText (some t)

/-- The value that `f` is given by the `document`, if there is one, and by the `choices`
    otherwise. -/
def provided (document : Option Toml.Table) (choices : List Choice) (f : Setting) :
    Option f.Value :=
  match document with
  | some t => Toml.setting? t f
  | none => Choice.last choices f

/-- The value that `f` is given, where the command line goes before what is `provided`. -/
def layered (line : CommandLine) (document : Option Toml.Table) (choices : List Choice)
    (f : Setting) : Option f.Value :=
  (line.given f).or (provided document choices f)

/-- The value of a setting that is not given any: the default, or a results path with the time stamp
    if a choice asks for it. -/
def fallback (name timestamp : String) (choices : List Choice) : (f : Setting) → f.Value
  | .resultsPath =>
    if .timestampedResults ∈ choices then some (timestampedPath name timestamp) else none
  | f => ({} : Settings).get f

/-- `d.base` is the settings of the file that the command line names, or those of `d` if it names
    none. -/
theorem base_eq_ok {d : Definition} {readText : String → Except FileError (List Char)}
    {s : Settings} (h : (d.base readText).value = .ok s) :
    (d.commandLine.config = none ∧ s = d.settings) ∨
      ∃ path cs t, d.commandLine.config = some path ∧ readText path = .ok cs ∧
        Toml.parse? cs = some t ∧ Settings.ofTable? t = some s := by
  unfold base at h
  cases hconfig : d.commandLine.config with
  | none =>
    simp only [hconfig, Logged.value_pure, Except.ok.injEq] at h
    exact .inl ⟨rfl, h.symm⟩
  | some path =>
    simp only [hconfig] at h
    cases hread : readText path with
    | error e => simp only [hread] at h; cases h
    | ok cs =>
      simp only [hread] at h
      cases htoml : Settings.ofToml? cs with
      | none => simp only [htoml] at h; cases h
      | some loaded =>
        simp only [htoml, Except.ok.injEq] at h
        subst h
        obtain ⟨t, hparse, htable⟩ := Option.bind_eq_some_iff.1 htoml
        exact .inr ⟨path, cs, t, rfl, hread, hparse, htable⟩

/-- `d.build` gives settings exactly if there is a `base`, and the settings that result from it pass
    `validate`. -/
theorem build_eq_ok_iff {d : Definition} {readText : String → Except FileError (List Char)}
    {timestamp : String} {s : Settings} :
    (d.build readText timestamp).value = .ok s ↔
      ∃ start, (d.base readText).value = .ok start ∧ s = d.complete timestamp start ∧
        s.validate = .ok () := by
  unfold build
  rw [Logged.value_bind]
  cases hbase : (d.base readText).value with
  | error e => simp
  | ok start =>
    cases hvalid : (d.complete timestamp start).validate with
    | error e =>
      simp only [hvalid, Logged.value_pure, reduceCtorEq, Except.ok.injEq, false_iff]
      rintro ⟨_, rfl, rfl, hok⟩
      rw [hvalid] at hok
      cases hok
    | ok u =>
      simp only [hvalid, Logged.value_pure, Except.ok.injEq]
      constructor
      · rintro rfl
        exact ⟨start, rfl, rfl, hvalid⟩
      · rintro ⟨_, rfl, rfl, -⟩
        rfl

/-- If `d.build` gives settings, they are the `base` with what `complete` adds. -/
theorem build_eq_ok {d : Definition} {readText : String → Except FileError (List Char)}
    {timestamp : String} {s : Settings} (h : (d.build readText timestamp).value = .ok s) :
    ∃ start, (d.base readText).value = .ok start ∧ s = d.complete timestamp start := by
  obtain ⟨start, hbase, hs, -⟩ := build_eq_ok_iff.1 h
  exact ⟨start, hbase, hs⟩

/-- `complete` uses the time stamp only if nothing else gives a results path. -/
theorem resultsPath_complete (d : Definition) (timestamp : String) (s : Settings) :
    (d.complete timestamp s).resultsPath =
      (d.commandLine.apply s).resultsPath.or
        (if d.timestamped then some (timestampedPath d.name timestamp) else none) := by
  simp only [complete]
  cases hpath : (d.commandLine.apply s).resultsPath with
  | none => cases d.timestamped <;> simp [hpath]
  | some path => simp [hpath]

/-- All settings but the results path are those under the command line. -/
theorem get_complete (d : Definition) (timestamp : String) (s : Settings) {f : Setting}
    (hf : f ≠ .resultsPath) : (d.complete timestamp s).get f = (d.commandLine.apply s).get f := by
  simp only [complete]
  split
  · cases f with
    | resultsPath => exact absurd rfl hf
    | _ => rfl
  · rfl

/-- Whoever gives a results path gives a path: `layered` is never the absence of one. -/
theorem layered_resultsPath_ne (line : CommandLine) (document : Option Toml.Table)
    (choices : List Choice) : layered line document choices .resultsPath ≠ some none := by
  have hline : line.given .resultsPath ≠ some none := by
    show line.results.map some ≠ some none
    cases line.results <;> simp
  unfold layered
  cases hgiven : line.given .resultsPath with
  | some path => rw [hgiven] at hline; exact hline
  | none =>
    rw [Option.none_or]
    cases document with
    | some t =>
      show (t.lookup "results_path").bind (fun v => some <$> Toml.text? v) ≠ some none
      cases t.lookup "results_path" with
      | none => simp
      | some v => cases hv : Toml.text? v <;> simp [hv]
    | none =>
      intro hlast
      obtain ⟨c, -, hc⟩ := List.mem_filterMap.1 (List.mem_of_getLast? hlast)
      exact Choice.chosen_resultsPath_ne c hc

private theorem getD_or {α : Type} (x y : Option α) (z : α) :
    (x.or y).getD z = x.getD (y.getD z) := by
  cases x <;> rfl

/-- The settings of `d`, one by one: `layered` over `fallback`, if `start` is what is `provided`
    over the defaults. -/
theorem get_complete_of_start {d : Definition} {timestamp : String} {start : Settings}
    {document : Option Toml.Table} {choices : List Choice}
    (hstamp : d.timestamped = decide (.timestampedResults ∈ choices))
    (hstart : ∀ f, start.get f = (provided document choices f).getD (({} : Settings).get f))
    (f : Setting) :
    (d.complete timestamp start).get f =
      (layered d.commandLine document choices f).getD (fallback d.name timestamp choices f) := by
  have hbelow : (d.commandLine.apply start).get f =
      (layered d.commandLine document choices f).getD (({} : Settings).get f) := by
    rw [CommandLine.get_apply, hstart, layered, getD_or]
  -- Only for the results path a time stamp may stand before the default.
  by_cases hf : f = .resultsPath
  · subst hf
    show (d.complete timestamp start).resultsPath = _
    have hpath : (d.commandLine.apply start).resultsPath = _ := hbelow
    rw [resultsPath_complete, hpath, hstamp]
    have hne := layered_resultsPath_ne d.commandLine document choices
    cases hlayered : layered d.commandLine document choices .resultsPath with
    | none =>
      show (if decide (.timestampedResults ∈ choices) = true then _ else none) = _
      simp only [decide_eq_true_eq]
      rfl
    | some path =>
      cases path with
      | none => exact absurd hlayered hne
      | some path => rfl
  · rw [get_complete d timestamp start hf, hbelow]
    congr 1
    cases f with
    | resultsPath => exact absurd rfl hf
    | _ => rfl

/-- With a settings file, `d.build` depends on nothing but the name, the command line and the wish
    for a time stamp. -/
theorem build_eq_of_config {d d' : Definition} (hname : d.name = d'.name)
    (hline : d.commandLine = d'.commandLine) (hstamp : d.timestamped = d'.timestamped)
    (hconfig : d.commandLine.config ≠ none) (readText : String → Except FileError (List Char))
    (timestamp : String) : d.build readText timestamp = d'.build readText timestamp := by
  obtain ⟨path, hpath⟩ := Option.ne_none_iff_exists'.1 hconfig
  have hbase : d.base readText = d'.base readText := by
    simp only [base, ← hline, hpath]
  have hcomplete : d.complete timestamp = d'.complete timestamp := by
    funext s
    simp only [complete, hname, hline, hstamp]
  simp only [build, hbase, hcomplete]

/-- Whatever the command line, the files and the choices:

    * a definition that gives settings gives every one of them the value from the command line, or
      else from the document if a settings file is named, or else from the last choice about it, or
      else its default; only for the results path a time stamp comes before the default;
    * a time limit is chosen in seconds, rounded up;
    * choices of different kinds can change places;
    * if a settings file is named, it does not matter what was chosen, except for the time stamp. -/
theorem build_gives_layered_settings (name timestamp : String) (line : CommandLine)
    (readText : String → Except FileError (List Char)) :
    let start : Definition := { name, commandLine := line }
    (∀ choices d s, start.chooseAll choices = some d → (d.build readText timestamp).value = .ok s →
      ∃ document, Loads line readText document ∧
        ∀ f, s.get f = (layered line document choices f).getD (fallback name timestamp choices f)) ∧
    (∀ (span : Duration) n, span.wholeSeconds? = some n ↔
      span.nanoseconds ≤ n.toNat * Duration.second ∧
        n.toNat * Duration.second < span.nanoseconds + Duration.second) ∧
    (∀ before a b after, a.setting? ≠ b.setting? →
      start.chooseAll (before ++ a :: b :: after) = start.chooseAll (before ++ b :: a :: after)) ∧
    (∀ choices choices' d d', line.config ≠ none →
      (.timestampedResults ∈ choices ↔ .timestampedResults ∈ choices') →
      start.chooseAll choices = some d → start.chooseAll choices' = some d' →
      d.build readText timestamp = d'.build readText timestamp) := by
  refine ⟨?_, fun _ _ => Duration.wholeSeconds?_eq_some_iff,
    fun before a b after hab => chooseAll_swap _ before after hab, ?_⟩
  · intro choices d s hchoose hbuild
    obtain ⟨rfl, rfl, hstamp, hchosen⟩ := chooseAll_eq_some hchoose
    obtain ⟨start, hbase, rfl⟩ := build_eq_ok hbuild
    rcases base_eq_ok hbase with ⟨hconfig, rfl⟩ | ⟨path, cs, t, hconfig, hread, hparse, htable⟩
    · exact ⟨none, .none hconfig, get_complete_of_start hstamp hchosen⟩
    · refine ⟨some t, .file hconfig hread hparse ?_, ?_⟩
      · intro f v hv
        rw [Settings.read?_of_ofTable? htable hv]
        rfl
      · exact get_complete_of_start hstamp (Settings.get_of_ofTable? htable)
  · intro choices choices' d d' hconfig hstamps hchoose hchoose'
    obtain ⟨hname, hline, hstamp, -⟩ := chooseAll_eq_some hchoose
    obtain ⟨hname', hline', hstamp', -⟩ := chooseAll_eq_some hchoose'
    refine build_eq_of_config (hname.trans hname'.symm) (hline.trans hline'.symm) ?_ ?_ readText
      timestamp
    · rw [hstamp, hstamp']
      simp only [hstamps]
    · rwa [hline]

/-! ## All sources at once -/

/-- A command line that names a settings file and gives two settings. -/
def sampleLine : CommandLine where
  config := some "sweep.toml"
  timeout := some 30
  noProgress := true

/-- The settings file that `sampleLine` names. -/
def sampleText (_ : String) : Except FileError (List Char) :=
  .ok "input_dir = \"benchmarks\"\ntimeout_s = 7\n".toList

/-- Choices beside the settings file, of which only the request for a time stamp counts. -/
def sampleChoices : List Choice :=
  [.outputDir "elsewhere", .timeout ⟨1500000000⟩, .timestampedResults]

/-- The definition with `sampleChoices`. -/
def sampleDefinition : Definition where
  name := "demo"
  commandLine := sampleLine
  settings := { outputDir := "elsewhere", timeout := 2 }
  timestamped := true

/-- The settings that `sampleDefinition` gives. -/
def sampleSettings : Settings where
  inputDir := "benchmarks"
  timeout := 30
  resultsPath := some "demo-now.jsonl"
  noProgress := true

/-- For `sampleDefinition` the document, the command line, the time stamp and the defaults each give
    some settings.  The choices could as well have been made in another order, or not at all except
    for the last. -/
theorem layered_settings_of_sample :
    let start : Definition := { name := "demo", commandLine := sampleLine }
    start.chooseAll sampleChoices = some sampleDefinition ∧
      (sampleDefinition.build sampleText "now").value = .ok sampleSettings ∧
      (∃ document, Loads sampleLine sampleText document ∧
        ∀ f, sampleSettings.get f =
          (layered sampleLine document sampleChoices f).getD
            (fallback "demo" "now" sampleChoices f)) ∧
      start.chooseAll [.timeout ⟨1500000000⟩, .outputDir "elsewhere", .timestampedResults] =
        some sampleDefinition ∧
      ∀ d, start.chooseAll [.timestampedResults] = some d →
        (d.build sampleText "now").value = .ok sampleSettings := by
  have hchoose : ({ name := "demo", commandLine := sampleLine } : Definition).chooseAll
      sampleChoices = some sampleDefinition := rfl
  have hbuild : (sampleDefinition.build sampleText "now").value = .ok sampleSettings := by
    decide +kernel
  obtain ⟨hlayers, -, hswap, hsame⟩ :=
    build_gives_layered_settings "demo" "now" sampleLine sampleText
  refine ⟨hchoose, hbuild, hlayers _ _ _ hchoose hbuild, ?_, ?_⟩
  · rw [← hchoose]
    exact hswap [] _ _ _ (by decide)
  · intro d hd
    rw [hsame [.timestampedResults] sampleChoices d sampleDefinition (by decide) (by decide) hd
      hchoose]
    exact hbuild

end Definition

end MapperSweep
