import MapperSweep.Settings.Toml

/-!
# Settings one by one

The fourteen settings as a type, so that what holds of each of them can be said once.  A document
gives a setting its value or leaves it at its default.

## Key results

- `Settings.ext_get`: settings that agree one by one are the same
- `Settings.ofTable?_eq_some_iff`: what settings a document holds
-/

namespace MapperSweep

/-- The settings of a sweep, one for each field of `Settings`. -/
inductive Setting where
  | binary
  | inputDir
  | outputDir
  | architectures
  | coordinateMappings
  | weights
  | circuitMapping
  | parameters
  | timeout
  | gracePeriod
  | resultsPath
  | malformedOutput
  | reportLayout
  | noProgress
deriving DecidableEq

namespace Setting

/-- The type of what a setting holds. -/
def Value : Setting → Type
  | binary | inputDir | outputDir | circuitMapping => String
  | architectures => List Architecture
  | coordinateMappings => List CoordinateMapping
  | weights => List Weights
  | parameters => Parameters
  | timeout | gracePeriod => UInt64
  | resultsPath => Option String
  | malformedOutput => MalformedOutput
  | reportLayout => Report.Layout
  | noProgress => Bool

/-- The key of a setting in a document, see `Settings.keys`. -/
def key : Setting → String
  | binary => "binary"
  | inputDir => "input_dir"
  | outputDir => "output_dir"
  | architectures => "architectures"
  | coordinateMappings => "coordinate_mappings"
  | weights => "weights"
  | circuitMapping => "circuit_mapping"
  | parameters => "parameters"
  | timeout => "timeout_s"
  | gracePeriod => "grace_period_s"
  | resultsPath => "results_path"
  | malformedOutput => "malformed_output"
  | reportLayout => "report_layout"
  | noProgress => "no_progress"

/-- Reads the value of the setting `f` in a document. -/
def read? : (f : Setting) → Toml.Value → Option f.Value
  | binary | inputDir | outputDir | circuitMapping => Toml.text?
  | architectures => Toml.list? Architecture.ofToml?
  | coordinateMappings => Toml.list? CoordinateMapping.ofToml?
  | weights => Toml.list? Weights.ofToml?
  | parameters => Parameters.ofToml?
  | timeout | gracePeriod => Toml.count?
  | resultsPath => fun v => some <$> Toml.text? v
  | malformedOutput => MalformedOutput.ofToml?
  | reportLayout => Report.Layout.ofToml?
  | noProgress => Toml.bool?

end Setting

namespace Settings

/-- The value of the setting `f` in `s`. -/
def get (s : Settings) : (f : Setting) → f.Value
  | .binary => s.binary
  | .inputDir => s.inputDir
  | .outputDir => s.outputDir
  | .architectures => s.architectures
  | .coordinateMappings => s.coordinateMappings
  | .weights => s.weights
  | .circuitMapping => s.circuitMapping
  | .parameters => s.parameters
  | .timeout => s.timeout
  | .gracePeriod => s.gracePeriod
  | .resultsPath => s.resultsPath
  | .malformedOutput => s.malformedOutput
  | .reportLayout => s.reportLayout
  | .noProgress => s.noProgress

/-- Settings that agree in every `get f` are the same. -/
theorem ext_get {s t : Settings} (h : ∀ f, s.get f = t.get f) : s = t := by
  cases s
  cases t
  rw [Settings.mk.injEq]
  exact ⟨h .binary, h .inputDir, h .outputDir, h .architectures, h .coordinateMappings, h .weights,
    h .circuitMapping, h .parameters, h .timeout, h .gracePeriod, h .resultsPath,
    h .malformedOutput, h .reportLayout, h .noProgress⟩

/-- The setting `f` in the document `t`, or its default if the document does not have its key. -/
def settingOf? (t : Toml.Table) (f : Setting) : Option f.Value :=
  Toml.defaulted? (({} : Settings).get f) f.read? (t.lookup f.key)

/-- `ofTable? t` gives settings if all keys of `t` are known and each of its values can be read. -/
theorem ofTable?_eq_some_iff {t : Toml.Table} {s : Settings} :
    ofTable? t = some s ↔
      t.all (fun (key, _) => keys.contains key) = true ∧ ∀ f, settingOf? t f = some (s.get f) := by
  unfold ofTable?
  by_cases hkeys : t.all (fun (key, _) => keys.contains key) = true
  · rw [if_pos hkeys]
    constructor
    · intro h
      refine ⟨hkeys, ?_⟩
      -- The settings are read one after the other, and each reading succeeded.
      iterate 14 obtain ⟨_, _, h⟩ := Option.bind_eq_some_iff.1 h
      obtain rfl := Option.some.inj h
      intro f
      cases f <;> assumption
    · rintro ⟨-, h⟩
      have next : ∀ {α β : Type} {x : Option α} {f : α → Option β} {a : α} {b : β},
          x = some a → f a = some b → x.bind f = some b :=
        fun hx hf => Option.bind_eq_some_iff.2 ⟨_, hx, hf⟩
      exact next (h .binary) <| next (h .inputDir) <| next (h .outputDir) <|
        next (h .architectures) <| next (h .coordinateMappings) <| next (h .weights) <|
        next (h .circuitMapping) <| next (h .parameters) <| next (h .timeout) <|
        next (h .gracePeriod) <| next (h .resultsPath) <| next (h .malformedOutput) <|
        next (h .reportLayout) <| next (h .noProgress) rfl
  · rw [if_neg hkeys]
    simp only [hkeys, false_and, reduceCtorEq]

end Settings

/-- The value that the document `t` gives to the setting `f`, if it has its key. -/
def Toml.setting? (t : Toml.Table) (f : Setting) : Option f.Value := (t.lookup f.key).bind f.read?

/-- Each setting of a document has the value that `Toml.setting?` finds, or its default. -/
theorem Settings.get_of_ofTable? {t : Toml.Table} {s : Settings} (h : ofTable? t = some s)
    (f : Setting) : s.get f = (Toml.setting? t f).getD (({} : Settings).get f) := by
  have hf := (ofTable?_eq_some_iff.1 h).2 f
  unfold settingOf? at hf
  unfold Toml.setting?
  cases hkey : t.lookup f.key with
  | none =>
    rw [hkey] at hf
    exact (Option.some.inj hf).symm
  | some v =>
    rw [hkey] at hf
    have hv : f.read? v = some (s.get f) := hf
    rw [Option.bind_some, hv, Option.getD_some]

/-- Each value of a document that holds settings can be read by `read?`. -/
theorem Settings.read?_of_ofTable? {t : Toml.Table} {s : Settings} (h : ofTable? t = some s)
    {f : Setting} {v : Toml.Value} (hv : t.lookup f.key = some v) : f.read? v = some (s.get f) := by
  have hf := (ofTable?_eq_some_iff.1 h).2 f
  rwa [settingOf?, hv] at hf

end MapperSweep
