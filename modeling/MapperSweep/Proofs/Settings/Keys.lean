import MapperSweep.Proofs.Settings

/-!
# The keys of a document

What becomes of the settings in a document if some of its keys are left out.  A document is changed
in two ways here, by dropping entries and by changing values under their keys, and each of them has
one law on what is found in it afterwards.

## Key results

- `Toml.Table.lookup_keepKeys`, `Toml.Table.lookup_mapValues`: what is found in a changed table
- `Parameters.ofToml?_table`: what parameters a table holds
- `Settings.left_out_keys_take_defaults`: a key that is left out puts its own field back to its
  default, and no other one
-/

namespace MapperSweep

/-! ## Tables with other entries -/

namespace Toml

/-- The entries of `t` whose keys are kept, as `keep` says. -/
def Table.keepKeys (t : Table) (keep : String → Bool) : Table := t.filter fun e => keep e.1

/-- Applies `change` to every value of `t`, with its key. -/
def Table.mapValues (t : Table) (change : String → Value → Value) : Table :=
  t.map fun e => (e.1, change e.1 e.2)

theorem Table.lookup_keepKeys (t : Table) (keep : String → Bool) (key : String) :
    (t.keepKeys keep).lookup key = if keep key then t.lookup key else none := by
  induction t with
  | nil => simp [keepKeys]
  | cons e t ih =>
    obtain ⟨k, v⟩ := e
    simp only [keepKeys, List.filter_cons] at ih ⊢
    by_cases hk : key = k
    · subst hk
      cases hkeep : keep key with
      | true => simp
      | false => simpa [hkeep] using ih
    · have hbeq : (key == k) = false := beq_eq_false_iff_ne.2 hk
      cases keep k <;> simp [List.lookup_cons, hbeq, ih]

theorem Table.lookup_mapValues (t : Table) (change : String → Value → Value) (key : String) :
    (t.mapValues change).lookup key = (t.lookup key).map (change key) := by
  induction t with
  | nil => simp [mapValues]
  | cons e t ih =>
    obtain ⟨k, v⟩ := e
    simp only [mapValues, List.map_cons, List.lookup_cons] at ih ⊢
    by_cases hk : key = k
    · subst hk
      simp
    · have hbeq : (key == k) = false := beq_eq_false_iff_ne.2 hk
      simp [hbeq, ih]

namespace Value

/-- The keys of a table.  No value but `.table` has any. -/
def keys : Value → List String
  | .table entries => entries.map (·.1)
  | _ => []

/-- Keeps the entries of a table as `keep` says, and leaves other values. -/
def keepKeys (keep : String → Bool) : Value → Value
  | .table entries => .table (Table.keepKeys entries keep)
  | v => v

end Value

end Toml

/-! ## Parameters one by one -/

/-- The parameters of the mapper, one for each field of `Parameters`. -/
inductive Parameter where
  | lookaheadGate
  | lookaheadShuttling
  | decay
  | shuttlingTimeWeight
  | verbose
deriving DecidableEq

namespace Parameter

/-- The type of what a parameter holds. -/
def Value : Parameter → Type
  | lookaheadGate | lookaheadShuttling | decay | shuttlingTimeWeight => Binary64
  | verbose => Bool

/-- The key of a parameter in the table under `Setting.parameters`. -/
def key : Parameter → String
  | lookaheadGate => "lookahead_gate"
  | lookaheadShuttling => "lookahead_shuttling"
  | decay => "decay"
  | shuttlingTimeWeight => "shuttling_time_weight"
  | verbose => "verbose"

/-- Reads the value of the parameter `q` in a document. -/
def read? : (q : Parameter) → Toml.Value → Option q.Value
  | lookaheadGate | lookaheadShuttling | decay | shuttlingTimeWeight => Toml.toFloat?
  | verbose => Toml.bool?

end Parameter

namespace Parameters

/-- The value of the parameter `q` in `p`. -/
def get (p : Parameters) : (q : Parameter) → q.Value
  | .lookaheadGate => p.lookaheadGate
  | .lookaheadShuttling => p.lookaheadShuttling
  | .decay => p.decay
  | .shuttlingTimeWeight => p.shuttlingTimeWeight
  | .verbose => p.verbose

/-- The parameters with the given `value` of each; `get` takes it back out. -/
def ofValues (value : (q : Parameter) → q.Value) : Parameters where
  lookaheadGate := value .lookaheadGate
  lookaheadShuttling := value .lookaheadShuttling
  decay := value .decay
  shuttlingTimeWeight := value .shuttlingTimeWeight
  verbose := value .verbose

@[simp] theorem get_ofValues (value : (q : Parameter) → q.Value) (q : Parameter) :
    (ofValues value).get q = value q := by
  cases q <;> rfl

@[simp] theorem ofValues_get (p : Parameters) : ofValues p.get = p := rfl

/-- A table holds parameters if each of its values that belongs to one can be read by `read?`. -/
theorem ofToml?_table {entries : Toml.Table} {p : Parameters} :
    ofToml? (.table entries) = some p ↔
      ∀ q : Parameter, Toml.defaulted? (({} : Parameters).get q) q.read? (entries.lookup q.key) =
        some (p.get q) := by
  unfold ofToml?
  constructor
  · intro h
    -- The parameters are read one after the other, and each reading succeeded.
    obtain ⟨fields, hfields, h⟩ := Option.bind_eq_some_iff.1 h
    obtain rfl := Option.some.inj hfields
    obtain ⟨_, hgate, h⟩ := Option.bind_eq_some_iff.1 h
    obtain ⟨_, hshuttling, h⟩ := Option.bind_eq_some_iff.1 h
    obtain ⟨_, hdecay, h⟩ := Option.bind_eq_some_iff.1 h
    obtain ⟨_, htime, h⟩ := Option.bind_eq_some_iff.1 h
    obtain ⟨_, hverbose, h⟩ := Option.bind_eq_some_iff.1 h
    obtain rfl := Option.some.inj h
    intro q
    cases q with
    | lookaheadGate => exact hgate
    | lookaheadShuttling => exact hshuttling
    | decay => exact hdecay
    | shuttlingTimeWeight => exact htime
    | verbose => exact hverbose
  · intro h
    have next : ∀ {α β : Type} {x : Option α} {f : α → Option β} {a : α} {b : β},
        x = some a → f a = some b → x.bind f = some b :=
      fun hx hf => Option.bind_eq_some_iff.2 ⟨_, hx, hf⟩
    exact next rfl <| next (h .lookaheadGate) <| next (h .lookaheadShuttling) <|
      next (h .decay) <| next (h .shuttlingTimeWeight) <| next (h .verbose) rfl

/-- Puts the parameters with the given `keys` back to their defaults. -/
def reset (keys : List String) (p : Parameters) : Parameters :=
  ofValues fun q => if q.key ∈ keys then ({} : Parameters).get q else p.get q

/-- A table of parameters without some of its `keys` holds the parameters with these `reset`. -/
theorem ofToml?_without {v : Toml.Value} {p : Parameters} (h : ofToml? v = some p)
    {keys : List String} (hkeys : ∀ key ∈ keys, key ∈ v.keys) :
    ofToml? (v.keepKeys (· ∉ keys)) = some (p.reset keys) := by
  cases v with
  | table entries =>
    rw [ofToml?_table] at h
    rw [Toml.Value.keepKeys, ofToml?_table]
    intro q
    rw [Toml.Table.lookup_keepKeys, reset, get_ofValues]
    by_cases hq : q.key ∈ keys
    · simp [hq, Toml.defaulted?]
    · simpa [hq] using h q
  -- A value that is no table has no keys that could be left out.
  | _ =>
    obtain rfl : keys = [] := List.eq_nil_iff_forall_not_mem.2 fun key hkey => by
      simpa [Toml.Value.keys] using hkeys key hkey
    simpa [reset, Toml.Value.keepKeys] using h

end Parameters

/-! ## Keys that are left out -/

namespace Settings

/-- The settings with the given `value` of each; `get` takes it back out. -/
def ofValues (value : (f : Setting) → f.Value) : Settings where
  binary := value .binary
  inputDir := value .inputDir
  outputDir := value .outputDir
  architectures := value .architectures
  coordinateMappings := value .coordinateMappings
  weights := value .weights
  circuitMapping := value .circuitMapping
  parameters := value .parameters
  timeout := value .timeout
  gracePeriod := value .gracePeriod
  resultsPath := value .resultsPath
  malformedOutput := value .malformedOutput
  reportLayout := value .reportLayout
  noProgress := value .noProgress

@[simp] theorem get_ofValues (value : (f : Setting) → f.Value) (f : Setting) :
    (ofValues value).get f = value f := by
  cases f <;> rfl

/-- Puts the settings with the keys `top` back to their defaults, and so those parameters whose keys
    are in `inner`. -/
def reset (top inner : List String) (s : Settings) : Settings :=
  ofValues fun f =>
    if f.key ∈ top then ({} : Settings).get f
    else ({ s with parameters := s.parameters.reset inner } : Settings).get f

theorem get_reset {top inner : List String} {s : Settings} {f : Setting} (hf : f ≠ .parameters) :
    (s.reset top inner).get f = if f.key ∈ top then ({} : Settings).get f else s.get f := by
  rw [reset, get_ofValues]
  cases f with
  | parameters => exact absurd rfl hf
  | _ => rfl

theorem parameters_reset (top inner : List String) (s : Settings) :
    (s.reset top inner).parameters =
      if Setting.parameters.key ∈ top then {} else s.parameters.reset inner :=
  get_ofValues _ .parameters

end Settings

theorem Setting.key_eq_parameters_iff {f : Setting} : f.key = parameters.key ↔ f = parameters := by
  cases f <;> decide

namespace Toml

/-- The keys of the table of parameters in the document `t`. -/
def Table.parameterKeys (t : Table) : List String :=
  (t.lookup Setting.parameters.key).elim [] Value.keys

/-- The document without the keys `top`, and without the keys `inner` in its table of parameters. -/
def Table.without (t : Table) (top inner : List String) : Table :=
  (t.keepKeys (· ∉ top)).mapValues fun key v =>
    if key = Setting.parameters.key then v.keepKeys (· ∉ inner) else v

end Toml

namespace Settings

/-- A document without some of its keys holds the settings with these keys `reset`. -/
theorem ofTable?_without {t : Toml.Table} {s : Settings} (h : ofTable? t = some s)
    (top : List String) {inner : List String} (hinner : ∀ key ∈ inner, key ∈ t.parameterKeys) :
    ofTable? (t.without top inner) = some (s.reset top inner) := by
  obtain ⟨hkeys, hread⟩ := ofTable?_eq_some_iff.1 h
  rw [ofTable?_eq_some_iff]
  constructor
  · simp only [List.all_eq_true] at hkeys ⊢
    intro e he
    obtain ⟨e', he', rfl⟩ := List.mem_map.1 he
    exact hkeys e' (List.mem_filter.1 he').1
  · intro f
    rw [settingOf?, Toml.Table.without, Toml.Table.lookup_mapValues, Toml.Table.lookup_keepKeys]
    by_cases hf : f = .parameters
    · subst hf
      show _ = some (s.reset top inner).parameters
      rw [parameters_reset]
      by_cases htop : Setting.parameters.key ∈ top
      · simp only [htop, not_true_eq_false, decide_false, Bool.false_eq_true, if_false, if_true]
        rfl
      simp only [htop, not_false_eq_true, decide_true, if_true, if_false]
      have hp := hread .parameters
      rw [settingOf?] at hp
      rw [Toml.Table.parameterKeys] at hinner
      cases hv : t.lookup Setting.parameters.key with
      | none =>
        -- Without a table of parameters there is nothing to leave out.
        rw [hv] at hp hinner
        obtain rfl : inner = [] := List.eq_nil_iff_forall_not_mem.2 fun key hkey => by
          simpa using hinner key hkey
        exact hp
      | some v =>
        rw [hv] at hp hinner
        exact Parameters.ofToml?_without hp hinner
    · have hkey : f.key ≠ Setting.parameters.key := fun heq =>
        hf (Setting.key_eq_parameters_iff.1 heq)
      rw [get_reset hf]
      by_cases htop : f.key ∈ top
      · simp [htop, Toml.defaulted?]
      · simp only [htop, hkey, not_false_eq_true, decide_true, if_true, if_false,
          Option.map_id_fun']
        exact hread f

/-- If a document holds settings, then so does the document without any of its keys at the top level
    (`top`) and any of the keys of its table of parameters (`inner`).  Exactly the fields with these
    keys have their defaults then, and all others have the values that they had. -/
theorem left_out_keys_take_defaults (t : Toml.Table) (s : Settings) (h : ofTable? t = some s)
    (top inner : List String) (hinner : ∀ key ∈ inner, key ∈ t.parameterKeys) :
    ∃ s', ofTable? (t.without top inner) = some s' ∧
      (∀ f, f ≠ .parameters →
        s'.get f = if f.key ∈ top then ({} : Settings).get f else s.get f) ∧
      ∀ q, s'.parameters.get q =
        if Setting.parameters.key ∈ top ∨ q.key ∈ inner then ({} : Parameters).get q
        else s.parameters.get q := by
  refine ⟨s.reset top inner, ofTable?_without h top hinner, fun f hf => get_reset hf, ?_⟩
  intro q
  rw [parameters_reset]
  by_cases htop : Setting.parameters.key ∈ top
  · simp only [htop, if_true, true_or]
  · simp only [htop, if_false, false_or, Parameters.reset, Parameters.get_ofValues]

/-- A document with two keys at the top level and two in its table of parameters. -/
def keyedDocument : Toml.Table :=
  [("timeout_s", .integer 30), ("input_dir", .string "benchmarks"),
    ("parameters", .table [("decay", .integer 2), ("verbose", .bool true)])]

/-- The settings in `keyedDocument`. -/
def keyedSettings : Settings where
  inputDir := "benchmarks"
  timeout := 30
  parameters := { decay := .ofNat 2, verbose := true }

/-- For `keyedDocument` without one key of each kind, the other two still count. -/
theorem left_out_keys_of_keyedDocument :
    ∃ s', ofTable? (keyedDocument.without ["timeout_s"] ["decay"]) = some s' ∧
      s'.timeout = 10000 ∧ s'.inputDir = "benchmarks" ∧
      s'.parameters.decay = .zero false ∧ s'.parameters.verbose = true := by
  have hs : ofTable? keyedDocument = some keyedSettings := by decide +kernel
  obtain ⟨s', hs', hget, hparameters⟩ :=
    left_out_keys_take_defaults keyedDocument keyedSettings hs ["timeout_s"] ["decay"] (by decide)
  exact ⟨s', hs', (hget .timeout (by decide)).trans (if_pos (by decide)),
    (hget .inputDir (by decide)).trans (if_neg (by decide)),
    (hparameters .decay).trans (if_pos (by decide)),
    (hparameters .verbose).trans (if_neg (by decide))⟩

end Settings

end MapperSweep
