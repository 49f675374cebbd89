import MapperSweep.Proofs.Settings.Keys

/-!
# Keys that are not known

A document is refused if it has a key at its top level that no setting has.  The structures below
the top level are read by asking for their fields, so what else is in their tables is never looked
at: all of it can be dropped from a document without changing the settings in it.

## Key results

- `Toml.fields?_keepKeys`: the fields of a structure do not depend on what else is in its table
- `Block.read?_prune`, `Settings.ofTable?_prune`: dropping keys that are not known changes nothing
- `Settings.unknown_keys_count_at_top_only`: keys that are not known are refused at the top level,
  and are of no effect below it
-/

namespace MapperSweep

/-! ## Structures and lists -/

namespace Toml

namespace Value

/-- The entries of a value that is a `.table`. -/
def table? : Value → Option Table
  | .table entries => some entries
  | _ => none

/-- Applies `change` to the items of an array, and leaves other values. -/
def mapItems (change : Value → Value) : Value → Value
  | .array items => .array (items.map change)
  | v => v

theorem mem_filterMap_table? {items : List Value} {entries : Table} :
    entries ∈ items.filterMap table? ↔ .table entries ∈ items := by
  rw [List.mem_filterMap]
  constructor
  · rintro ⟨item, hitem, htable⟩
    cases item with
    | table t => exact Option.some.inj htable ▸ hitem
    | _ => cases htable
  · intro h
    exact ⟨_, h, rfl⟩

end Value

/-- The fields `names` of a structure do not depend on what else is in its table. -/
theorem fields?_keepKeys {names : List String} {keep : String → Bool}
    (h : ∀ name ∈ names, keep name = true) (v : Value) :
    fields? names (v.keepKeys keep) = fields? names v := by
  cases v with
  | table entries =>
    simp only [Value.keepKeys, fields?, Table.lookup_keepKeys, Option.some.injEq]
    exact List.map_congr_left fun name hname => by rw [h name hname, if_pos rfl]
  | _ => rfl

/-- `list? read` gives the same if each item is read the same after `change`. -/
theorem list?_mapItems {α : Type} {read : Value → Option α} {change : Value → Value}
    (h : ∀ v, read (change v) = read v) (v : Value) :
    list? read (v.mapItems change) = list? read v := by
  cases v with
  | array items =>
    simp only [Value.mapItems, list?]
    induction items with
    | nil => rfl
    | cons item items ih => simp only [List.map_cons, List.mapM_cons, h, ih]
  | _ => rfl

/-- A list with one `item` that cannot be read cannot be read. -/
theorem list?_eq_none {α : Type} {read : Value → Option α} {items : List Value} {item : Value}
    (hitem : item ∈ items) (h : read item = none) : list? read (.array items) = none := by
  simp only [list?]
  induction items with
  | nil => cases hitem
  | cons first items ih =>
    rcases List.mem_cons.1 hitem with rfl | hrest
    · simp [List.mapM_cons, h]
    · simp [List.mapM_cons, ih hrest]

end Toml

/-! ## Structures below the top level -/

/-- The structures that a document has below the top level, by the key under which they stand. -/
inductive Block where
  | parameters
  | weights
  | architectures
deriving DecidableEq

namespace Block

/-- The three kinds of structures; `Value.pruneAt` looks for a key among theirs. -/
def all : List Block := [parameters, weights, architectures]

/-- The setting that is given by the structures of this kind. -/
def setting : Block → Setting
  | parameters => .parameters
  | weights => .weights
  | architectures => .architectures

/-- The keys that a structure of this kind has. -/
def fields : Block → List String
  | parameters =>
    ["lookahead_gate", "lookahead_shuttling", "decay", "shuttling_time_weight", "verbose"]
  | weights => ["gate", "shuttling"]
  | architectures => ["kind", "config_path"]

/-- The tables in the value of the `setting`.  Weights and architectures come in arrays. -/
def tables : Block → Toml.Value → List Toml.Table
  | parameters, .table entries => [entries]
  | weights, .array items | architectures, .array items => items.filterMap Toml.Value.table?
  | _, _ => []

/-- Drops all entries whose keys are not among the `fields` from the tables. -/
def prune : Block → Toml.Value → Toml.Value
  | parameters => .keepKeys (· ∈ parameters.fields)
  | weights => .mapItems (.keepKeys (· ∈ weights.fields))
  | architectures => .mapItems (.keepKeys (· ∈ architectures.fields))

/-- A structure is read without looking at other keys than its `fields`. -/
theorem read?_prune (b : Block) (v : Toml.Value) :
    b.setting.read? (b.prune v) = b.setting.read? v := by
  have hfields : ∀ (b : Block) (v : Toml.Value),
      Toml.fields? b.fields (v.keepKeys (· ∈ b.fields)) = Toml.fields? b.fields v :=
    fun b v => Toml.fields?_keepKeys (fun _ hname => decide_eq_true hname) v
  -- All three are read from their fields alone.
  cases b with
  | parameters => exact congrArg (· >>= _) (hfields parameters v)
  | weights => exact Toml.list?_mapItems (fun v => congrArg (· >>= _) (hfields weights v)) v
  | architectures =>
    exact Toml.list?_mapItems (fun v => congrArg (· >>= _) (hfields architectures v)) v

/-- What is left after `prune` has no other keys than the `fields`. -/
theorem mem_fields_of_mem_prune {b : Block} {v : Toml.Value} {entries : Toml.Table}
    (h : entries ∈ b.tables (b.prune v)) {e : String × Toml.Value} (he : e ∈ entries) :
    e.1 ∈ b.fields := by
  have hkept : ∀ (b : Block) (t : Toml.Table), e ∈ t.keepKeys (· ∈ b.fields) → e.1 ∈ b.fields :=
    fun b t he => of_decide_eq_true (List.mem_filter.1 he).2
  -- Weights and architectures come in arrays, so a table is one of the items after `keepKeys`.
  have hitems : ∀ (b : Block) (items : List Toml.Value),
      entries ∈ (items.map (Toml.Value.keepKeys (· ∈ b.fields))).filterMap Toml.Value.table? →
        e.1 ∈ b.fields := by
    intro b items h
    obtain ⟨old, -, hold⟩ := List.mem_map.1 (Toml.Value.mem_filterMap_table?.1 h)
    cases old with
    | table t =>
      obtain rfl := Toml.Value.table.inj hold
      exact hkept b t he
    | _ => cases hold
  cases b with
  | parameters =>
    cases v with
    | table t =>
      obtain rfl := List.mem_singleton.1 h
      exact hkept parameters t he
    | _ => cases h
  | weights =>
    cases v with
    | array items => exact hitems weights items h
    | _ => cases h
  | architectures =>
    cases v with
    | array items => exact hitems architectures items h
    | _ => cases h

/-- Weights and machines need all of their `fields`. -/
theorem read?_eq_none_of_missing {b : Block} (hb : b ≠ parameters) {v : Toml.Value}
    {entries : Toml.Table} (hentries : entries ∈ b.tables v) {name : String}
    (hname : name ∈ b.fields) (hmissing : ∀ e ∈ entries, e.1 ≠ name) :
    b.setting.read? v = none := by
  have hlookup : entries.lookup name = none := by
    rw [List.lookup_eq_none_iff]
    intro e he
    exact bne_iff_ne.2 (hmissing e he).symm
  -- An item that lacks a field is not read, and neither is the list with this item.
  cases b with
  | parameters => exact absurd rfl hb
  | weights =>
    cases v with
    | array items =>
      refine Toml.list?_eq_none (Toml.Value.mem_filterMap_table?.1 hentries) ?_
      simp only [fields, List.mem_cons, List.not_mem_nil, or_false] at hname
      rcases hname with rfl | rfl <;>
        simp [Weights.ofToml?, Toml.fields?, Toml.required?, hlookup]
    | _ => cases hentries
  | architectures =>
    cases v with
    | array items =>
      refine Toml.list?_eq_none (Toml.Value.mem_filterMap_table?.1 hentries) ?_
      simp only [fields, List.mem_cons, List.not_mem_nil, or_false] at hname
      rcases hname with rfl | rfl <;>
        simp [Architecture.ofToml?, Toml.fields?, Toml.required?, hlookup]
    | _ => cases hentries

end Block

/-! ## Unknown keys in a document -/

namespace Toml

/-- `t.UnknownAtTop` holds if there is a key at the top level that no setting has. -/
def Table.UnknownAtTop (t : Table) : Prop := ∃ e ∈ t, ∀ f : Setting, f.key ≠ e.1

/-- `t.UnknownBelow` holds if there is a key below the top level that is none of the `fields`
    there. -/
def Table.UnknownBelow (t : Table) : Prop :=
  ∃ (b : Block) (v : Value), t.lookup b.setting.key = some v ∧
    ∃ entries ∈ b.tables v, ∃ e ∈ entries, e.1 ∉ b.fields

/-- The value `v` under `key` without the entries that are not known, see `Block.prune`. -/
def Value.pruneAt (key : String) (v : Value) : Value :=
  (Block.all.find? (·.setting.key = key)).elim v (·.prune v)

/-- The document `t` without all keys below the top level that are not known. -/
def Table.prune (t : Table) : Table := t.mapValues Value.pruneAt

theorem Value.pruneAt_key (b : Block) (v : Value) : v.pruneAt b.setting.key = b.prune v := by
  cases b <;> rfl

/-- No setting depends on keys that `pruneAt` drops. -/
theorem read?_pruneAt (f : Setting) (v : Value) : f.read? (v.pruneAt f.key) = f.read? v := by
  cases f with
  | parameters => exact Block.parameters.read?_prune v
  | weights => exact Block.weights.read?_prune v
  | architectures => exact Block.architectures.read?_prune v
  | _ => rfl

theorem Table.not_unknownBelow_prune (t : Table) : ¬t.prune.UnknownBelow := by
  rintro ⟨b, v, hv, entries, hentries, e, he, hunknown⟩
  rw [prune, lookup_mapValues] at hv
  obtain ⟨old, -, rfl⟩ := Option.map_eq_some_iff.1 hv
  rw [Value.pruneAt_key] at hentries
  exact hunknown (Block.mem_fields_of_mem_prune hentries he)

end Toml

/-- The known keys are those of the settings: every key in `Settings.keys` has one. -/
theorem Setting.mem_keys_iff {key : String} : key ∈ Settings.keys ↔ ∃ f : Setting, f.key = key := by
  constructor
  · have hkeys : Settings.keys =
        [binary, inputDir, outputDir, architectures, coordinateMappings, weights, circuitMapping,
          parameters, timeout, gracePeriod, resultsPath, malformedOutput, reportLayout,
          noProgress].map Setting.key := rfl
    rw [hkeys, List.mem_map]
    rintro ⟨f, -, hf⟩
    exact ⟨f, hf⟩
  · rintro ⟨f, rfl⟩
    cases f <;> decide

namespace Settings

/-- A document with an unknown key at the top level is refused by `ofTable?`. -/
theorem ofTable?_of_unknownAtTop {t : Toml.Table} (h : t.UnknownAtTop) : ofTable? t = none := by
  obtain ⟨e, he, hunknown⟩ := h
  rw [Option.eq_none_iff_forall_ne_some]
  intro s hs
  have hkeys := List.all_eq_true.1 (ofTable?_eq_some_iff.1 hs).1 e he
  obtain ⟨f, hf⟩ := Setting.mem_keys_iff.1 (List.contains_iff_mem.1 hkeys)
  exact hunknown f hf

/-- Below the top level, keys that are not known are of no effect on `ofTable?`. -/
theorem ofTable?_prune (t : Toml.Table) : ofTable? t.prune = ofTable? t := by
  have hkeys : (∀ e ∈ t.prune, keys.contains e.1 = true) ↔ ∀ e ∈ t, keys.contains e.1 = true := by
    rw [Toml.Table.prune, Toml.Table.mapValues, List.forall_mem_map]
  have hread : ∀ f, settingOf? t.prune f = settingOf? t f := by
    intro f
    rw [settingOf?, settingOf?, Toml.Table.prune, Toml.Table.lookup_mapValues]
    cases t.lookup f.key with
    | none => rfl
    | some v => exact Toml.read?_pruneAt f v
  refine Option.ext fun s => ?_
  simp only [ofTable?_eq_some_iff, List.all_eq_true, hread]
  exact and_congr_left fun _ => hkeys

/-- Keys that are not known count at the top level only.  A document with one of them there is
    refused, and all that are below can be dropped by `prune` without changing anything.  A misspelt
    key below the top level is noticed only where the right one is missed, which is in weights and
    machines, but not in the parameters. -/
theorem unknown_keys_count_at_top_only (t : Toml.Table) :
    (t.UnknownAtTop → ofTable? t = none) ∧
      (ofTable? t.prune = ofTable? t ∧ ¬t.prune.UnknownBelow) ∧
      ∀ (b : Block) (v : Toml.Value), b ≠ .parameters → t.lookup b.setting.key = some v →
        (∃ entries ∈ b.tables v, ∃ name ∈ b.fields, ∀ e ∈ entries, e.1 ≠ name) →
        ofTable? t = none := by
  refine ⟨ofTable?_of_unknownAtTop, ⟨ofTable?_prune t, t.not_unknownBelow_prune⟩, ?_⟩
  rintro b v hb hv ⟨entries, hentries, name, hname, hmissing⟩
  rw [Option.eq_none_iff_forall_ne_some]
  intro s hs
  have hsome := read?_of_ofTable? hs hv
  rw [Block.read?_eq_none_of_missing hb hentries hname hmissing] at hsome
  cases hsome

/-- A document with a key that no setting has. -/
def strangeDocument : Toml.Table := [("time_limit", .integer 5)]

/-- A document with a misspelt weight. -/
def misspeltWeights : Toml.Table :=
  [("weights", .array [.table [("gate", .integer 1), ("shutling", .integer 1)]])]

/-- `strangeDocument` is refused for its key, and `misspeltWeights` for the key that it lacks. -/
theorem unknown_keys_of_samples :
    strangeDocument.UnknownAtTop ∧ ofTable? strangeDocument = none ∧
      misspeltWeights.UnknownBelow ∧ ofTable? misspeltWeights = none := by
  have hstrange : strangeDocument.UnknownAtTop :=
    ⟨_, List.mem_singleton.2 rfl, fun f => by cases f <;> decide⟩
  have hmissing : ∃ entries ∈ Block.weights.tables
      (.array [.table [("gate", .integer 1), ("shutling", .integer 1)]]),
      ∃ name ∈ Block.weights.fields, ∀ e ∈ entries, e.1 ≠ name :=
    ⟨_, List.mem_singleton.2 rfl, "shuttling", by decide, by simp⟩
  refine ⟨hstrange, (unknown_keys_count_at_top_only strangeDocument).1 hstrange, ?_,
    (unknown_keys_count_at_top_only misspeltWeights).2.2 .weights _ (by decide) rfl hmissing⟩
  exact ⟨.weights, _, rfl, _, List.mem_singleton.2 rfl, ("shutling", .integer 1), by simp,
    by decide⟩

/-- A document with a misspelt parameter. -/
def misspeltParameters : Toml.Table := [("parameters", .table [("deacy", .integer 2)])]

/-- A document whose weights have one key more than they should. -/
def surplusWeights : Toml.Table :=
  [("weights", .array [.table [("gate", .integer 1), ("shuttling", .integer 1),
    ("scale", .integer 2)]])]

/-- A document whose machine has one key more than it should. -/
def surplusArchitectures : Toml.Table :=
  [("architectures", .array [.table [("kind", .string "gate"), ("config_path", .string "g.json"),
    ("qubits", .integer 9)]])]

/-- Keys that are not known are accepted in each of the structures below the top level.  The
    parameter of `misspeltParameters` is left at its default. -/
theorem unknown_keys_accepted_below :
    (misspeltParameters.UnknownBelow ∧ ofTable? misspeltParameters = some {} ∧
      ofToml? "[parameters]\ndeacy = 2\n".toList = some {}) ∧
    (surplusWeights.UnknownBelow ∧ ofTable? surplusWeights = some {}) ∧
    (surplusArchitectures.UnknownBelow ∧
      ofTable? surplusArchitectures = some { architectures := [⟨.gate, "g.json"⟩] }) := by
  refine ⟨⟨?_, by decide +kernel, by decide +kernel⟩, ⟨?_, by decide +kernel⟩,
    ⟨?_, by decide +kernel⟩⟩
  · exact ⟨.parameters, _, rfl, _, List.mem_singleton.2 rfl, ("deacy", .integer 2), by simp,
      by decide⟩
  · exact ⟨.weights, _, rfl, _, List.mem_singleton.2 rfl, ("scale", .integer 2), by simp,
      by decide⟩
  · exact ⟨.architectures, _, rfl, _, List.mem_singleton.2 rfl, ("qubits", .integer 9), by simp,
      by decide⟩

end Settings

end MapperSweep
