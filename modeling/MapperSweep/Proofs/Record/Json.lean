import Mathlib.Data.List.Nodup
import MapperSweep.Proofs.Json.RoundTrip
import MapperSweep.Record.Json

/-!
# Reading back records

A record that is written as JSON and read again is the same record up to its real numbers.  A finite
number becomes what the reader makes of its text, which need not be the same number.  A measurement
that is not finite is written as `null` and becomes absent, while a weight must not be absent: a
record with such a weight cannot be read.

## Key results

- `fields?_ofMembers`: the fields of an object that has them in their order
- `reread?_eq`: what is made of the text of a number
- `ofJson?_toJson_of_finite`, `ofJson?_toJson_of_not_finite`, `ofJson?_toJson_of_not_loads`: reading
  a record that was written
-/

namespace MapperSweep

namespace Json

/-! ## Fields -/

/-- Looking up the `names` of members one after the other gives their values. -/
private theorem map_lookup_zip {names : List String} (hnodup : names.Nodup) {values : List Json}
    (hlength : names.length = values.length) :
    (names.map fun name =>
        ((names.zip values).map fun m => (some m.1, m.2)).lookup (some name)) =
      values.map some := by
  induction names generalizing values with
  | nil => rw [List.eq_nil_of_length_eq_zero hlength.symm, List.map_nil, List.map_nil]
  | cons name names ih =>
    cases values with
    | nil => exact nomatch hlength
    | cons value values =>
      obtain ⟨hname, hnodup⟩ := List.nodup_cons.1 hnodup
      have hrest := ih hnodup (Nat.succ.inj hlength)
      simp only [List.zip_cons_cons, List.map_cons, List.lookup_cons_self, List.cons.injEq,
        true_and]
      -- Every later name differs from the first, so its lookup passes the first member by.
      rw [← hrest]
      refine List.map_congr_left fun other hother => ?_
      have hne : (some other == some name) = false := by
        rw [beq_eq_false_iff_ne, Ne, Option.some.injEq]
        rintro rfl
        exact hname hother
      rw [List.lookup_cons, hne]

/-- `fields?` of an object that has the fields `names` in their order, and no others. -/
theorem fields?_ofMembers (names : List String) (values : List Json) (hnodup : names.Nodup)
    (hlength : names.length = values.length) :
    fields? names (ofMembers (names.zip values)) = some (values.map some) := by
  have hkeys : ((names.zip values).map fun m => (some m.1, m.2)).map Prod.fst = names.map some := by
    calc _ = ((names.zip values).map Prod.fst).map some := by rw [List.map_map, List.map_map]; rfl
      _ = names.map some := by rw [List.map_fst_zip (Nat.le_of_eq hlength)]
  have hpresent : (names.map some).any (·.isNone) = false := by simp
  have hunique : (names.any fun name => 1 < (names.map some).count (some name)) = false := by
    rw [List.any_eq_false]
    intro name _
    have hcount := List.nodup_iff_count_le_one.1 (hnodup.map (Option.some_injective String))
      (some name)
    simpa using hcount
  have hfields : fields? names (ofMembers (names.zip values)) =
      members? names ((names.zip values).map fun m => (some m.1, m.2)) := rfl
  rw [hfields, members?]
  simp only [hkeys, hpresent, hunique, Bool.or_self, Bool.false_eq_true, if_false]
  rw [map_lookup_zip hnodup hlength]

/-- An object is `Valid` if its values are. -/
theorem valid_ofMembers {members : List (String × Json)} (h : ∀ m ∈ members, Valid m.2) :
    Valid (ofMembers members) := by
  refine .object fun m hm => ?_
  obtain ⟨⟨key, value⟩, hmem, rfl⟩ := List.mem_map.1 hm
  exact h (key, value) hmem

/-! ## Numbers -/

/-- What the reader makes of the text that is written for `x`.  There is no text for a number that
    is not finite. -/
def reread? (x : Binary64) : Option Binary64 := (parse? (print (ofBinary64 x))).bind float?

theorem valid_ofBinary64 (x : Binary64) : Valid (ofBinary64 x) := by
  rw [ofBinary64]
  split
  · exact .number (isJson_numeral x)
  · exact .null

/-- For `reread?` the text of a number does not matter, only the value that is written. -/
theorem reread?_eq (x : Binary64) : reread? x = float? (ofBinary64 x) := by
  rw [reread?, parse?_print (valid_ofBinary64 x), Option.bind_some]

/-- `reread?` gives nothing for a number that is not finite. -/
theorem reread?_of_not_finite {x : Binary64} (h : x.isFinite = false) : reread? x = none := by
  rw [reread?_eq, ofBinary64, h]
  rfl

/-- The number that is read from the text of `x`.  If there is none it stays as it is; no record
    that is `Readable` has such a finite number. -/
def reread (x : Binary64) : Binary64 := (reread? x).getD x

private theorem reread?_eq_some {x : Binary64} (h : (reread? x).isSome) :
    reread? x = some (reread x) := by
  obtain ⟨y, hy⟩ := Option.isSome_iff_exists.1 h
  rw [reread, hy, Option.getD_some]

end Json

/-! ## What is read back -/

/-- `w.IsFinite` holds if both weights are finite. -/
def Weights.IsFinite (w : Weights) : Prop := w.gate.isFinite = true ∧ w.shuttling.isFinite = true

instance (w : Weights) : Decidable w.IsFinite := inferInstanceAs (Decidable (_ ∧ _))

/-- The weights that are read back for `w`, each by `Json.reread`. -/
def Weights.reloaded (w : Weights) : Weights := ⟨Json.reread w.gate, Json.reread w.shuttling⟩

/-- The measurement that is read back for `x`: none if the number is not finite. -/
def Metrics.reloadedMeasure (x : Option Binary64) : Option Binary64 :=
  (x.filter (·.isFinite)).map Json.reread

/-- The measurements that are read back for `m`: the counts are exact, and the others are
    `reloadedMeasure`. -/
def Metrics.reloaded (m : Metrics) : Metrics :=
  { m with
    executionTime := reloadedMeasure m.executionTime
    idleTime := reloadedMeasure m.idleTime
    gateFidelity := reloadedMeasure m.gateFidelity
    fidelity := reloadedMeasure m.fidelity }

/-- The real numbers in the measurements `m`. -/
def Metrics.reals (m : Metrics) : List Binary64 :=
  [m.executionTime, m.idleTime, m.gateFidelity, m.fidelity].filterMap id

/-- The record that is read back for `r`; only its real numbers can change. -/
def Record.reloaded (r : Record) : Record :=
  { r with weights := r.weights.reloaded, metrics := r.metrics.reloaded }

/-- The real numbers in the record `r`. -/
def Record.reals (r : Record) : List Binary64 :=
  [r.weights.gate, r.weights.shuttling] ++ r.metrics.reals

/-- `r.Readable` holds if the text of every finite number in `r` can be read. -/
def Record.Readable (r : Record) : Prop :=
  ∀ x ∈ r.reals, x.isFinite = true → (Json.reread? x).isSome

/-! ## Reading what was written -/

theorem ArchitectureKind.ofJson?_toJson (k : ArchitectureKind) : ofJson? k.toJson = some k := by
  cases k <;> decide

theorem CoordinateMapping.ofJson?_toJson (m : CoordinateMapping) : ofJson? m.toJson = some m := by
  cases m <;> decide

namespace Weights

theorem fields?_toJson (w : Weights) : w.toJson.fields? ["gate", "shuttling"] =
    some [some (.ofBinary64 w.gate), some (.ofBinary64 w.shuttling)] :=
  Json.fields?_ofMembers _ [.ofBinary64 w.gate, .ofBinary64 w.shuttling] (by decide) rfl

/-- The two weights are read by `reread?`, one by one. -/
private theorem ofJson?_toJson (w : Weights) :
    ofJson? w.toJson =
      (Json.reread? w.gate).bind fun x => (Json.reread? w.shuttling).map fun y => ⟨x, y⟩ := by
  simp only [ofJson?, fields?_toJson, Json.required?, Json.reread?_eq, Option.bind_eq_bind,
    Option.bind_some, Option.pure_def]
  cases Json.float? (.ofBinary64 w.gate) with
  | none => rfl
  | some x => cases Json.float? (.ofBinary64 w.shuttling) <;> rfl

/-- Weights that `reread?` can read are read back. -/
theorem ofJson?_toJson_of_isSome {w : Weights} (hgate : (Json.reread? w.gate).isSome)
    (hshuttling : (Json.reread? w.shuttling).isSome) : ofJson? w.toJson = some w.reloaded := by
  rw [ofJson?_toJson, Json.reread?_eq_some hgate, Json.reread?_eq_some hshuttling, Option.bind_some,
    Option.map_some, reloaded]

/-- Weights of which `reread?` cannot read one are not read back. -/
theorem ofJson?_toJson_of_unreadable {w : Weights}
    (h : Json.reread? w.gate = none ∨ Json.reread? w.shuttling = none) :
    ofJson? w.toJson = none := by
  rw [ofJson?_toJson]
  rcases h with h | h
  · rw [h, Option.bind_none]
  -- Whether the first weight can be read makes no difference.
  · rw [h]
    cases Json.reread? w.gate <;> rfl

/-- Weights that are not finite cannot be read back; they are written as `null`. -/
theorem ofJson?_toJson_of_not_finite {w : Weights} (h : ¬w.IsFinite) : ofJson? w.toJson = none := by
  rw [IsFinite, not_and_or, Bool.not_eq_true, Bool.not_eq_true] at h
  exact ofJson?_toJson_of_unreadable (h.imp Json.reread?_of_not_finite Json.reread?_of_not_finite)

end Weights

namespace Metrics

/-- A count is read back, also an absent one. -/
private theorem count?_countJson (n : Option UInt64) : count? (some (countJson n)) = some n := by
  cases n with
  | none => rfl
  | some n =>
    have hread := Json.toCount?_ofCount n
    rw [Json.ofCount] at hread
    simp [count?, countJson, Json.defaulted?, Json.ofCount, Json.nullable?, hread]

/-- A real number is read back as `reloadedMeasure` says, also an absent one. -/
private theorem float?_floatJson {x : Option Binary64}
    (h : ∀ y, x = some y → y.isFinite = true → (Json.reread? y).isSome) :
    float? (some (floatJson x)) = some (reloadedMeasure x) := by
  cases x with
  | none => rfl
  | some y =>
    -- A number that is not finite is written as null, which stands for an absent one.
    cases hfinite : y.isFinite with
    | false =>
      simp [float?, floatJson, Json.defaulted?, Json.ofBinary64, hfinite, Json.nullable?,
        reloadedMeasure]
    | true =>
      have hread := Json.reread?_eq_some (h y rfl hfinite)
      rw [Json.reread?_eq, Json.ofBinary64, if_pos hfinite] at hread
      simp [float?, floatJson, Json.defaulted?, Json.ofBinary64, hfinite, Json.nullable?, hread,
        reloadedMeasure]

/-- A finite number that `reread?` cannot read is not taken for an absent one. -/
private theorem float?_floatJson_of_unreadable {y : Binary64} (hfinite : y.isFinite = true)
    (h : Json.reread? y = none) : float? (some (floatJson (some y))) = none := by
  rw [Json.reread?_eq, Json.ofBinary64, if_pos hfinite] at h
  simp [float?, floatJson, Json.defaulted?, Json.ofBinary64, hfinite, Json.nullable?, h]

theorem fields?_toJson (m : Metrics) :
    m.toJson.fields? ["swaps", "bridges", "moves", "cz_count", "execution_time", "idle_time",
        "gate_fidelity", "fidelity", "runtime_ms"] =
      some [some (countJson m.swaps), some (countJson m.bridges), some (countJson m.moves),
        some (countJson m.czCount), some (floatJson m.executionTime), some (floatJson m.idleTime),
        some (floatJson m.gateFidelity), some (floatJson m.fidelity),
        some (countJson m.runtimeMs)] :=
  Json.fields?_ofMembers _
    [countJson m.swaps, countJson m.bridges, countJson m.moves, countJson m.czCount,
      floatJson m.executionTime, floatJson m.idleTime, floatJson m.gateFidelity,
      floatJson m.fidelity, countJson m.runtimeMs] (by decide) rfl

/-- Measurements whose finite numbers `reread?` can read are read back. -/
theorem ofJson?_toJson {m : Metrics}
    (h : ∀ x ∈ m.reals, x.isFinite = true → (Json.reread? x).isSome) :
    ofJson? m.toJson = some m.reloaded := by
  have hexecution := float?_floatJson fun y (hy : m.executionTime = some y) =>
    h y (by simp [reals, hy])
  have hidle := float?_floatJson fun y (hy : m.idleTime = some y) => h y (by simp [reals, hy])
  have hgate := float?_floatJson fun y (hy : m.gateFidelity = some y) => h y (by simp [reals, hy])
  have hfidelity := float?_floatJson fun y (hy : m.fidelity = some y) => h y (by simp [reals, hy])
  simp only [ofJson?, fields?_toJson, count?_countJson, hexecution, hidle, hgate, hfidelity,
    Option.bind_eq_bind, Option.bind_some, Option.pure_def]
  rfl

/-- Measurements with a finite number that `reread?` cannot read are not read back. -/
theorem ofJson?_toJson_of_unreadable {m : Metrics} {x : Binary64} (hx : x ∈ m.reals)
    (hfinite : x.isFinite = true) (h : Json.reread? x = none) : ofJson? m.toJson = none := by
  have hnone : ∀ y, y = some x → float? (some (floatJson y)) = none := by
    rintro _ rfl
    exact float?_floatJson_of_unreadable hfinite h
  simp only [reals, List.mem_filterMap, id, List.mem_cons, List.not_mem_nil, or_false,
    exists_eq_right] at hx
  simp only [ofJson?, fields?_toJson, count?_countJson, Option.bind_eq_bind, Option.bind_some]
  -- The numbers are read in their order, and it is enough that one of them fails.
  rcases hx with hx | hx | hx | hx <;>
    simp only [hnone _ hx.symm, Option.bind_none, Option.bind_fun_none]

end Metrics

namespace Record

theorem fields?_toJson (r : Record) :
    r.toJson.fields? ["benchmark", "architecture", "coordinate_mapping", "run_idx", "weights",
        "metrics"] =
      some [some (.text r.benchmark), some r.architecture.toJson, some r.coordinateMapping.toJson,
        some (.ofCount r.runIndex), some r.weights.toJson, some r.metrics.toJson] :=
  Json.fields?_ofMembers _
    [.text r.benchmark, r.architecture.toJson, r.coordinateMapping.toJson, .ofCount r.runIndex,
      r.weights.toJson, r.metrics.toJson] (by decide) rfl

/-- A record that is `Readable` and has finite weights is read back. -/
theorem ofJson?_toJson_of_finite {r : Record} (hreadable : r.Readable)
    (hfinite : r.weights.IsFinite) : ofJson? r.toJson = some r.reloaded := by
  have hweights : Weights.ofJson? r.weights.toJson = some r.weights.reloaded :=
    Weights.ofJson?_toJson_of_isSome (hreadable _ (by simp [reals]) hfinite.1)
      (hreadable _ (by simp [reals]) hfinite.2)
  have hmetrics : Metrics.ofJson? r.metrics.toJson = some r.metrics.reloaded :=
    Metrics.ofJson?_toJson fun x hx => hreadable x (List.mem_append_right _ hx)
  simp only [ofJson?, fields?_toJson, Json.required?, Json.text, Json.text?,
    ArchitectureKind.ofJson?_toJson, CoordinateMapping.ofJson?_toJson, Json.toCount?_ofCount,
    hweights,
    hmetrics, Option.bind_eq_bind, Option.bind_some, Option.pure_def]
  rfl

theorem ofJson?_toJson_of_not_finite {r : Record} (h : ¬r.weights.IsFinite) :
    ofJson? r.toJson = none := by
  simp only [ofJson?, fields?_toJson, Json.required?, Json.text, Json.text?,
    ArchitectureKind.ofJson?_toJson, CoordinateMapping.ofJson?_toJson, Json.toCount?_ofCount,
    Weights.ofJson?_toJson_of_not_finite h, Option.bind_eq_bind, Option.bind_some, Option.bind_none]

/-- `r.Loads` holds if the record can be read back: no number in it stands in the way. -/
def Loads (r : Record) : Prop := r.weights.IsFinite ∧ r.Readable

instance (r : Record) : Decidable r.Loads :=
  inferInstanceAs
    (Decidable (_ ∧ ∀ x ∈ r.reals, x.isFinite = true → (Json.reread? x).isSome = true))

/-- A record is refused unless it `Loads`. -/
theorem ofJson?_toJson_of_not_loads {r : Record} (h : ¬r.Loads) : ofJson? r.toJson = none := by
  by_cases hfinite : r.weights.IsFinite
  · have hunreadable : ∃ x ∈ r.reals, x.isFinite = true ∧ Json.reread? x = none := by
      simpa [Loads, hfinite, Readable] using h
    obtain ⟨x, hx, hxfinite, hread⟩ := hunreadable
    rw [reals, List.mem_append, List.mem_cons, List.mem_singleton] at hx
    -- The number is a weight or a measurement.
    rcases hx with hweight | hmeasure
    · have hweights : Weights.ofJson? r.weights.toJson = none := by
        refine Weights.ofJson?_toJson_of_unreadable (hweight.imp ?_ ?_)
        · rintro rfl
          exact hread
        · rintro rfl
          exact hread
      simp only [ofJson?, fields?_toJson, Json.required?, hweights, Option.bind_eq_bind,
        Option.bind_some, Option.bind_none, Option.bind_fun_none]
    · have hmetrics := Metrics.ofJson?_toJson_of_unreadable hmeasure hxfinite hread
      simp only [ofJson?, fields?_toJson, Json.required?, hmetrics, Option.bind_eq_bind,
        Option.bind_some, Option.bind_none, Option.bind_fun_none]
  · exact ofJson?_toJson_of_not_finite hfinite

/-- `r.toJson` is a `Valid` value, so its text is read back. -/
theorem valid_toJson (r : Record) : r.toJson.Valid := by
  have hcount : ∀ n, (Metrics.countJson n).Valid := by
    rintro (_ | n)
    · exact .null
    · exact .number (Json.isJson_ofNat n.toNat)
  have hfloat : ∀ x, (Metrics.floatJson x).Valid := by
    rintro (_ | x)
    · exact .null
    · exact Json.valid_ofBinary64 x
  have hweights : r.weights.toJson.Valid :=
    Json.valid_ofMembers (by simp [Json.valid_ofBinary64])
  have hmetrics : r.metrics.toJson.Valid := Json.valid_ofMembers (by simp [hcount, hfloat])
  have hindex : (Json.ofCount r.runIndex).Valid := hcount (some r.runIndex)
  have htext : ∀ s, (Json.text s).Valid := fun s => .string (some s)
  exact Json.valid_ofMembers (by
    simp [hweights, hmetrics, hindex, htext, ArchitectureKind.toJson, CoordinateMapping.toJson])

end Record

end MapperSweep
