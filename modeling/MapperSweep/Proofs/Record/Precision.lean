import MapperSweep.Proofs.Json.Precision
import MapperSweep.Proofs.Record.Store

/-!
# Real numbers in stored records

If all real numbers of some records are finite then loading what was stored gives the records back,
up to their real numbers.  Each of these keeps its sign and is at most three numbers away from what
it was, and it does not change at all if its numeral is short.

## Key results

- `reread_near`, `reread_of_isShort`: the numbers that are read back
- `reloaded_of_finite`: the records that are read back
- `load_store_of_finite`: loading stored records whose numbers are finite
-/

namespace MapperSweep

/-! ## Numbers -/

namespace Json

/-- `reread?` of a finite number is what `binary64?` makes of its numeral. -/
theorem reread?_of_finite {x : Binary64} (h : x.isFinite = true) :
    reread? x = binary64? (x.numeral numberStyle) := by
  rw [reread?_eq, ofBinary64, if_pos h]
  rfl

/-- A finite number keeps its sign and is at most three numbers away after `reread`. -/
theorem reread_near {x : Binary64} (h : x.isFinite = true) :
    (reread? x).isSome = true ∧ (reread x).negative = x.negative ∧
      x.rank ≤ (reread x).rank + 3 ∧ (reread x).rank ≤ x.rank + 3 := by
  obtain ⟨y, hy, hnear⟩ := binary64?_numeral_near h
  rw [reread, reread?_of_finite h, hy]
  exact ⟨rfl, hnear⟩

/-- A finite number whose numeral `IsShort` is read back. -/
theorem reread_of_isShort {x : Binary64} (h : x.isFinite = true)
    (hshort : (x.numeral numberStyle).IsShort) : reread x = x := by
  rw [reread, reread?_of_finite h, binary64?_numeral_of_isShort h hshort, Option.getD_some]

end Json

/-! ## Records -/

namespace Record

/-- The record `r` with `f` applied to each of its real numbers. -/
def mapReals (f : Binary64 → Binary64) (r : Record) : Record :=
  { r with
    weights := ⟨f r.weights.gate, f r.weights.shuttling⟩
    metrics :=
      { r.metrics with
        executionTime := r.metrics.executionTime.map f
        idleTime := r.metrics.idleTime.map f
        gateFidelity := r.metrics.gateFidelity.map f
        fidelity := r.metrics.fidelity.map f } }

/-- `mapReals f` changes a record only if `f` changes one of its real numbers. -/
theorem mapReals_eq_self_iff {f : Binary64 → Binary64} {r : Record} :
    r.mapReals f = r ↔ ∀ x ∈ r.reals, f x = x := by
  obtain ⟨benchmark, architecture, mapping, index, ⟨gate, shuttling⟩, metrics⟩ := r
  obtain ⟨swaps, bridges, moves, czCount, executionTime, idleTime, gateFidelity, fidelity,
    runtimeMs⟩ := metrics
  have hmap : ∀ y : Option Binary64, y.map f = y ↔ ∀ x, y = some x → f x = x := by
    rintro (_ | x) <;> simp
  simp only [mapReals, reals, Metrics.reals, mk.injEq, Weights.mk.injEq, Metrics.mk.injEq, hmap,
    List.mem_append, List.mem_cons, List.not_mem_nil, or_false, List.mem_filterMap, id,
    exists_eq_right, true_and, and_true]
  grind

/-- For a record whose real numbers are finite, `reloaded` changes nothing but these. -/
theorem reloaded_of_finite {r : Record} (h : ∀ x ∈ r.reals, x.isFinite = true) :
    r.reloaded = r.mapReals Json.reread := by
  have hmeasure : ∀ x : Option Binary64, (∀ y, x = some y → y.isFinite = true) →
      Metrics.reloadedMeasure x = x.map Json.reread := by
    rintro (_ | x) hx
    · rfl
    · rw [Metrics.reloadedMeasure, Option.filter_some, if_pos (hx x rfl)]
  have hmem : ∀ x : Option Binary64, x ∈ [r.metrics.executionTime, r.metrics.idleTime,
      r.metrics.gateFidelity, r.metrics.fidelity] → ∀ y, x = some y → y.isFinite = true := by
    rintro x hx y rfl
    exact h y (List.mem_append_right _ (List.mem_filterMap.2 ⟨some y, hx, rfl⟩))
  rw [reloaded, mapReals, Metrics.reloaded, hmeasure _ (hmem _ (by simp)),
    hmeasure _ (hmem _ (by simp)), hmeasure _ (hmem _ (by simp)), hmeasure _ (hmem _ (by simp))]
  rfl

/-- Stored records whose real numbers are finite are loaded with nothing changed but these numbers.
    Each of them keeps its sign and is at most three numbers away, and it is the same if its numeral
    `IsShort`.  So the records are loaded unchanged exactly if every number is read back. -/
theorem load_store_of_finite (rs : List Record)
    (hfinite : ∀ r ∈ rs, ∀ x ∈ r.reals, x.isFinite = true) :
    load (Text.Utf8.encode (store rs)) = .ok (rs.map (mapReals Json.reread)) ∧
    (∀ r ∈ rs, ∀ x ∈ r.reals,
      (Json.reread x).negative = x.negative ∧
      x.rank ≤ (Json.reread x).rank + 3 ∧ (Json.reread x).rank ≤ x.rank + 3 ∧
      ((x.numeral Json.numberStyle).IsShort → Json.reread x = x)) ∧
    (load (Text.Utf8.encode (store rs)) = .ok rs ↔ ∀ r ∈ rs, ∀ x ∈ r.reals, Json.reread x = x) := by
  have hload : load (Text.Utf8.encode (store rs)) = .ok (rs.map (mapReals Json.reread)) := by
    have hloads : ∀ r ∈ rs, r.Loads := fun r hr =>
      ⟨⟨hfinite r hr _ (by simp [reals]), hfinite r hr _ (by simp [reals])⟩,
        fun x _ hx => (Json.reread_near hx).1⟩
    rw [load_of_loads hloads, List.map_congr_left fun r hr => reloaded_of_finite (hfinite r hr)]
  refine ⟨hload, fun r hr x hx => ?_, ?_⟩
  · obtain ⟨-, hsign, hbelow, habove⟩ := Json.reread_near (hfinite r hr x hx)
    exact ⟨hsign, hbelow, habove, Json.reread_of_isShort (hfinite r hr x hx)⟩
  · have hsame := List.map_inj_left (l := rs) (f := mapReals Json.reread) (g := id)
    rw [List.map_id] at hsame
    rw [hload, Except.ok.injEq, hsame]
    simp only [id, mapReals_eq_self_iff]

/-- The least positive number, the one before the largest with a minus sign, minus zero, one tenth
    and a number with sixteen digits. -/
def extremes : Record where
  benchmark := "qft"
  architecture := .hybrid
  coordinateMapping := .graph
  runIndex := 0
  weights := ⟨.ofDecimal false 5 (-324), .ofDecimal true 17976931348623155 292⟩
  metrics :=
    { executionTime := some (.zero true)
      idleTime := some (.ofDecimal false 1 (-1))
      fidelity := some (.ofDecimal false 9007407407347405 (-16)) }

/-- The largest one of the numbers in `extremes` and the one with sixteen digits become their
    neighbours, and the others are read back. -/
theorem load_store_extremes :
    (∀ x ∈ extremes.reals, x.isFinite = true) ∧
    load (Text.Utf8.encode (store [extremes])) = .ok [{ extremes with
      weights := ⟨.ofDecimal false 5 (-324), .ofDecimal true 17976931348623157 292⟩
      metrics :=
        { executionTime := some (.zero true)
          idleTime := some (.ofDecimal false 1 (-1))
          fidelity := some (.ofDecimal false 9007407407347404 (-16)) } }] := by
  have hfinite : ∀ x ∈ extremes.reals, x.isFinite = true := by decide +kernel
  refine ⟨hfinite, ?_⟩
  rw [(load_store_of_finite [extremes] (by simpa using hfinite)).1]
  decide +kernel

/-- A record with an ordinary fidelity of sixteen digits. -/
def sixteenDigits : Record where
  benchmark := "qft"
  architecture := .gate
  coordinateMapping := .trivial
  runIndex := 0
  weights := ⟨.ofNat 1, .ofNat 1⟩
  metrics := { fidelity := some (.ofDecimal false 9007407407347405 (-16)) }

/-- `sixteenDigits` is not loaded as it was stored, although its numbers are finite. -/
theorem load_store_ne_of_sixteen_digits :
    (∀ x ∈ sixteenDigits.reals, x.isFinite = true) ∧
    load (Text.Utf8.encode (store [sixteenDigits])) ≠ .ok [sixteenDigits] := by
  refine ⟨by decide +kernel, ?_⟩
  rw [load_of_loads (by decide +kernel)]
  decide +kernel

end Record

end MapperSweep
