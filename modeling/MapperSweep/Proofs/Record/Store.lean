import MapperSweep.Proofs.Record.Json
import MapperSweep.Proofs.Text
import MapperSweep.Proofs.Utf8
import MapperSweep.Record.Store

/-!
# Loading what was stored

Stored records are loaded line by line.  The line of a record has no control characters, so neither
a line feed nor a carriage return in a name can be mistaken for the end of a line, and the bytes of
a file fall into the lines that were written.

## Key results

- `load_encode_store`: the lines of a file of stored records
- `loadLine_toJson`: loading the line of one record
- `load_of_loads`, `load_of_not_loads`: which files of stored records can be loaded
- `load_store`: loading a file of stored records
-/

namespace MapperSweep.Record

open Text

/-! ## Lines -/

/-- The line of a record has no line feed but the one that `store` ends it with. -/
theorem feed_not_mem_print (r : Record) : '\n' ∉ r.toJson.print :=
  fun hmem => absurd (Json.le_of_mem_print r.valid_toJson _ hmem) (by decide)

/-- The bytes of the line of a record are those of no control character, see `le_of_mem_print`. -/
theorem le_of_mem_encode_print {r : Record} {b : UInt8}
    (h : b ∈ Utf8.encode r.toJson.print) : 0x20 ≤ b.toNat :=
  Utf8.le_of_mem_encode (Json.le_of_mem_print r.valid_toJson) h

/-- `store rs` is one line for each record. -/
theorem store_eq (rs : List Record) :
    store rs = (rs.map fun r => r.toJson.print).flatMap (· ++ ['\n']) := by
  rw [List.flatMap_map]
  rfl

/-- The bytes of `store rs` are those of its lines. -/
private theorem encode_store (rs : List Record) :
    Utf8.encode (store rs) =
      (rs.map fun r => Utf8.encode r.toJson.print).flatMap (· ++ [0x0A]) := by
  have hfeed : Utf8.encode ['\n'] = [0x0A] := by decide
  induction rs with
  | nil => rfl
  | cons r rs ih =>
    have hcons : store (r :: rs) = r.toJson.print ++ ['\n'] ++ store rs := rfl
    rw [hcons, Utf8.encode_append, Utf8.encode_append, hfeed, ih, List.map_cons, List.flatMap_cons]

/-- `load` takes the lines of a file of stored records apart again. -/
theorem load_encode_store (rs : List Record) :
    load (Utf8.encode (store rs)) = loadLines (rs.map fun r => Utf8.encode r.toJson.print) := by
  have hfeed : ∀ line ∈ rs.map fun r => Utf8.encode r.toJson.print, (0x0A : UInt8) ∉ line := by
    intro line hline hmem
    obtain ⟨r, -, rfl⟩ := List.mem_map.1 hline
    exact absurd (le_of_mem_encode_print hmem) (by decide)
  have hreturn : ∀ r : Record,
      chopReturn 0x0D (Utf8.encode r.toJson.print) = Utf8.encode r.toJson.print := by
    intro r
    refine chopReturn_of_getLast?_ne fun hlast => ?_
    exact absurd (le_of_mem_encode_print (List.mem_of_getLast? hlast)) (by decide)
  rw [load, byteLines, encode_store, splitLines_flatMap _ hfeed, List.map_map]
  simp only [Function.comp_def, hreturn]

/-! ## Loading -/

/-- The line of `r` is loaded as the record that `ofJson?` reads from its value. -/
theorem loadLine_toJson (r : Record) :
    loadLine (Utf8.encode r.toJson.print) =
      match ofJson? r.toJson with
      | some s => .ok (some s)
      | none => .error .notRecord := by
  -- The line starts with a brace, so it is not skipped.
  have hblank : isBlankText r.toJson.print = false := by
    have hprint : r.toJson.print = '\x7b' :: r.toJson.print.tail := rfl
    rw [hprint, isBlankText, List.all_cons]
    rfl
  rw [loadLine, Utf8.decode?_encode]
  cases hread : ofJson? r.toJson with
  | none => simp [hblank, Json.parse?_print r.valid_toJson, hread]
  | some s => simp [hblank, Json.parse?_print r.valid_toJson, hread]

/-- Lines that all hold a record are loaded as these records `f r`. -/
private theorem loadLines_of_some {rs : List Record} {f : Record → Record}
    (h : ∀ r ∈ rs, ofJson? r.toJson = some (f r)) :
    loadLines (rs.map fun r => Utf8.encode r.toJson.print) = .ok (rs.map f) := by
  induction rs with
  | nil => rfl
  | cons r rs ih =>
    obtain ⟨hr, hrs⟩ := List.forall_mem_cons.1 h
    rw [List.map_cons, loadLines, loadLine_toJson, hr, ih hrs]
    rfl

/-- A line that holds no record ends `loadLines`, after lines that do. -/
private theorem loadLines_of_none {rs : List Record} (h : ∃ r ∈ rs, ofJson? r.toJson = none) :
    loadLines (rs.map fun r => Utf8.encode r.toJson.print) = .error .notRecord := by
  induction rs with
  | nil =>
    obtain ⟨r, hr, -⟩ := h
    exact nomatch hr
  | cons r rs ih =>
    rw [List.map_cons, loadLines, loadLine_toJson]
    cases hr : ofJson? r.toJson with
    | none => rfl
    | some s =>
      -- This line holds a record, so the faulty one is among the others.
      obtain ⟨t, ht, hnone⟩ := h
      have hmem : t ∈ rs := by
        refine (List.mem_cons.1 ht).resolve_left ?_
        rintro rfl
        rw [hr] at hnone
        exact nomatch hnone
      rw [ih ⟨t, hmem, hnone⟩]
      rfl

/-- Records each of which `Loads` are loaded as `reloaded` says. -/
theorem load_of_loads {rs : List Record} (h : ∀ r ∈ rs, r.Loads) :
    load (Utf8.encode (store rs)) = .ok (rs.map reloaded) := by
  rw [load_encode_store]
  exact loadLines_of_some fun r hr => ofJson?_toJson_of_finite (h r hr).2 (h r hr).1

/-- One record that does not load spoils the file. -/
theorem load_of_not_loads {rs : List Record} (h : ∃ r ∈ rs, ¬r.Loads) :
    load (Utf8.encode (store rs)) = .error .notRecord := by
  obtain ⟨r, hr, hloads⟩ := h
  rw [load_encode_store]
  exact loadLines_of_none ⟨r, hr, ofJson?_toJson_of_not_loads hloads⟩

/-- Stored records fill one line each.  If all weights are finite then `load` gives the records back
    as `reloaded`, each finite number as its text is read and each other measurement absent;
    otherwise loading fails because a line is not a record. -/
theorem load_store (rs : List Record) (hreadable : ∀ r ∈ rs, r.Readable) :
    (∃ lines : List (List Char), lines.length = rs.length ∧ (∀ line ∈ lines, '\n' ∉ line) ∧
      store rs = lines.flatMap (· ++ ['\n'])) ∧
    ((∀ r ∈ rs, r.weights.IsFinite) →
      load (Utf8.encode (store rs)) = .ok (rs.map reloaded)) ∧
    ((∃ r ∈ rs, ¬r.weights.IsFinite) →
      load (Utf8.encode (store rs)) = .error .notRecord) := by
  refine ⟨⟨rs.map fun r => r.toJson.print, List.length_map .., ?_, store_eq rs⟩, ?_, ?_⟩
  · intro line hline
    obtain ⟨r, -, rfl⟩ := List.mem_map.1 hline
    exact r.feed_not_mem_print
  · intro hfinite
    rw [load_encode_store]
    exact loadLines_of_some fun r hr => ofJson?_toJson_of_finite (hreadable r hr) (hfinite r hr)
  · rintro ⟨r, hr, hfinite⟩
    rw [load_encode_store]
    exact loadLines_of_none ⟨r, hr, ofJson?_toJson_of_not_finite hfinite⟩

/-- A name that needs escapes, the largest index, a measurement that is not a number, and one whose
    text is read as the number below it. -/
def awkward : Record where
  benchmark := "say \"é\\😀\"\r\n\x01"
  architecture := .hybrid
  coordinateMapping := .graph
  runIndex := 18446744073709551615
  weights := ⟨.ofNat 1, .ofDecimal false 1 (-1)⟩
  metrics :=
    { swaps := some 3
      executionTime := some (.nan false)
      fidelity := some (.ofDecimal false 9007407407347405 (-16)) }

/-- In `awkward` only the two measurements change, and an infinite weight spoils the file. -/
theorem load_store_awkward :
    load (Utf8.encode (store [awkward, awkward])) =
      .ok (List.replicate 2 { awkward with
        metrics := { swaps := some 3, fidelity := some (.ofDecimal false 9007407407347404 (-16)) } }) ∧
    load (Utf8.encode (store [awkward, { awkward with weights := ⟨.infinity true, .ofNat 1⟩ }])) =
      .error .notRecord := by
  have hreadable : awkward.Readable := by
    unfold Readable
    decide +kernel
  have hreloaded : [awkward, awkward].map reloaded = List.replicate 2 { awkward with
      metrics := { swaps := some 3, fidelity := some (.ofDecimal false 9007407407347404 (-16)) } } := by
    decide +kernel
  have hspoilt : Readable { awkward with weights := ⟨.infinity true, .ofNat 1⟩ } := by
    unfold Readable
    decide +kernel
  refine ⟨?_, ?_⟩
  · rw [← hreloaded]
    refine (load_store [awkward, awkward] (by simp [hreadable])).2.1 ?_
    decide +kernel
  · refine (load_store [awkward, { awkward with weights := ⟨.infinity true, .ofNat 1⟩ }]
      (by simp [hreadable, hspoilt])).2.2 ?_
    decide +kernel

end MapperSweep.Record
