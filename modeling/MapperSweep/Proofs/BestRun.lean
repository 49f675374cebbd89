import MapperSweep.Proofs.Ranking
import MapperSweep.ToolOutput.Parser

/-!
# The best record of a group

The record that is reported for a group is the first one of its ranking, so no fidelity of the group
has a later place in the total order.  Among numbers, this is the numeric maximum.  But the total
order has places after infinity too: a fidelity that is not a number, and has no minus sign, is
ranked before all numbers.  The record that is reported is the numerically best one exactly for the
groups that have no such fidelity.

## Key results

- `IsRanking.key_le_head`: the first record of a ranking has the last place
- `bestPerGroup_getElem?`: the record that is reported for a group
- `best_leads_iff_no_unsigned_nan`: when this is the record with the greatest number
- `bestPerGroup_undefinedRecord`: a result without a number that is reported before one with it
-/

namespace MapperSweep

/-! ## The head of a ranking -/

/-- No fidelity in `ranked` has a later `key` than that of the first record. -/
theorem IsRanking.key_le_head {records ranked : List Record} {best r : Record} {y : Binary64}
    (h : IsRanking records ranked) (hbest : ranked.head? = some best) (hr : r ∈ ranked)
    (hy : y ∈ r.metrics.fidelity) : ∃ x ∈ best.metrics.fidelity, y.key ≤ x.key := by
  cases ranked with
  | nil => simp at hr
  | cons first rest =>
    obtain rfl : first = best := by simpa using hbest
    rcases List.mem_cons.1 hr with rfl | hrest
    · exact ⟨y, hy, Int.le_refl _⟩
    · have hsome := (List.pairwise_cons.1 h.withFidelityFirst).1 r hrest
      have hplace := (List.pairwise_cons.1 h.descending).1 r hrest
      obtain ⟨x, hx⟩ := Option.isSome_iff_exists.1 (hsome (Option.isSome_of_mem hy))
      exact ⟨x, hx, hplace x hx y hy⟩

/-- The records of a group `g` of `rank rs` are the ranking of those of its benchmark, and there are
    some. -/
theorem isRanking_of_mem_rank {rs : List Record} {g : Group} (hg : g ∈ rank rs) :
    IsRanking (Group.recordsOf rs g.benchmark) g.records ∧ g.records ≠ [] := by
  rw [rank_eq, List.mem_map] at hg
  obtain ⟨name, hname, rfl⟩ := hg
  have hranking := isRanking_mergeSort (Group.recordsOf rs name)
  refine ⟨hranking, ?_⟩
  -- The benchmark is that of some record, which is in its own group.
  obtain ⟨r, hr, rfl⟩ := List.mem_map.1 (List.mem_eraseDups.1 hname)
  have hmem : r ∈ Group.recordsOf rs r.benchmark := List.mem_filter.2 ⟨hr, by simp⟩
  exact List.ne_nil_of_mem (hranking.perm.mem_iff.2 hmem)

/-- If no group is empty, then `bestPerGroup gs` reports the best record of group `k` in place
    `k`. -/
theorem bestPerGroup_getElem? {gs : List Group} (h : ∀ g ∈ gs, g.records ≠ []) (k : Nat) :
    (bestPerGroup gs)[k]? = gs[k]?.bind Group.best? := by
  induction gs generalizing k with
  | nil => rfl
  | cons g gs ih =>
    have hrest := ih fun other hother => h other (List.mem_cons_of_mem g hother)
    cases hrecords : g.records with
    | nil => exact absurd hrecords (h g List.mem_cons_self)
    | cons best records =>
      have hbest : g.best? = some best := by rw [Group.best?, hrecords]; rfl
      unfold bestPerGroup at hrest ⊢
      rw [List.filterMap_cons_some hbest]
      cases k with
      | zero => exact hbest.symm
      | succ k => exact hrest k

/-! ## Numeric maxima -/

namespace Record

/-- `r.HasNumber` holds if the record has a fidelity that is a number. -/
def HasNumber (r : Record) : Prop := ∃ x ∈ r.metrics.fidelity, x.isNaN = false

/-- `best.Leads records` holds if the fidelity of `best` is a number, and no one of `records` has a
    numerically greater one. -/
def Leads (best : Record) (records : List Record) : Prop :=
  ∃ x ∈ best.metrics.fidelity, x.isNaN = false ∧
    ∀ r ∈ records, ∀ y ∈ r.metrics.fidelity, y.isNaN = false → y.NumLe x

/-- `r.HasUnsignedNaN` holds if the fidelity is not a number and has no minus sign, which is after
    infinity in the order by `key`. -/
def HasUnsignedNaN (r : Record) : Prop :=
  ∃ x ∈ r.metrics.fidelity, x.isNaN = true ∧ x.negative = false

instance (r : Record) : Decidable r.HasNumber :=
  inferInstanceAs (Decidable (∃ x ∈ r.metrics.fidelity, x.isNaN = false))

instance (r : Record) : Decidable r.HasUnsignedNaN :=
  inferInstanceAs (Decidable (∃ x ∈ r.metrics.fidelity, x.isNaN = true ∧ x.negative = false))

end Record

/-- The first record of a ranking with a number in it `Leads` it, unless some fidelity has a place
    after infinity. -/
theorem IsRanking.leads_head_iff {records ranked : List Record} {best : Record}
    (h : IsRanking records ranked) (hbest : ranked.head? = some best)
    (hnumber : ∃ r ∈ ranked, r.HasNumber) :
    best.Leads ranked ↔ ∀ r ∈ ranked, ¬r.HasUnsignedNaN := by
  have hmem : best ∈ ranked := List.mem_of_head? hbest
  constructor
  · rintro ⟨x, hx, hnumeric, -⟩ r hr ⟨z, hz, hnan⟩
    obtain ⟨x', hx', hle⟩ := h.key_le_head hbest hr hz
    obtain rfl : x = x' := Option.mem_unique hx hx'
    have hplace := Binary64.infinityRank_lt_key_iff.2 hnan
    have hmost := (Binary64.isNaN_eq_false_iff.1 hnumeric).2
    omega
  · intro hnone
    -- The number in the group keeps the first place from being before minus infinity.
    obtain ⟨r, hr, y, hy, hnumeric⟩ := hnumber
    obtain ⟨x, hx, hyx⟩ := h.key_le_head hbest hr hy
    have hleast := (Binary64.isNaN_eq_false_iff.1 hnumeric).1
    have hmost : x.key ≤ Binary64.infinityRank := by
      by_contra hgt
      exact hnone best hmem ⟨x, hx, Binary64.infinityRank_lt_key_iff.1 (by omega)⟩
    have hnum : x.isNaN = false := Binary64.isNaN_eq_false_iff.2 ⟨by omega, hmost⟩
    refine ⟨x, hx, hnum, ?_⟩
    intro other hother z hz hznum
    obtain ⟨x', hx', hle⟩ := h.key_le_head hbest hother hz
    obtain rfl : x = x' := Option.mem_unique hx hx'
    exact Binary64.numLe_of_key_le hle hznum hnum

/-- For every group `g` of `rank rs` that has a number among its fidelities, `bestPerGroup` reports
    one of its records.  It is a record with the greatest number exactly if no fidelity of `g` is an
    unsigned "not a number". -/
theorem best_leads_iff_no_unsigned_nan (rs : List Record) (k : Nat) (g : Group)
    (hg : (rank rs)[k]? = some g) (hnumber : ∃ r ∈ g.records, r.HasNumber) :
    ∃ best ∈ g.records, (bestPerGroup (rank rs))[k]? = some best ∧
      (best.Leads g.records ↔ ∀ r ∈ g.records, ¬r.HasUnsignedNaN) := by
  obtain ⟨hranking, hne⟩ := isRanking_of_mem_rank (List.mem_of_getElem? hg)
  obtain ⟨best, rest, hrecords⟩ := List.exists_cons_of_ne_nil hne
  have hhead : g.records.head? = some best := by
    rw [hrecords]
    rfl
  refine ⟨best, List.mem_of_head? hhead, ?_, hranking.leads_head_iff hhead hnumber⟩
  rw [bestPerGroup_getElem? fun other hother => (isRanking_of_mem_rank hother).2, hg]
  exact hhead

/-! ## Two contests

In the first contest one of the results has a signed "not a number", which is ranked after all
numbers.  In the second one it has no sign. -/

/-- What the tool prints for a result with the given `fidelity`. -/
def contestedText (fidelity : String) : String :=
  "Mapping circuits/qft.qasm\ntotalFidelities: " ++ fidelity ++ "\n* runtime: 5\n"

/-- The result `Record.plain` with another `fidelity`. -/
def contestedRecord (fidelity : Binary64) : Record :=
  { Record.plain with metrics.fidelity := some fidelity }

/-- A result with a greater fidelity than `Record.plain` has. -/
def greaterRecord : Record := contestedRecord (.ofDecimal false 75 (-2))

/-- A result whose fidelity is "not a number", with or without the sign. -/
def undefinedRecord (negative : Bool) : Record := contestedRecord (.nan negative)

/-- A signed "not a number" is before all numbers, so `greaterRecord` is reported. -/
theorem best_leads_greaterRecord :
    rank [Record.plain, undefinedRecord true, greaterRecord] =
        [⟨"qft", [greaterRecord, Record.plain, undefinedRecord true]⟩] ∧
      bestPerGroup (rank [Record.plain, undefinedRecord true, greaterRecord]) = [greaterRecord] ∧
      ¬(undefinedRecord true).HasNumber ∧
      greaterRecord.Leads [greaterRecord, Record.plain, undefinedRecord true] := by
  have hfirst : Record.plain.ranksBefore (undefinedRecord true) = true := by decide +kernel
  have hlast : Record.plain.ranksBefore greaterRecord = false := by decide +kernel
  -- The sort does not reduce by itself, so that it is taken from its equations.
  have hsort : [Record.plain, undefinedRecord true, greaterRecord].mergeSort Record.ranksBefore =
      [greaterRecord, Record.plain, undefinedRecord true] := by
    simp [List.mergeSort, List.MergeSort.Internal.splitInTwo, List.splitAt, List.splitAt.go, hfirst,
      hlast]
  have hrank : rank [Record.plain, undefinedRecord true, greaterRecord] =
      [⟨"qft", [greaterRecord, Record.plain, undefinedRecord true]⟩] := by
    rw [← hsort]
    rfl
  have hreported : bestPerGroup (rank [Record.plain, undefinedRecord true, greaterRecord]) =
      [greaterRecord] := by
    rw [hrank]
    rfl
  obtain ⟨best, -, hbest, hleads⟩ := best_leads_iff_no_unsigned_nan
    [Record.plain, undefinedRecord true, greaterRecord] 0 _ (by rw [hrank]; rfl)
    ⟨greaterRecord, List.mem_cons_self, by decide +kernel⟩
  rw [hreported] at hbest
  obtain rfl : greaterRecord = best := Option.some.inj hbest
  exact ⟨hrank, hreported, by decide +kernel, hleads.2 (by decide +kernel)⟩

/-- An unsigned "not a number" is after all numbers, so it is reported though `Record.plain` has a
    number.  Both results are read from tool output. -/
theorem bestPerGroup_undefinedRecord :
    (ToolOutput.parse "circuits" .plain (contestedText "0.5" ++ contestedText "nan")).value =
        .ok [Record.plain, undefinedRecord false] ∧
      rank [.plain, undefinedRecord false] = [⟨"qft", [undefinedRecord false, .plain]⟩] ∧
      bestPerGroup (rank [Record.plain, undefinedRecord false]) = [undefinedRecord false] ∧
      Record.plain.HasNumber ∧ ¬(undefinedRecord false).HasNumber := by
  have hparse : (ToolOutput.parse "circuits" .plain
      (contestedText "0.5" ++ contestedText "nan")).value =
        .ok [Record.plain, undefinedRecord false] := by decide +kernel
  have hbehind : Record.plain.ranksBefore (undefinedRecord false) = false := by decide +kernel
  have hsort : [Record.plain, undefinedRecord false].mergeSort Record.ranksBefore =
      [undefinedRecord false, Record.plain] := by
    simp [List.mergeSort, List.MergeSort.Internal.splitInTwo, List.splitAt, List.splitAt.go,
      hbehind]
  have hrank : rank [Record.plain, undefinedRecord false] =
      [⟨"qft", [undefinedRecord false, Record.plain]⟩] := by
    rw [← hsort]
    rfl
  refine ⟨hparse, hrank, ?_, by decide +kernel, by decide +kernel⟩
  rw [hrank]
  rfl

end MapperSweep
