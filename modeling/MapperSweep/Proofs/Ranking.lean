import Mathlib.Data.List.Induction
import MapperSweep.Proofs.Binary64.Order
import MapperSweep.Ranking

/-!
# Ranked groups

Records are put into the group of their benchmark one after the other, and every group is sorted at
the end.  The result is said in one piece here: the groups are the distinct benchmarks in the order
of their first records, and each of them holds the records of its benchmark, ranked.

## Key results

- `Group.collect_eq`: the groups before they are sorted
- `isRanking_iff`: a ranking is a stable sort
- `isRanking_mergeSort`: what the sort makes of the records of a group
- `pairwise_mergeSort_of_sameRank`: whatever order there was, it is kept among records of one rank
- `rank_map`: what does not touch benchmarks and fidelities does not touch the ranking
- `rank_eq_rankings`: the ranked groups of a list of records
-/

namespace MapperSweep

/-! ## Groups -/

namespace Group

/-- A `name` at the end is kept by `eraseDups` if it is a new one. -/
theorem eraseDups_concat (names : List String) (name : String) :
    (names ++ [name]).eraseDups =
      if name ∈ names then names.eraseDups else names.eraseDups ++ [name] := by
  rw [List.eraseDups_append]
  by_cases h : name ∈ names <;> simp [List.removeAll, h, List.eraseDups_cons]

theorem nodup_eraseDups (names : List String) : names.eraseDups.Nodup := by
  induction names using List.reverseRecOn with
  | nil => exact List.nodup_nil
  | append_singleton names name ih =>
    rw [eraseDups_concat]
    split
    · exact ih
    · rename_i hname
      refine List.nodup_append.2 ⟨ih, by simp, ?_⟩
      rintro other hother _ hlast rfl
      obtain rfl := List.mem_singleton.1 hlast
      exact hname (List.mem_eraseDups.1 hother)

/-- The groups of the benchmarks `names`, with the given `records`. -/
private def ofNames (names : List String) (records : String → List Record) : List Group :=
  names.map fun name => ⟨name, records name⟩

/-- A record `r` of a new benchmark opens a group at the end. -/
private theorem insert_of_not_mem {r : Record} {names : List String}
    (records : String → List Record) (h : r.benchmark ∉ names) :
    insert r (ofNames names records) = ofNames names records ++ [⟨r.benchmark, [r]⟩] := by
  induction names with
  | nil => rfl
  | cons name names ih =>
    rw [List.mem_cons, not_or] at h
    simp only [ofNames, List.map_cons, insert, List.cons_append] at ih ⊢
    rw [if_neg (Ne.symm h.1), ih h.2]

/-- A record `r` of a known benchmark goes to the end of its group. -/
private theorem insert_of_mem {r : Record} {names : List String} (records : String → List Record)
    (hnodup : names.Nodup) (h : r.benchmark ∈ names) :
    insert r (ofNames names records) =
      ofNames names fun name => records name ++ if r.benchmark = name then [r] else [] := by
  induction names with
  | nil => exact nomatch h
  | cons name names ih =>
    obtain ⟨hname, hnodup⟩ := List.nodup_cons.1 hnodup
    simp only [ofNames, List.map_cons, insert] at ih ⊢
    by_cases heq : name = r.benchmark
    -- No other group has this name, so the others stay as they are.
    · rw [if_pos heq, if_pos heq.symm]
      congr 1
      refine List.map_congr_left fun other hother => ?_
      have hne : r.benchmark ≠ other := by
        rintro rfl
        exact hname (heq ▸ hother)
      rw [if_neg hne, List.append_nil]
    · rw [if_neg heq, if_neg (Ne.symm heq), List.append_nil, ih hnodup]
      exact (List.mem_cons.1 h).resolve_left (Ne.symm heq)

/-- The records of the benchmark `name`, in the order in which they came. -/
def recordsOf (rs : List Record) (name : String) : List Record := rs.filter (·.benchmark = name)

/-- A new record `r` is the last one of its benchmark. -/
private theorem recordsOf_concat (rs : List Record) (r : Record) (name : String) :
    recordsOf (rs ++ [r]) name = recordsOf rs name ++ if r.benchmark = name then [r] else [] := by
  rw [recordsOf, List.filter_append]
  by_cases h : r.benchmark = name <;> simp [recordsOf, h]

/-- The groups before they are sorted: one for each benchmark, in the order of the first records,
    with `recordsOf` it. -/
theorem collect_eq (rs : List Record) :
    collect rs = (rs.map (·.benchmark)).eraseDups.map fun name => ⟨name, recordsOf rs name⟩ := by
  -- From the last record, which goes to its group after all others did.
  induction rs using List.reverseRecOn with
  | nil => rfl
  | append_singleton rs r ih =>
    have hlast : collect (rs ++ [r]) = insert r (collect rs) := by
      rw [collect, List.foldl_append]
      rfl
    simp only [recordsOf_concat]
    rw [hlast, ih, List.map_append, List.map_singleton, eraseDups_concat]
    split
    · rename_i hmem
      exact insert_of_mem _ (nodup_eraseDups _) (List.mem_eraseDups.2 hmem)
    · rename_i hnew
      have hne : ∀ other ∈ rs, other.benchmark ≠ r.benchmark := by
        intro other hother heq
        exact hnew (heq ▸ List.mem_map_of_mem hother)
      have hnone : recordsOf rs r.benchmark = [] := by
        refine List.filter_eq_nil_iff.2 fun other hother => ?_
        simpa using hne other hother
      have hinsert := insert_of_not_mem (recordsOf rs) (mt List.mem_eraseDups.1 hnew)
      rw [ofNames] at hinsert
      rw [hinsert, List.map_append, List.map_singleton, hnone, if_pos rfl, List.nil_append]
      congr 1
      -- The groups that were there have other names, and get no record.
      refine List.map_congr_left fun name hname => ?_
      have hother : r.benchmark ≠ name := by
        rintro rfl
        exact hnew (List.mem_eraseDups.1 hname)
      rw [if_neg hother, List.append_nil]

end Group

/-! ## The order within a group -/

namespace Record

theorem ranksBefore_total (a b : Record) : (a.ranksBefore b || b.ranksBefore a) = true := by
  simp only [ranksBefore]
  cases a.metrics.fidelity with
  | none => cases b.metrics.fidelity <;> rfl
  | some x =>
    cases b.metrics.fidelity with
    | none => rfl
    | some y => simpa using Int.le_total y.key x.key

theorem ranksBefore_trans (a b c : Record) (hab : a.ranksBefore b) (hbc : b.ranksBefore c) :
    a.ranksBefore c := by
  simp only [ranksBefore] at hab hbc ⊢
  cases ha : a.metrics.fidelity with
  | none =>
    cases hb : b.metrics.fidelity with
    | none => simpa [hb] using hbc
    | some y => simp [ha, hb] at hab
  | some x =>
    cases hc : c.metrics.fidelity with
    | none => rfl
    | some z =>
      cases hb : b.metrics.fidelity with
      | none => simp [hb, hc] at hbc
      | some y =>
        simp only [ha, hb, hc, decide_eq_true_eq] at hab hbc ⊢
        exact Int.le_trans hbc hab

/-- Records of the same fidelity may stand in either order, so a sort by `ranksBefore` leaves
    theirs. -/
theorem ranksBefore_of_eq {a b : Record} (h : a.metrics.fidelity = b.metrics.fidelity) :
    a.ranksBefore b := by
  rw [ranksBefore, h]
  cases b.metrics.fidelity with
  | none => rfl
  | some y => exact decide_eq_true (Int.le_refl _)

/-- `a.SameRank b` says that the two records may stand in either order. -/
def SameRank (a b : Record) : Prop := a.ranksBefore b ∧ b.ranksBefore a

instance (a b : Record) : Decidable (a.SameRank b) :=
  inferInstanceAs (Decidable (_ ∧ _))

/-- The total order tells any two fidelities apart, so that only equal ones have the `SameRank`. -/
theorem sameRank_iff {a b : Record} :
    a.SameRank b ↔ a.metrics.fidelity = b.metrics.fidelity := by
  constructor
  · rintro ⟨hab, hba⟩
    simp only [ranksBefore] at hab hba
    cases ha : a.metrics.fidelity with
    | none =>
      cases hb : b.metrics.fidelity with
      | none => rfl
      | some y => simp [ha, hb] at hab
    | some x =>
      cases hb : b.metrics.fidelity with
      | none => simp [ha, hb] at hba
      | some y =>
        simp only [ha, hb, decide_eq_true_eq] at hab hba
        rw [Binary64.key_inj (Int.le_antisymm hba hab)]
  · intro h
    exact ⟨ranksBefore_of_eq h, ranksBefore_of_eq h.symm⟩

end Record

/-- A sort keeps the order of the elements for which `p` holds, if any two of them may stand in
    either order. -/
theorem filter_mergeSort_of_ties {α : Type} {le : α → α → Bool} {p : α → Bool}
    (htrans : ∀ a b c, le a b → le b c → le a c) (htotal : ∀ a b, (le a b || le b a) = true)
    (hties : ∀ a b, p a → p b → le a b) (l : List α) :
    (l.mergeSort le).filter p = l.filter p := by
  -- The kept elements are in order already, so they are a sublist of the sorted list.
  have hordered : (l.filter p).Pairwise fun a b => le a b = true :=
    List.pairwise_filter.2 (List.pairwise_of_forall fun a b => hties a b)
  have hsub := List.sublist_mergeSort htrans htotal hordered List.filter_sublist
  have hfilter := hsub.filter p
  rw [List.filter_filter] at hfilter
  simp only [Bool.and_self] at hfilter
  refine (hfilter.eq_of_length ?_).symm
  exact ((List.mergeSort_perm ..).filter _).length_eq.symm

/-- `IsRanking records ranked` says that `ranked` is `records` in the order of the report. -/
structure IsRanking (records ranked : List Record) : Prop where
  perm : ranked.Perm records
  /-- Records with a fidelity come before records without one. -/
  withFidelityFirst : ranked.Pairwise fun a b =>
    b.metrics.fidelity.isSome → a.metrics.fidelity.isSome
  /-- A larger fidelity comes first in the total order. -/
  descending : ranked.Pairwise fun a b =>
    ∀ x ∈ a.metrics.fidelity, ∀ y ∈ b.metrics.fidelity, y.key ≤ x.key
  /-- Records of the same fidelity, or without any, keep their order. -/
  stable : ∀ f, ranked.filter (·.metrics.fidelity = f) = records.filter (·.metrics.fidelity = f)

/-- `a` may stand before `b` if a fidelity of `b` means that `a` has one, which is not smaller. -/
theorem Record.ranksBefore_iff {a b : Record} :
    a.ranksBefore b = true ↔
      (b.metrics.fidelity.isSome → a.metrics.fidelity.isSome) ∧
        ∀ x ∈ a.metrics.fidelity, ∀ y ∈ b.metrics.fidelity, y.key ≤ x.key := by
  unfold ranksBefore
  cases a.metrics.fidelity with
  | none => cases b.metrics.fidelity <;> simp
  | some x => cases b.metrics.fidelity <;> simp

/-- `IsRanking` says that `ranked` is a stable sort of `records` by `ranksBefore`. -/
theorem isRanking_iff {records ranked : List Record} :
    IsRanking records ranked ↔
      ranked.Perm records ∧ ranked.Pairwise (fun a b => a.ranksBefore b = true) ∧
        ∀ f, ranked.filter (·.metrics.fidelity = f) = records.filter (·.metrics.fidelity = f) := by
  rw [List.Pairwise.iff fun _ _ => Record.ranksBefore_iff, List.pairwise_and_iff]
  constructor
  · intro h
    exact ⟨h.perm, ⟨h.withFidelityFirst, h.descending⟩, h.stable⟩
  · rintro ⟨hperm, ⟨hfirst, hdescending⟩, hstable⟩
    exact ⟨hperm, hfirst, hdescending, hstable⟩

/-- The sort of a group ranks its `records`. -/
theorem isRanking_mergeSort (records : List Record) :
    IsRanking records (records.mergeSort Record.ranksBefore) := by
  refine isRanking_iff.2 ⟨List.mergeSort_perm .., ?_, fun f => ?_⟩
  · exact List.pairwise_mergeSort Record.ranksBefore_trans Record.ranksBefore_total records
  · refine filter_mergeSort_of_ties Record.ranksBefore_trans Record.ranksBefore_total ?_ records
    intro a b ha hb
    exact Record.ranksBefore_of_eq ((of_decide_eq_true ha).trans (of_decide_eq_true hb).symm)

/-- If `l` was ordered by `R`, whatever that is, then it still is after it was ranked by the records
    `f a`, as far as these have the same rank. -/
theorem pairwise_mergeSort_of_sameRank {α : Type} (f : α → Record) {R : α → α → Prop} {l : List α}
    (h : l.Pairwise R) :
    (l.mergeSort fun a b => (f a).ranksBefore (f b)).Pairwise fun a b =>
      (f a).SameRank (f b) → R a b := by
  refine List.pairwise_iff_forall_sublist.2 fun {a b} hab hsame => ?_
  -- Both are among the elements of one fidelity, which the sort keeps as they are.
  let tied (x : α) : Bool := (f x).metrics.fidelity = (f a).metrics.fidelity
  have hties : ∀ x y, tied x → tied y → (f x).ranksBefore (f y) := fun x y hx hy =>
    Record.ranksBefore_of_eq ((of_decide_eq_true hx).trans (of_decide_eq_true hy).symm)
  have hkept : (l.mergeSort fun a b => (f a).ranksBefore (f b)).filter tied = l.filter tied :=
    filter_mergeSort_of_ties (fun x y z => Record.ranksBefore_trans (f x) (f y) (f z))
      (fun x y => Record.ranksBefore_total (f x) (f y)) hties l
  have hfilter := hab.filter tied
  rw [hkept] at hfilter
  have hpair : [a, b].filter tied = [a, b] := by
    simp [tied, Record.sameRank_iff.1 hsame]
  rw [hpair] at hfilter
  exact List.pairwise_iff_forall_sublist.1 h (hfilter.trans List.filter_sublist)

/-! ## Ranked groups -/

/-- `rank rs` collects the groups first, and then sorts each of them. -/
theorem rank_eq (rs : List Record) :
    rank rs = (rs.map (·.benchmark)).eraseDups.map fun name =>
      ⟨name, (Group.recordsOf rs name).mergeSort Record.ranksBefore⟩ := by
  rw [rank, Group.collect_eq, List.map_map]
  rfl

/-- The records of the groups of `rank rs` are those of `rs`. -/
theorem mem_rank {rs : List Record} {r : Record} : (∃ g ∈ rank rs, r ∈ g.records) ↔ r ∈ rs := by
  simp only [rank_eq, List.mem_map, List.mem_eraseDups]
  constructor
  · rintro ⟨_, ⟨name, -, rfl⟩, hr⟩
    exact (List.mem_filter.1 (List.mem_mergeSort.1 hr)).1
  · intro hr
    refine ⟨_, ⟨r.benchmark, ⟨r, hr, rfl⟩, rfl⟩, List.mem_mergeSort.2 ?_⟩
    exact List.mem_filter.2 ⟨hr, decide_eq_true rfl⟩

/-- A change `f` that keeps benchmarks and fidelities keeps the groups and the order in them. -/
theorem rank_map {f : Record → Record} {rs : List Record}
    (hbenchmark : ∀ r ∈ rs, (f r).benchmark = r.benchmark)
    (hfidelity : ∀ r ∈ rs, (f r).metrics.fidelity = r.metrics.fidelity) :
    rank (rs.map f) = (rank rs).map fun g => ⟨g.benchmark, g.records.map f⟩ := by
  have hnames : (rs.map f).map (·.benchmark) = rs.map (·.benchmark) := by
    rw [List.map_map]
    exact List.map_congr_left hbenchmark
  have hrecords : ∀ name, Group.recordsOf (rs.map f) name = (Group.recordsOf rs name).map f := by
    intro name
    rw [Group.recordsOf, List.filter_map]
    congr 1
    refine List.filter_congr fun r hr => ?_
    simp only [Function.comp, hbenchmark r hr]
  rw [rank_eq, rank_eq, hnames, List.map_map]
  refine List.map_congr_left fun name _ => ?_
  simp only [Function.comp, Group.mk.injEq, true_and]
  rw [hrecords]
  refine (List.map_mergeSort fun a ha b hb => ?_).symm
  have hsame : ∀ r ∈ Group.recordsOf rs name, (f r).metrics.fidelity = r.metrics.fidelity :=
    fun r hr => hfidelity r (List.mem_filter.1 hr).1
  rw [Record.ranksBefore, Record.ranksBefore, hsame a ha, hsame b hb]

/-- The groups of `rank rs` are the distinct benchmarks of `rs` in the order of their first records.
    Each of them holds exactly the records of its benchmark, ranked, and the order of their
    fidelities is the numeric one wherever there is one. -/
theorem rank_eq_rankings (rs : List Record) :
    ∃ ranking : String → List Record,
      rank rs = (rs.map (·.benchmark)).eraseDups.map (fun name => ⟨name, ranking name⟩) ∧
      ((rank rs).map (·.benchmark)).Nodup ∧
      ∀ name, IsRanking (Group.recordsOf rs name) (ranking name) ∧
        (ranking name).Pairwise fun a b =>
          ∀ x ∈ a.metrics.fidelity, ∀ y ∈ b.metrics.fidelity,
            x.isNaN = false → y.isNaN = false → y.NumLe x := by
  refine ⟨fun name => (Group.recordsOf rs name).mergeSort Record.ranksBefore, rank_eq rs, ?_, ?_⟩
  · have hnames : (rank rs).map (·.benchmark) = (rs.map (·.benchmark)).eraseDups := by
      rw [rank_eq, List.map_map]
      exact List.map_id _
    rw [hnames]
    exact Group.nodup_eraseDups _
  · intro name
    have hranking := isRanking_mergeSort (Group.recordsOf rs name)
    refine ⟨hranking, hranking.descending.imp ?_⟩
    intro a b hab x hx y hy hnx hny
    exact Binary64.numLe_of_key_le (hab x hx y hy) hny hnx

end MapperSweep
