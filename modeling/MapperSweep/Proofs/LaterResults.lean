import MapperSweep.Proofs.BestRun

/-!
# Later results

Records that come later are merged into the groups that are there: a group with new records is the
old group and the ranking of the new records, merged in such a way that the old ones go first among
equals.  So the old records keep their order, and the best one gives way only to a new one that
ranks strictly before it.

## Key results

- `sublist_merge`, `head?_merge`, `filter_merge`: the left list in a merge
- `IsRanking.unique`: a list of records has one ranking
- `IsRanking.merge`: two rankings are merged to one
- `recordsOf_append`, `benchmarks_rank_append`: groups of more records
- `rank_append_keeps_order`: groups before and after more records
-/

namespace MapperSweep

/-! ## Merging -/

section

variable {α : Type} {le : α → α → Bool}

/-- Whatever is merged into `l`, its elements keep their order. -/
theorem sublist_merge (l r : List α) : l.Sublist (l.merge r le) := by
  induction l generalizing r with
  | nil => exact List.nil_sublist _
  | cons a l ihl =>
    induction r with
    | nil => exact (List.merge_right (a :: l)).symm ▸ List.Sublist.refl _
    | cons b r ihr =>
      rw [List.cons_merge_cons]
      split
      · exact (ihl (b :: r)).cons_cons a
      · exact ihr.cons b

/-- A merge begins like `l`, unless something in `r` has to go first. -/
theorem head?_merge {l r : List α} {a c : α} (ha : l.head? = some a)
    (hc : (l.merge r le).head? = some c) : c = a ∨ c ∈ r ∧ le a c = false := by
  cases l with
  | nil => cases ha
  | cons a' l =>
    obtain rfl : a' = a := Option.some.inj ha
    cases r with
    | nil =>
      rw [List.merge_right] at hc
      exact .inl (Option.some.inj hc).symm
    | cons b r =>
      rw [List.cons_merge_cons] at hc
      split at hc
      · exact .inl (Option.some.inj hc).symm
      · rename_i hafter
        obtain rfl : b = c := Option.some.inj hc
        exact .inr ⟨List.mem_cons_self, Bool.eq_false_iff.2 hafter⟩

end

/-- Among records of the fidelity `f` those of `l` go first in a merge. -/
theorem filter_merge (f : Option Binary64) {l : List Record}
    (hl : l.Pairwise fun a b => a.ranksBefore b = true) (r : List Record) :
    (l.merge r Record.ranksBefore).filter (·.metrics.fidelity = f) =
      l.filter (·.metrics.fidelity = f) ++ r.filter (·.metrics.fidelity = f) := by
  induction l generalizing r with
  | nil => rw [List.nil_merge, List.filter_nil, List.nil_append]
  | cons a l ihl =>
    obtain ⟨hfirst, hrest⟩ := List.pairwise_cons.1 hl
    induction r with
    | nil => rw [List.merge_right, List.filter_nil, List.append_nil]
    | cons b r ihr =>
      rw [List.cons_merge_cons]
      split
      · rw [List.filter_cons, List.filter_cons, ihl hrest]
        split <;> rfl
      · rename_i hafter
        by_cases hb : b.metrics.fidelity = f
        -- All of the left list ranks after `b`, so nothing in it has the fidelity of `b`.
        · have hnone : (a :: l).filter (·.metrics.fidelity = f) = [] := by
            refine List.filter_eq_nil_iff.2 fun c hc hcf => hafter ?_
            have hcb := Record.ranksBefore_of_eq ((of_decide_eq_true hcf).trans hb.symm)
            rcases List.mem_cons.1 hc with rfl | hc
            · exact hcb
            · exact Record.ranksBefore_trans a c b (hfirst c hc) hcb
          rw [hnone, List.nil_append] at ihr ⊢
          rw [List.filter_cons, List.filter_cons, ihr]
        · rw [List.filter_cons, List.filter_cons (x := b), decide_eq_false hb]
          exact ihr

/-! ## Rankings -/

/-- Lists with the same records of every fidelity `f` have the same records. -/
private theorem mem_iff_of_filter_eq {l l' : List Record}
    (h : ∀ f, l.filter (·.metrics.fidelity = f) = l'.filter (·.metrics.fidelity = f)) (a : Record) :
    a ∈ l ↔ a ∈ l' := by
  have hfilter := congrArg (a ∈ ·) (h a.metrics.fidelity)
  simpa using hfilter

/-- Lists that are ordered by `ranksBefore` and have the same records of every fidelity are the
    same. -/
private theorem eq_of_filter_eq {l l' : List Record}
    (hl : l.Pairwise fun a b => a.ranksBefore b = true)
    (hl' : l'.Pairwise fun a b => a.ranksBefore b = true)
    (h : ∀ f, l.filter (·.metrics.fidelity = f) = l'.filter (·.metrics.fidelity = f)) : l = l' := by
  induction l generalizing l' with
  | nil =>
    have hmem := mem_iff_of_filter_eq h
    refine (List.eq_nil_iff_forall_not_mem.2 fun a ha => ?_).symm
    exact absurd ((hmem a).2 ha) List.not_mem_nil
  | cons a l ih =>
    have hmem := mem_iff_of_filter_eq h
    cases l' with
    | nil => exact absurd ((hmem a).1 List.mem_cons_self) List.not_mem_nil
    | cons b l' =>
      obtain ⟨hfirst, hrest⟩ := List.pairwise_cons.1 hl
      obtain ⟨hfirst', hrest'⟩ := List.pairwise_cons.1 hl'
      -- Each of the two first records is in the other list, so they have the same rank.
      have hab : a.ranksBefore b = true := by
        rcases List.mem_cons.1 ((hmem b).2 List.mem_cons_self) with rfl | hb
        · exact Record.ranksBefore_of_eq rfl
        · exact hfirst b hb
      have hba : b.ranksBefore a = true := by
        rcases List.mem_cons.1 ((hmem a).1 List.mem_cons_self) with rfl | ha
        · exact Record.ranksBefore_of_eq rfl
        · exact hfirst' a ha
      have hsame := Record.sameRank_iff.1 ⟨hab, hba⟩
      have hheads := h a.metrics.fidelity
      rw [List.filter_cons_of_pos (by simp), List.filter_cons_of_pos (by simp [hsame])] at hheads
      obtain ⟨rfl, -⟩ := List.cons.inj hheads
      have htails : ∀ f,
          l.filter (·.metrics.fidelity = f) = l'.filter (·.metrics.fidelity = f) := by
        intro f
        have hf := h f
        rw [List.filter_cons, List.filter_cons] at hf
        split at hf
        · exact (List.cons.inj hf).2
        · exact hf
      rw [ih hrest hrest' htails]

/-- There is only one ranking of `records`. -/
theorem IsRanking.unique {records ranked ranked' : List Record} (h : IsRanking records ranked)
    (h' : IsRanking records ranked') : ranked = ranked' := by
  obtain ⟨-, hpairwise, hstable⟩ := isRanking_iff.1 h
  obtain ⟨-, hpairwise', hstable'⟩ := isRanking_iff.1 h'
  exact eq_of_filter_eq hpairwise hpairwise' fun f => (hstable f).trans (hstable' f).symm

/-- Two rankings are merged to the ranking of all their records. -/
theorem IsRanking.merge {rs more ranked added : List Record} (h : IsRanking rs ranked)
    (hadded : IsRanking more added) :
    IsRanking (rs ++ more) (ranked.merge added Record.ranksBefore) := by
  obtain ⟨hperm, hpairwise, hstable⟩ := isRanking_iff.1 h
  obtain ⟨hperm', hpairwise', hstable'⟩ := isRanking_iff.1 hadded
  refine isRanking_iff.2 ⟨?_, ?_, fun f => ?_⟩
  · exact (List.merge_perm_append _).trans (hperm.append hperm')
  · exact List.pairwise_merge Record.ranksBefore_trans Record.ranksBefore_total _ _ hpairwise
      hpairwise'
  · rw [filter_merge f hpairwise, hstable, hstable', List.filter_append]

/-! ## Groups -/

/-- `a.Outranks b` says that the fidelity of `a` has a later place in the total order than that of
    `b`, which may have none. -/
def Record.Outranks (a b : Record) : Prop :=
  ∃ x ∈ a.metrics.fidelity, ∀ y ∈ b.metrics.fidelity, y.key < x.key

/-- `a` outranks `b` exactly if `b` may not stand before it. -/
theorem Record.outranks_iff {a b : Record} : a.Outranks b ↔ b.ranksBefore a = false := by
  unfold Outranks ranksBefore
  cases a.metrics.fidelity with
  | none => cases b.metrics.fidelity <;> simp
  | some x => cases b.metrics.fidelity <;> simp

/-- The records of the benchmark `name`, with those of `more` after them. -/
theorem recordsOf_append (rs more : List Record) (name : String) :
    Group.recordsOf (rs ++ more) name = Group.recordsOf rs name ++ Group.recordsOf more name :=
  List.filter_append ..

theorem benchmarks_rank (rs : List Record) :
    (rank rs).map (·.benchmark) = (rs.map (·.benchmark)).eraseDups := by
  rw [rank_eq, List.map_map]
  exact List.map_id _

/-- New benchmarks come after those of `rs`. -/
theorem benchmarks_rank_append (rs more : List Record) :
    (rank rs).map (·.benchmark) <+: (rank (rs ++ more)).map (·.benchmark) := by
  rw [benchmarks_rank, benchmarks_rank, List.map_append, List.eraseDups_append]
  exact List.prefix_append _ _

/-- The group in place `k` has the same place and the same benchmark after `more` records came. -/
theorem getElem?_rank_append {rs : List Record} (more : List Record) {k : Nat} {g : Group}
    (hg : (rank rs)[k]? = some g) :
    ∃ g', (rank (rs ++ more))[k]? = some g' ∧ g'.benchmark = g.benchmark := by
  have hname : ((rank rs).map (·.benchmark))[k]? = some g.benchmark := by
    rw [List.getElem?_map, hg]
    rfl
  have hname' := (List.prefix_iff_getElem?.1 (benchmarks_rank_append rs more)) k
    (List.getElem?_eq_some_iff.1 hname).1
  rw [(List.getElem?_eq_some_iff.1 hname).2, List.getElem?_map, Option.map_eq_some_iff] at hname'
  exact hname'

/-- Every group of `rank rs` has the same place after `more` records came, and new benchmarks come
    after it.  The group then has the ranking of its new records merged into the old group, so that
    its old records are still in their order.  The record that is reported for it is the same, or it
    is a new one that `Outranks` the old one. -/
theorem rank_append_keeps_order (rs more : List Record) :
    (rank rs).map (·.benchmark) <+: (rank (rs ++ more)).map (·.benchmark) ∧
    ∀ (k : Nat) (g : Group), (rank rs)[k]? = some g →
      ∃ g' added, (rank (rs ++ more))[k]? = some g' ∧ g'.benchmark = g.benchmark ∧
        IsRanking (Group.recordsOf more g.benchmark) added ∧
        g'.records = g.records.merge added Record.ranksBefore ∧
        g.records.Sublist g'.records ∧
        ∃ best best', (bestPerGroup (rank rs))[k]? = some best ∧
          (bestPerGroup (rank (rs ++ more)))[k]? = some best' ∧
          (best' = best ∨
            best' ∈ more ∧ best'.benchmark = g.benchmark ∧ best'.Outranks best) := by
  refine ⟨benchmarks_rank_append rs more, fun k g hg => ?_⟩
  obtain ⟨g', hg', hname⟩ := getElem?_rank_append more hg
  obtain ⟨hranking, hne⟩ := isRanking_of_mem_rank (List.mem_of_getElem? hg)
  obtain ⟨hranking', hne'⟩ := isRanking_of_mem_rank (List.mem_of_getElem? hg')
  have hadded := isRanking_mergeSort (Group.recordsOf more g.benchmark)
  generalize (Group.recordsOf more g.benchmark).mergeSort Record.ranksBefore = added at hadded
  -- Both are rankings of the old records of the benchmark and the new ones, and there is only one.
  have hmerge : g'.records = g.records.merge added Record.ranksBefore := by
    rw [hname, recordsOf_append] at hranking'
    exact hranking'.unique (hranking.merge hadded)
  have hplaces : ∀ rs, ∀ g ∈ rank rs, g.records ≠ [] := fun _ _ h => (isRanking_of_mem_rank h).2
  obtain ⟨best, rest, hbest⟩ := List.exists_cons_of_ne_nil hne
  obtain ⟨best', rest', hbest'⟩ := List.exists_cons_of_ne_nil hne'
  refine ⟨g', added, hg', hname, hadded, hmerge, ?_, best, best', ?_, ?_, ?_⟩
  · rw [hmerge]
    exact sublist_merge g.records added
  · rw [bestPerGroup_getElem? (hplaces rs), hg]
    show g.records.head? = some best
    rw [hbest, List.head?_cons]
  · rw [bestPerGroup_getElem? (hplaces (rs ++ more)), hg']
    show g'.records.head? = some best'
    rw [hbest', List.head?_cons]
  -- A merge begins like the old group unless a new record may not stand behind its best one.
  · have hhead : (g.records.merge added Record.ranksBefore).head? = some best' := by
      rw [← hmerge, hbest', List.head?_cons]
    have hold : g.records.head? = some best := by
      rw [hbest, List.head?_cons]
    rcases head?_merge hold hhead with hsame | ⟨hnew, hafter⟩
    · exact .inl hsame
    · obtain ⟨hmore, hbenchmark⟩ := List.mem_filter.1 (hadded.perm.mem_iff.1 hnew)
      exact .inr ⟨hmore, of_decide_eq_true hbenchmark, Record.outranks_iff.2 hafter⟩

/-! ## A contest that goes on

The first results are one without a number and one with a fidelity.  Then come an equal one and a
greater one. -/

/-- A later result with the fidelity of `Record.plain`. -/
def equalledRecord : Record := { Record.plain with runIndex := 1 }

/-- The equal result goes behind `Record.plain`, `greaterRecord` goes to the front, and the earlier
    ones stay in their order. -/
theorem rank_append_greaterRecord :
    let rs := [undefinedRecord true, Record.plain]
    let more := [equalledRecord, greaterRecord]
    (rank rs)[0]? = some ⟨"qft", [Record.plain, undefinedRecord true]⟩ ∧
      rank (rs ++ more) =
        [⟨"qft", [greaterRecord, Record.plain, equalledRecord, undefinedRecord true]⟩] ∧
      [Record.plain, undefinedRecord true].Sublist
        [greaterRecord, Record.plain, equalledRecord, undefinedRecord true] ∧
      bestPerGroup (rank (rs ++ more)) = [greaterRecord] ∧
      greaterRecord ∈ more ∧ greaterRecord.Outranks Record.plain := by
  intro rs more
  have hlast : (undefinedRecord true).ranksBefore Record.plain = false := by decide +kernel
  have hgreater : equalledRecord.ranksBefore greaterRecord = false := by decide +kernel
  have hgreater' : Record.plain.ranksBefore greaterRecord = false := by decide +kernel
  have hequal : Record.plain.ranksBefore equalledRecord = true := by decide +kernel
  have hlast' : (undefinedRecord true).ranksBefore equalledRecord = false := by decide +kernel
  -- The sort is not evaluated by the kernel, so it is unfolded with the comparisons above.
  have hsort : rs.mergeSort Record.ranksBefore = [Record.plain, undefinedRecord true] := by
    simp [rs, List.mergeSort, List.MergeSort.Internal.splitInTwo, List.splitAt, List.splitAt.go,
      hlast]
  have hsort' : (rs ++ more).mergeSort Record.ranksBefore =
      [greaterRecord, Record.plain, equalledRecord, undefinedRecord true] := by
    simp [rs, more, List.mergeSort, List.MergeSort.Internal.splitInTwo, List.splitAt,
      List.splitAt.go, hlast, hlast', hgreater, hgreater', hequal]
  have hrank : rank rs = [⟨"qft", [Record.plain, undefinedRecord true]⟩] := by
    rw [← hsort]
    rfl
  have hrank' : rank (rs ++ more) =
      [⟨"qft", [greaterRecord, Record.plain, equalledRecord, undefinedRecord true]⟩] := by
    rw [← hsort']
    rfl
  have hget : (rank rs)[0]? = some ⟨"qft", [Record.plain, undefinedRecord true]⟩ := by
    rw [hrank]
    rfl
  -- The only group is in place 0, before and after.
  obtain ⟨-, hgroups⟩ := rank_append_keeps_order rs more
  obtain ⟨g', -, hg', -, -, -, hsub, best, best', hbest, hbest', houtranks⟩ := hgroups 0 _ hget
  rw [hrank'] at hg' hbest'
  obtain rfl := Option.some.inj hg'
  rw [hrank] at hbest
  obtain rfl : Record.plain = best := Option.some.inj hbest
  obtain rfl : greaterRecord = best' := Option.some.inj hbest'
  have hne : greaterRecord ≠ Record.plain := by decide +kernel
  obtain ⟨hmore, -, houtranks⟩ := houtranks.resolve_left hne
  refine ⟨hget, hrank', hsub, ?_, hmore, houtranks⟩
  rw [hrank']
  rfl

end MapperSweep
