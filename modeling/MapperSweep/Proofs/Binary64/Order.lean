import Mathlib.Order.Monotone.Basic
import Mathlib.Tactic.Ring
import MapperSweep.Binary64.Basic

/-!
# The numeric order of binary64 numbers

Larger ranks are larger magnitudes, so the total order of the format agrees with the order of the
values wherever both numbers have one.  The total order says more: it puts minus zero before zero,
and it has places for what is not a number.

## Key results

- `ext_rank`: a number is its sign and its rank
- `units_normal`: the magnitude of a normal number, by its exponent and its place in the binade
- `units_strictMono`: a larger rank is a larger magnitude
- `numLe_of_key_le`: numbers that are in order in the total order are in numeric order
- `isNaN_eq_false_iff`, `infinityRank_lt_key_iff`: where numbers end in the total order
-/

namespace MapperSweep.Binary64

/-- A number is its sign and its `rank`. -/
theorem ext_rank {x y : Binary64} (hsign : x.negative = y.negative) (hrank : x.rank = y.rank) :
    x = y := by
  cases x
  cases y
  cases hsign
  cases hrank
  rfl

/-! ## Magnitudes -/

/-- The magnitude of a normal number, whose rank is `binade * (e + 1) + m`. -/
theorem units_normal (e : Nat) {m : Nat} (hm : m < binade) :
    units (binade * (e + 1) + m) = (binade + m) * 2 ^ e := by
  have hbinade : 0 < binade := by decide
  have hge : ¬binade * (e + 1) + m < binade := by
    rw [Nat.mul_add, Nat.mul_one]
    omega
  have hmod : (binade * (e + 1) + m) % binade = m := by
    rw [Nat.mul_add_mod, Nat.mod_eq_of_lt hm]
  have hdiv : (binade * (e + 1) + m) / binade = e + 1 := by
    rw [Nat.mul_add_div hbinade, Nat.div_eq_of_lt hm, Nat.add_zero]
  rw [units, if_neg hge, hmod, hdiv, Nat.add_sub_cancel, Nat.pow_eq]

/-- The exponent `e` and the mantissa `m` of a normal rank. -/
private theorem exists_eq_of_binade_le {r : Nat} (h : binade ≤ r) :
    ∃ e m, m < binade ∧ r = binade * (e + 1) + m := by
  have hbinade : 0 < binade := by decide
  have hexponent : 0 < r / binade := Nat.div_pos h hbinade
  refine ⟨r / binade - 1, r % binade, Nat.mod_lt r hbinade, ?_⟩
  rw [Nat.sub_add_cancel hexponent, Nat.div_add_mod]

/-- A larger rank is a larger magnitude, so `units` can be cancelled in comparisons. -/
theorem units_strictMono : StrictMono units := by
  refine strictMono_nat_of_lt_succ fun r => ?_
  by_cases hsub : r < binade
  -- Up to the first normal number, magnitudes are the ranks themselves.
  · rw [units_of_lt (by omega), units_of_lt (by omega)]
    exact Nat.lt_succ_self r
  · obtain ⟨e, m, hm, rfl⟩ := exists_eq_of_binade_le (Nat.le_of_not_lt hsub)
    rw [units_normal e hm]
    by_cases hnext : m + 1 < binade
    · rw [Nat.add_assoc, units_normal e hnext]
      exact Nat.mul_lt_mul_of_pos_right (by omega) (Nat.pow_pos (by decide))
    -- The last number of a binade is followed by the first of the next.
    · have hfirst : binade * (e + 1) + m + 1 = binade * (e + 1 + 1) + 0 := by
        rw [Nat.mul_add binade (e + 1) 1]
        omega
      rw [hfirst, units_normal (e + 1) (by decide), Nat.pow_succ', ← Nat.mul_assoc]
      exact Nat.mul_lt_mul_of_pos_right (by omega) (Nat.pow_pos (by decide))

/-! ## Values -/

/-- The value of a number in units of `2 ^ -1074`.  Infinity is taken as `2 ^ 1024`, which is above
    all finite values. -/
def amount (x : Binary64) : Int := if x.negative then -(units x.rank : Int) else units x.rank

/-- Numeric order by `amount`: the two zeros are equal, and what is not a number is in order with
    nothing. -/
def NumLe (x y : Binary64) : Prop := x.isNaN = false ∧ y.isNaN = false ∧ x.amount ≤ y.amount

/-- The total order by `key` agrees with the numeric order `NumLe`. -/
theorem numLe_of_key_le {x y : Binary64} (h : x.key ≤ y.key) (hx : x.isNaN = false)
    (hy : y.isNaN = false) : x.NumLe y := by
  refine ⟨hx, hy, ?_⟩
  have hunits : ∀ r s : Nat, r ≤ s → (units r : Int) ≤ units s := fun r s hrs =>
    Int.ofNat_le.2 (units_strictMono.monotone hrs)
  simp only [key] at h
  simp only [amount]
  cases hnx : x.negative with
  | false =>
    cases hny : y.negative with
    | false =>
      simp only [hnx, hny, Bool.false_eq_true, if_false] at h ⊢
      exact hunits x.rank y.rank (by omega)
    | true =>
      -- A negative number has its place before all positive ones.
      simp only [hnx, hny, Bool.false_eq_true, if_false, if_true] at h
      omega
  | true =>
    cases hny : y.negative with
    | false =>
      simp only [if_true, Bool.false_eq_true, if_false]
      omega
    | true =>
      simp only [hnx, hny, if_true] at h ⊢
      have hrank := hunits y.rank x.rank (by omega)
      omega

/-! ## Places of what is not a number -/

/-- Numbers are those with a `key` between those of minus infinity and infinity. -/
theorem isNaN_eq_false_iff {x : Binary64} :
    x.isNaN = false ↔ -1 - (infinityRank : Int) ≤ x.key ∧ x.key ≤ infinityRank := by
  unfold isNaN key
  cases x.negative with
  | false =>
    simp only [decide_eq_false_iff_not, Bool.false_eq_true, if_false]
    omega
  | true =>
    simp only [decide_eq_false_iff_not, if_true]
    omega

/-- A `key` after that of infinity belongs to what is not a number and has no minus sign. -/
theorem infinityRank_lt_key_iff {x : Binary64} :
    (infinityRank : Int) < x.key ↔ x.isNaN = true ∧ x.negative = false := by
  unfold isNaN key
  cases x.negative with
  | false =>
    simp only [decide_eq_true_eq, Bool.false_eq_true, if_false, and_true]
    omega
  | true =>
    simp only [if_true, Bool.true_eq_false, and_false, iff_false]
    omega

end MapperSweep.Binary64
