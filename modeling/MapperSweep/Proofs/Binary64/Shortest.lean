import Mathlib.Tactic.Ring
import MapperSweep.Binary64.Shortest

/-!
# The digits of a shortest decimal

The shortest decimal of a positive number has a positive coefficient, so it has a leading digit that
is not zero.  A coefficient that reads back is positive because everything below the least positive
number reads back as zero, and one that was cut off after all digits is positive because the decimal
point was placed right before the leading digit.

## Key results

- `pos_of_readsBack`, `readsBack_of_onGrid?`: a coefficient that reads back
- `below_pos`: a coefficient that was cut off
- `coefficient_shortest_pos`: the shortest decimal
-/

namespace MapperSweep.Binary64

/-! ## Coefficients that read back -/

/-- Only rank zero has the magnitude zero. -/
theorem units_pos {r : Nat} (h : 0 < r) : 0 < units r := by
  rw [units]
  split
  · exact h
  · exact Nat.mul_pos (Nat.add_pos_left (by decide) _) (Nat.pow_pos (by decide))

theorem unitsPerOne_pos : 0 < unitsPerOne := Nat.pow_pos (by decide)

/-- A coefficient of zero reads back as no positive rank. -/
theorem pos_of_readsBack {r coefficient : Nat} {scale : Int} (hr : 0 < r)
    (h : readsBack r coefficient scale = true) : 0 < coefficient := by
  -- The interval of what reads back starts halfway to the number below, which is above zero.
  have hlow : 0 < (units (r - 1) + units r) * (powerOfTen scale).2 :=
    Nat.mul_pos (Nat.add_pos_right _ (units_pos hr)) (Nat.pow_pos (by decide))
  have hle : (units (r - 1) + units r) * (powerOfTen scale).2 ≤
      coefficient * (powerOfTen scale).1 * (2 * unitsPerOne) := by
    simp only [readsBack] at h
    split at h
    · simp only [Bool.and_eq_true, decide_eq_true_eq] at h
      exact h.1
    · simp only [Bool.and_eq_true, decide_eq_true_eq] at h
      exact Nat.le_of_lt h.1
  refine Nat.pos_of_ne_zero fun hzero => ?_
  rw [hzero, Nat.zero_mul, Nat.zero_mul] at hle
  exact absurd (Nat.lt_of_lt_of_le hlow hle) (Nat.lt_irrefl 0)

/-- What `onGrid?` takes reads back, and is at most the neighbour above the number. -/
theorem readsBack_of_onGrid? {tie : Tie} {r c : Nat} {scale : Int}
    (h : onGrid? tie r scale = some c) :
    c ≤ below r scale + 1 ∧ readsBack r c scale = true := by
  simp only [onGrid?] at h
  split at h
  -- Both neighbours read back: the nearer one is taken, and the tie decides if none is nearer.
  · rename_i hlower hupper
    split at h
    · obtain rfl := Option.some.inj h
      exact ⟨Nat.le_succ _, hlower⟩
    split at h
    · obtain rfl := Option.some.inj h
      exact ⟨Nat.le_refl _, hupper⟩
    cases tie with
    | up =>
      obtain rfl := Option.some.inj h
      exact ⟨Nat.le_refl _, hupper⟩
    | even =>
      obtain rfl := Option.some.inj h
      rcases Nat.mod_two_eq_zero_or_one (below r scale) with heven | hodd
      · rw [heven]
        exact ⟨Nat.le_succ _, hlower⟩
      · rw [hodd]
        exact ⟨Nat.le_refl _, hupper⟩
  · rename_i hlower _
    obtain rfl := Option.some.inj h
    exact ⟨Nat.le_succ _, hlower⟩
  · rename_i _ hupper
    obtain rfl := Option.some.inj h
    exact ⟨Nat.le_refl _, hupper⟩
  · cases h

/-- `dropZeros` leaves a digit of a positive coefficient. -/
theorem coefficient_dropZeros_pos {c : Nat} (scale : Int) (h : 0 < c) :
    0 < (dropZeros c scale).coefficient := by
  induction c using Nat.strong_induction_on generalizing scale with
  | _ c ih =>
    rw [dropZeros]
    split
    -- The last digit is zero, so the others are not all zero.
    · exact ih (c / 10) (by omega) (scale + 1) (by omega)
    · exact h

/-! ## Coefficients that are cut off -/

/-- `digitCount n` is not too large: one digit less is not enough. -/
theorem pow_digitCount_le {n : Nat} (h : 0 < n) : 10 ^ (digitCount n - 1) ≤ n := by
  induction n using Nat.strong_induction_on with
  | _ n ih =>
    rw [digitCount]
    split
    · exact h
    · have hrest := ih (n / 10) (by omega) (by omega)
      have hcount : 0 < digitCount (n / 10) := by
        rw [digitCount]
        split <;> omega
      calc 10 ^ (digitCount (n / 10) + 1 - 1) = 10 ^ (digitCount (n / 10) - 1) * 10 := by
            rw [← Nat.pow_succ]
            congr 1
            omega
        _ ≤ n / 10 * 10 := Nat.mul_le_mul_right 10 hrest
        _ ≤ n := Nat.div_mul_le_self n 10

/-- A quotient that is at least `10 ^ d` in units of `10 ^ -m` is at least `10 ^ s`. -/
private theorem mul_pow_le_of_digits {u p d m : Nat} {s : Int} (h : 10 ^ d * p ≤ u * 10 ^ m)
    (hs : s + m ≤ d) : p * 10 ^ s.toNat ≤ u * 10 ^ (-s).toNat := by
  have hexponent : s.toNat + m ≤ d + (-s).toNat := by omega
  have hpow : 10 ^ s.toNat * 10 ^ m ≤ 10 ^ d * 10 ^ (-s).toNat := by
    rw [← Nat.pow_add, ← Nat.pow_add]
    exact Nat.pow_le_pow_right (by decide) hexponent
  -- One of the two powers of `s` is one, but both sides can be compared without a case split.
  refine Nat.le_of_mul_le_mul_right ?_ (Nat.pow_pos (by decide) : 0 < 10 ^ m)
  calc p * 10 ^ s.toNat * 10 ^ m = 10 ^ s.toNat * 10 ^ m * p := by ring
    _ ≤ 10 ^ d * 10 ^ (-s).toNat * p := Nat.mul_le_mul_right _ hpow
    _ = 10 ^ d * p * 10 ^ (-s).toNat := by ring
    _ ≤ u * 10 ^ m * 10 ^ (-s).toNat := Nat.mul_le_mul_right _ h
    _ = u * 10 ^ (-s).toNat * 10 ^ m := by ring

/-- Some digit is left of a quotient that is cut off after its leading digit.  The digits are
    counted in units of `10 ^ -m`, of which there is one at least. -/
private theorem cut_off_pos {u p m used : Nat} {s : Int} (hu : 0 < u) (hp : 0 < p) (hm : p ≤ 10 ^ m)
    (hused : 0 < used) (hs : (digitCount (u * 10 ^ m / p) : Int) - m - used = s) :
    0 < u * 10 ^ (-s).toNat / (p * 10 ^ s.toNat) := by
  have hpos : 0 < u * 10 ^ m / p := Nat.div_pos (Nat.le_trans hm (Nat.le_mul_of_pos_left _ hu)) hp
  have hdigits : 10 ^ (digitCount (u * 10 ^ m / p) - 1) * p ≤ u * 10 ^ m := by
    rw [← Nat.le_div_iff_mul_le hp]
    exact pow_digitCount_le hpos
  exact Nat.div_pos (mul_pow_le_of_digits hdigits (by omega))
    (Nat.mul_pos hp (Nat.pow_pos (by decide)))

/-- A positive number that is cut off by `below` after its leading digit is not zero. -/
theorem below_pos {r : Nat} (hr : 0 < r) {used : Nat} (hused : 0 < used) :
    0 < below r (pointPosition r - used) := by
  -- The point was placed by the digits in units of `10 ^ -324`, below the least positive number.
  have hpower : unitsPerOne ≤ 10 ^ 324 := by decide +kernel
  exact cut_off_pos (units_pos hr) unitsPerOne_pos hpower hused rfl

/-! ## The shortest decimal -/

/-- Whatever grid `shortestFrom` reaches, the coefficient is positive. -/
private theorem coefficient_shortestFrom_pos (tie : Tie) {r : Nat} (hr : 0 < r) {used left : Nat}
    (hused : 0 < used) : 0 < (shortestFrom tie r (pointPosition r) used left).coefficient := by
  induction left generalizing used with
  | zero =>
    rw [shortestFrom]
    exact below_pos hr hused
  | succ left ih =>
    rw [shortestFrom]
    split
    · rename_i c hc
      exact coefficient_dropZeros_pos _ (pos_of_readsBack hr (readsBack_of_onGrid? hc).2)
    · exact ih (Nat.succ_pos used)

/-- `shortest tie r` has a positive coefficient if `r` is positive. -/
theorem coefficient_shortest_pos (tie : Tie) {r : Nat} (hr : 0 < r) :
    0 < (shortest tie r).coefficient :=
  coefficient_shortestFrom_pos tie hr (by decide)

end MapperSweep.Binary64
