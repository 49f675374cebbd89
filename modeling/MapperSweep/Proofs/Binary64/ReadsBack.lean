import Mathlib.Algebra.Order.Field.Power
import MapperSweep.Proofs.Binary64.Rounding
import MapperSweep.Proofs.Binary64.Shortest

/-!
# The shortest decimal reads back

A decimal reads back as a number if it lies between the two middles around this number.  On the grid
of decimals with seventeen digits two neighbours are less than a gap apart, so that one of the two
neighbours of the number lies there.  The search for the shortest decimal therefore ends on some
grid, and with a decimal that reads back.

## Key results

- `readsBack_iff`: decimals between two middles
- `nearestRank_eq_iff_readsBack`: a decimal reads back exactly if it is rounded to the number
- `readsBack_below_or`: seventeen digits suffice
- `readsBack_shortest`: the shortest decimal reads back
- `coefficient_shortest_le`, `le_scale_shortest`: its size
-/

namespace MapperSweep.Binary64

/-! ## Decimals in units -/

/-- The value of `coefficient * 10 ^ scale` in units of `2 ^ -1074`. -/
def decimalUnits (coefficient : Nat) (scale : Int) : ℚ := coefficient * 10 ^ scale * unitsPerOne

theorem cast_unitsPerOne_pos : (0 : ℚ) < unitsPerOne := Nat.cast_pos.2 unitsPerOne_pos

/-- `powerOfTen e` is `10 ^ e` as a quotient of whole numbers. -/
theorem div_powerOfTen (e : Int) : ((powerOfTen e).1 : ℚ) / (powerOfTen e).2 = 10 ^ e := by
  rw [powerOfTen, Nat.pow_eq, Nat.pow_eq]
  push_cast
  rcases Int.le_total 0 e with he | he
  · obtain ⟨k, rfl⟩ := Int.eq_ofNat_of_zero_le he
    simp
  · obtain ⟨k, rfl⟩ : ∃ k : Nat, e = -k := ⟨(-e).toNat, by omega⟩
    simp

theorem powerOfTen_pos (e : Int) : 0 < (powerOfTen e).1 ∧ 0 < (powerOfTen e).2 :=
  ⟨Nat.pow_pos (by decide), Nat.pow_pos (by decide)⟩

/-- `decimalUnits` as a quotient of whole numbers, which is the form that `nearestRank` takes. -/
theorem decimalUnits_eq_div (coefficient : Nat) (scale : Int) :
    decimalUnits coefficient scale =
      ((coefficient * (powerOfTen scale).1 * unitsPerOne : Nat) : ℚ) / (powerOfTen scale).2 := by
  rw [decimalUnits, ← div_powerOfTen]
  push_cast
  ring

/-- Zeros at the end of the coefficient can be moved to the `scale`. -/
theorem decimalUnits_pow_mul (k coefficient : Nat) (scale : Int) :
    decimalUnits (10 ^ k * coefficient) scale = decimalUnits coefficient (scale + k) := by
  rw [decimalUnits, decimalUnits, zpow_add₀ (by norm_num), zpow_natCast]
  push_cast
  ring

/-! ## What reads back -/

/-- What reads back as the rank `r + 1` lies between the two middles around `units (r + 1)`, which
    belong to it if the rank is even. -/
theorem readsBack_iff {r coefficient : Nat} {scale : Int} :
    readsBack (r + 1) coefficient scale = true ↔
      (middle r ≤ decimalUnits coefficient scale ∧
        decimalUnits coefficient scale ≤ middle (r + 1)) ∧
      ((r + 1) % 2 = 1 → middle r ≠ decimalUnits coefficient scale ∧
        decimalUnits coefficient scale ≠ middle (r + 1)) := by
  have hb : (0 : ℚ) < (powerOfTen scale).2 := by exact_mod_cast (powerOfTen_pos scale).2
  have hle : ∀ s, middle s ≤ decimalUnits coefficient scale ↔
      (units s + units (s + 1)) * (powerOfTen scale).2 ≤
        coefficient * (powerOfTen scale).1 * (2 * unitsPerOne) := by
    intro s
    rw [decimalUnits_eq_div, middle, div_le_div_iff₀ two_pos hb, Nat.mul_left_comm,
      mul_comm _ (2 : ℚ)]
    exact_mod_cast Iff.rfl
  have hge : ∀ s, decimalUnits coefficient scale ≤ middle s ↔
      coefficient * (powerOfTen scale).1 * (2 * unitsPerOne) ≤
        (units s + units (s + 1)) * (powerOfTen scale).2 := by
    intro s
    rw [decimalUnits_eq_div, middle, div_le_div_iff₀ hb two_pos, Nat.mul_left_comm,
      mul_comm _ (2 : ℚ)]
    exact_mod_cast Iff.rfl
  have hne : ∀ s, middle s ≠ decimalUnits coefficient scale ↔
      (units s + units (s + 1)) * (powerOfTen scale).2 ≠
        coefficient * (powerOfTen scale).1 * (2 * unitsPerOne) := by
    intro s
    rw [Ne, Ne, le_antisymm_iff, Nat.le_antisymm_iff, hle, hge]
  -- The model compares whole numbers, after multiplying with both denominators.
  rw [ne_comm (b := middle (r + 1)), hle, hge, hne, hne]
  simp only [readsBack, Nat.add_sub_cancel]
  rcases Nat.mod_two_eq_zero_or_one (r + 1) with heven | hodd
  · rw [if_pos heven]
    simp only [Bool.and_eq_true, decide_eq_true_eq]
    omega
  · rw [if_neg (by omega)]
    simp only [Bool.and_eq_true, decide_eq_true_eq]
    omega

/-- What lies strictly between the two middles around `units (r + 1)` reads back. -/
theorem readsBack_of_between {r coefficient : Nat} {scale : Int}
    (hlow : middle r < decimalUnits coefficient scale)
    (hhigh : decimalUnits coefficient scale < middle (r + 1)) :
    readsBack (r + 1) coefficient scale = true :=
  readsBack_iff.2 ⟨⟨hlow.le, hhigh.le⟩, fun _ => ⟨hlow.ne, hhigh.ne⟩⟩

/-- A quotient `n / d` with the value of a decimal that reads back as `r + 1` is rounded to `r +
    1`. -/
theorem nearestRank_of_readsBack {r coefficient n d : Nat} {scale : Int} (hd : 0 < d)
    (hr : r + 1 < infinityRank) (h : readsBack (r + 1) coefficient scale = true)
    (hvalue : (n : ℚ) / d = decimalUnits coefficient scale) : nearestRank n d = r + 1 := by
  obtain ⟨⟨hlow, hhigh⟩, hodd⟩ := readsBack_iff.1 h
  rw [← hvalue] at hlow hhigh hodd
  refine nearestRank_eq_of_between hd hr ?_ hhigh fun hone => ⟨?_, (hodd hone).2⟩
  · rintro j hj
    obtain rfl : j = r := by omega
    exact hlow
  · rintro j hj
    obtain rfl : j = r := by omega
    exact (hodd hone).1

/-- Exactly the decimals that read back as the positive rank `r + 1` are rounded to it by
    `nearestRank`. -/
theorem nearestRank_eq_iff_readsBack {r coefficient n d : Nat} {scale : Int} (hd : 0 < d)
    (hr : r + 1 < infinityRank) (hvalue : (n : ℚ) / d = decimalUnits coefficient scale) :
    nearestRank n d = r + 1 ↔ readsBack (r + 1) coefficient scale = true := by
  refine ⟨fun h => ?_, fun h => nearestRank_of_readsBack hd hr h hvalue⟩
  rw [readsBack_iff, ← hvalue]
  exact between_of_nearestRank_eq hd hr h

/-- What reads back as a finite number has no larger `scale` than 308. -/
theorem scale_le_of_readsBack {r coefficient : Nat} {scale : Int} (hr : 0 < r)
    (hfinite : r < infinityRank) (h : readsBack r coefficient scale = true) : scale ≤ 308 := by
  obtain ⟨r, rfl⟩ := Nat.exists_eq_succ_of_ne_zero hr.ne'
  have hone : (1 : ℚ) ≤ coefficient := by exact_mod_cast pos_of_readsBack hr h
  have hlarge : units (infinityRank - 1) + units (infinityRank - 1 + 1) <
      2 * (10 ^ 309 * unitsPerOne) := by
    decide +kernel
  have hmiddle : middle (infinityRank - 1) < (10 : ℚ) ^ (309 : Int) * unitsPerOne := by
    rw [middle, div_lt_iff₀ two_pos, mul_comm]
    exact_mod_cast hlarge
  have hle : (10 : ℚ) ^ scale * unitsPerOne ≤ decimalUnits coefficient scale := by
    rw [decimalUnits, mul_assoc]
    exact le_mul_of_one_le_left (mul_nonneg (by positivity) cast_unitsPerOne_pos.le) hone
  have hlast : middle (r + 1) ≤ middle (infinityRank - 1) :=
    middle_strictMono.monotone (Nat.le_sub_one_of_lt hfinite)
  have hpow : (10 : ℚ) ^ scale < 10 ^ (309 : Int) := by
    refine lt_of_mul_lt_mul_right ?_ cast_unitsPerOne_pos.le
    linarith [(readsBack_iff.1 h).1.2]
  have hlt := (zpow_lt_zpow_iff_right₀ (by norm_num)).1 hpow
  omega

/-- What reads back as a positive number has no small `scale`, as far as its coefficient does not
    make up for it. -/
theorem le_scale_of_readsBack {r coefficient : Nat} {scale : Int} (hr : 0 < r)
    (h : readsBack r coefficient scale = true) : -(400 + coefficient.log2 : Int) ≤ scale := by
  obtain ⟨r, rfl⟩ := Nat.exists_eq_succ_of_ne_zero hr.ne'
  by_contra hscale
  -- The decimal is at least half of the least positive number.
  have hhalf : (1 : ℚ) / 2 ≤ decimalUnits coefficient scale := by
    have hfirst : middle 0 = 1 / 2 := by
      rw [middle, units_of_lt (by decide), units_of_lt (by decide)]
      norm_num
    rw [← hfirst]
    exact (middle_strictMono.monotone (Nat.zero_le r)).trans (readsBack_iff.1 h).1.1
  -- But a coefficient of so few digits is too small for such a power of ten.
  have hcoefficient : (coefficient : ℚ) ≤ 2 * 10 ^ coefficient.log2 := by
    have hlog : coefficient ≤ 2 * 2 ^ coefficient.log2 := by
      rw [← Nat.pow_succ']
      exact Nat.lt_log2_self.le
    have hpow : 2 ^ coefficient.log2 ≤ 10 ^ coefficient.log2 := Nat.pow_le_pow_left (by decide) _
    exact_mod_cast hlog.trans (Nat.mul_le_mul_left 2 hpow)
  have hpower : (10 : ℚ) ^ scale ≤ 1 / (10 ^ 401 * 10 ^ coefficient.log2) := by
    have hle : (10 : ℚ) ^ scale ≤ 10 ^ (-((401 + coefficient.log2 : Nat) : Int)) :=
      zpow_le_zpow_right₀ (by norm_num) (by omega)
    rwa [zpow_neg, zpow_natCast, pow_add, ← one_div] at hle
  have hsmall : (4 * unitsPerOne : ℚ) < 10 ^ 401 := by
    have hnat : 4 * unitsPerOne < 10 ^ 401 := by decide +kernel
    exact_mod_cast hnat
  have hdigits : (0 : ℚ) < 10 ^ coefficient.log2 := by positivity
  have hproduct : (coefficient : ℚ) * 10 ^ scale ≤ 2 / 10 ^ 401 := by
    calc (coefficient : ℚ) * 10 ^ scale
        ≤ 2 * 10 ^ coefficient.log2 * (1 / (10 ^ 401 * 10 ^ coefficient.log2)) := by gcongr
      _ = 2 / 10 ^ 401 := by rw [mul_one_div, mul_div_mul_right _ _ hdigits.ne']
  have hunits : decimalUnits coefficient scale ≤ 2 / 10 ^ 401 * unitsPerOne := by
    rw [decimalUnits]
    exact mul_le_mul_of_nonneg_right hproduct cast_unitsPerOne_pos.le
  have hlt : (2 : ℚ) / 10 ^ 401 * unitsPerOne < 1 / 2 := by
    rw [div_mul_eq_mul_div, div_lt_div_iff₀ (by positivity) two_pos]
    generalize (10 : ℚ) ^ 401 = limit at hsmall ⊢
    linarith
  exact absurd (hhalf.trans hunits) (not_le.2 hlt)

/-! ## Neighbours on a grid -/

/-- `below r scale` is a neighbour of the number on its grid, and not above it. -/
theorem decimalUnits_below_le (r : Nat) (scale : Int) :
    decimalUnits (below r scale) scale ≤ units r := by
  have hb : (0 : ℚ) < (powerOfTen scale).2 := by exact_mod_cast (powerOfTen_pos scale).2
  rw [decimalUnits_eq_div, div_le_iff₀ hb]
  have hle : below r scale * (unitsPerOne * (powerOfTen scale).1) ≤
      units r * (powerOfTen scale).2 := Nat.div_mul_le_self _ _
  rw [Nat.mul_assoc, Nat.mul_comm (powerOfTen scale).1]
  exact_mod_cast hle

/-- `below r scale + 1` is the other neighbour of the number on its grid, and above it. -/
theorem lt_decimalUnits_below_succ (r : Nat) (scale : Int) :
    units r < decimalUnits (below r scale + 1) scale := by
  have hb : (0 : ℚ) < (powerOfTen scale).2 := by exact_mod_cast (powerOfTen_pos scale).2
  have hgrid : 0 < unitsPerOne * (powerOfTen scale).1 :=
    Nat.mul_pos unitsPerOne_pos (powerOfTen_pos scale).1
  rw [decimalUnits_eq_div, lt_div_iff₀ hb]
  have hlt : units r * (powerOfTen scale).2 <
      (below r scale + 1) * (unitsPerOne * (powerOfTen scale).1) :=
    Nat.lt_mul_of_div_lt (Nat.lt_succ_self _) hgrid
  rw [Nat.mul_assoc, Nat.mul_comm (powerOfTen scale).1]
  exact_mod_cast hlt

/-- The step of the grid of `scale`. -/
theorem decimalUnits_succ (coefficient : Nat) (scale : Int) :
    decimalUnits (coefficient + 1) scale =
      decimalUnits coefficient scale + 10 ^ scale * unitsPerOne := by
  rw [decimalUnits, decimalUnits]
  push_cast
  ring

/-- On a grid with a step below `gap r`, a neighbour of the number of rank `r + 1` reads back. -/
theorem readsBack_below_or {r : Nat} {scale : Int}
    (hstep : (10 : ℚ) ^ scale * unitsPerOne < gap r) :
    readsBack (r + 1) (below (r + 1) scale) scale = true ∨
      readsBack (r + 1) (below (r + 1) scale + 1) scale = true := by
  have hbelow := decimalUnits_below_le (r + 1) scale
  have habove := lt_decimalUnits_below_succ (r + 1) scale
  have hgap : (0 : ℚ) < gap r := by exact_mod_cast gap_pos r
  have hgaps : (gap r : ℚ) ≤ gap (r + 1) := by exact_mod_cast gap_mono (Nat.le_succ r)
  have hunits : (units r : ℚ) + gap r = units (r + 1) := by exact_mod_cast units_add_gap r
  have hlow : middle r = units (r + 1) - gap r / 2 := by
    rw [middle_eq]
    linarith
  have hhigh : middle (r + 1) = units (r + 1) + gap (r + 1) / 2 := middle_eq (r + 1)
  have hsucc := decimalUnits_succ (below (r + 1) scale) scale
  by_cases hnear : decimalUnits (below (r + 1) scale + 1) scale < middle (r + 1)
  · exact .inr (readsBack_of_between (by linarith) hnear)
  -- The neighbour above is more than half a gap away, so the one below is less than that away.
  · exact .inl (readsBack_of_between (by linarith) (by linarith))

/-- `onGrid?` takes nothing only if neither neighbour reads back. -/
theorem onGrid?_eq_none {tie : Tie} {r : Nat} {scale : Int} (h : onGrid? tie r scale = none) :
    readsBack r (below r scale) scale = false ∧ readsBack r (below r scale + 1) scale = false := by
  simp only [onGrid?] at h
  split at h
  · split at h
    · cases h
    · split at h
      · cases h
      · cases tie <;> cases h
  · cases h
  · cases h
  · rename_i hlower hupper
    exact ⟨hlower, hupper⟩

/-! ## The grid of seventeen digits -/

/-- `digitCount n` digits are enough for `n`. -/
theorem lt_pow_digitCount (n : Nat) : n < 10 ^ digitCount n := by
  induction n using Nat.strong_induction_on with
  | _ n ih =>
    rw [digitCount]
    split
    · rwa [pow_one]
    · have hrest := ih (n / 10) (by omega)
      rw [pow_succ]
      omega

theorem digitCount_pos (n : Nat) : 0 < digitCount n := by
  rw [digitCount]
  split <;> omega

/-- The magnitude of rank `r` has its leading digit right after `pointPosition r`, or further to the
    left. -/
theorem pow_pointPosition_le {r : Nat} (hr : 0 < r) :
    (10 : ℚ) ^ (pointPosition r - 1) * unitsPerOne ≤ units r := by
  have hpower : unitsPerOne ≤ 10 ^ 324 := by decide +kernel
  have hone : 0 < units r * 10 ^ 324 / unitsPerOne :=
    Nat.div_pos (Nat.le_trans hpower (Nat.le_mul_of_pos_left _ (units_pos hr))) unitsPerOne_pos
  have hdigits := (Nat.le_div_iff_mul_le unitsPerOne_pos).1 (pow_digitCount_le hone)
  have hscale : (pointPosition r - 1 : Int) =
      ((digitCount (units r * 10 ^ 324 / unitsPerOne) - 1 : Nat) : Int) - (324 : Nat) := by
    have hcount := digitCount_pos (units r * 10 ^ 324 / unitsPerOne)
    rw [pointPosition, Nat.pow_eq]
    omega
  rw [hscale, zpow_sub₀ (by norm_num), zpow_natCast, zpow_natCast, div_mul_eq_mul_div,
    div_le_iff₀ (by positivity)]
  exact_mod_cast hdigits

/-- The magnitude of rank `r` has no digit to the left of `pointPosition r`. -/
theorem lt_pow_pointPosition (r : Nat) : units r < (10 : ℚ) ^ pointPosition r * unitsPerOne := by
  have hdigits : units r * 10 ^ 324 <
      10 ^ digitCount (units r * 10 ^ 324 / unitsPerOne) * unitsPerOne :=
    (Nat.div_lt_iff_lt_mul unitsPerOne_pos).1 (lt_pow_digitCount _)
  have hscale : pointPosition r =
      (digitCount (units r * 10 ^ 324 / unitsPerOne) : Int) - (324 : Nat) := rfl
  rw [hscale, zpow_sub₀ (by norm_num), zpow_natCast, zpow_natCast, div_mul_eq_mul_div,
    lt_div_iff₀ (by positivity)]
  exact_mod_cast hdigits

theorem le_pointPosition (r : Nat) : -323 ≤ pointPosition r := by
  have hcount := digitCount_pos (units r * Nat.pow 10 324 / unitsPerOne)
  rw [pointPosition]
  omega

/-- The magnitude of rank `r` has at most `used` digits when it is cut off after `used` digits. -/
theorem below_lt (r used : Nat) : below r (pointPosition r - used) < 10 ^ used := by
  have hlt := (decimalUnits_below_le r (pointPosition r - used)).trans_lt (lt_pow_pointPosition r)
  have hpow : (10 : ℚ) ^ pointPosition r = 10 ^ used * 10 ^ (pointPosition r - used) := by
    rw [← zpow_natCast, ← zpow_add₀ (by norm_num)]
    congr 1
    omega
  rw [decimalUnits, hpow] at hlt
  have hcut := lt_of_mul_lt_mul_right (lt_of_mul_lt_mul_right hlt cast_unitsPerOne_pos.le)
    (by positivity)
  exact_mod_cast hcut

/-- The step of the grid of seventeen digits is below the `gap` to the number before, so
    `readsBack_below_or` applies there. -/
theorem step_seventeen_lt (r : Nat) :
    (10 : ℚ) ^ (pointPosition (r + 1) - (17 : Nat)) * unitsPerOne < gap r := by
  have hlead := pow_pointPosition_le (Nat.succ_pos r)
  have hunits : (units r : ℚ) + gap r = units (r + 1) := by exact_mod_cast units_add_gap r
  have hgap : (units r : ℚ) < 2 ^ 53 * gap r := by exact_mod_cast units_lt_mul_gap r
  have hpos : (0 : ℚ) < gap r := by exact_mod_cast gap_pos r
  have hpow : (10 : ℚ) ^ (pointPosition (r + 1) - 1) =
      10 ^ 16 * 10 ^ (pointPosition (r + 1) - (17 : Nat)) := by
    rw [← zpow_natCast, ← zpow_add₀ (by norm_num)]
    congr 1
    omega
  -- The leading digit stands for `10 ^ 16` steps, and there are at most `2 ^ 53 + 1` gaps below.
  rw [hpow] at hlead
  linarith

/-! ## The shortest decimal -/

/-- `dropZeros` does not change the value of a decimal. -/
theorem decimalUnits_dropZeros (coefficient : Nat) (scale : Int) :
    decimalUnits (dropZeros coefficient scale).coefficient (dropZeros coefficient scale).scale =
      decimalUnits coefficient scale := by
  fun_induction dropZeros coefficient scale with
  | case1 coefficient scale hzero ih =>
    have hmove := decimalUnits_pow_mul 1 (coefficient / 10) scale
    rw [pow_one, Nat.mul_div_cancel' (Nat.dvd_of_mod_eq_zero hzero.2)] at hmove
    rw [ih, hmove, Nat.cast_one]
  | case2 => rfl

theorem coefficient_dropZeros_le (coefficient : Nat) (scale : Int) :
    (dropZeros coefficient scale).coefficient ≤ coefficient := by
  fun_induction dropZeros coefficient scale with
  | case1 coefficient scale hzero ih => omega
  | case2 => exact Nat.le_refl _

theorem le_scale_dropZeros (coefficient : Nat) (scale : Int) :
    scale ≤ (dropZeros coefficient scale).scale := by
  fun_induction dropZeros coefficient scale with
  | case1 coefficient scale hzero ih => omega
  | case2 => exact Int.le_refl _

/-- Whatever grid `shortestFrom` has reached, it ends with a decimal of at most seventeen digits
    that reads back. -/
private theorem readsBack_shortestFrom (tie : Tie) (r : Nat) {used left : Nat} (hused : used ≤ 17)
    (hleft : 17 < used + left) :
    let d := shortestFrom tie (r + 1) (pointPosition (r + 1)) used left
    readsBack (r + 1) d.coefficient d.scale = true ∧ d.coefficient ≤ 10 ^ 17 ∧ -340 ≤ d.scale := by
  have hpoint := le_pointPosition (r + 1)
  induction left generalizing used with
  | zero => omega
  | succ left ih =>
    rw [shortestFrom]
    split
    · rename_i c hc
      obtain ⟨hgrid, hread⟩ := readsBack_of_onGrid? hc
      refine ⟨?_, ?_, ?_⟩
      · rw [readsBack_iff, decimalUnits_dropZeros, ← readsBack_iff]
        exact hread
      · have hcut := below_lt (r + 1) used
        have hdigits : 10 ^ used ≤ 10 ^ 17 := Nat.pow_le_pow_right (by decide) hused
        have hdrop := coefficient_dropZeros_le c (pointPosition (r + 1) - used)
        omega
      · have hdrop := le_scale_dropZeros c (pointPosition (r + 1) - used)
        omega
    · rename_i hnone
      -- The search goes on only from grids before the last, where a neighbour reads back.
      rcases Nat.lt_or_eq_of_le hused with hlt | rfl
      · exact ih hlt (by omega)
      · obtain ⟨hbelow, habove⟩ := onGrid?_eq_none hnone
        rcases readsBack_below_or (step_seventeen_lt r) with h | h
        · rw [hbelow] at h
          cases h
        · rw [habove] at h
          cases h

/-- `shortest tie r` reads back as the positive rank `r`. -/
theorem readsBack_shortest (tie : Tie) {r : Nat} (hr : 0 < r) :
    readsBack r (shortest tie r).coefficient (shortest tie r).scale = true := by
  obtain ⟨r, rfl⟩ := Nat.exists_eq_succ_of_ne_zero hr.ne'
  exact (readsBack_shortestFrom tie r (by decide) (by decide)).1

/-- `shortest tie r` has at most seventeen digits, or is `10 ^ 17`. -/
theorem coefficient_shortest_le (tie : Tie) {r : Nat} (hr : 0 < r) :
    (shortest tie r).coefficient ≤ 10 ^ 17 := by
  obtain ⟨r, rfl⟩ := Nat.exists_eq_succ_of_ne_zero hr.ne'
  exact (readsBack_shortestFrom tie r (by decide) (by decide)).2.1

theorem le_scale_shortest (tie : Tie) {r : Nat} (hr : 0 < r) : -340 ≤ (shortest tie r).scale := by
  obtain ⟨r, rfl⟩ := Nat.exists_eq_succ_of_ne_zero hr.ne'
  exact (readsBack_shortestFrom tie r (by decide) (by decide)).2.2

end MapperSweep.Binary64
