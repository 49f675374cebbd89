import Mathlib.Algebra.Order.Field.Rat
import Mathlib.Tactic.GCongr
import Mathlib.Tactic.Linarith
import Mathlib.Tactic.NormNum
import Mathlib.Tactic.Positivity
import MapperSweep.Binary64.Rounding
import MapperSweep.Proofs.Binary64.Order

/-!
# Rounding to the nearest number

Where a quotient is rounded to is said by the middles between neighbouring magnitudes: what lies
between two middles goes to the magnitude between them, and a middle itself goes to the even
neighbour.  The error of a rounding is at most half of the gap between two magnitudes, and this gap
is small in comparison with the magnitudes, except for the subnormal ones.

## Key results

- `gap_eq`: the distance between neighbouring magnitudes
- `units_lt_mul_gap`, `mul_gap_le_units`: gaps in comparison with magnitudes
- `le_floorRank_iff`: the magnitudes that are at most a quotient
- `nearestRank_le_of_lt_middle`, `lt_nearestRank_of_middle_lt`, `nearestRank_of_eq_middle`: where a
  quotient is rounded to
- `nearestRank_eq_of_between`, `between_of_nearestRank_eq`, `nearestRank_eq_of_units`: what is
  rounded to a given magnitude
- `exists_units_eq`: whole numbers of the format
- `abs_units_nearestRank_sub_le`: the error of a rounding
-/

namespace MapperSweep.Binary64

/-! ## Gaps -/

/-- The distance from the magnitude of rank `r` to the next one. -/
def gap (r : Nat) : Nat := units (r + 1) - units r

theorem units_add_gap (r : Nat) : units r + gap r = units (r + 1) :=
  Nat.add_sub_cancel' (Nat.le_of_lt (units_strictMono (Nat.lt_succ_self r)))

/-- The magnitude after a normal number, which may be the first one of the next binade. -/
private theorem units_normal_succ (e : Nat) {m : Nat} (hm : m < binade) :
    units (binade * (e + 1) + m + 1) = (binade + m + 1) * 2 ^ e := by
  by_cases hnext : m + 1 < binade
  · exact units_normal e hnext
  -- The last number of a binade is followed by the first of the next.
  · obtain rfl : m = binade - 1 := by omega
    have hbinade : 0 < binade := by decide
    have hfirst : binade * (e + 1) + (binade - 1) + 1 = binade * (e + 1 + 1) + 0 := by
      rw [Nat.mul_add binade (e + 1) 1]
      omega
    have hdouble : binade + (binade - 1) + 1 = 2 * binade := by omega
    rw [hfirst, units_normal (e + 1) hbinade, hdouble, Nat.pow_succ']
    ring

/-- The gaps double from one `binade` to the next, and are one unit up to the first normal
    numbers. -/
theorem gap_eq (r : Nat) : gap r = 2 ^ (r / binade - 1) := by
  have hbinade : 0 < binade := by decide
  by_cases hsub : r < binade
  · rw [gap, units_of_lt (by omega), units_of_lt (by omega), Nat.div_eq_of_lt hsub]
    omega
  · have hexponent : 0 < r / binade := Nat.div_pos (Nat.le_of_not_lt hsub) hbinade
    have hr : r = binade * (r / binade - 1 + 1) + r % binade := by
      rw [Nat.sub_add_cancel hexponent, Nat.div_add_mod]
    have hm : r % binade < binade := Nat.mod_lt r hbinade
    rw [gap, hr, units_normal_succ _ hm, units_normal _ hm, ← hr]
    have hsplit : (binade + r % binade + 1) * 2 ^ (r / binade - 1) =
        (binade + r % binade) * 2 ^ (r / binade - 1) + 2 ^ (r / binade - 1) := by
      ring
    rw [hsplit, Nat.add_sub_cancel_left]

theorem gap_pos (r : Nat) : 0 < gap r := by
  rw [gap_eq]
  exact Nat.pow_pos (by decide)

theorem gap_mono : Monotone gap := by
  intro r s hrs
  have hdiv : r / binade ≤ s / binade := Nat.div_le_div_right hrs
  rw [gap_eq, gap_eq]
  exact Nat.pow_le_pow_right (by decide) (by omega)

/-- The next `gap` is at most twice as large. -/
theorem gap_succ_le (r : Nat) : gap (r + 1) ≤ 2 * gap r := by
  have hdiv : (r + 1) / binade ≤ r / binade + 1 := by
    rw [Nat.succ_div]
    split <;> omega
  rw [gap_eq, gap_eq, ← Nat.pow_succ']
  exact Nat.pow_le_pow_right (by decide) (by omega)

/-- A magnitude is less than `2 ^ 53` times the `gap` after it. -/
theorem units_lt_mul_gap (r : Nat) : units r < 2 ^ 53 * gap r := by
  have hbinade : 2 ^ 53 = 2 * binade := by decide
  rw [gap_eq, units]
  split
  · rename_i hsub
    rw [Nat.div_eq_of_lt hsub]
    omega
  · have hm : r % binade < binade := Nat.mod_lt r (by decide)
    rw [Nat.pow_eq]
    exact Nat.mul_lt_mul_of_pos_right (by omega) (Nat.pow_pos (by decide))

/-- The magnitude of a normal number is at least `2 ^ 52` times the `gap` after it. -/
theorem mul_gap_le_units {r : Nat} (h : binade ≤ r) : 2 ^ 52 * gap r ≤ units r := by
  have hbinade : 2 ^ 52 = binade := by decide
  rw [gap_eq, units, if_neg (Nat.not_lt.2 h), Nat.pow_eq, hbinade]
  exact Nat.mul_le_mul_right _ (Nat.le_add_right _ _)

/-- A `gap` is one unit, or small in comparison with the magnitude before it. -/
theorem gap_le (r : Nat) : (gap r : ℚ) ≤ max 1 ((units r : ℚ) / 2 ^ 52) := by
  by_cases hsub : r < binade
  · rw [gap_eq, Nat.div_eq_of_lt hsub]
    simp
  · have hle : (2 ^ 52 * gap r : ℚ) ≤ units r := by
      exact_mod_cast mul_gap_le_units (Nat.le_of_not_lt hsub)
    refine le_max_of_le_right ?_
    rw [le_div_iff₀ (by positivity)]
    linarith

/-! ## The magnitudes around a quotient -/

/-- The rank of the largest magnitude that is at most `q`. -/
private theorem units_floor (q : Nat) :
    units ((q.log2 - 52) * binade + q / 2 ^ (q.log2 - 52)) ≤ q ∧
      q < units ((q.log2 - 52) * binade + q / 2 ^ (q.log2 - 52) + 1) := by
  have hbinade : 2 ^ 52 = binade := by decide
  by_cases hsmall : q < 2 * binade
  -- Up to the first normal numbers every whole number is a magnitude.
  · have hlog : q.log2 - 52 = 0 := by
      rcases Nat.eq_zero_or_pos q with rfl | hpos
      · rfl
      · have hlt : q.log2 < 53 := (Nat.log2_lt (by omega)).2 (by omega)
        omega
    rw [hlog, Nat.zero_mul, Nat.pow_zero, Nat.div_one, Nat.zero_add]
    have hq : units q = q := units_of_lt hsmall
    have hnext := units_strictMono (Nat.lt_add_one q)
    omega
  -- Otherwise the leading 53 bits are the place in the binade.
  · have hq : q ≠ 0 := by omega
    obtain ⟨e, he⟩ : ∃ e, q.log2 = 52 + e := by
      have hle : 53 ≤ q.log2 := (Nat.le_log2 hq).2 (by omega)
      exact ⟨q.log2 - 52, by omega⟩
    have hlow : 2 ^ (52 + e) ≤ q := he ▸ Nat.log2_self_le hq
    have hhigh : q < 2 ^ (52 + e + 1) := he ▸ Nat.lt_log2_self
    have hpow : 0 < 2 ^ e := Nat.pow_pos (by decide)
    have hlead : binade ≤ q / 2 ^ e := by
      rw [Nat.le_div_iff_mul_le hpow, ← hbinade, ← Nat.pow_add]
      exact hlow
    have hlead' : q / 2 ^ e < 2 * binade := by
      rw [Nat.div_lt_iff_lt_mul hpow, ← hbinade, ← Nat.pow_succ', ← Nat.pow_add]
      have hexponent : 52 + 1 + e = 52 + e + 1 := by omega
      rw [hexponent]
      exact hhigh
    have hm : q / 2 ^ e - binade < binade := by omega
    have hrank : (q.log2 - 52) * binade + q / 2 ^ (q.log2 - 52) =
        binade * (e + 1) + (q / 2 ^ e - binade) := by
      rw [he, Nat.add_sub_cancel_left, Nat.mul_add, Nat.mul_comm]
      omega
    rw [hrank, units_normal e hm, units_normal_succ e hm, Nat.add_sub_cancel' hlead]
    exact ⟨Nat.div_mul_le_self q _, Nat.lt_mul_of_div_lt (Nat.lt_succ_self _) hpow⟩

variable {n d : Nat}

/-- `floorRank n d` has a magnitude of at most `n / d`. -/
theorem units_floorRank_mul_le (n d : Nat) : units (floorRank n d) * d ≤ n :=
  Nat.le_trans (Nat.mul_le_mul_right d (units_floor (n / d)).1) (Nat.div_mul_le_self n d)

/-- The rank after `floorRank n d` has a magnitude above `n / d`. -/
theorem lt_units_floorRank_succ_mul (hd : 0 < d) : n < units (floorRank n d + 1) * d :=
  Nat.lt_mul_of_div_lt (units_floor (n / d)).2 hd

/-- The ranks up to `floorRank n d` are those of the magnitudes that are at most `n / d`. -/
theorem le_floorRank_iff (hd : 0 < d) {k : Nat} : k ≤ floorRank n d ↔ units k * d ≤ n := by
  constructor
  · intro h
    exact Nat.le_trans (Nat.mul_le_mul_right d (units_strictMono.monotone h))
      (units_floorRank_mul_le n d)
  · intro h
    have hlt := Nat.lt_of_le_of_lt h (lt_units_floorRank_succ_mul hd)
    exact Nat.le_of_lt_succ (units_strictMono.lt_iff_lt.1 (Nat.lt_of_mul_lt_mul_right hlt))

/-! ## Where a quotient is rounded to -/

/-- The middle between the magnitudes of `r` and `r + 1`, where rounding changes from one to the
    other. -/
def middle (r : Nat) : ℚ := (units r + units (r + 1)) / 2

theorem middle_eq (r : Nat) : middle r = units r + gap r / 2 := by
  rw [middle, ← units_add_gap]
  push_cast
  ring

theorem middle_strictMono : StrictMono middle := by
  refine strictMono_nat_of_lt_succ fun r => ?_
  have hlow : (units r : ℚ) < units (r + 1) := by exact_mod_cast units_strictMono (Nat.lt_add_one r)
  have hhigh : (units (r + 1) : ℚ) < units (r + 1 + 1) := by
    exact_mod_cast units_strictMono (Nat.lt_add_one (r + 1))
  rw [middle, middle]
  linarith

/-- A quotient is compared with a `middle` in whole numbers, as `nearestRank` does it. -/
private theorem div_lt_middle_iff (hd : 0 < d) {r : Nat} :
    (n : ℚ) / d < middle r ↔ 2 * n < (units r + units (r + 1)) * d := by
  have hd' : (0 : ℚ) < d := by exact_mod_cast hd
  rw [middle, div_lt_div_iff₀ hd' two_pos, mul_comm (n : ℚ)]
  exact_mod_cast Iff.rfl

/-- A `middle` is compared with a quotient in whole numbers, as `nearestRank` does it. -/
private theorem middle_lt_div_iff (hd : 0 < d) {r : Nat} :
    middle r < (n : ℚ) / d ↔ (units r + units (r + 1)) * d < 2 * n := by
  have hd' : (0 : ℚ) < d := by exact_mod_cast hd
  rw [middle, div_lt_div_iff₀ two_pos hd', mul_comm (n : ℚ)]
  exact_mod_cast Iff.rfl

/-- `nearestRank` chooses between the two magnitudes around `n / d`, and goes to the even one at
    their middle. -/
private theorem nearestRank_eq_min (n d : Nat) :
    nearestRank n d =
      min (if 2 * n < (units (floorRank n d) + units (floorRank n d + 1)) * d then floorRank n d
        else if (units (floorRank n d) + units (floorRank n d + 1)) * d < 2 * n then
          floorRank n d + 1
        else floorRank n d + floorRank n d % 2) infinityRank :=
  rfl

/-- What lies below `middle k` is not rounded up over it. -/
theorem nearestRank_le_of_lt_middle (hd : 0 < d) {k : Nat} (h : (n : ℚ) / d < middle k) :
    nearestRank n d ≤ k := by
  rw [div_lt_middle_iff hd] at h
  have hmono := units_strictMono (Nat.lt_add_one k)
  have hfloor : floorRank n d ≤ k := by
    rw [← Nat.lt_succ_iff, ← Nat.not_le, le_floorRank_iff hd, Nat.not_le]
    nlinarith
  rw [nearestRank_eq_min]
  refine Nat.le_trans (Nat.min_le_left _ _) ?_
  rcases Nat.lt_or_eq_of_le hfloor with hlt | heq
  · split
    · exact hfloor
    · split <;> omega
  · rw [heq, if_pos h]

/-- What lies above `middle k` is rounded up over it. -/
theorem lt_nearestRank_of_middle_lt (hd : 0 < d) {k : Nat} (h : middle k < (n : ℚ) / d)
    (hk : k < infinityRank) : k < nearestRank n d := by
  rw [middle_lt_div_iff hd] at h
  have hmono := units_strictMono (Nat.lt_add_one k)
  have hfloor : k ≤ floorRank n d := by
    rw [le_floorRank_iff hd]
    nlinarith
  rw [nearestRank_eq_min]
  refine lt_min ?_ hk
  rcases Nat.lt_or_eq_of_le hfloor with hlt | heq
  · split
    · exact hlt
    · split <;> omega
  · rw [← heq, if_neg (by omega), if_pos h]
    exact Nat.lt_succ_self k

/-- `middle k` is rounded to the even one of its neighbours. -/
theorem nearestRank_of_eq_middle (hd : 0 < d) {k : Nat} (h : (n : ℚ) / d = middle k)
    (hk : k < infinityRank) : nearestRank n d = k + k % 2 := by
  have hbelow : ¬2 * n < (units k + units (k + 1)) * d := by
    rw [← div_lt_middle_iff hd, h]
    exact lt_irrefl _
  have habove : ¬(units k + units (k + 1)) * d < 2 * n := by
    rw [← middle_lt_div_iff hd, h]
    exact lt_irrefl _
  have hmono := units_strictMono (Nat.lt_add_one k)
  have hfloor : floorRank n d = k := by
    refine Nat.le_antisymm ?_ ?_
    · rw [← Nat.lt_succ_iff, ← Nat.not_le, le_floorRank_iff hd, Nat.not_le]
      nlinarith
    · rw [le_floorRank_iff hd]
      nlinarith
  rw [nearestRank_eq_min, hfloor, if_neg hbelow, if_neg habove]
  omega

/-- What lies between the two middles around the magnitude of `k` is rounded to `k`.  The middles
    themselves belong to it if `k` is even. -/
theorem nearestRank_eq_of_between (hd : 0 < d) {k : Nat} (hk : k < infinityRank)
    (hlow : ∀ j, j + 1 = k → middle j ≤ (n : ℚ) / d) (hhigh : (n : ℚ) / d ≤ middle k)
    (hodd : k % 2 = 1 → (∀ j, j + 1 = k → middle j ≠ (n : ℚ) / d) ∧ (n : ℚ) / d ≠ middle k) :
    nearestRank n d = k := by
  rcases Nat.mod_two_eq_zero_or_one k with heven | hone
  · rcases lt_or_eq_of_le hhigh with hlt | heq
    · refine Nat.le_antisymm (nearestRank_le_of_lt_middle hd hlt) ?_
      cases k with
      | zero => exact Nat.zero_le _
      | succ j =>
        rcases lt_or_eq_of_le (hlow j rfl) with hlt' | heq'
        · exact lt_nearestRank_of_middle_lt hd hlt' (by omega)
        -- The middle below goes up, because the rank below is odd.
        · rw [nearestRank_of_eq_middle hd heq'.symm (by omega)]
          omega
    · rw [nearestRank_of_eq_middle hd heq hk, heven, Nat.add_zero]
  · obtain ⟨hlow', hhigh'⟩ := hodd hone
    refine Nat.le_antisymm (nearestRank_le_of_lt_middle hd (lt_of_le_of_ne hhigh hhigh')) ?_
    cases k with
    | zero => exact Nat.zero_le _
    | succ j =>
      exact lt_nearestRank_of_middle_lt hd (lt_of_le_of_ne (hlow j rfl) (hlow' j rfl)) (by omega)

/-- Only what lies between the two middles around the positive magnitude of `k + 1` is rounded to
    it; the converse of `nearestRank_eq_of_between`. -/
theorem between_of_nearestRank_eq (hd : 0 < d) {k : Nat} (hk : k + 1 < infinityRank)
    (h : nearestRank n d = k + 1) :
    (middle k ≤ (n : ℚ) / d ∧ (n : ℚ) / d ≤ middle (k + 1)) ∧
      ((k + 1) % 2 = 1 → middle k ≠ (n : ℚ) / d ∧ (n : ℚ) / d ≠ middle (k + 1)) := by
  refine ⟨⟨?_, ?_⟩, fun hodd => ⟨fun hlow => ?_, fun hhigh => ?_⟩⟩
  · by_contra hlow
    have hle := nearestRank_le_of_lt_middle hd (not_le.1 hlow)
    omega
  · by_contra hhigh
    have hlt := lt_nearestRank_of_middle_lt hd (not_le.1 hhigh) hk
    omega
  -- The middles around an odd rank go to the neighbours.
  · have hdown := nearestRank_of_eq_middle hd hlow.symm (by omega)
    omega
  · have hup := nearestRank_of_eq_middle hd hhigh hk
    omega

/-- A magnitude of the format is rounded to its own rank. -/
theorem nearestRank_eq_of_units (hd : 0 < d) {k : Nat} (hk : k < infinityRank)
    (h : (n : ℚ) / d = units k) : nearestRank n d = k := by
  have hgap : ∀ r, (0 : ℚ) < gap r := fun r => by exact_mod_cast gap_pos r
  have habove : (n : ℚ) / d < middle k := by
    rw [h, middle_eq]
    linarith [hgap k]
  refine Nat.le_antisymm (nearestRank_le_of_lt_middle hd habove) ?_
  cases k with
  | zero => exact Nat.zero_le _
  | succ j =>
    refine lt_nearestRank_of_middle_lt hd ?_ (by omega)
    rw [h, middle_eq, ← units_add_gap]
    push_cast
    linarith [hgap j]

private theorem gap_dvd_units (r : Nat) : gap r ∣ units r := by
  rw [gap_eq, units]
  split
  · rename_i hsub
    rw [Nat.div_eq_of_lt hsub]
    exact one_dvd r
  · exact Dvd.intro_left _ rfl

/-- The multiples `m * 2 ^ e` of a power of two are magnitudes of the format up to `m = 2 ^ 53`. -/
theorem exists_units_eq {m : Nat} (hm : m ≤ 2 ^ 53) (e : Nat) : ∃ r, units r = m * 2 ^ e := by
  have hbelow := units_floorRank_mul_le (m * 2 ^ e) 1
  have habove := lt_units_floorRank_succ_mul (n := m * 2 ^ e) Nat.one_pos
  refine ⟨floorRank (m * 2 ^ e) 1, ?_⟩
  generalize floorRank (m * 2 ^ e) 1 = r at *
  rw [Nat.mul_one] at hbelow
  rw [← units_add_gap, Nat.mul_one] at habove
  by_cases hfine : r / binade - 1 ≤ e
  -- The gap divides both sides, which are less than a gap apart.
  · have hdvd : gap r ∣ m * 2 ^ e := by
      rw [gap_eq]
      exact Dvd.dvd.mul_left (pow_dvd_pow 2 hfine) m
    have hzero := Nat.eq_zero_of_dvd_of_lt (Nat.dvd_sub hdvd (gap_dvd_units r)) (by omega)
    omega
  -- The gap is too large for a smaller multiple, so this is the last one.
  · have hnormal : binade ≤ r := by
      by_contra hsub
      rw [Nat.div_eq_of_lt (Nat.lt_of_not_le hsub)] at hfine
      omega
    have hgap : 2 * 2 ^ e ≤ gap r := by
      rw [gap_eq, ← Nat.pow_succ']
      exact Nat.pow_le_pow_right (by decide) (by omega)
    have hunits := mul_gap_le_units hnormal
    refine Nat.le_antisymm hbelow ?_
    calc m * 2 ^ e ≤ 2 ^ 53 * 2 ^ e := Nat.mul_le_mul_right _ hm
      _ = 2 ^ 52 * (2 * 2 ^ e) := by ring
      _ ≤ 2 ^ 52 * gap r := Nat.mul_le_mul_left _ hgap
      _ ≤ units r := hunits

/-! ## The error of a rounding -/

/-- A finite `nearestRank` is one of the two ranks around the quotient, on the nearer side of their
    `middle`. -/
private theorem nearestRank_eq_or (hd : 0 < d) (hfinite : nearestRank n d < infinityRank) :
    nearestRank n d = floorRank n d ∧ (n : ℚ) / d ≤ middle (floorRank n d) ∨
      nearestRank n d = floorRank n d + 1 ∧ middle (floorRank n d) ≤ (n : ℚ) / d := by
  rw [← not_lt, ← not_lt, middle_lt_div_iff hd, div_lt_middle_iff hd]
  rw [nearestRank_eq_min] at hfinite ⊢
  by_cases hbelow : 2 * n < (units (floorRank n d) + units (floorRank n d + 1)) * d
  · rw [if_pos hbelow] at hfinite ⊢
    omega
  · by_cases habove : (units (floorRank n d) + units (floorRank n d + 1)) * d < 2 * n
    · rw [if_neg hbelow, if_pos habove] at hfinite ⊢
      omega
    · rw [if_neg hbelow, if_neg habove] at hfinite ⊢
      omega

/-- The error of `nearestRank` is at most half a unit, or small in comparison with the quotient. -/
theorem abs_units_nearestRank_sub_le (hd : 0 < d) (hfinite : nearestRank n d < infinityRank) :
    |(units (nearestRank n d) : ℚ) - n / d| ≤ max (1 / 2) ((n : ℚ) / d / 2 ^ 53) := by
  have hd' : (0 : ℚ) < d := by exact_mod_cast hd
  have hbelow : (units (floorRank n d) : ℚ) ≤ n / d := by
    rw [le_div_iff₀ hd']
    exact_mod_cast units_floorRank_mul_le n d
  have habove : (n : ℚ) / d ≤ units (floorRank n d) + gap (floorRank n d) := by
    rw [div_le_iff₀ hd']
    have hlt := lt_units_floorRank_succ_mul (n := n) hd
    rw [← units_add_gap] at hlt
    exact_mod_cast Nat.le_of_lt hlt
  -- The result is at most half a gap away, so a bound for this half is enough.
  have hhalf : (gap (floorRank n d) : ℚ) / 2 ≤ max (1 / 2) ((n : ℚ) / d / 2 ^ 53) := by
    rcases le_max_iff.1 (gap_le (floorRank n d)) with hone | hsmall
    · exact le_max_of_le_left (by linarith)
    · refine le_max_of_le_right ?_
      have hpow : ((2 : ℚ) ^ 53) = 2 ^ 52 * 2 := by norm_num
      rw [hpow, ← div_div]
      have hmono : (units (floorRank n d) : ℚ) / 2 ^ 52 ≤ n / d / 2 ^ 52 := by gcongr
      linarith
  refine le_trans ?_ hhalf
  rcases nearestRank_eq_or hd hfinite with ⟨heq, hside⟩ | ⟨heq, hside⟩
  · rw [heq, abs_sub_comm, abs_of_nonneg (by linarith)]
    rw [middle_eq] at hside
    linarith
  · rw [heq, ← units_add_gap]
    push_cast
    rw [abs_of_nonneg (by linarith)]
    rw [middle_eq] at hside
    linarith

end MapperSweep.Binary64
