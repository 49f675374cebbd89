import Mathlib.Tactic.FieldSimp
import MapperSweep.Json.Number
import MapperSweep.Proofs.Binary64.Writing

/-!
# How precisely numbers are read

A number is written with the fewest digits that determine it, but it is read with up to five
roundings: of the digits, of one or two powers of ten, and of one or two products or quotients.  If
the digits and the powers of ten are exact then only one rounding is left, and the number comes
back.  Otherwise the relative errors of the roundings add up to less than three times `2 ^ -53`, so
that the result is at most three numbers away.

## Key results

- `binary64?_eq`: what is read from a numeral whose digits all fit
- `approx_ofNat`, `approx_power`: the errors of digits and powers of ten
- `nearestRank_near`: how far a small error leads
- `binary64?_numeral_of_isShort`: short numerals are read exactly
- `binary64?_numeral_near`: every number is read, up to three numbers away
-/

namespace MapperSweep

namespace Binary64

open Json (greatestPower)

-- Only comparisons with powers of ten need the values, and these are left to the kernel.
attribute [local irreducible] unitsPerOne greatestPower

/-! ## Errors -/

/-- The largest relative error of one rounding, for a result that is not subnormal. -/
def roundoff : ℚ := 1 / 2 ^ 53

/-- `Approx a b x v` says that `x` is the value `v` up to the relative error `a` and the error
    `b`. -/
def Approx (a b x v : ℚ) : Prop := v * (1 - a) - b ≤ x ∧ x ≤ v * (1 + a) + b

/-- If `v` is positive and the relative error is less than one, then `x` is positive. -/
private theorem Approx.pos {a x v : ℚ} (h : Approx a 0 x v) (ha : a < 1) (hv : 0 < v) : 0 < x := by
  have hlow : 0 < v * (1 - a) := mul_pos hv (by linarith)
  linarith [h.1]

/-- The error `c` of a product, from those of the factors. -/
private theorem Approx.mul {a b c x y v w : ℚ} (hx : Approx a 0 x v) (hy : Approx b 0 y w)
    (hv : 0 ≤ v) (hw : 0 ≤ w) (ha : 0 ≤ a ∧ a ≤ 1) (hb : 0 ≤ b ∧ b ≤ 1)
    (hlow : 1 - c ≤ (1 - a) * (1 - b)) (hhigh : (1 + a) * (1 + b) ≤ 1 + c) :
    Approx c 0 (x * y) (v * w) := by
  obtain ⟨hxlow, hxhigh⟩ := hx
  obtain ⟨hylow, hyhigh⟩ := hy
  have hvw : 0 ≤ v * w := mul_nonneg hv hw
  have hxnonneg : 0 ≤ v * (1 - a) := mul_nonneg hv (by linarith)
  have hynonneg : 0 ≤ w * (1 - b) := mul_nonneg hw (by linarith)
  constructor
  · calc v * w * (1 - c) - 0 = v * w * (1 - c) := by ring
      _ ≤ v * w * ((1 - a) * (1 - b)) := mul_le_mul_of_nonneg_left hlow hvw
      _ = v * (1 - a) * (w * (1 - b)) := by ring
      _ ≤ x * y := mul_le_mul (by linarith) (by linarith) hynonneg (by linarith)
  · calc x * y ≤ v * (1 + a) * (w * (1 + b)) :=
          mul_le_mul (by linarith) (by linarith) (by linarith) (mul_nonneg hv (by linarith))
      _ = v * w * ((1 + a) * (1 + b)) := by ring
      _ ≤ v * w * (1 + c) := mul_le_mul_of_nonneg_left hhigh hvw
      _ = v * w * (1 + c) + 0 := by ring

/-- The relative error `a'` and the error `b'` of a quotient, from those of the two numbers. -/
private theorem Approx.div {a b c a' b' x y v w : ℚ} (hx : Approx a b x v) (hy : Approx c 0 y w)
    (hv : 0 ≤ v) (hw : 0 < w) (hx0 : 0 ≤ x) (hb : 0 ≤ b) (hc : 0 ≤ c ∧ c < 1)
    (ha' : 0 ≤ a') (hlow : (1 - a') * (1 + c) ≤ 1 - a) (hhigh : 1 + a ≤ (1 + a') * (1 - c))
    (hpart : b ≤ b' * w * (1 - c)) : Approx a' b' (x / y) (v / w) := by
  obtain ⟨hxlow, hxhigh⟩ := hx
  obtain ⟨hylow, hyhigh⟩ := hy
  have hwc : 0 < w * (1 - c) := mul_pos hw (by linarith [hc.2])
  have hy0 : 0 < y := by linarith
  have hvw : v / w * w = v := div_mul_cancel₀ v hw.ne'
  have hvw0 : 0 ≤ v / w := div_nonneg hv hw.le
  have hb' : 0 ≤ b' := le_of_mul_le_mul_right (by linarith) hwc
  constructor
  · rw [le_div_iff₀ hy0]
    -- Multiplying by the larger divisor makes a lower bound weaker only if the bound is positive.
    rcases le_total (v / w * (1 - a') - b') 0 with hneg | hpos
    · exact (mul_nonpos_of_nonpos_of_nonneg hneg hy0.le).trans hx0
    · have hpart' : b ≤ b' * w * (1 + c) :=
        hpart.trans (mul_le_mul_of_nonneg_left (by linarith [hc.1]) (mul_nonneg hb' hw.le))
      calc (v / w * (1 - a') - b') * y ≤ (v / w * (1 - a') - b') * (w * (1 + c)) :=
            mul_le_mul_of_nonneg_left (by linarith) hpos
        _ = v / w * w * ((1 - a') * (1 + c)) - b' * w * (1 + c) := by ring
        _ = v * ((1 - a') * (1 + c)) - b' * w * (1 + c) := by rw [hvw]
        _ ≤ v * (1 - a) - b := by linarith [mul_le_mul_of_nonneg_left hlow hv]
        _ ≤ x := hxlow
  · rw [div_le_iff₀ hy0]
    have hnonneg : 0 ≤ v / w * (1 + a') + b' :=
      add_nonneg (mul_nonneg hvw0 (by linarith)) hb'
    calc x ≤ v * (1 + a) + b := hxhigh
      _ ≤ v * ((1 + a') * (1 - c)) + b' * w * (1 - c) := by
          linarith [mul_le_mul_of_nonneg_left hhigh hv]
      _ = v / w * w * ((1 + a') * (1 - c)) + b' * w * (1 - c) := by rw [hvw]
      _ = (v / w * (1 + a') + b') * (w * (1 - c)) := by ring
      _ ≤ (v / w * (1 + a') + b') * y := mul_le_mul_of_nonneg_left (by linarith) hnonneg

/-- Values up to `10 ^ greatestPower` are not rounded to infinity. -/
private theorem nearestRank_lt_infinityRank {n d : Nat} (hd : 0 < d)
    (h : (n : ℚ) / d ≤ 10 ^ greatestPower * unitsPerOne) : nearestRank n d < infinityRank := by
  have hmiddle : 2 * (10 ^ greatestPower * unitsPerOne) <
      units (infinityRank - 1) + units (infinityRank - 1 + 1) := by
    decide +kernel
  have hmiddle' : (2 * (10 ^ greatestPower * unitsPerOne) : ℚ) <
      units (infinityRank - 1) + units (infinityRank - 1 + 1) := by
    exact_mod_cast hmiddle
  have hlt : (n : ℚ) / d < middle (infinityRank - 1) := by
    rw [middle]
    linarith
  have hle := nearestRank_le_of_lt_middle hd hlt
  have hpos : 0 < infinityRank := by decide
  omega

/-- One more rounding, possibly of a subnormal value, makes the relative error `a'` of `a` and adds
    half a unit. -/
private theorem Approx.round {a a' v : ℚ} {n d : Nat} (hx : Approx a 0 ((n : ℚ) / d) v) (hv : 0 ≤ v)
    (hd : 0 < d) (hfinite : nearestRank n d < infinityRank)
    (hlow : 1 - a' ≤ (1 - a) * (1 - roundoff)) (hhigh : (1 + a) * (1 + roundoff) ≤ 1 + a') :
    Approx a' (1 / 2) (units (nearestRank n d)) v := by
  obtain ⟨hxlow, hxhigh⟩ := hx
  have hquotient : (0 : ℚ) ≤ n / d := by positivity
  have herror := abs_units_nearestRank_sub_le hd hfinite
  have hmax : max (1 / 2) ((n : ℚ) / d / 2 ^ 53) ≤ 1 / 2 + n / d * roundoff := by
    rw [roundoff, mul_one_div]
    exact max_le (by linarith [div_nonneg hquotient (by positivity : (0 : ℚ) ≤ 2 ^ 53)])
      (by linarith)
  obtain ⟨hbelow, habove⟩ := abs_le.1 (herror.trans hmax)
  have hlow' := mul_le_mul_of_nonneg_left hlow hv
  have hhigh' := mul_le_mul_of_nonneg_left hhigh hv
  rw [roundoff] at *
  constructor <;> linarith

/-- One rounding of a value that is neither subnormal nor too large has an error of at most
    `roundoff`. -/
private theorem approx_nearestRank {n d : Nat} (hd : 0 < d) (hnormal : 2 ^ 52 ≤ (n : ℚ) / d)
    (hfinite : nearestRank n d < infinityRank) :
    Approx roundoff 0 (units (nearestRank n d)) (n / d) := by
  have herror := abs_units_nearestRank_sub_le hd hfinite
  rw [max_eq_right (by linarith), abs_le] at herror
  rw [Approx, roundoff]
  constructor <;> linarith [herror.1, herror.2]

/-- One rounding of a whole number `n` that is not too large has an error of at most `roundoff`. -/
private theorem approx_whole {n : Nat} (hn : 0 < n) (hle : n ≤ 10 ^ greatestPower) :
    Approx roundoff 0 (units (nearestRank (n * unitsPerOne) 1)) (n * unitsPerOne) := by
  have hunits : 2 ^ 52 ≤ unitsPerOne := by decide +kernel
  have hnormal : (2 ^ 52 : ℚ) ≤ n * unitsPerOne := by
    exact_mod_cast hunits.trans (Nat.le_mul_of_pos_left _ hn)
  have hfinite : (n * unitsPerOne : ℚ) ≤ 10 ^ greatestPower * unitsPerOne := by
    exact_mod_cast Nat.mul_le_mul_right _ hle
  have hdiv : ((n * unitsPerOne : Nat) : ℚ) / (1 : Nat) = n * unitsPerOne := by
    push_cast
    ring
  rw [← hdiv] at hnormal hfinite ⊢
  exact approx_nearestRank Nat.one_pos hnormal (nearestRank_lt_infinityRank Nat.one_pos hfinite)

/-- `ofNat c` is `c` with an error of at most one `roundoff`. -/
theorem approx_ofNat {c : Nat} (hc : 0 < c) (hlt : c < UInt64.size) :
    Approx roundoff 0 (units (ofNat c).rank) (c * unitsPerOne) := by
  have hsize : UInt64.size ≤ 10 ^ greatestPower := by decide +kernel
  exact approx_whole hc (hlt.le.trans hsize)

/-- `ofNat c` is exact up to `2 ^ 53`. -/
theorem units_ofNat_of_le {c : Nat} (hc : c ≤ 2 ^ 53) : units (ofNat c).rank = c * unitsPerOne := by
  obtain ⟨r, hr⟩ := exists_units_eq hc 1074
  have hone : unitsPerOne = 2 ^ 1074 := by rw [unitsPerOne, Nat.pow_eq]
  rw [← hone] at hr
  have hlarge : 2 ^ 53 * unitsPerOne < units infinityRank := by decide +kernel
  have hfinite : r < infinityRank := by
    rw [← units_strictMono.lt_iff_lt, hr]
    exact Nat.lt_of_le_of_lt (Nat.mul_le_mul_right _ hc) hlarge
  have hrank : (ofNat c).rank = r :=
    nearestRank_eq_of_units Nat.one_pos hfinite (by rw [hr, Nat.cast_one, div_one])
  rw [hrank, hr]

/-- `10 ^ k` is rounded once, if the format has it. -/
private theorem rank_power {k : Nat} (hk : k ≤ greatestPower) :
    (ofDecimal false 1 k).rank = nearestRank (10 ^ k * unitsPerOne) 1 := by
  have hone : ¬(1 : Nat) = 0 := by decide
  rw [greatestPower] at hk
  rw [ofDecimal, if_neg hone, if_neg (by omega), if_neg (by omega), ofRatio, ofUnits]
  simp

/-- `10 ^ k` has an error of at most one `roundoff`, if the format has it. -/
theorem approx_power {k : Nat} (hk : k ≤ greatestPower) :
    Approx roundoff 0 (units (ofDecimal false 1 k).rank) (10 ^ k * unitsPerOne) := by
  have happrox := approx_whole (Nat.pow_pos (by decide)) (Nat.pow_le_pow_right (by decide) hk)
  rw [← rank_power hk] at happrox
  exact_mod_cast happrox

/-- `10 ^ k` is exact up to `10 ^ 22`. -/
theorem units_power_of_le {k : Nat} (hk : k ≤ 22) :
    units (ofDecimal false 1 k).rank = 10 ^ k * unitsPerOne := by
  have hall : ∀ k : Nat, k ≤ 22 → units (ofDecimal false 1 k).rank = 10 ^ k * unitsPerOne := by
    decide +kernel
  exact hall k hk

/-- `PowerWithin a b k` says that `10 ^ k` is rounded with a relative error of at most `a / b` times
    `roundoff`, in whole numbers so that it can be decided. -/
private def PowerWithin (a b k : Nat) : Prop :=
  b * 2 ^ 53 * (10 ^ k * unitsPerOne) ≤
      b * 2 ^ 53 * units (ofDecimal false 1 k).rank + a * (10 ^ k * unitsPerOne) ∧
    b * 2 ^ 53 * units (ofDecimal false 1 k).rank ≤
      b * 2 ^ 53 * (10 ^ k * unitsPerOne) + a * (10 ^ k * unitsPerOne)

private instance (a b k : Nat) : Decidable (PowerWithin a b k) :=
  inferInstanceAs (Decidable (_ ∧ _))

private theorem approx_of_powerWithin {a b k : Nat} (hb : 0 < b) (h : PowerWithin a b k) :
    Approx (a / b * roundoff) 0 (units (ofDecimal false 1 k).rank) (10 ^ k * unitsPerOne) := by
  have hlow : (b * 2 ^ 53 * (10 ^ k * unitsPerOne) : ℚ) ≤
      b * 2 ^ 53 * units (ofDecimal false 1 k).rank + a * (10 ^ k * unitsPerOne) := by
    exact_mod_cast h.1
  have hhigh : (b * 2 ^ 53 * units (ofDecimal false 1 k).rank : ℚ) ≤
      b * 2 ^ 53 * (10 ^ k * unitsPerOne) + a * (10 ^ k * unitsPerOne) := by
    exact_mod_cast h.2
  have hpos : (0 : ℚ) < b * 2 ^ 53 := by positivity
  generalize (10 ^ k * unitsPerOne : ℚ) = v at *
  have herror : v * (a / b * roundoff) * (b * 2 ^ 53) = a * v := by
    rw [roundoff]
    field_simp
  constructor
  · refine le_of_mul_le_mul_right ?_ hpos
    linarith
  · refine le_of_mul_le_mul_right ?_ hpos
    linarith

/-- Powers of ten up to `10 ^ 32` are better than `roundoff`, see `PowerWithin`. -/
private theorem approx_small_power {k : Nat} (hk : k ≤ 32) :
    Approx (41 / 50 * roundoff) 0 (units (ofDecimal false 1 k).rank) (10 ^ k * unitsPerOne) := by
  have hall : ∀ k : Nat, k ≤ 32 → PowerWithin 41 50 k := by decide +kernel
  exact approx_of_powerWithin (by decide) (hall k hk)

/-- `10 ^ greatestPower` is much better than `roundoff`. -/
private theorem approx_greatest_power :
    Approx (1 / 10 * roundoff) 0 (units (ofDecimal false 1 greatestPower).rank)
      (10 ^ greatestPower * unitsPerOne) := by
  have hwithin : PowerWithin 1 10 greatestPower := by decide +kernel
  exact_mod_cast approx_of_powerWithin (by decide) hwithin

/-! ## How far an error leads -/

/-- A value `v` is read from between the two middles around the number of rank `r + 1`.  If the
    result of reading is `v` up to a relative error of less than three roundings and a small part of
    a unit, then it is at most three numbers away. -/
theorem nearestRank_near {r n d : Nat} {v : ℚ} (hd : 0 < d) (hr : r + 1 < infinityRank)
    (hlow : middle r ≤ v) (hhigh : v ≤ middle (r + 1))
    (happrox : Approx (147 / 50 * roundoff) (51 / 1000) ((n : ℚ) / d) v) :
    r + 1 ≤ nearestRank n d + 3 ∧ nearestRank n d ≤ r + 1 + 3 := by
  have hgap : ∀ k, (1 : ℚ) ≤ gap k := fun k => by exact_mod_cast gap_pos k
  have hmono : ∀ k, (gap k : ℚ) ≤ gap (k + 1) := fun k => by
    exact_mod_cast gap_mono (Nat.le_succ k)
  have hdouble : ∀ k, (gap (k + 1) : ℚ) ≤ 2 * gap k := fun k => by exact_mod_cast gap_succ_le k
  have hunits : ∀ k, (units k : ℚ) < 2 ^ 53 * gap k := fun k => by
    exact_mod_cast units_lt_mul_gap k
  have hnext : ∀ k, (units (k + 1) : ℚ) = units k + gap k := fun k => by
    exact_mod_cast (units_add_gap k).symm
  rw [roundoff] at happrox
  obtain ⟨hbelow, habove⟩ := happrox
  -- A number is below `2 ^ 53` times the gap above it, so three roundings are at most three gaps.
  constructor
  -- Below a power of two the gaps are half as large, so they are compared one by one.
  · rcases Nat.lt_or_ge r 3 with hsmall | hlarge
    · omega
    · obtain ⟨j, rfl⟩ := Nat.exists_eq_add_of_le' hlarge
      have hfar : middle j < (n : ℚ) / d := by
        rw [middle_eq] at hlow ⊢
        linarith [hgap j, hmono j, hmono (j + 1), hmono (j + 2), hdouble j, hdouble (j + 1),
          hdouble (j + 2), hunits j, hnext j, hnext (j + 1), hnext (j + 2)]
      have hlt := lt_nearestRank_of_middle_lt hd hfar (by omega)
      omega
  · have hfar : (n : ℚ) / d < middle (r + 1 + 3) := by
      rw [middle_eq] at hhigh ⊢
      linarith [hgap (r + 1), hmono (r + 1), hmono (r + 2), hmono (r + 3), hunits (r + 1),
        hnext (r + 1), hnext (r + 2), hnext (r + 3)]
    exact nearestRank_le_of_lt_middle hd hfar

/-! ## Multiplying and dividing by powers of ten -/

/-- The digits `c` multiplied by `10 ^ k`, before the product is rounded. -/
private theorem approx_scaleUp {c k : Nat} (hc : 0 < c) (hlt : c < UInt64.size)
    (hk : k ≤ greatestPower) :
    Approx (147 / 50 * roundoff) (51 / 1000)
      ((units (ofNat c).rank * units (ofDecimal false 1 k).rank : Nat) / unitsPerOne)
      (decimalUnits c k) := by
  have hU := cast_unitsPerOne_pos
  -- Two roundings came before, and the one of the product is left to the middles.
  have hmul := (approx_ofNat hc hlt).mul (c := 147 / 50 * roundoff) (approx_power hk)
    (by positivity) (by positivity) (by norm_num [roundoff]) (by norm_num [roundoff])
    (by norm_num [roundoff]) (by norm_num [roundoff])
  have hone : Approx 0 0 (unitsPerOne : ℚ) unitsPerOne := by
    constructor <;> linarith
  have hvalue : (c * unitsPerOne * (10 ^ k * unitsPerOne) : ℚ) / unitsPerOne =
      decimalUnits c k := by
    rw [decimalUnits, zpow_natCast]
    field_simp
  rw [← hvalue, Nat.cast_mul]
  exact hmul.div hone (by positivity) hU (by positivity) le_rfl (by norm_num)
    (by norm_num [roundoff]) (by norm_num [roundoff]) (by norm_num [roundoff]) (by positivity)

/-- A value `y` divided by `10 ^ k`, with the errors of both. -/
private theorem Approx.scaleDown {a b c a' b' v : ℚ} {y k : Nat} (hy : Approx a b y v)
    (hpower : Approx c 0 (units (ofDecimal false 1 k).rank) (10 ^ k * unitsPerOne)) (hv : 0 ≤ v)
    (hb : 0 ≤ b) (hc : 0 ≤ c ∧ c < 1) (ha' : 0 ≤ a') (hlow : (1 - a') * (1 + c) ≤ 1 - a)
    (hhigh : 1 + a ≤ (1 + a') * (1 - c)) (hpart : b ≤ b' * 10 ^ k * (1 - c)) :
    Approx a' b' ((y * unitsPerOne : Nat) / units (ofDecimal false 1 k).rank) (v / 10 ^ k) := by
  have hU := cast_unitsPerOne_pos
  have hscaled : Approx a (b * unitsPerOne) (y * unitsPerOne) (v * unitsPerOne) := by
    have hlow' := mul_le_mul_of_nonneg_right hy.1 hU.le
    have hhigh' := mul_le_mul_of_nonneg_right hy.2 hU.le
    constructor <;> linarith
  have hpart' := mul_le_mul_of_nonneg_right hpart hU.le
  rw [Nat.cast_mul, ← mul_div_mul_right v (10 ^ k) hU.ne']
  exact hscaled.div hpower (by positivity) (by positivity) (by positivity) (by positivity) hc ha'
    hlow hhigh (by linarith)

/-- The digits `c` divided by `10 ^ k`, before the quotient is rounded. -/
private theorem approx_scaleDown {c k : Nat} (hc : 0 < c) (hlt : c < UInt64.size)
    (hk : k ≤ greatestPower) :
    Approx (147 / 50 * roundoff) (51 / 1000)
      ((units (ofNat c).rank * unitsPerOne : Nat) / units (ofDecimal false 1 k).rank)
      (decimalUnits c (-k)) := by
  have hvalue : (c * unitsPerOne : ℚ) / 10 ^ k = decimalUnits c (-k) := by
    rw [decimalUnits, zpow_neg, zpow_natCast]
    ring
  rw [← hvalue]
  exact (approx_ofNat hc hlt).scaleDown (approx_power hk) (by positivity) le_rfl
    (by norm_num [roundoff]) (by norm_num [roundoff]) (by norm_num [roundoff])
    (by norm_num [roundoff]) (by norm_num [roundoff])

/-- The digits `c` divided by `10 ^ greatestPower`, rounded, and then by `10 ^ k`. -/
private theorem approx_scaleDown_twice {c k : Nat} (hc : 0 < c) (hlt : c < UInt64.size)
    (hpos : 0 < k) (hk : k ≤ 32) :
    Approx (147 / 50 * roundoff) (51 / 1000)
      ((units ((ofNat c).scaleDown (ofDecimal false 1 greatestPower)).rank * unitsPerOne : Nat) /
        units (ofDecimal false 1 k).rank)
      (decimalUnits c (-(greatestPower + k : Nat))) := by
  have hU := cast_unitsPerOne_pos
  have hten : (10 : ℚ) ≤ 10 ^ k := le_self_pow₀ (by norm_num) hpos.ne'
  have hvalue : (c * unitsPerOne : ℚ) / 10 ^ greatestPower / 10 ^ k =
      decimalUnits c (-(greatestPower + k : Nat)) := by
    rw [decimalUnits, zpow_neg, zpow_natCast, div_div, ← pow_add]
    ring
  -- The first quotient has no subnormal result by itself, but the rounding may be that coarse.
  have hfirst : Approx (1101 / 1000 * roundoff) 0
      ((units (ofNat c).rank * unitsPerOne : Nat) / units (ofDecimal false 1 greatestPower).rank)
      (c * unitsPerOne / 10 ^ greatestPower) :=
    (approx_ofNat hc hlt).scaleDown approx_greatest_power (by positivity) le_rfl
      (by norm_num [roundoff]) (by norm_num [roundoff]) (by norm_num [roundoff])
      (by norm_num [roundoff]) (by norm_num [roundoff])
  have hdivisor : 0 < units (ofDecimal false 1 greatestPower).rank := by decide +kernel
  have hfinite : ((units (ofNat c).rank * unitsPerOne : Nat) : ℚ) /
      units (ofDecimal false 1 greatestPower).rank ≤ 10 ^ greatestPower * unitsPerOne := by
    have hsize : 2 * UInt64.size ≤ 10 ^ greatestPower := by decide +kernel
    have hc' : (2 * c : ℚ) ≤ 10 ^ greatestPower := by exact_mod_cast (by omega)
    have hone : (1 : ℚ) ≤ 10 ^ greatestPower := one_le_pow₀ (by norm_num)
    have hquotient : (c * unitsPerOne : ℚ) / 10 ^ greatestPower ≤ c * unitsPerOne :=
      div_le_self (by positivity) hone
    have hupper := hfirst.2
    rw [roundoff] at hupper
    have hscaled := mul_le_mul_of_nonneg_right hc' hU.le
    have hnonneg : (0 : ℚ) ≤ c * unitsPerOne := by positivity
    linarith
  have hrounded : Approx (211 / 100 * roundoff) (1 / 2)
      (units ((ofNat c).scaleDown (ofDecimal false 1 greatestPower)).rank)
      (c * unitsPerOne / 10 ^ greatestPower) :=
    hfirst.round (by positivity) hdivisor (nearestRank_lt_infinityRank hdivisor hfinite)
      (by norm_num [roundoff]) (by norm_num [roundoff])
  rw [← hvalue]
  exact hrounded.scaleDown (approx_small_power hk) (by positivity) (by norm_num)
    (by norm_num [roundoff]) (by norm_num [roundoff]) (by norm_num [roundoff])
    (by norm_num [roundoff]) (by rw [roundoff]; linarith)

end Binary64

/-- `n.IsShort` holds of a numeral whose digits and whose power of ten are exact, see
    `units_ofNat_of_le` and `units_power_of_le`. -/
def Numeral.IsShort (n : Numeral) : Prop := n.coefficient ≤ 2 ^ 53 ∧ n.scale.natAbs ≤ 22

instance (n : Numeral) : Decidable n.IsShort := inferInstanceAs (Decidable (_ ∧ _))

namespace Json

open Binary64

/-! ## Digits that all fit -/

private theorem le_foldl_digits (significand : Nat) (ds : List Char) :
    significand ≤ ds.foldl (fun n d => 10 * n + digitValue d) significand := by
  induction ds generalizing significand with
  | nil => exact Nat.le_refl _
  | cons d ds ih => exact Nat.le_trans (by omega) (ih (10 * significand + digitValue d))

/-- If the significand stays small, `appendDigits` takes all digits. -/
private theorem appendDigits_of_lt {significand : Nat} {ds : List Char}
    (h : ds.foldl (fun n d => 10 * n + digitValue d) significand < UInt64.size) :
    appendDigits significand ds =
      (ds.foldl (fun n d => 10 * n + digitValue d) significand, ds.length) := by
  induction ds generalizing significand with
  | nil => rfl
  | cons d ds ih =>
    have hnext := Nat.lt_of_le_of_lt (le_foldl_digits (10 * significand + digitValue d) ds) h
    rw [appendDigits, if_pos hnext, ih h]
    rfl

/-- A numeral whose digits all fit is read in full by `binary64?`. -/
theorem binary64?_eq {n : Numeral} (h : n.coefficient < UInt64.size) :
    binary64? n = (scaleByTen? (.ofNat n.coefficient) n.scale).map fun x =>
      if n.negative then x.neg else x := by
  have hcoefficient : n.coefficient = n.fraction.foldl (fun n d => 10 * n + digitValue d)
      (n.whole.foldl (fun n d => 10 * n + digitValue d) 0) := List.foldl_append
  rw [hcoefficient] at h ⊢
  have hwhole := Nat.lt_of_le_of_lt (le_foldl_digits _ n.fraction) h
  rw [binary64?, appendDigits_of_lt hwhole]
  simp only [appendDigits_of_lt h, Nat.sub_self, Nat.cast_zero, Int.add_zero, Numeral.scale,
    Option.map_eq_bind]
  rfl

/-! ## The steps of reading -/

private theorem scaleByTen?_of_nonneg (x : Binary64) {k : Nat} (hk : k ≤ greatestPower) :
    scaleByTen? x k = if (x.scaleUp (ofDecimal false 1 k)).isFinite then
      some (x.scaleUp (ofDecimal false 1 k)) else none := by
  rw [scaleByTen?, Int.natAbs_natCast, if_pos hk, if_pos (Int.natCast_nonneg k)]

private theorem scaleByTen?_of_neg (x : Binary64) {k : Nat} (hpos : 0 < k)
    (hk : k ≤ greatestPower) :
    scaleByTen? x (-k) = some (x.scaleDown (ofDecimal false 1 k)) := by
  rw [scaleByTen?, Int.natAbs_neg, Int.natAbs_natCast, if_pos hk, if_neg (by omega)]

private theorem scaleByTen?_of_far {x : Binary64} (hx : x.isZero = false) {k : Nat} (hpos : 0 < k) :
    scaleByTen? x (-(greatestPower + k : Nat)) =
      scaleByTen? (x.scaleDown (ofDecimal false 1 greatestPower)) (-k) := by
  rw [scaleByTen?, Int.natAbs_neg, Int.natAbs_natCast, if_neg (by omega), hx,
    if_neg Bool.false_ne_true, if_neg (by omega)]
  congr 1
  omega

/-! ## Written numbers -/

/-- The numeral of a number has at most seventeen digits, with the zeros that are filled in, or is
    `10 ^ 17`. -/
theorem coefficient_numeral_le {x : Binary64} (hx : 0 < x.rank) :
    (x.numeral numberStyle).coefficient ≤ 10 ^ 17 := by
  have hdigits := coefficient_shortest_le numberStyle.tie hx
  have hlength := lt_pow_length_digits (shortest numberStyle.tie x.rank).coefficient
  have hzero : x.isZero = false := beq_eq_false_iff_ne.2 hx.ne'
  rw [numeral, hzero, if_neg Bool.false_ne_true]
  generalize shortest numberStyle.tie x.rank = d at *
  dsimp only
  split
  · rename_i hpositional
    rw [coefficient_positionalNumeral, zerosAfter]
    split
    -- A whole number has at most sixteen digits before the point and one zero after it.
    · have hplaces : d.scale.toNat + 1 + (digits d.coefficient).length ≤ 17 := by
        simp only [Style.positional, numberStyle, Option.all_some, Bool.and_eq_true,
          decide_eq_true_eq] at hpositional
        omega
      calc 10 ^ (d.scale.toNat + 1) * d.coefficient
          ≤ 10 ^ (d.scale.toNat + 1) * 10 ^ (digits d.coefficient).length :=
            Nat.mul_le_mul_left _ hlength.le
        _ = 10 ^ (d.scale.toNat + 1 + (digits d.coefficient).length) := by rw [← Nat.pow_add]
        _ ≤ 10 ^ 17 := Nat.pow_le_pow_right (by decide) hplaces
    · rwa [Nat.pow_zero, Nat.one_mul]
  · rwa [coefficient_scientificNumeral]

/-- The numeral of a number has no very small power of ten. -/
theorem le_scale_numeral {x : Binary64} (hx : 0 < x.rank) :
    -340 ≤ (x.numeral numberStyle).scale := by
  have hscale := le_scale_shortest numberStyle.tie hx
  have hzero : x.isZero = false := beq_eq_false_iff_ne.2 hx.ne'
  rw [numeral, hzero, if_neg Bool.false_ne_true]
  generalize shortest numberStyle.tie x.rank = d at *
  dsimp only
  split
  · have hzeros := scale_positionalNumeral numberStyle.wholePoint x.negative d
    rw [zerosAfter] at hzeros
    split at hzeros
    · simp only [numberStyle, Bool.toNat_true] at hzeros ⊢
      omega
    · omega
  · rwa [scale_scientificNumeral]

private theorem exists_natCast_or_neg (s : Int) :
    (∃ k : Nat, s = k) ∨ ∃ k : Nat, 0 < k ∧ s = -k := by
  rcases lt_or_ge s 0 with hs | hs
  · exact .inr ⟨s.natAbs, by omega, by omega⟩
  · exact .inl ⟨s.natAbs, by omega⟩

/-- For exact digits and an exact power of ten `scaleByTen?` rounds once, and what it rounds is the
    exact value. -/
private theorem scaleByTen?_exact {r c : Nat} {s : Int} (hr : 0 < r) (hfinite : r < infinityRank)
    (hread : readsBack r c s = true) (hc : c ≤ 2 ^ 53) (hs : s.natAbs ≤ 22) :
    ∃ y, scaleByTen? (.ofNat c) s = some y ∧ y.negative = false ∧ y.rank = r := by
  obtain ⟨r, rfl⟩ := Nat.exists_eq_succ_of_ne_zero hr.ne'
  have hU := cast_unitsPerOne_pos
  have hdigits := units_ofNat_of_le hc
  have hgreatest : s.natAbs ≤ greatestPower := Nat.le_trans hs (by decide)
  obtain ⟨k, rfl⟩ | ⟨k, hpos, rfl⟩ := exists_natCast_or_neg s
  -- Both factors are exact, so the product or quotient that is rounded is the decimal itself.
  · rw [Int.natAbs_natCast] at hs hgreatest
    have hrank : ((ofNat c).scaleUp (ofDecimal false 1 k)).rank = r + 1 := by
      refine nearestRank_of_readsBack unitsPerOne_pos hfinite hread ?_
      rw [hdigits, units_power_of_le hs, decimalUnits, zpow_natCast]
      push_cast
      field_simp
    refine ⟨_, ?_, rfl, hrank⟩
    rw [scaleByTen?_of_nonneg _ hgreatest, isFinite, hrank, decide_eq_true hfinite, if_pos rfl]
  · rw [Int.natAbs_neg, Int.natAbs_natCast] at hs hgreatest
    have hpower := units_power_of_le hs
    have hpowerPos : 0 < units (ofDecimal false 1 k).rank := by
      rw [hpower]
      exact Nat.mul_pos (Nat.pow_pos (by decide)) unitsPerOne_pos
    have hrank : ((ofNat c).scaleDown (ofDecimal false 1 k)).rank = r + 1 := by
      refine nearestRank_of_readsBack hpowerPos hfinite hread ?_
      rw [hdigits, hpower, decimalUnits, zpow_neg, zpow_natCast]
      push_cast
      field_simp
    exact ⟨_, scaleByTen?_of_neg _ hpos hgreatest, rfl, hrank⟩

/-- For any digits and any power of ten `scaleByTen?` ends at most three numbers away, unless one of
    the largest numbers is read as too large. -/
private theorem scaleByTen?_near {r c : Nat} {s : Int} (hr : 0 < r) (hfinite : r < infinityRank)
    (hread : readsBack r c s = true) (hc : c < UInt64.size) (hs : -340 ≤ s) :
    (∃ y, scaleByTen? (.ofNat c) s = some y ∧ y.negative = false ∧
      r ≤ y.rank + 3 ∧ y.rank ≤ r + 3) ∨
    scaleByTen? (.ofNat c) s = none ∧ infinityRank ≤ r + 3 := by
  have hcpos := pos_of_readsBack hr hread
  have hscale := scale_le_of_readsBack hr hfinite hread
  obtain ⟨r, rfl⟩ := Nat.exists_eq_succ_of_ne_zero hr.ne'
  obtain ⟨⟨hlow, hhigh⟩, -⟩ := readsBack_iff.1 hread
  have hU := cast_unitsPerOne_pos
  have hunits : 0 < units (ofNat c).rank := by
    exact_mod_cast (approx_ofNat hcpos hc).pos (by norm_num [roundoff])
      (mul_pos (by exact_mod_cast hcpos) hU)
  have hpower : ∀ {k}, k ≤ greatestPower → 0 < units (ofDecimal false 1 k).rank := by
    intro k hk
    exact_mod_cast (approx_power hk).pos (by norm_num [roundoff]) (mul_pos (by positivity) hU)
  obtain ⟨k, rfl⟩ | ⟨k, hpos, rfl⟩ := exists_natCast_or_neg s
  · have hk : k ≤ greatestPower := by
      rw [greatestPower]
      omega
    obtain ⟨hbelow, habove⟩ := nearestRank_near unitsPerOne_pos hfinite hlow hhigh
      (approx_scaleUp hcpos hc hk)
    rw [scaleByTen?_of_nonneg _ hk]
    by_cases hresult : ((ofNat c).scaleUp (ofDecimal false 1 k)).isFinite = true
    · rw [if_pos hresult]
      exact .inl ⟨(ofNat c).scaleUp (ofDecimal false 1 k), rfl, rfl, hbelow, habove⟩
    · rw [if_neg hresult]
      rw [isFinite, decide_eq_true_eq, Nat.not_lt] at hresult
      exact .inr ⟨rfl, Nat.le_trans hresult habove⟩
  · rcases Nat.lt_or_ge greatestPower k with hfar | hk
    -- The power of ten is divided off in two steps.
    · obtain ⟨j, rfl⟩ := Nat.exists_eq_add_of_le hfar.le
      have hj : j ≤ 32 := by
        rw [greatestPower] at hs
        omega
      have hj' : j ≤ greatestPower := by
        rw [greatestPower]
        omega
      have hzero : (ofNat c).isZero = false := by
        refine beq_eq_false_iff_ne.2 fun hzero => ?_
        rw [hzero] at hunits
        exact absurd hunits (by decide)
      have hnear := nearestRank_near (hpower hj') hfinite hlow hhigh
        (approx_scaleDown_twice hcpos hc (by omega) hj)
      rw [scaleByTen?_of_far hzero (by omega)]
      exact .inl ⟨_, scaleByTen?_of_neg _ (by omega) hj', rfl, hnear⟩
    · have hnear := nearestRank_near (hpower hk) hfinite hlow hhigh (approx_scaleDown hcpos hc hk)
      exact .inl ⟨_, scaleByTen?_of_neg _ hpos hk, rfl, hnear⟩

/-! ## Reading what was written -/

/-- Putting a sign on `y` does not change its rank. -/
private theorem signed_eq {y : Binary64} (hy : y.negative = false) (negative : Bool) :
    (if negative then y.neg else y).negative = negative ∧
      (if negative then y.neg else y).rank = y.rank := by
  cases negative with
  | false => exact ⟨hy, rfl⟩
  | true =>
    refine ⟨?_, rfl⟩
    rw [if_pos rfl, neg, hy]
    rfl

private theorem binary64?_numeral_zero {x : Binary64} (hx : x.rank = 0) :
    binary64? (x.numeral numberStyle) = some x := by
  have hall : ∀ negative,
      binary64? ((zero negative).numeral numberStyle) = some (zero negative) := by
    decide +kernel
  have hzero : x = zero x.negative := ext_rank rfl hx
  rw [hzero]
  exact hall x.negative

/-- The numeral of a number is read in full, see `binary64?_eq`. -/
private theorem binary64?_numeral {x : Binary64} (hx : 0 < x.rank) :
    binary64? (x.numeral numberStyle) =
      (scaleByTen? (.ofNat (x.numeral numberStyle).coefficient) (x.numeral numberStyle).scale).map
        fun y => if x.negative then y.neg else y := by
  have hsize : 10 ^ 17 < UInt64.size := by decide
  rw [binary64?_eq (Nat.lt_of_le_of_lt (coefficient_numeral_le hx) hsize), negative_numeral]

/-- A finite number whose numeral `IsShort` is read back. -/
theorem binary64?_numeral_of_isShort {x : Binary64} (hfinite : x.isFinite = true)
    (hshort : (x.numeral numberStyle).IsShort) : binary64? (x.numeral numberStyle) = some x := by
  rcases Nat.eq_zero_or_pos x.rank with hzero | hpos
  · exact binary64?_numeral_zero hzero
  · obtain ⟨y, hy, hsign, hrank⟩ := scaleByTen?_exact hpos (of_decide_eq_true hfinite)
      (readsBack_numeral numberStyle hpos) hshort.1 hshort.2
    have hsigned := signed_eq hsign x.negative
    rw [binary64?_numeral hpos, hy, Option.map_some,
      ext_rank hsigned.1 (hsigned.2.trans hrank)]

/-- The three largest numbers are read as finite numbers, so the exception of `scaleByTen?_near`
    does not occur. -/
private theorem isSome_binary64?_of_large {x : Binary64} (hfinite : x.isFinite = true)
    (hlarge : infinityRank ≤ x.rank + 3) : (binary64? (x.numeral numberStyle)).isSome = true := by
  have hall : ∀ negative : Bool, ∀ k : Fin 3, (binary64? (numeral numberStyle
      ⟨negative, infinityRank - 1 - k, Nat.lt_of_le_of_lt (Nat.sub_le _ _) (by decide)⟩)).isSome :=
    by decide +kernel
  obtain ⟨negative, rank, hlt⟩ := x
  have hrank : rank < infinityRank := of_decide_eq_true hfinite
  have hlast : infinityRank ≤ rank + 3 := hlarge
  have hk := hall negative ⟨infinityRank - 1 - rank, by omega⟩
  have hsub : infinityRank - 1 - (infinityRank - 1 - rank) = rank := by omega
  simp only [hsub] at hk
  exact hk

/-- Every finite `x` is read, with its sign and at most three numbers away. -/
theorem binary64?_numeral_near {x : Binary64} (hfinite : x.isFinite = true) :
    ∃ y, binary64? (x.numeral numberStyle) = some y ∧ y.negative = x.negative ∧
      x.rank ≤ y.rank + 3 ∧ y.rank ≤ x.rank + 3 := by
  rcases Nat.eq_zero_or_pos x.rank with hzero | hpos
  · exact ⟨x, binary64?_numeral_zero hzero, rfl, by omega, by omega⟩
  have hsize : 10 ^ 17 < UInt64.size := by decide
  have hrank : x.rank < infinityRank := of_decide_eq_true hfinite
  rcases scaleByTen?_near hpos hrank (readsBack_numeral numberStyle hpos)
    (Nat.lt_of_le_of_lt (coefficient_numeral_le hpos) hsize) (le_scale_numeral hpos) with
    ⟨y, hy, hsign, hnear⟩ | ⟨hnone, hlarge⟩
  · have hsigned := signed_eq hsign x.negative
    refine ⟨if x.negative then y.neg else y, ?_, hsigned.1, ?_⟩
    · rw [binary64?_numeral hpos, hy, Option.map_some]
    · rwa [hsigned.2]
  -- The bound would allow a result that is too large, but the few numbers in question are read.
  · have hsome := isSome_binary64?_of_large hfinite hlarge
    rw [binary64?_numeral hpos, hnone] at hsome
    cases hsome

end Json

end MapperSweep
