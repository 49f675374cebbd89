import Mathlib.Data.List.DropRight
import MapperSweep.Proofs.Binary64.Reading

/-!
# Numbers are written with the fewest digits

What reads back as a number is an interval around it.  So on each grid of decimals one of the two
neighbours of the number reads back if any decimal does, and a decimal with few digits that reads
back lies on the grid of that many digits or can be moved there.  The search for the shortest
decimal goes through these grids in turn.  No text with fewer significant digits is therefore read
as the number than the text that is written.

## Key results

- `readsBack_of_le_units`, `readsBack_of_units_le`: what reads back is an interval
- `coefficient_shortest_lt`: no decimal with fewer digits than the shortest reads back
- `mantissaDigits_of_ofText?`: the digits of a text that is read
- `significantDigits_text_le`: no text with fewer significant digits is read as the number
-/

namespace MapperSweep

namespace Binary64

/-! ## Moving a decimal towards the number -/

theorem middle_lt_units_succ (r : Nat) : middle r < units (r + 1) := by
  have hunits : (units r : ℚ) + gap r = units (r + 1) := by exact_mod_cast units_add_gap r
  have hgap : (0 : ℚ) < gap r := by exact_mod_cast gap_pos r
  rw [middle_eq]
  linarith

theorem units_lt_middle (r : Nat) : units r < middle r := by
  have hgap : (0 : ℚ) < gap r := by exact_mod_cast gap_pos r
  rw [middle_eq]
  linarith

/-- What lies between a decimal below `units (r + 1)` that reads back and this magnitude reads back,
    too. -/
theorem readsBack_of_le_units {r c c' : Nat} {s s' : Int} (h : readsBack (r + 1) c s = true)
    (hlow : decimalUnits c s ≤ decimalUnits c' s') (hhigh : decimalUnits c' s' ≤ units (r + 1)) :
    readsBack (r + 1) c' s' = true := by
  obtain ⟨⟨hmiddle, -⟩, hodd⟩ := readsBack_iff.1 h
  have hlt := hhigh.trans_lt (units_lt_middle (r + 1))
  refine readsBack_iff.2 ⟨⟨hmiddle.trans hlow, hlt.le⟩, fun hone => ⟨?_, hlt.ne⟩⟩
  exact ((lt_of_le_of_ne hmiddle (hodd hone).1).trans_le hlow).ne

/-- What lies between `units (r + 1)` and a decimal above it that reads back reads back, too. -/
theorem readsBack_of_units_le {r c c' : Nat} {s s' : Int} (h : readsBack (r + 1) c s = true)
    (hlow : units (r + 1) ≤ decimalUnits c' s') (hhigh : decimalUnits c' s' ≤ decimalUnits c s) :
    readsBack (r + 1) c' s' = true := by
  obtain ⟨⟨-, hmiddle⟩, hodd⟩ := readsBack_iff.1 h
  have hlt := (middle_lt_units_succ r).trans_le hlow
  refine readsBack_iff.2 ⟨⟨hlt.le, hhigh.trans hmiddle⟩, fun hone => ⟨hlt.ne, ?_⟩⟩
  exact (hhigh.trans_lt (lt_of_le_of_ne hmiddle (hodd hone).2)).ne

theorem decimalUnits_mono {c c' : Nat} (h : c ≤ c') (s : Int) :
    decimalUnits c s ≤ decimalUnits c' s := by
  have hcast : (c : ℚ) ≤ c' := by exact_mod_cast h
  exact mul_le_mul_of_nonneg_right (mul_le_mul_of_nonneg_right hcast (by positivity))
    cast_unitsPerOne_pos.le

/-- If any point of the grid of `scale` reads back, then `onGrid?` takes a neighbour of the number
    there. -/
theorem onGrid?_isSome_of_readsBack (tie : Tie) {r c : Nat} {s : Int}
    (h : readsBack (r + 1) c s = true) : (onGrid? tie (r + 1) s).isSome = true := by
  rw [Option.isSome_iff_ne_none]
  intro hnone
  obtain ⟨hbelow, habove⟩ := onGrid?_eq_none hnone
  rcases Nat.lt_or_ge (below (r + 1) s) c with hlt | hge
  · have hread := readsBack_of_units_le h (lt_decimalUnits_below_succ (r + 1) s).le
      (decimalUnits_mono (Nat.succ_le_of_lt hlt) s)
    rw [habove] at hread
    cases hread
  · have hread := readsBack_of_le_units h (decimalUnits_mono hge s)
      (decimalUnits_below_le (r + 1) s)
    rw [hbelow] at hread
    cases hread

/-- A decimal of at most `k` digits that reads back can be moved to the grid of `k` digits, which is
    the one that `shortestFrom` tries after `k - 1` failures. -/
theorem exists_readsBack_onGrid {r c k : Nat} {s : Int} (hk : 0 < k) (hc : c < 10 ^ k)
    (h : readsBack (r + 1) c s = true) :
    ∃ c', readsBack (r + 1) c' (pointPosition (r + 1) - k) = true := by
  have hlead := pow_pointPosition_le (Nat.succ_pos r)
  generalize hp : pointPosition (r + 1) = p at hlead ⊢
  rcases le_or_gt ((10 : ℚ) ^ (p - 1) * unitsPerOne) (decimalUnits c s) with hge | hlt
  -- The decimal has a digit at the leading place, and no digit below the grid.
  · have hpow : (10 : ℚ) ^ (p - 1) < 10 ^ (k + s) := by
      have hcast : (c : ℚ) < 10 ^ (k : Int) := by exact_mod_cast hc
      refine lt_of_mul_lt_mul_right (hge.trans_lt ?_) cast_unitsPerOne_pos.le
      rw [decimalUnits, zpow_add₀ (by norm_num)]
      exact mul_lt_mul_of_pos_right (mul_lt_mul_of_pos_right hcast (by positivity))
        cast_unitsPerOne_pos
    have hscale := (zpow_lt_zpow_iff_right₀ (by norm_num)).1 hpow
    obtain ⟨j, hj⟩ : ∃ j : Nat, s = p - k + j := ⟨(s - (p - k)).toNat, by omega⟩
    refine ⟨10 ^ j * c, ?_⟩
    rw [readsBack_iff, decimalUnits_pow_mul, ← hj, ← readsBack_iff]
    exact h
  -- The decimal is below the leading place, so one in the leading place is nearer.
  · have hone : decimalUnits (10 ^ (k - 1) * 1) (p - k) = (10 : ℚ) ^ (p - 1) * unitsPerOne := by
      have hplace : p - k + ((k - 1 : Nat) : Int) = p - 1 := by omega
      rw [decimalUnits_pow_mul, hplace, decimalUnits, Nat.cast_one, one_mul]
    refine ⟨10 ^ (k - 1) * 1, readsBack_of_le_units h ?_ ?_⟩
    · rw [hone]
      exact hlt.le
    · rw [hone]
      exact hlead

/-! ## The search for the shortest decimal -/

/-- A coefficient with one digit too many is a power of ten, of which `dropZeros` leaves one
    digit. -/
theorem coefficient_dropZeros_lt {c k : Nat} (hk : 0 < k) (hpos : 0 < c) (h : c ≤ 10 ^ k)
    (s : Int) : (dropZeros c s).coefficient < 10 ^ k := by
  rw [dropZeros]
  split
  · have hle := coefficient_dropZeros_le (c / 10) (s + 1)
    omega
  · rename_i hlast
    have hten : 10 ^ k % 10 = 0 := Nat.mod_eq_zero_of_dvd (dvd_pow_self 10 hk.ne')
    apply Nat.lt_of_le_of_ne h
    rintro rfl
    exact hlast ⟨hpos.ne', hten⟩

/-- `shortestFrom` ends on the first grid on which `onGrid?` takes something, or before it. -/
private theorem coefficient_shortestFrom_lt (tie : Tie) {r : Nat} (hr : 0 < r) {k used left : Nat}
    (hused : 0 < used) (hk : used ≤ k) (hleft : k < used + left)
    (hgrid : (onGrid? tie r (pointPosition r - k)).isSome = true) :
    (shortestFrom tie r (pointPosition r) used left).coefficient < 10 ^ k := by
  induction left generalizing used with
  | zero => omega
  | succ left ih =>
    rw [shortestFrom]
    split
    · rename_i c hc
      obtain ⟨hle, hread⟩ := readsBack_of_onGrid? hc
      have hcut := below_lt r used
      have hlt := coefficient_dropZeros_lt hused (pos_of_readsBack hr hread) (by omega)
        (pointPosition r - used)
      exact hlt.trans_le (Nat.pow_le_pow_right (by decide) hk)
    · rename_i hnone
      rcases Nat.lt_or_eq_of_le hk with hlt | rfl
      · exact ih (Nat.succ_pos used) hlt (by omega)
      · rw [hnone] at hgrid
        cases hgrid

/-- No decimal with fewer digits than `shortest tie r` reads back as the number of rank `r`. -/
theorem coefficient_shortest_lt (tie : Tie) {r c k : Nat} {s : Int} (hr : 0 < r) (hc : c < 10 ^ k)
    (h : readsBack r c s = true) : (shortest tie r).coefficient < 10 ^ k := by
  have hpos := pos_of_readsBack hr h
  have hk : 0 < k := by
    refine Nat.pos_of_ne_zero fun hzero => ?_
    rw [hzero, Nat.pow_zero] at hc
    omega
  rcases Nat.lt_or_ge 17 k with hmany | hfew
  · exact (coefficient_shortest_le tie hr).trans_lt (Nat.pow_lt_pow_right (by decide) hmany)
  · obtain ⟨r, rfl⟩ := Nat.exists_eq_succ_of_ne_zero hr.ne'
    obtain ⟨c', hread⟩ := exists_readsBack_onGrid hk hc h
    exact coefficient_shortestFrom_lt tie hr (by decide) hk (by omega)
      (onGrid?_isSome_of_readsBack tie hread)

end Binary64

/-! ## Significant digits -/

/-- The digits `ds` without the zeros at either end. -/
def trimZeros (ds : List Char) : List Char := (ds.dropWhile (· == '0')).rdropWhile (· == '0')

/-- The digits of `cs` before the letter of its exponent. -/
def mantissaDigits (cs : List Char) : List Char :=
  (cs.takeWhile fun c => c != 'e' && c != 'E').filter Char.isDigit

/-- The number of significant digits of `cs`: the `mantissaDigits` but for the zeros at either
    end. -/
def significantDigits (cs : List Char) : Nat := (trimZeros (mantissaDigits cs)).length

/-- Zeros at either end make no difference to `trimZeros`. -/
theorem trimZeros_append_zeros (front back : Nat) (ds : List Char) :
    trimZeros (List.replicate front '0' ++ (ds ++ List.replicate back '0')) = trimZeros ds := by
  have hzeros : ∀ k, ∀ d ∈ List.replicate k '0', (d == '0') = true := by
    intro k d hd
    rw [(List.mem_replicate.1 hd).2]
    rfl
  have hback : ∀ k, (List.replicate k '0').dropWhile (· == '0') = [] := fun k =>
    List.dropWhile_eq_nil_iff.2 (hzeros k)
  rw [trimZeros, trimZeros, List.dropWhile_append_of_pos (hzeros front), List.dropWhile_append]
  split
  · rename_i hempty
    rw [hback, List.isEmpty_iff.1 hempty]
  · rw [List.rdropWhile, List.rdropWhile, List.reverse_append, List.reverse_replicate,
      List.dropWhile_append_of_pos (hzeros back)]

/-- Only zeros are trimmed by `trimZeros`. -/
theorem exists_eq_trimZeros (ds : List Char) :
    ∃ front back, ds = List.replicate front '0' ++ (trimZeros ds ++ List.replicate back '0') := by
  obtain ⟨front, hfront⟩ : ∃ k, ds.takeWhile (· == '0') = List.replicate k '0' :=
    ⟨_, List.eq_replicate_iff.2 ⟨rfl, fun d hd =>
      beq_iff_eq.1 (List.mem_takeWhile_imp (p := (· == '0')) hd)⟩⟩
  obtain ⟨back, hback⟩ :
      ∃ k, (ds.dropWhile (· == '0')).rtakeWhile (· == '0') = List.replicate k '0' :=
    ⟨_, List.eq_replicate_iff.2 ⟨rfl, fun d hd =>
      beq_iff_eq.1 (List.mem_rtakeWhile_imp (p := (· == '0')) hd)⟩⟩
  refine ⟨front, back, ?_⟩
  rw [← hfront, trimZeros, ← hback, List.rdropWhile_append_rtakeWhile,
    List.takeWhile_append_dropWhile]

theorem length_trimZeros_le (ds : List Char) : (trimZeros ds).length ≤ ds.length :=
  ((List.rdropWhile_prefix _ _).length_le).trans (List.dropWhile_suffix _).length_le

/-! ## The digits of a text that is read -/

/-- Digits `ds` in front of a text are digits of its mantissa. -/
theorem mantissaDigits_append {ds : List Char} (h : ∀ c ∈ ds, c.isDigit = true) (cs : List Char) :
    mantissaDigits (ds ++ cs) = ds ++ mantissaDigits cs := by
  have hletter : ∀ c ∈ ds, (c != 'e' && c != 'E') = true := by
    intro c hc
    rw [Bool.and_eq_true, bne_iff_ne, bne_iff_ne]
    constructor
    · rintro rfl
      exact absurd (h 'e' hc) (by decide)
    · rintro rfl
      exact absurd (h 'E' hc) (by decide)
  rw [mantissaDigits, List.takeWhile_append_of_pos hletter, List.filter_append,
    List.filter_eq_self.2 h, mantissaDigits]

theorem isDigit_of_mem_spanDigits {cs : List Char} {c : Char} (h : c ∈ (spanDigits cs).1) :
    c.isDigit = true :=
  List.mem_takeWhile_imp h

/-- The end of a numeral, from the letter of the exponent on, has no `mantissaDigits`. -/
private theorem mantissaDigits_of_power {rest : List Char} {m n : Numeral}
    (h : (match rest with
      | [] => some m
      | c :: rest =>
        if c = 'e' ∨ c = 'E' then
          (readSignedExponent? rest).map fun e => { m with exponent := some e }
        else none) = some n) :
    mantissaDigits rest = [] ∧ n.whole = m.whole ∧ n.fraction = m.fraction := by
  cases rest with
  | nil =>
    obtain rfl := Option.some.inj h
    exact ⟨rfl, rfl, rfl⟩
  | cons c rest =>
    simp only at h
    split at h
    · rename_i hletter
      obtain ⟨e, -, rfl⟩ := Option.map_eq_some_iff.1 h
      rcases hletter with rfl | rfl
      · exact ⟨rfl, rfl, rfl⟩
      · exact ⟨rfl, rfl, rfl⟩
    · cases h

/-- The `mantissaDigits` of a text that is read as `n` are the digits before and after the point of
    `n`. -/
theorem mantissaDigits_of_numeral {negative : Bool} {cs : List Char} {n : Numeral}
    (h : Numeral.ofText? negative cs = some n) :
    mantissaDigits cs = n.whole ++ n.fraction ∧ ∀ c ∈ n.whole ++ n.fraction, c.isDigit = true := by
  have hwhole := mantissaDigits_append
    (fun c (hc : c ∈ (spanDigits cs).1) => isDigit_of_mem_spanDigits hc) (spanDigits cs).2
  rw [spanDigits_append] at hwhole
  unfold Numeral.ofText? at h
  dsimp only at h
  split at h
  -- A point follows, with digits after it.
  · rename_i afterPoint hpoint
    have hfraction := mantissaDigits_append
      (fun c (hc : c ∈ (spanDigits afterPoint).1) => isDigit_of_mem_spanDigits hc)
      (spanDigits afterPoint).2
    rw [spanDigits_append] at hfraction
    have hskip : mantissaDigits ('.' :: afterPoint) = mantissaDigits afterPoint := rfl
    split at h
    · cases h
    · obtain ⟨hrest, hw, hf⟩ := mantissaDigits_of_power h
      rw [hwhole, hpoint, hskip, hfraction, hrest, List.append_nil, hw, hf]
      refine ⟨rfl, fun c hc => ?_⟩
      exact (List.mem_append.1 hc).elim isDigit_of_mem_spanDigits isDigit_of_mem_spanDigits
  · split at h
    · cases h
    · obtain ⟨hrest, hw, hf⟩ := mantissaDigits_of_power h
      rw [hwhole, hrest, hw, hf, List.append_nil]
      exact ⟨rfl, fun c hc => isDigit_of_mem_spanDigits hc⟩

namespace Binary64

/-- What `ofWord?` reads is infinite or not a number. -/
private theorem isFinite_of_ofWord? {negative : Bool} {cs : List Char} {x : Binary64}
    (h : ofWord? negative cs = some x) : x.isFinite = false := by
  unfold ofWord? at h
  dsimp only at h
  split at h
  · obtain rfl := Option.some.inj h
    cases negative <;> decide
  · split at h
    · obtain rfl := Option.some.inj h
      cases negative <;> decide
    · cases h

/-- A finite number is read from a numeral `n`, whose digits are the `mantissaDigits` of the
    text. -/
theorem mantissaDigits_of_ofText? {cs : List Char} {x : Binary64} (hfinite : x.isFinite = true)
    (h : ofText? cs = some x) :
    ∃ n : Numeral, n.toBinary64 = x ∧ mantissaDigits cs = n.whole ++ n.fraction ∧
      ∀ c ∈ n.whole ++ n.fraction, c.isDigit = true := by
  unfold ofText? at h
  split at h
  rename_i negative rest hsign
  -- A sign is no digit.
  have hskip : mantissaDigits cs = mantissaDigits rest := by
    split at hsign
    · obtain ⟨-, rfl⟩ := Prod.mk.inj hsign
      rfl
    · obtain ⟨-, rfl⟩ := Prod.mk.inj hsign
      rfl
    · obtain ⟨-, rfl⟩ := Prod.mk.inj hsign
      rfl
  split at h
  · rename_i n hn
    rw [hskip]
    exact ⟨n, Option.some.inj h, mantissaDigits_of_numeral hn⟩
  · rw [isFinite_of_ofWord? h] at hfinite
    cases hfinite

/-! ## The digits of a text that is written -/

/-- Positional notation adds nothing but zeros to the digits of `d`. -/
private theorem trimZeros_positionalNumeral (wholePoint negative : Bool) (d : Decimal) :
    trimZeros ((positionalNumeral wholePoint negative d).whole ++
      (positionalNumeral wholePoint negative d).fraction) = trimZeros (digits d.coefficient) := by
  unfold positionalNumeral
  dsimp only
  split
  · have hpoint : (if wholePoint then ['0'] else []) = List.replicate wholePoint.toNat '0' := by
      cases wholePoint <;> rfl
    rw [hpoint, List.append_assoc, List.replicate_append_replicate]
    exact trimZeros_append_zeros 0 _ _
  · split
    · rw [List.take_append_drop]
    · rw [← List.append_assoc, ← List.replicate_one, List.replicate_append_replicate]
      have hfront := trimZeros_append_zeros (1 + ((-d.scale).toNat - (digits d.coefficient).length))
        0 (digits d.coefficient)
      rwa [List.replicate_zero, List.append_nil] at hfront

/-- A finite number is written with the digits of its `shortest` decimal, up to zeros at the
    ends. -/
theorem trimZeros_numeral (s : Style) (x : Binary64) :
    trimZeros ((x.numeral s).whole ++ (x.numeral s).fraction) =
      if x.isZero then [] else trimZeros (digits (shortest s.tie x.rank).coefficient) := by
  unfold numeral
  split
  · exact trimZeros_positionalNumeral _ _ _
  · dsimp only
    split
    · exact trimZeros_positionalNumeral _ _ _
    · rw [scientificNumeral, List.take_append_drop]

/-- The significant digits of the text of a finite number are those of its `shortest` decimal. -/
theorem significantDigits_text (s : Style) {x : Binary64} (hfinite : x.isFinite = true) :
    significantDigits (x.text s) =
      (if x.isZero then [] else trimZeros (digits (shortest s.tie x.rank).coefficient)).length := by
  have hparts := Numeral.ofText?_parts (isReadable_numeral s hfinite) s.plus
  have hdigits := (mantissaDigits_of_numeral hparts).1
  have hskip : mantissaDigits (x.text s) = (x.numeral s).whole ++ (x.numeral s).fraction := by
    rw [text_of_isFinite s hfinite, Numeral.text_eq_parts, ← hdigits]
    split
    · rfl
    · rfl
  rw [significantDigits, hskip, trimZeros_numeral]

/-- No text with fewer significant digits than `x.text s` is read as `x`. -/
theorem significantDigits_text_le (s : Style) {x : Binary64} (hfinite : x.isFinite = true)
    {cs : List Char} (h : ofText? cs = some x) :
    significantDigits (x.text s) ≤ significantDigits cs := by
  rw [significantDigits_text s hfinite]
  split
  · exact Nat.zero_le _
  rename_i hzero
  have hpos : 0 < x.rank := Nat.pos_of_ne_zero fun h => hzero (by simp [isZero, h])
  obtain ⟨n, hn, hdigits, hall⟩ := mantissaDigits_of_ofText? hfinite h
  obtain ⟨front, back, htrim⟩ := exists_eq_trimZeros (mantissaDigits cs)
  generalize hds : trimZeros (mantissaDigits cs) = ds at htrim
  rw [significantDigits, hds]
  rw [← hdigits, htrim] at hall
  have hds_all : ∀ c ∈ ds, c.isDigit = true := fun c hc => hall c (by simp [hc])
  -- Without the zeros the digits have the same value at another place.
  have hvalue : n.coefficient = 10 ^ back * readDigits ds := by
    rw [Numeral.coefficient, ← hdigits, htrim, readDigits_zeros_append, readDigits_append_zeros]
  have hread := ((ofDecimal_eq_iff hpos hfinite).1 hn).2
  obtain ⟨r, hr⟩ := Nat.exists_eq_succ_of_ne_zero hpos.ne'
  have hread' : readsBack x.rank (readDigits ds) (n.scale + back) = true := by
    rw [hr] at hread ⊢
    rw [readsBack_iff, ← decimalUnits_pow_mul, ← hvalue, ← readsBack_iff]
    exact hread
  have hlt := coefficient_shortest_lt s.tie hpos (readDigits_lt hds_all) hread'
  have hne : 0 < ds.length := by
    refine Nat.pos_of_ne_zero fun hlength => ?_
    rw [List.eq_nil_of_length_eq_zero hlength] at hread'
    exact absurd (pos_of_readsBack hpos hread') (Nat.lt_irrefl 0)
  exact (length_trimZeros_le _).trans ((Nat.length_toDigits_le_iff (by decide) hne).2 hlt)

end Binary64

end MapperSweep
