import MapperSweep.Grid

/-!
# The runs of a grid

A grid is counted and enumerated in two different ways.  The count is a product of three lengths,
and the enumeration goes through three nested ranges, of which the last one leaves out the weights
that are zero twice.  Run `k` of the enumeration is found again by writing `k` in mixed radix: the
last digit is the place of the weights, the one before it that of the mapping, and what is left is
the place of the machine.

## Key results

- `length_configs`: the enumeration is as long as the count
- `points_getElem?`: a point by the digits of its place
- `configs_enumerate_digits`: all runs of a grid, by their places
-/

namespace MapperSweep

/-- If all blocks `f a` have the length `n`, then place `k` of the whole is place `k % n` of the
    block `k / n`. -/
theorem getElem?_flatMap_of_length {f : α → List β} {n : Nat} {l : List α} (hn : 0 < n)
    (h : ∀ a ∈ l, (f a).length = n) (k : Nat) :
    (l.flatMap f)[k]? = l[k / n]?.bind fun a => (f a)[k % n]? := by
  induction l generalizing k with
  | nil => simp
  | cons a l ih =>
    have hfirst : (f a).length = n := h a List.mem_cons_self
    rw [List.flatMap_cons]
    by_cases hk : k < n
    · rw [List.getElem?_append_left (by omega), Nat.div_eq_of_lt hk, Nat.mod_eq_of_lt hk]
      rfl
    -- Beyond the first block, the place is counted from its end.
    · have hdiv : k / n = (k - n) / n + 1 := Nat.div_eq_sub_div hn (by omega)
      have hmod : k % n = (k - n) % n := Nat.mod_eq_sub_mod (by omega)
      rw [List.getElem?_append_right (by omega), hfirst, hdiv, hmod, List.getElem?_cons_succ]
      exact ih (fun b hb => h b (List.mem_cons_of_mem a hb)) (k - n)

/-- Blocks `f a` of the same length `n` have a length of `n` for each of them. -/
theorem length_flatMap_of_length {f : α → List β} {n : Nat} {l : List α}
    (h : ∀ a ∈ l, (f a).length = n) : (l.flatMap f).length = l.length * n := by
  rw [List.length_flatMap, List.map_congr_left h, List.map_const', List.sum_replicate_nat]

/-! ## Weights that are worth a run -/

/-- `x.isZero` holds of the two zeros and of nothing else. -/
theorem Binary64.isZero_iff {x : Binary64} :
    x.isZero = true ↔ x = .zero false ∨ x = .zero true := by
  obtain ⟨negative, rank, hrank⟩ := x
  cases negative <;> simp [isZero, zero]

/-- The pairs of weights that are zero twice, one for each choice of the two signs. -/
def Weights.zeroPairs : List Weights :=
  [false, true].flatMap fun s => [false, true].map fun t => ⟨.zero s, .zero t⟩

theorem Weights.isDegenerate_iff {w : Weights} : w.isDegenerate = true ↔ w ∈ zeroPairs := by
  obtain ⟨gate, shuttling⟩ := w
  simp only [isDegenerate, Bool.and_eq_true, Binary64.isZero_iff, zeroPairs]
  constructor
  · rintro ⟨rfl | rfl, rfl | rfl⟩ <;> simp
  · simp only [List.mem_flatMap, List.mem_map, mk.injEq]
    rintro ⟨s, -, t, -, rfl, rfl⟩
    exact ⟨by cases s <;> simp, by cases t <;> simp⟩

namespace Grid

variable {g : Grid}

/-- `usefulWeights` leaves out exactly the pairs of zeros. -/
theorem usefulWeights_eq (g : Grid) :
    g.usefulWeights = g.weights.filter (· ∉ Weights.zeroPairs) := by
  refine List.filter_congr fun w _ => ?_
  rw [Bool.eq_iff_iff]
  simp [← Weights.isDegenerate_iff]

/-! ## Counting -/

/-- Every machine `a` has the same number of points. -/
private theorem length_points_of (a : Architecture) :
    (g.coordinateMappings.flatMap fun m => g.usefulWeights.map fun w => (a, m, w)).length =
      g.coordinateMappings.length * g.usefulWeights.length :=
  length_flatMap_of_length fun _ _ => List.length_map _

/-- `g.size` is the number of runs, before they are made. -/
theorem length_configs (g : Grid) : g.configs.length = g.size := by
  rw [configs, List.length_mapIdx, points, length_flatMap_of_length fun a _ => length_points_of a,
    ← Nat.mul_assoc]
  rfl

/-- Run `i` of `g.configs` has the number `i`, and weights that are not both zero. -/
theorem config_of_getElem? {i : Nat} {c : RunConfig} (h : g.configs[i]? = some c) :
    i < g.size ∧ c.runIndex = UInt64.ofNat i ∧ c.weights.isDegenerate = false := by
  have hlt : i < g.size := by
    rw [← g.length_configs]
    exact (List.getElem?_eq_some_iff.1 h).1
  rw [configs, List.getElem?_mapIdx, Option.map_eq_some_iff] at h
  obtain ⟨point, hpoint, rfl⟩ := h
  refine ⟨hlt, rfl, ?_⟩
  -- A point is made from the weights that were worth a run.
  have hmem := List.mem_of_getElem? hpoint
  simp only [points, List.mem_flatMap, List.mem_map] at hmem
  obtain ⟨a, -, m, -, w, hw, rfl⟩ := hmem
  show w.isDegenerate = false
  simpa using (List.mem_filter.1 hw).2

/-! ## Enumerating -/

/-- Point `k` has the machine, the mapping and the weights at the digits of `k`, where the weights
    go fastest. -/
theorem points_getElem? (hmappings : 0 < g.coordinateMappings.length)
    (hweights : 0 < g.usefulWeights.length) (k : Nat) :
    g.points[k]? =
      g.architectures[k / (g.coordinateMappings.length * g.usefulWeights.length)]?.bind fun a =>
      g.coordinateMappings[k / g.usefulWeights.length % g.coordinateMappings.length]?.bind fun m =>
      g.usefulWeights[k % g.usefulWeights.length]?.map fun w => (a, m, w) := by
  unfold points
  rw [getElem?_flatMap_of_length (Nat.mul_pos hmappings hweights) fun a _ => length_points_of a]
  congr 1
  funext a
  -- The place within the machine's block is split once more.
  rw [getElem?_flatMap_of_length hweights fun m _ => List.length_map _, Nat.mod_mul_left_div_self,
    Nat.mod_mul_left_mod]
  simp only [List.getElem?_map]

/-- If the number of runs fits into 64 bits, then `g` has as many runs as the product of its three
    ranges, where pairs of zeros do not count as weights.  Run `k` has the number `k`, its machine,
    mapping and weights are at the digits of `k`, and all else is the same for all runs. -/
theorem configs_enumerate_digits (g : Grid) (useful : List Weights)
    (huseful : useful = g.weights.filter (· ∉ Weights.zeroPairs))
    (hfits : g.architectures.length * g.coordinateMappings.length * useful.length < UInt64.size) :
    g.size = g.architectures.length * g.coordinateMappings.length * useful.length ∧
      g.configs.length = g.size ∧
      ∀ k < g.size, ∃ c, g.configs[k]? = some c ∧ c.runIndex.toNat = k ∧
        g.architectures[k / (g.coordinateMappings.length * useful.length)]? = some c.architecture ∧
        g.coordinateMappings[k / useful.length % g.coordinateMappings.length]? =
          some c.coordinateMapping ∧
        useful[k % useful.length]? = some c.weights ∧
        c.circuitMapping = g.circuitMapping ∧ c.parameters = g.parameters := by
  rw [← usefulWeights_eq] at huseful
  subst huseful
  refine ⟨rfl, g.length_configs, ?_⟩
  intro k hk
  have hsize : k < g.architectures.length *
      (g.coordinateMappings.length * g.usefulWeights.length) := by
    rw [← Nat.mul_assoc]
    exact hk
  -- There is a run at all, so no range is empty.
  have hpos : 0 < g.coordinateMappings.length * g.usefulWeights.length :=
    Nat.pos_of_mul_pos_left (Nat.zero_lt_of_lt hsize)
  have hmappings : 0 < g.coordinateMappings.length := Nat.pos_of_mul_pos_right hpos
  have hweights : 0 < g.usefulWeights.length := Nat.pos_of_mul_pos_left hpos
  have hplace : k / (g.coordinateMappings.length * g.usefulWeights.length) <
      g.architectures.length := (Nat.div_lt_iff_lt_mul hpos).2 hsize
  have ha := List.getElem?_eq_getElem hplace
  have hm := List.getElem?_eq_getElem (Nat.mod_lt (k / g.usefulWeights.length) hmappings)
  have hw := List.getElem?_eq_getElem (Nat.mod_lt k hweights)
  have hpoint := points_getElem? hmappings hweights k
  rw [ha, hm, hw] at hpoint
  refine ⟨g.config k (_, _, _), ?_, ?_, ha, hm, hw, rfl, rfl⟩
  · rw [configs, List.getElem?_mapIdx, hpoint]
    rfl
  · exact UInt64.toNat_ofNat_of_lt' (Nat.lt_trans hk hfits)

/-- A grid of two machines and two mappings.  Of its three pairs of weights, the first one is not
    worth a run, and the last one is because what is not a number is not zero. -/
def sampleGrid : Grid where
  architectures := [⟨.gate, "gate.json"⟩, ⟨.hybrid, "hybrid.json"⟩]
  coordinateMappings := [.trivial, .graph]
  weights := [⟨.zero false, .zero true⟩, ⟨.ofNat 1, .zero false⟩, ⟨.nan false, .zero false⟩]
  circuitMapping := "identity"
  parameters := {}

/-- In `sampleGrid` run 6 is the first one of the second machine with the second mapping. -/
theorem configs_enumerate_sampleGrid :
    sampleGrid.size = 8 ∧ sampleGrid.configs.length = 8 ∧
      sampleGrid.configs[6]? = some
        { runIndex := 6, architecture := ⟨.hybrid, "hybrid.json"⟩, coordinateMapping := .graph,
          circuitMapping := "identity", weights := ⟨.ofNat 1, .zero false⟩, parameters := {} } := by
  have huseful : [⟨.ofNat 1, .zero false⟩, ⟨.nan false, .zero false⟩] =
      sampleGrid.weights.filter (· ∉ Weights.zeroPairs) := by decide +kernel
  obtain ⟨hsize, hlength, hruns⟩ :=
    configs_enumerate_digits sampleGrid _ huseful (by decide)
  obtain ⟨c, hc, hnumber, ha, hm, hw, hcircuit, hparameters⟩ := hruns 6 (by decide +kernel)
  refine ⟨hsize, hlength.trans hsize, hc.trans (congrArg some ?_)⟩
  obtain ⟨runIndex, architecture, coordinateMapping, circuitMapping, weights, parameters⟩ := c
  obtain rfl : 6 = runIndex := UInt64.toNat.inj hnumber.symm
  obtain rfl : ⟨.hybrid, "hybrid.json"⟩ = architecture := Option.some.inj ha
  obtain rfl : .graph = coordinateMapping := Option.some.inj hm
  obtain rfl : ⟨.ofNat 1, .zero false⟩ = weights := Option.some.inj hw
  obtain rfl : circuitMapping = "identity" := hcircuit
  obtain rfl : parameters = {} := hparameters
  rfl

end Grid

end MapperSweep
