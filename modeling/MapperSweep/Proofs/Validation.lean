import MapperSweep.Proofs.Grid

/-!
# Settings that give a run

Settings are looked through range by range before a sweep, and the grid is made of all ranges at
once.  The two agree: settings are accepted exactly if there is time for a run and a run to make.
Both rest on what it takes for a single range to leave the grid without a run.

## Key results

- `Range.configs_eq_nil_iff`: a grid has no run exactly if one of its ranges is barren
- `Range.validate_eq`: the check complains about the first barren range
- `Settings.validate_accepts_exactly_runs`: settings are accepted exactly if they give a run
-/

namespace MapperSweep

/-- The ranges that a `Grid` goes through. -/
inductive Range where
  | architectures
  | coordinateMappings
  | weights
deriving DecidableEq

namespace Range

variable {s : Settings}

/-- All ranges, in the order in which `Settings.validate` looks at them. -/
def all : List Range := [architectures, coordinateMappings, weights]

/-- `r.IsBarren s` holds if nothing in the range is good for a run.  Only a pair of two zeros is not
    good for one: infinite weights are, and so is what is not a number. -/
def IsBarren (s : Settings) : Range → Prop
  | architectures => s.architectures = []
  | coordinateMappings => s.coordinateMappings = []
  | weights => ∀ w ∈ s.weights, w ∈ Weights.zeroPairs

instance (s : Settings) : DecidablePred (IsBarren s)
  | architectures => inferInstanceAs (Decidable (s.architectures = []))
  | coordinateMappings => inferInstanceAs (Decidable (s.coordinateMappings = []))
  | weights => inferInstanceAs (Decidable (∀ w ∈ s.weights, w ∈ Weights.zeroPairs))

/-- What the message of the `complaint` says that there is none of. -/
def lacking : Range → String
  | architectures => "architectures"
  | coordinateMappings => "coordinate mappings"
  | weights => "weight pair with a non-zero weight"

/-- The complaint about a range that `IsBarren`. -/
def complaint : Range → Settings.Invalid
  | architectures => .noArchitectures
  | coordinateMappings => .noCoordinateMappings
  | weights => .noWeights

/-- The message of a complaint names its range `r`. -/
theorem message_complaint (r : Range) :
    r.complaint.message = "No " ++ r.lacking ++ " configured" := by
  cases r <;> decide

/-! ## The grid -/

/-- The weights are barren if no one of them is among the `usefulWeights`. -/
theorem isBarren_weights_iff :
    weights.IsBarren s ↔ (Grid.ofSettings s).usefulWeights = [] := by
  rw [Grid.usefulWeights_eq, List.filter_eq_nil_iff]
  simp only [decide_not, Bool.not_eq_true', decide_eq_false_iff_not, Classical.not_not]
  rfl

/-- The grid of `s` has no run exactly if one of its ranges is barren. -/
theorem configs_eq_nil_iff (s : Settings) :
    (Grid.ofSettings s).configs = [] ↔ ∃ r, IsBarren s r := by
  rw [← List.length_eq_zero_iff, Grid.length_configs, Grid.size, Nat.mul_eq_zero, Nat.mul_eq_zero,
    List.length_eq_zero_iff, List.length_eq_zero_iff, List.length_eq_zero_iff]
  constructor
  · rintro ((ha | hm) | hw)
    · exact ⟨architectures, ha⟩
    · exact ⟨coordinateMappings, hm⟩
    · exact ⟨weights, isBarren_weights_iff.2 hw⟩
  · rintro ⟨r, hr⟩
    cases r with
    | architectures => exact .inl (.inl hr)
    | coordinateMappings => exact .inl (.inr hr)
    | weights => exact .inr (isBarren_weights_iff.1 hr)

/-! ## The check -/

/-- `validate` looks at all ranges in their order, and then at the time limit. -/
theorem validate_eq (s : Settings) :
    s.validate = (all.find? (IsBarren s ·)).elim
      (if s.timeout = 0 then .error .noTime else .ok ()) fun r => .error r.complaint := by
  have hweights : s.weights.all Weights.isDegenerate = true ↔ weights.IsBarren s := by
    simp only [List.all_eq_true, Weights.isDegenerate_iff, IsBarren]
  unfold Settings.validate
  -- A range is looked at only if none before it is barren, so the cases are nested.
  by_cases ha : architectures.IsBarren s
  · have hempty : s.architectures.isEmpty = true := List.isEmpty_iff.2 ha
    simp [all, ha, hempty, complaint]
  · have hempty : s.architectures.isEmpty = false := List.isEmpty_eq_false_iff.2 ha
    by_cases hm : coordinateMappings.IsBarren s
    · have hempty' : s.coordinateMappings.isEmpty = true := List.isEmpty_iff.2 hm
      simp [all, ha, hm, hempty, hempty', complaint]
    · have hempty' : s.coordinateMappings.isEmpty = false := List.isEmpty_eq_false_iff.2 hm
      by_cases hw : weights.IsBarren s
      · simp [all, ha, hm, hw, hempty, hempty', hweights, complaint]
      · simp [all, ha, hm, hw, hempty, hempty', hweights]

theorem find?_eq_none_iff : all.find? (IsBarren s ·) = none ↔ ¬∃ r, IsBarren s r := by
  have hall : ∀ r : Range, r ∈ all := by
    intro r
    cases r <;> decide
  rw [List.find?_eq_none]
  constructor
  · rintro h ⟨r, hr⟩
    exact h r (hall r) (decide_eq_true hr)
  · intro h r _ hr
    exact h ⟨r, of_decide_eq_true hr⟩

/-- `validate` accepts settings if no range is barren and there is time for a run. -/
theorem validate_eq_ok_iff : s.validate = .ok () ↔ s.timeout ≠ 0 ∧ ¬∃ r, IsBarren s r := by
  rw [validate_eq]
  cases hfirst : all.find? (IsBarren s ·) with
  | some r =>
    have hr : ∃ r, IsBarren s r := ⟨r, by simpa using List.find?_some hfirst⟩
    simp [hr]
  | none =>
    have hno := find?_eq_none_iff.1 hfirst
    by_cases ht : s.timeout = 0
    · simp [ht]
    · simp [ht, hno]

end Range

/-- Whatever the ranges are and whatever numbers the weights hold, `validate` accepts settings
    exactly if the time limit is at least one second and the grid has at least one run.  If it has
    none, the complaint is about the first range that is to blame, and names it. -/
theorem Settings.validate_accepts_exactly_runs (s : Settings) :
    (s.validate = .ok () ↔ 1 ≤ s.timeout ∧ 1 ≤ (Grid.ofSettings s).configs.length) ∧
      ((Grid.ofSettings s).configs = [] →
        ∃ r : Range, Range.all.find? (·.IsBarren s) = some r ∧ s.validate = .error r.complaint ∧
          r.complaint.message = "No " ++ r.lacking ++ " configured") := by
  have hruns := Range.configs_eq_nil_iff s
  constructor
  · have hsome : 1 ≤ (Grid.ofSettings s).configs.length ↔ ¬∃ r, Range.IsBarren s r := by
      rw [Nat.one_le_iff_ne_zero, ne_eq, List.length_eq_zero_iff, hruns]
    have htime : 1 ≤ s.timeout ↔ s.timeout ≠ 0 := by
      rw [UInt64.le_iff_toNat_le, ne_eq, ← UInt64.toNat_inj]
      exact Nat.one_le_iff_ne_zero
    rw [hsome, htime, Range.validate_eq_ok_iff]
  · intro hempty
    cases hfirst : Range.all.find? (Range.IsBarren s ·) with
    | none => exact absurd (hruns.1 hempty) (Range.find?_eq_none_iff.1 hfirst)
    | some r =>
      refine ⟨r, rfl, ?_, r.message_complaint⟩
      rw [Range.validate_eq, hfirst, Option.elim_some]

/-- Settings with two barren ranges and no time. -/
def Settings.barrenSample : Settings where
  coordinateMappings := []
  weights := [⟨.zero true, .zero false⟩]
  timeout := 0

/-- In `barrenSample` the first one of the two ranges is complained about. -/
theorem Settings.validate_barrenSample :
    (Grid.ofSettings barrenSample).configs = [] ∧
      barrenSample.validate = .error .noCoordinateMappings ∧
      Invalid.noCoordinateMappings.message = "No coordinate mappings configured" := by
  have hempty : (Grid.ofSettings barrenSample).configs = [] := by decide +kernel
  obtain ⟨r, hfirst, herror, hmessage⟩ := (validate_accepts_exactly_runs barrenSample).2 hempty
  obtain rfl : .coordinateMappings = r :=
    Option.some.inj (Eq.trans (by decide +kernel) hfirst)
  exact ⟨hempty, herror, hmessage⟩

end MapperSweep
