import MapperSweep.Invocation
import MapperSweep.Proofs.Binary64.Reading

/-!
# What the arguments of a call tell

The mapping tool learns of a run only through its arguments.  The index and the numbers can be read
from their positions, and everything else is handed on as it is.  So two runs have the same
arguments exactly if they agree in all that matters to the tool, which is everything but the kind of
the architecture.

## Key results

- `readIndex?_ofRun`, `readNumbers_ofRun`: the index and the numbers are read back
- `CoordinateMapping.name_inj`: mappings have different names
- `args_determine_run`: the arguments determine the run
-/

namespace MapperSweep

/-- The numbers of the run `c`, in the order of the arguments. -/
def RunConfig.numbers (c : RunConfig) : List Binary64 :=
  [c.parameters.lookaheadGate, c.parameters.lookaheadShuttling, c.parameters.decay,
    c.parameters.shuttlingTimeWeight, c.weights.gate, c.weights.shuttling]

/-- A mapping is determined by its `name`, which is what the tool is given. -/
theorem CoordinateMapping.name_inj {m n : CoordinateMapping} (h : m.name = n.name) : m = n := by
  cases m <;> cases n <;> first | rfl | exact absurd h (by decide)

namespace Invocation

/-! ## Reading arguments -/

/-- Reads the argument `arg` as a number. -/
def readFloat? (arg : String) : Option Binary64 := Binary64.ofText? arg.toList

/-- Reads the index of a run from the first one of `args`. -/
def readIndex? (args : List String) : Option UInt64 :=
  args[0]?.bind fun arg => readCount? arg.toList

/-- Reads the six numbers of a run, which stand in `args` after the index and the two
    directories. -/
def readNumbers (args : List String) : List (Option Binary64) :=
  ((args.drop 3).take 6).map readFloat?

variable (program inputDir outputDir : String)

/-- The index of the run `c` is read back by `readIndex?`. -/
theorem readIndex?_ofRun (c : RunConfig) :
    readIndex? (ofRun program inputDir outputDir c).args = some c.runIndex := by
  show readCount? (String.ofList (digits c.runIndex.toNat)).toList = _
  rw [String.toList_ofList, readCount?_digits]

/-- The numbers of the run `c` are read back by `readNumbers`, each from its own position. -/
theorem readNumbers_ofRun {c : RunConfig} (h : ∀ x ∈ c.numbers, x.isNaN = false) :
    readNumbers (ofRun program inputDir outputDir c).args = c.numbers.map some := by
  have hfloat : ∀ x ∈ c.numbers, readFloat? (float x) = some x := by
    intro x hx
    rw [readFloat?, float, String.toList_ofList, Binary64.ofText?_text _ (h x hx)]
  show (c.numbers.map float).map readFloat? = _
  rw [List.map_map]
  exact List.map_congr_left hfloat

private theorem verboseFlag_inj {b b' : Bool}
    (h : (if b then "1" else "0") = (if b' then "1" else "0")) : b = b' := by
  cases b <;> cases b' <;> first | rfl | exact absurd h (by decide)

/-- Runs with the same `numbers` have the same weights and, up to one flag, the same parameters. -/
private theorem eq_of_numbers_eq {c d : RunConfig} (h : c.numbers = d.numbers)
    (hverbose : c.parameters.verbose = d.parameters.verbose) :
    c.parameters = d.parameters ∧ c.weights = d.weights := by
  obtain ⟨_, _, _, _, ⟨_, _⟩, ⟨_, _, _, _, _⟩⟩ := c
  obtain ⟨_, _, _, _, ⟨_, _⟩, ⟨_, _, _, _, _⟩⟩ := d
  simp only [RunConfig.numbers, List.cons.injEq, and_true] at h
  obtain ⟨rfl, rfl, rfl, rfl, rfl, rfl⟩ := h
  obtain rfl := hverbose
  exact ⟨rfl, rfl⟩

/-! ## The arguments of a run -/

/-- Two runs without "not a number" have the same arguments exactly if they agree in the index, the
    parameters, the weights, the path of the architecture and the two mappings.  A run has thirteen
    arguments, from which `readIndex?` and `readNumbers` read its index and its numbers back; all
    texts are handed on. -/
theorem args_determine_run :
    (∀ c d : RunConfig, (∀ x ∈ c.numbers, x.isNaN = false) → (∀ x ∈ d.numbers, x.isNaN = false) →
      ((ofRun program inputDir outputDir c).args = (ofRun program inputDir outputDir d).args ↔
        c.runIndex = d.runIndex ∧ c.parameters = d.parameters ∧ c.weights = d.weights ∧
        c.architecture.configPath = d.architecture.configPath ∧
        c.coordinateMapping = d.coordinateMapping ∧ c.circuitMapping = d.circuitMapping)) ∧
    ∀ c : RunConfig, (∀ x ∈ c.numbers, x.isNaN = false) →
      let args := (ofRun program inputDir outputDir c).args
      args.length = 13 ∧
      readIndex? args = some c.runIndex ∧
      readNumbers args =
        [some c.parameters.lookaheadGate, some c.parameters.lookaheadShuttling,
          some c.parameters.decay, some c.parameters.shuttlingTimeWeight, some c.weights.gate,
          some c.weights.shuttling] ∧
      args[1]? = some inputDir ∧ args[2]? = some outputDir ∧
      args[9]? = some (if c.parameters.verbose then "1" else "0") ∧
      args[10]? = some c.architecture.configPath ∧ args[11]? = some c.coordinateMapping.name ∧
      args[12]? = some c.circuitMapping := by
  constructor
  · intro c d hc hd
    constructor
    · intro h
      have hindex := congrArg readIndex? h
      rw [readIndex?_ofRun, readIndex?_ofRun] at hindex
      have hnumbers := congrArg readNumbers h
      rw [readNumbers_ofRun _ _ _ hc, readNumbers_ofRun _ _ _ hd] at hnumbers
      -- The last four arguments are compared as texts.
      have htexts := congrArg (List.drop 9) h
      simp only [ofRun, List.drop_succ_cons, List.drop_zero, List.cons.injEq, and_true] at htexts
      obtain ⟨hverbose, hpath, hmapping, hcircuit⟩ := htexts
      obtain ⟨hparameters, hweights⟩ := eq_of_numbers_eq
        (List.map_injective_iff.2 (Option.some_injective _) hnumbers) (verboseFlag_inj hverbose)
      exact ⟨Option.some.inj hindex, hparameters, hweights, hpath,
        CoordinateMapping.name_inj hmapping, hcircuit⟩
    · rintro ⟨hindex, hparameters, hweights, hpath, hmapping, hcircuit⟩
      simp only [ofRun, hindex, hparameters, hweights, hpath, hmapping, hcircuit]
  · intro c hc args
    exact ⟨rfl, readIndex?_ofRun _ _ _ c, readNumbers_ofRun _ _ _ hc, rfl, rfl, rfl, rfl, rfl, rfl⟩

/-- A run with the least positive number, the greatest one, infinity and a zero with the given sign,
    and with texts that a shell would not hand on. -/
def extremeRun (kind : ArchitectureKind) (negative : Bool) : RunConfig where
  runIndex := 18446744073709551615
  architecture := ⟨kind, "my machines/a b.json"⟩
  coordinateMapping := .graph
  circuitMapping := "$(id) 'x' "
  weights := ⟨.ofDecimal false 17976931348623157 292, .ofDecimal false 5 (-324)⟩
  parameters :=
    { lookaheadGate := .infinity true
      decay := .zero negative
      verbose := true }

/-- For `extremeRun`, the sign of zero makes a difference to the arguments, and the kind of the
    architecture does not. -/
theorem args_determine_extremeRun :
    (ofRun "mapper" "in dir" "" (extremeRun .gate false)).args =
      (ofRun "mapper" "in dir" "" (extremeRun .hybrid false)).args ∧
    (ofRun "mapper" "in dir" "" (extremeRun .gate false)).args ≠
      (ofRun "mapper" "in dir" "" (extremeRun .gate true)).args ∧
    readNumbers (ofRun "mapper" "in dir" "" (extremeRun .gate true)).args =
      [some (.infinity true), some (.ofDecimal false 1 (-1)), some (.zero true),
        some (.ofDecimal false 1 (-1)), some (.ofDecimal false 17976931348623157 292),
        some (.ofDecimal false 5 (-324))] := by
  have hdefined : ∀ kind negative, ∀ x ∈ (extremeRun kind negative).numbers, x.isNaN = false := by
    intro kind negative
    cases kind <;> cases negative <;> exact List.all_iff_forall_prop.1 (by decide +kernel)
  obtain ⟨hiff, hread⟩ := args_determine_run "mapper" "in dir" ""
  refine ⟨?_, ?_, (hread _ (hdefined .gate true)).2.2.1⟩
  · exact (hiff _ _ (hdefined .gate false) (hdefined .hybrid false)).2
      ⟨rfl, rfl, rfl, rfl, rfl, rfl⟩
  · intro h
    obtain ⟨-, hparameters, -⟩ := (hiff _ _ (hdefined .gate false) (hdefined .gate true)).1 h
    exact absurd (congrArg (fun p : Parameters => p.decay.negative) hparameters) (by decide)

end Invocation

end MapperSweep
