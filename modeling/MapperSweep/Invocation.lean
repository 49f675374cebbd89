import MapperSweep.Binary64.Writing
import MapperSweep.RunConfig

/-!
# Calls of the mapping tool

The tool takes its arguments by position and without a shell in between, so every text is handed on
as it is.
-/

namespace MapperSweep

/-- A call of a program: its path and its arguments. -/
structure Invocation where
  program : String
  args : List String
deriving DecidableEq

namespace Invocation

/-- The layout of numbers in arguments: always positional, and a point only before a fraction. -/
def numberStyle : Binary64.Style where
  lowest := none
  highest := none
  wholePoint := false
  plus := false
  tie := .up

/-- The text of the number `x` in an argument. -/
def float (x : Binary64) : String := String.ofList (x.text numberStyle)

/-- The call of `program` for the run `c`. -/
def ofRun (program inputDir outputDir : String) (c : RunConfig) : Invocation where
  program
  args :=
    [String.ofList (digits c.runIndex.toNat), inputDir, outputDir,
      float c.parameters.lookaheadGate, float c.parameters.lookaheadShuttling,
      float c.parameters.decay, float c.parameters.shuttlingTimeWeight, float c.weights.gate,
      float c.weights.shuttling, if c.parameters.verbose then "1" else "0",
      c.architecture.configPath, c.coordinateMapping.name, c.circuitMapping]

/-- The program of the call `i` and its arguments, with blanks between them. -/
def text (i : Invocation) : String := i.args.foldl (fun s arg => s ++ " " ++ arg) i.program

end Invocation

end MapperSweep
