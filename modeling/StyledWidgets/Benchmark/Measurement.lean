/-
Module: StyledWidgets.Benchmark.Measurement
Purpose: Repeated runs of an action against a clock, and what the times of the runs say.
Main exports: Benchmark, Benchmark.run, Measurement.ofSamples, Measurement.meanText
-/
import StyledWidgets.Number.FixedPoint

namespace StyledWidgets

/-! ### Measurements -/

/-- What the times of runs say, in nanoseconds. -/
structure Measurement where
  name : String
  iterations : Nat
  total : Nat
  mean : Nat
  deviation : Nat
  min : Nat
  max : Nat
  perSecond : Float

/-- A number of nanoseconds for calculations. -/
def nanoseconds (time : Nat) : Float := time.toUInt64.toFloat

/-- The sum of the squared distances of times from a mean, taken in their order. -/
def squaredDistances (mean : Nat) (samples : List Nat) : Float :=
  samples.foldl
    (fun sum time =>
      let distance := nanoseconds time - nanoseconds mean
      sum + distance * distance)
    0.0

/-- The standard deviation of times from their mean, with its fraction cut off. -/
def deviationOf (mean : Nat) (samples : List Nat) : Nat :=
  if samples.isEmpty then 0
  else
    let variance := squaredDistances mean samples / nanoseconds samples.length
    variance.sqrt.toUInt64.toNat

namespace Measurement

/-- What the times of runs say. The mean has its fraction cut off; without runs all is zero. -/
def ofSamples (name : String) (samples : List Nat) : Measurement :=
  let total := samples.foldl (· + ·) 0
  let mean := total / samples.length
  { name := name
    iterations := samples.length
    total := total
    mean := mean
    deviation := deviationOf mean samples
    min := samples.min?.getD 0
    max := samples.max?.getD 0
    perSecond := if mean = 0 then 0.0 else 1000000000.0 / nanoseconds mean }

/-- A time with two places in the largest unit of which it is at least one; nanoseconds have no
places. -/
def timeText (time : Nat) : String :=
  let inUnits := fun (unit : Float) => Number.fixedPoint 2 (nanoseconds time / unit)
  if 1000000000 ≤ time then inUnits 1000000000.0 ++ " s"
  else if 1000000 ≤ time then inUnits 1000000.0 ++ " ms"
  else if 1000 ≤ time then inUnits 1000.0 ++ " µs"
  else Nat.repr time ++ " ns"

/-- The text of the mean time. -/
def meanText (measurement : Measurement) : String := timeText measurement.mean

end Measurement

/-! ### Runs -/

/-- How often an action is run: first without a look at the clock, then with. -/
structure Benchmark where
  warmup : Nat := 10
  iterations : Nat := 100
  deriving Repr, DecidableEq, Inhabited

namespace Benchmark

variable {m : Type → Type} [Monad m]

/-- Run an action a number of times. -/
def runTimes (action : m Unit) : Nat → m Unit
  | 0 => pure ()
  | more + 1 => do
      action
      runTimes action more

/-- Run an action a number of times and take the time of every run. -/
def sampleTimes (clock : m Nat) (action : m Unit) : Nat → m (List Nat)
  | 0 => pure []
  | more + 1 => do
      let start ← clock
      action
      let finish ← clock
      return (finish - start) :: (← sampleTimes clock action more)

/-- Warm an action up and measure it. -/
def run (benchmark : Benchmark) (clock : m Nat) (name : String) (action : m Unit) :
    m Measurement := do
  runTimes action benchmark.warmup
  return Measurement.ofSamples name (← sampleTimes clock action benchmark.iterations)

end Benchmark

end StyledWidgets
