import Calculator.Evaluation.Walk

/-!
# Results and traces

A recorder keeps the first steps of a trace up to a limit and counts those that it drops. A result
holds the value, the steps, the shown text and the settings under which it was computed.
-/

namespace Calculator

def maxSteps : Int := 20

structure StepRecorder where
  limit : Int
  steps : List Step
  dropped : Nat

namespace StepRecorder

def fresh (limit : Int) : StepRecorder := ⟨limit, [], 0⟩

def isFull (r : StepRecorder) : Bool := r.limit ≤ r.steps.length

/-- Keeps a step, or drops it if there is no room. -/
def record (r : StepRecorder) (s : Step) : StepRecorder :=
  if r.isFull then { r with dropped := r.dropped + 1 } else { r with steps := r.steps ++ [s] }

def recordAll (r : StepRecorder) (steps : List Step) : StepRecorder := steps.foldl record r

end StepRecorder

/-- The outcome of a successful evaluation. -/
structure CalculationResult where
  value : Float
  steps : List Step
  dropped : Nat
  formatted : String
  settings : ArithmeticSettings
  expression : String

namespace CalculationResult

def stepCount (r : CalculationResult) : Nat := r.steps.length

def outline (r : CalculationResult) : String :=
  s!"CalculationResult(value={floatText r.value}, " ++
    s!"formatted_result={Text.quote r.formatted}, steps={r.stepCount})"

end CalculationResult

namespace Environment

/-- The steps of the operations, as far as they can be described. -/
def steps (env : Environment) (operations : List Operation) : List Step :=
  operations.filterMap fun o => (o.step env.settings).toOption

/-- The result that a walk ends with. The value is rounded once more before it is shown; steps are
recorded for a traced evaluation only. -/
def result (env : Environment) (w : Walk) (limit : Int) (expression : String) :
    Except Failure CalculationResult := do
  let value := env.settings.applyFormat (← w.outcome)
  let formatted ← (env.settings.formatNumber value).mapError .fault
  let recorder := (StepRecorder.fresh limit).recordAll
    (if env.traced then env.steps w.operations else [])
  return { value, steps := recorder.steps, dropped := recorder.dropped, formatted,
           settings := env.settings, expression }

def calculate (env : Environment) (e : Expr) (limit : Int) (expression : String) :
    Except Failure CalculationResult := env.result (env.walk e) limit expression

end Environment

end Calculator
