import Calculator.Error
import Calculator.Settings.Format

/-!
# Functions, powers, factorials and constants

What the functions of the language compute. Angles are in radians. Arguments outside the domain are
errors of their own; a trigonometric function of an infinity is a fault.
-/

namespace Calculator

def constantValue? : String → Option Float
  | "pi" | "π" => some 3.141592653589793
  | "e" => some 2.718281828459045
  | "phi" | "φ" => some 1.618033988749895
  | _ => none

def onAngles (f : Float → Float) (v : Float) : Except Failure Float :=
  if v.isInf then .error (.fault .trigonometricDomain) else .ok (f v)

def FunctionKind.apply (f : FunctionKind) (v : Float) (span : Option Span) :
    Except Failure Float :=
  match f with
  | sin => onAngles Float.sin v
  | cos => onAngles Float.cos v
  | tan => onAngles Float.tan v
  | log => if v ≤ 0 then failAt (.logarithmDomain v) span else .ok v.log10
  | ln => if v ≤ 0 then failAt (.naturalLogarithmDomain v) span else .ok v.log
  | sqrt => if v < 0 then failAt (.squareRootDomain v) span else .ok v.sqrt

def applyNamed (name : String) (v : Float) (span : Option Span) : Except Failure Float :=
  match FunctionKind.ofName? name with
  | some f => f.apply v span
  | none => failAt .unknownFunction span

/-- A real power; a result that is not finite is an error. -/
def power (base exponent : Float) (span : Option Span) : Except Failure Float :=
  let result := base.pow exponent
  if result.isFinite then .ok result else failAt (.powerDomain base exponent) span

def Binary.isFarFrom (b : Binary) (n : Int) : Bool :=
  let e := Binary.ofFloat epsilon
  let distance := (b.signed b.numerator - n * b.denominator).natAbs
  e.numerator * b.denominator < distance * e.denominator

def factorialOf (n : Nat) : Float :=
  (List.range' 2 (n - 1)).foldl (fun product i => product * Float.ofNat i) 1.0

/-- The factorial of a number that is a whole one up to `epsilon`. -/
def factorial (v : Float) (span : Option Span) : Except Failure Float :=
  if v < 0 then failAt (.factorialDomain v) span
  else if v.isNaN then .error (.fault .nanToInteger)
  else if v.isInf then .error (.fault .infinityToInteger)
  else
    let b := Binary.ofFloat v
    let n := b.round
    if b.isFarFrom n then failAt (.factorialDomain v) span
    else if (maxFactorial : Int) < n then failAt (.factorialLimit n) span
    else .ok (factorialOf n.toNat)

end Calculator
