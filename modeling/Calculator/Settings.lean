import Calculator.Error
import Calculator.Text.Blank

/-!
# Arithmetic settings

How numbers are rounded: not at all, or to a precision that counts decimal places or significant
digits. Settings are made from loose values, which are checked before anything changes.
-/

namespace Calculator

inductive ArithmeticMode where
  | normal
  | truncate
  | round
  deriving DecidableEq, Repr

namespace ArithmeticMode

def all : List ArithmeticMode := [normal, truncate, round]

def name : ArithmeticMode → String
  | normal => "normal"
  | truncate => "truncate"
  | round => "round"

def label : ArithmeticMode → String
  | normal => "NORMAL"
  | truncate => "TRUNCATE"
  | round => "ROUND"

/-- The mode with a name, whatever the case and the blanks around it. -/
def ofName? (name : String) : Option ArithmeticMode :=
  all.find? (·.name == Text.lowercase (Text.trim name))

def ofValue (v : Value) : Except Failure ArithmeticMode :=
  match v.word?.bind ofName? with
  | some mode => .ok mode
  | none => refuse (.unknownMode v)

end ArithmeticMode

/-- The usual precision, and the decimal places that are shown when nothing is rounded. -/
def normalDecimals : Nat := 4

structure ArithmeticSettings where
  mode : ArithmeticMode := .normal
  precision : Nat := normalDecimals
  /-- The precision counts significant digits. -/
  significant : Bool := false
  deriving DecidableEq, Repr

namespace ArithmeticSettings

def precisionOf (v : Value) : Except Failure Nat :=
  match v with
  | .int i => if i < 0 then refuse (.negativePrecision i) else .ok i.toNat
  | v => refuse (.precisionKind v)

/-- The settings with the given values in place of the old ones; what is not given stays. -/
def update (s : ArithmeticSettings) (mode precision significant : Option Value) :
    Except Failure ArithmeticSettings := do
  let mode ← mode.elim (.ok s.mode) ArithmeticMode.ofValue
  let precision ← precision.elim (.ok s.precision) precisionOf
  return { mode, precision, significant := significant.elim s.significant Value.isSet }

/-- The settings made from a mode, a precision and a mark for significant digits; the defaults stand
for what is not given. -/
def ofValues (mode precision significant : Option Value) : Except Failure ArithmeticSettings :=
  ({} : ArithmeticSettings).update mode precision significant

def outline (s : ArithmeticSettings) : String :=
  s!"ArithmeticSettings(mode={s.mode.label}, precision={integerText s.precision}, " ++
    s!"use_significant_digits={(Value.bool s.significant).shown})"

end ArithmeticSettings

end Calculator
