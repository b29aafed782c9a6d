import Calculator.Number.Decimal
import Calculator.Text.Blank
import Calculator.Text.Loose
import Calculator.Text.Numeric

/-!
# Reading numbers

The value of a numeral in an expression, and the value of a text that is given for a number. The
latter may be surrounded by white space, carry a sign and an exponent, use the digits of any script,
separate digits by single underscores, and name an infinity or not-a-number. A whole number has
neither point nor exponent nor name, and not too many digits.
-/

namespace Calculator

def Decimal.ofDigits (negative : Bool) (whole fraction : List Char) (exponent : Int) : Decimal :=
  ⟨negative, Nat.ofDigitChars 10 (whole ++ fraction) 0, exponent - fraction.length⟩

def splitPoint (cs : List Char) : List Char × List Char :=
  (cs.takeWhile (· != '.'), (cs.dropWhile (· != '.')).drop 1)

/-- The decimal that a numeral of digits and at most one point denotes. -/
def Decimal.ofNumeral (cs : List Char) : Decimal :=
  let (whole, fraction) := splitPoint cs
  .ofDigits false whole fraction 0

def numeralValue (s : String) : Float := (Decimal.ofNumeral s.toList).toFloat

def splitSign : List Char → Bool × List Char
  | '-' :: cs => (true, cs)
  | '+' :: cs => (false, cs)
  | cs => (false, cs)

/-- A power of ten: nothing, or `e` with an optional sign and digits. -/
def readExponent? : List Char → Option Int
  | [] => some 0
  | c :: cs =>
    let (negative, digits) := splitSign cs
    if c.toLower = 'e' ∧ digits ≠ [] ∧ digits.all Char.isDigit then
      let n : Int := Nat.ofDigitChars 10 digits 0
      some (if negative then -n else n)
    else none

/-- A decimal numeral: digits with at most one point and at least one digit, and an exponent. -/
def readDecimal? (negative : Bool) (cs : List Char) : Option Decimal :=
  let whole := cs.takeWhile Char.isDigit
  let rest := cs.dropWhile Char.isDigit
  let (fraction, rest) := match rest with
    | '.' :: rest => (rest.takeWhile Char.isDigit, rest.dropWhile Char.isDigit)
    | rest => ([], rest)
  if whole = [] ∧ fraction = [] then none
  else (readExponent? rest).map (.ofDigits negative whole fraction ·)

/-- The text without the underscores between two digits; none if one stands elsewhere. -/
def dropUnderscores? (previous : Char) : List Char → Option (List Char)
  | [] => some []
  | c :: cs =>
    if c = '_' then
      if previous.isDigit ∧ (cs.headD ' ').isDigit then dropUnderscores? c cs else none
    else (dropUnderscores? c cs).map (c :: ·)

/-- White space as a space and a decimal digit of any script as the usual one. -/
def plainChar (c : Char) : Char :=
  if Text.isWhiteSpace c then ' ' else (Text.decimalDigit? c).elim c Nat.digitChar

def namedFloat? (negative : Bool) (word : List Char) : Option Float :=
  match String.ofList (word.map Char.toLower) with
  | "inf" | "infinity" => some (floatOfBits negative infinityBits)
  | "nan" => some (0.0 / 0.0)
  | _ => none

/-- The sign and the characters of a written number, in plain characters and without the blanks
around it and the underscores in it. -/
def plainNumeral? (s : String) : Option (Bool × List Char) :=
  (dropUnderscores? ' ' (Text.trimBoth (· == ' ') (s.toList.map plainChar))).map splitSign

def readFloat? (s : String) : Option Float := do
  let (negative, digits) ← plainNumeral? s
  match namedFloat? negative digits with
  | some v => some v
  | none => (readDecimal? negative digits).map Decimal.toFloat

/-- The most digits of a whole number that is read. -/
def maxIntegerDigits : Nat := 4300

/-- Why a text is not read as a whole number. -/
inductive IntegerFlaw where
  | notWhole
  | tooManyDigits (count : Nat)
  deriving DecidableEq, Repr

def integerOfDigits (negative : Bool) (digits : List Char) : Int :=
  let n : Int := Nat.ofDigitChars 10 digits 0
  if negative then -n else n

def plainPoint : Text.CodePoint → Char
  | .char c => plainChar c
  | .half _ => '?'

/-- The whole number that a text stands for. Digits past the greatest number of them are noticed
before what stands behind them. -/
def readInteger (t : Text.LooseText) : Except IntegerFlaw Int :=
  let (negative, cs) := splitSign ((t.points.map plainPoint).dropWhile (· == ' '))
  let isPart (c : Char) : Bool := c.isDigit || c == '_'
  match dropUnderscores? ' ' (cs.takeWhile isPart) with
  | none => .error .notWhole
  | some digits =>
    if maxIntegerDigits < digits.length then .error (.tooManyDigits digits.length)
    else if digits = [] ∨ (cs.dropWhile isPart).any (· != ' ') then .error .notWhole
    else .ok (integerOfDigits negative digits)

end Calculator
