import Calculator.Error
import Calculator.Expr

/-!
# Printing expressions

An expression is printed with the brackets that its tree needs: around an operand that binds less
tightly than its place asks for. A negated operand needs none on the right of an operator. Numbers
are printed without an exponent.
-/

namespace Calculator

def wholeLiteralLimit : Nat := tens 16

/-- A number in positional notation, in digits that read back as the same number. -/
def literalText (v : Float) : Except Fault String :=
  if v.isNaN then .error .nanToInteger
  else if v.isInf then .error .infinityToInteger
  else
    let b := Binary.ofFloat v
    if b.isWhole ∧ b.truncate.natAbs < wholeLiteralLimit then .ok (integerText b.truncate)
    else
      let d := Decimal.ofFloat v
      .ok (String.ofList (dropFractionZeros (withSign d.negative d.positional)))

namespace Expr

/-- The strength of what cannot be torn apart. -/
def atomStrength : Nat := 4

/-- How tightly the outermost construct of a tree binds. -/
def strength : Expr → Nat
  | binary op _ _ unary _ => if unary then Operator.mul.strength else op.elim 0 Operator.strength
  | number v _ => if v < 0 then Operator.mul.strength else atomStrength
  | _ => atomStrength

/-- The tree prints as a minus sign and an operand. -/
def isNegated : Expr → Bool
  | binary _ _ _ unary _ => unary
  | number v _ => v < 0
  | _ => false

def bracketed (needed : Bool) (text : String) : String := if needed then s!"({text})" else text

def bracketsLeft (op : Operator) (left : Expr) : Bool :=
  if op = .pow then left.strength ≤ op.strength else left.strength < op.strength

def bracketsRight (op : Operator) (right : Expr) : Bool :=
  !right.isNegated &&
    if op = .pow then right.strength < op.strength else right.strength ≤ op.strength

/-- The text of an expression, which reads back as an equivalent tree. -/
def print : Expr → Except Fault String
  | number v _ => do
    let digits ← literalText v.abs
    return if v < 0 then "-" ++ digits else digits
  | named name _ => .ok name
  | binary op left right unary _ => do
    if unary then
      let operand ← right.print
      return "-" ++ bracketed (right.strength < Operator.pow.strength) operand
    else
      match op with
      | none => .error .missingOperator
      | some op =>
        let leftText ← left.print
        let rightText ← right.print
        return bracketed (bracketsLeft op left) leftText ++ s!" {op.sign} " ++
          bracketed (bracketsRight op right) rightText
  | call f argument _ => do return s!"{f.name}({← argument.print})"
  | factorial operand _ => do
    return bracketed (operand.strength < atomStrength) (← operand.print) ++ "!"
  | group inner _ => do return s!"({← inner.print})"
  | blank _ => .error .unknownNode

end Expr

end Calculator
