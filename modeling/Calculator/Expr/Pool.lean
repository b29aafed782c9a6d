import Calculator.Error

/-!
# The supply of nodes

A parse may build a bounded number of nodes. Every node is taken from a pool, which counts them.
-/

namespace Calculator

def maxNodes : Int := 50

/-- The number of nodes that may be taken, and how many have been. -/
structure NodePool where
  capacity : Int
  count : Nat

namespace NodePool

def fresh (capacity : Int) : NodePool := ⟨capacity, 0⟩

def exhausted (p : NodePool) (span : Option Span) : MathError := .of (.nodeLimit p.capacity) span

def take (p : NodePool) (span : Option Span) : Except MathError NodePool :=
  if p.capacity ≤ p.count then .error (p.exhausted span) else .ok { p with count := p.count + 1 }

def reserve (p : NodePool) (reserved : Nat) (span : Option Span) : Except MathError Unit :=
  if p.capacity < p.count + reserved then .error (p.exhausted span) else .ok ()

end NodePool

end Calculator
