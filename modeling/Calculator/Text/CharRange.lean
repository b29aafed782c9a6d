/-!
# Ranges of characters

A set of characters written down as closed ranges of code points.
-/

namespace Calculator.Text

/-- A closed range of code points: the first and the last one. -/
abbrev CharRange := Nat × Nat

namespace CharRange

def contains (r : CharRange) (c : Char) : Bool := r.1 ≤ c.toNat && c.toNat ≤ r.2

def covers (ranges : List CharRange) (c : Char) : Bool := ranges.any (contains · c)

end CharRange

end Calculator.Text
