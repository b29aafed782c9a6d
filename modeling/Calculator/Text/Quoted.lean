import Calculator.Text.Printable

/-!
# Quoted text

A quoted text stands between apostrophes, or between quotation marks when it holds an apostrophe
and no quotation mark. Backslashes, the delimiter and characters that are not printable are written
as escapes.
-/

namespace Calculator.Text

/-- `n` in hexadecimal with at least `width` digits. -/
def hexadecimal (width n : Nat) : List Char := (Nat.toDigits 16 n).leftpad width '0'

def codePointEscape (c : Char) : List Char :=
  if c.toNat < 0x100 then '\\' :: 'x' :: hexadecimal 2 c.toNat
  else if c.toNat < 0x10000 then '\\' :: 'u' :: hexadecimal 4 c.toNat
  else '\\' :: 'U' :: hexadecimal 8 c.toNat

def quotedChar (delimiter c : Char) : List Char :=
  if c = delimiter ∨ c = '\\' then ['\\', c]
  else if c = '\n' then ['\\', 'n']
  else if c = '\r' then ['\\', 'r']
  else if c = '\t' then ['\\', 't']
  else if isPrintable c then [c]
  else codePointEscape c

def delimiterOf (cs : List Char) : Char :=
  if cs.contains '\'' && !cs.contains '"' then '"' else '\''

def quote (s : String) : String :=
  let mark := delimiterOf s.toList
  String.ofList (mark :: s.toList.flatMap (quotedChar mark) ++ [mark])

end Calculator.Text
