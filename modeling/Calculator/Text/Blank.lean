import Calculator.Text.CharRange

/-!
# Blank characters

Two sets of blanks are in use. A line of input is trimmed of `blankRanges`, which holds the four
information separators besides the white space of the character set; a written number may be
surrounded by `whiteSpaceRanges` only.
-/

namespace Calculator.Text

def whiteSpaceRanges : List CharRange :=
  [(0x09, 0x0d), (0x20, 0x20), (0x85, 0x85), (0xa0, 0xa0), (0x1680, 0x1680), (0x2000, 0x200a),
   (0x2028, 0x2029), (0x202f, 0x202f), (0x205f, 0x205f), (0x3000, 0x3000)]

def blankRanges : List CharRange := (0x1c, 0x1f) :: whiteSpaceRanges

def isWhiteSpace (c : Char) : Bool := CharRange.covers whiteSpaceRanges c

def isBlank (c : Char) : Bool := CharRange.covers blankRanges c

def trimBoth (p : Char → Bool) (cs : List Char) : List Char :=
  ((cs.dropWhile p).reverse.dropWhile p).reverse

def trim (s : String) : String := String.ofList (trimBoth isBlank s.toList)

/-- The text with the capitals from A to Z in lower case, which is enough for a text that is
compared with a word of the letters a to z. -/
def lowercase (s : String) : String := String.ofList (s.toList.map Char.toLower)

end Calculator.Text
