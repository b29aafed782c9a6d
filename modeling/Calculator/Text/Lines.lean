/-!
# Lines

The stretches of a text between separators, of which there is always one more than there are
separators; and the lines of a text, none of which stands behind the last line break. In a text that
is read from a file every line ends with a line feed.
-/

namespace Calculator.Text

/-- The stretches between the characters that satisfy `p`. -/
def pieces (p : Char → Bool) : List Char → List (List Char)
  | [] => [[]]
  | c :: cs =>
    if p c then [] :: pieces p cs
    else match pieces p cs with
      | [] => [[c]]
      | piece :: rest => (c :: piece) :: rest

def splitAtEach (p : Char → Bool) (s : String) : List String :=
  (pieces p s.toList).map String.ofList

def isLineBreak (c : Char) : Bool :=
  '\n' ≤ c && c ≤ '\r' || '\x1c' ≤ c && c ≤ '\x1e' || c = '\x85' || c = '\u2028' || c = '\u2029'

/-- The lines of a text. A carriage return and a line feed behind it are one break. -/
def lineChars : List Char → List (List Char)
  | [] => []
  | '\r' :: '\n' :: cs => [] :: lineChars cs
  | c :: cs =>
    if isLineBreak c then [] :: lineChars cs
    else match lineChars cs with
      | [] => [[c]]
      | line :: rest => (c :: line) :: rest

def lines (s : String) : List String := (lineChars s.toList).map String.ofList

/-- The characters with a line feed in place of each carriage return, which takes in a line feed
behind it. -/
def lineFeedChars : List Char → List Char
  | [] => []
  | '\r' :: '\n' :: cs => '\n' :: lineFeedChars cs
  | c :: cs => (if c = '\r' then '\n' else c) :: lineFeedChars cs

def withLineFeeds (s : String) : String := String.ofList (lineFeedChars s.toList)

end Calculator.Text
