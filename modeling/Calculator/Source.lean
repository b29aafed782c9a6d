/-!
# Places in a text

Offsets count characters from 0; lines and columns count from 1. A cursor stands before a character,
a span covers the characters from its first to its last offset and knows the line and the column
where it starts. A span that is given from outside may hold any whole numbers.
-/

namespace Calculator

/-- A place between the characters of a text. -/
structure Cursor where
  offset : Nat
  line : Nat
  column : Nat
  deriving DecidableEq, Repr

def Cursor.start : Cursor := ⟨0, 1, 1⟩

def Cursor.past (cursor : Cursor) (c : Char) : Cursor :=
  if c = '\n' then ⟨cursor.offset + 1, cursor.line + 1, 1⟩
  else ⟨cursor.offset + 1, cursor.line, cursor.column + 1⟩

def Cursor.pastAll (cursor : Cursor) (cs : List Char) : Cursor := cs.foldl Cursor.past cursor

/-- A stretch of a text, both offsets included. -/
structure Span where
  first : Int
  last : Int
  line : Int
  column : Int
  deriving DecidableEq, Repr

namespace Span

/-- The span that starts at a cursor and holds `length` characters; an empty one counts as one. -/
def atCursor (cursor : Cursor) (length : Nat) : Span :=
  ⟨cursor.offset, (cursor.offset + (length - 1) : Nat), cursor.line, cursor.column⟩

def merge (a b : Span) : Span :=
  let earlier := if a.first ≤ b.first then a else b
  { earlier with last := max a.last b.last }

end Span

theorem Cursor.pastAll_nil (cursor : Cursor) : cursor.pastAll [] = cursor := rfl

theorem Cursor.pastAll_cons (cursor : Cursor) (c : Char) (cs : List Char) :
    cursor.pastAll (c :: cs) = (cursor.past c).pastAll cs := rfl

theorem Cursor.pastAll_append (cursor : Cursor) (cs ds : List Char) :
    cursor.pastAll (cs ++ ds) = (cursor.pastAll cs).pastAll ds := List.foldl_append

theorem Cursor.offset_past (cursor : Cursor) (c : Char) :
    (cursor.past c).offset = cursor.offset + 1 := by
  unfold Cursor.past
  split <;> rfl

theorem Cursor.offset_pastAll (cursor : Cursor) (cs : List Char) :
    (cursor.pastAll cs).offset = cursor.offset + cs.length := by
  induction cs generalizing cursor with
  | nil => rfl
  | cons c cs ih => rw [pastAll_cons, ih, offset_past, List.length_cons]; omega

end Calculator
