import Calculator.Text.Quoted

/-!
# UTF-8

Text as bytes. A first byte says how many bytes follow it and bounds the next one, so that every
code point has one form and no surrogate has any. `decode` reads one byte after the other and
reports the first place where the bytes are no text.
-/

namespace Calculator.Text

inductive Utf8Flaw where
  /-- No character starts with the byte. -/
  | startByte
  /-- The byte behind the given ones does not continue their character. -/
  | continuationByte
  /-- The bytes end within a character. -/
  | endOfBytes
  deriving DecidableEq, Repr

/-- The bytes of an unfinished or impossible character. -/
structure Utf8Error where
  flaw : Utf8Flaw
  /-- The offset of the first byte. -/
  offset : Nat
  /-- The first byte. -/
  first : UInt8
  /-- The number of bytes. -/
  count : Nat
  deriving DecidableEq, Repr

def Utf8Flaw.reason : Utf8Flaw → String
  | startByte => "invalid start byte"
  | continuationByte => "invalid continuation byte"
  | endOfBytes => "unexpected end of data"

def Utf8Error.message (e : Utf8Error) : String :=
  let place :=
    if e.count = 1 then
      s!"byte 0x{String.ofList (hexadecimal 2 e.first.toNat)} in position {e.offset}"
    else s!"bytes in position {e.offset}-{e.offset + e.count - 1}"
  s!"'utf-8' codec can't decode {place}: {e.flaw.reason}"

/-- A character of which some bytes have been read. -/
structure PartialChar where
  first : UInt8
  /-- The number of bytes that have been read. -/
  count : Nat
  /-- The number of bytes that have to follow. -/
  missing : Nat
  /-- The least and the greatest value of the next byte. -/
  low : Nat
  high : Nat
  /-- The bits of the code point so far. -/
  bits : Nat

namespace PartialChar

/-- A character of several bytes whose first byte has been read. -/
def opened (first : UInt8) (missing low high bits : Nat) : PartialChar :=
  ⟨first, 1, missing, low, high, bits⟩

def start? (b : UInt8) : Option PartialChar :=
  let n := b.toNat
  if n < 0x80 then some (opened b 0 0x80 0xbf n)
  else if n < 0xc2 then none
  else if n < 0xe0 then some (opened b 1 0x80 0xbf (n % 0x20))
  else if n < 0xf0 then
    some (opened b 2 (if n = 0xe0 then 0xa0 else 0x80) (if n = 0xed then 0x9f else 0xbf) (n % 0x10))
  else if n < 0xf5 then
    some (opened b 3 (if n = 0xf0 then 0x90 else 0x80) (if n = 0xf4 then 0x8f else 0xbf) (n % 0x08))
  else none

def extend? (c : PartialChar) (b : UInt8) : Option PartialChar :=
  let n := b.toNat
  if c.low ≤ n ∧ n ≤ c.high then
    some ⟨c.first, c.count + 1, c.missing - 1, 0x80, 0xbf, c.bits * 0x40 + n % 0x40⟩
  else none

/-- What is wrong with a character that is not completed, `offset` being behind its bytes. -/
def error (c : PartialChar) (offset : Nat) (flaw : Utf8Flaw) : Utf8Error :=
  ⟨flaw, offset - c.count, c.first, c.count⟩

end PartialChar

/-- Decodes the bytes from `offset` on, behind the bytes of an unfinished character if there is
one. -/
def decodeFrom (offset : Nat) : Option PartialChar → List UInt8 → Except Utf8Error (List Char)
  | none, [] => .ok []
  | some c, [] => .error (c.error offset .endOfBytes)
  | none, b :: bytes =>
    match PartialChar.start? b with
    | none => .error ⟨.startByte, offset, b, 1⟩
    | some c =>
      if c.missing = 0 then (decodeFrom (offset + 1) none bytes).map (Char.ofNat c.bits :: ·)
      else decodeFrom (offset + 1) (some c) bytes
  | some c, b :: bytes =>
    match c.extend? b with
    | none => .error (c.error offset .continuationByte)
    | some c =>
      if c.missing = 0 then (decodeFrom (offset + 1) none bytes).map (Char.ofNat c.bits :: ·)
      else decodeFrom (offset + 1) (some c) bytes

def decode (bytes : List UInt8) : Except Utf8Error String :=
  (decodeFrom 0 none bytes).map String.ofList

def encode (s : String) : List UInt8 := s.toList.flatMap String.utf8EncodeChar

end Calculator.Text
