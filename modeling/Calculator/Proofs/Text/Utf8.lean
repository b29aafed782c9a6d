import Calculator.Proofs.Outcome
import Calculator.Text.Utf8
import Mathlib.Data.List.Basic
import Mathlib.Tactic.SplitIfs

/-!
# Bytes and text

Bytes are decoded exactly if they are the bytes of a text, and then to that text. A first byte and
the bytes that continue it are the bytes of the character whose bits they carry.
-/

namespace Calculator.Text

open String (utf8EncodeChar)

namespace PartialChar

def extended (c : PartialChar) (b : UInt8) : PartialChar :=
  ⟨c.first, c.count + 1, c.missing - 1, 0x80, 0xbf, c.bits * 0x40 + b.toNat % 0x40⟩

/-- The bytes are the ones that are missing. -/
def Continues (c : PartialChar) : List UInt8 → Prop
  | [] => c.missing = 0
  | b :: bytes =>
    c.missing ≠ 0 ∧ (c.low ≤ b.toNat ∧ b.toNat ≤ c.high) ∧ (c.extended b).Continues bytes

def bitsWith (c : PartialChar) : List UInt8 → Nat
  | [] => c.bits
  | b :: bytes => (c.extended b).bitsWith bytes

variable {c : PartialChar} {b : UInt8} {bytes : List UInt8} {ch : Char}

theorem extend?_eq : c.extend? b =
    if c.low ≤ b.toNat ∧ b.toNat ≤ c.high then some (c.extended b) else none := rfl

theorem Continues.length_eq (h : c.Continues bytes) : bytes.length = c.missing := by
  induction bytes generalizing c with
  | nil => exact h.symm
  | cons b bytes ih =>
    obtain ⟨hm, -, hrest⟩ := h
    have hlength : bytes.length = c.missing - 1 := ih hrest
    rw [List.length_cons, hlength]
    omega

end PartialChar

theorem toNat_ofNat {n : Nat} (h : n < 0xd800 ∨ 0xdfff < n ∧ n < 0x110000) :
    (Char.ofNat n).toNat = n := by
  have hn : n.isValidChar := h
  rw [Char.ofNat, dif_pos hn]
  rfl

theorem ofNat_eq_of_toNat {n : Nat} {b : UInt8} (h : n = b.toNat) : UInt8.ofNat n = b := by
  rw [h, UInt8.ofNat_toNat]

section

variable {ch : Char} {b₀ b₁ b₂ b₃ : UInt8} {v : Nat}

theorem encodeChar_one (hch : ch.toNat = b₀.toNat) (h : b₀.toNat < 0x80) :
    utf8EncodeChar ch = [b₀] := by
  have hval : ch.val.toNat = b₀.toNat := hch
  rw [utf8EncodeChar.eq_1, hval, if_pos (by omega), UInt8.ofNat_toNat]

theorem encodeChar_two (hch : ch.toNat = v) (hv : 0x80 ≤ v ∧ v < 0x800)
    (h₀ : v / 0x40 + 0xc0 = b₀.toNat) (h₁ : v % 0x40 + 0x80 = b₁.toNat) :
    utf8EncodeChar ch = [b₀, b₁] := by
  have hval : ch.val.toNat = v := hch
  rw [utf8EncodeChar.eq_1, hval, if_neg (by omega), if_pos (by omega),
    ofNat_eq_of_toNat (b := b₀) (by omega), ofNat_eq_of_toNat h₁]

theorem encodeChar_three (hch : ch.toNat = v) (hv : 0x800 ≤ v ∧ v < 0x10000)
    (h₀ : v / 0x1000 + 0xe0 = b₀.toNat) (h₁ : v / 0x40 % 0x40 + 0x80 = b₁.toNat)
    (h₂ : v % 0x40 + 0x80 = b₂.toNat) : utf8EncodeChar ch = [b₀, b₁, b₂] := by
  have hval : ch.val.toNat = v := hch
  rw [utf8EncodeChar.eq_1, hval, if_neg (by omega), if_neg (by omega), if_pos (by omega),
    ofNat_eq_of_toNat (b := b₀) (by omega), ofNat_eq_of_toNat h₁, ofNat_eq_of_toNat h₂]

theorem encodeChar_four (hch : ch.toNat = v) (hv : 0x10000 ≤ v ∧ v < 0x110000)
    (h₀ : v / 0x40000 + 0xf0 = b₀.toNat) (h₁ : v / 0x1000 % 0x40 + 0x80 = b₁.toNat)
    (h₂ : v / 0x40 % 0x40 + 0x80 = b₂.toNat) (h₃ : v % 0x40 + 0x80 = b₃.toNat) :
    utf8EncodeChar ch = [b₀, b₁, b₂, b₃] := by
  have hval : ch.val.toNat = v := hch
  rw [utf8EncodeChar.eq_1, hval, if_neg (by omega), if_neg (by omega), if_neg (by omega),
    ofNat_eq_of_toNat (b := b₀) (by omega), ofNat_eq_of_toNat h₁, ofNat_eq_of_toNat h₂,
    ofNat_eq_of_toNat h₃]

end

namespace PartialChar

variable {c : PartialChar} {b : UInt8} {bytes : List UInt8} {ch : Char}

/-- A first byte and what continues it are the bytes of a character. -/
theorem encodeChar_of_continues (hs : start? b = some c) (h : c.Continues bytes) :
    utf8EncodeChar (Char.ofNat (c.bitsWith bytes)) = b :: bytes := by
  have hb := b.toNat_lt
  have hlength := h.length_eq
  simp only [start?, opened] at hs
  split at hs
  · next hlow =>
    cases hs
    obtain rfl := List.eq_nil_of_length_eq_zero hlength
    exact encodeChar_one (toNat_ofNat (.inl (by simp only [bitsWith]; omega))) hlow
  split at hs
  · cases hs
  split at hs
  · cases hs
    obtain ⟨b₁, rfl⟩ := List.length_eq_one_iff.1 hlength
    simp only [Continues, bitsWith, extended] at h ⊢
    exact encodeChar_two (toNat_ofNat (by omega)) (by omega) (by omega) (by omega)
  split at hs
  · cases hs
    obtain ⟨b₁, b₂, rfl⟩ := List.length_eq_two.1 hlength
    simp only [Continues, bitsWith, extended] at h ⊢
    split_ifs at h <;>
      exact encodeChar_three (toNat_ofNat (by omega)) (by omega) (by omega) (by omega) (by omega)
  split at hs
  · cases hs
    obtain ⟨b₁, b₂, b₃, rfl⟩ := List.length_eq_three.1 hlength
    simp only [Continues, bitsWith, extended] at h ⊢
    split_ifs at h <;>
      exact encodeChar_four (toNat_ofNat (by omega)) (by omega) (by omega) (by omega) (by omega)
        (by omega)
  · cases hs

theorem toNat_ofNat_byte {n : Nat} (h : n < 0x100) : (UInt8.ofNat n).toNat = n :=
  UInt8.toNat_ofNat_of_lt' h

section

variable (b : UInt8)

theorem start?_one (h : b.toNat < 0x80) : start? b = some (opened b 0 0x80 0xbf b.toNat) := by
  rw [start?, if_pos h]

theorem start?_two (h : 0xc2 ≤ b.toNat ∧ b.toNat < 0xe0) :
    start? b = some (opened b 1 0x80 0xbf (b.toNat % 0x20)) := by
  rw [start?, if_neg (by omega), if_neg (by omega), if_pos h.2]

theorem start?_three (h : 0xe0 ≤ b.toNat ∧ b.toNat < 0xf0) :
    start? b = some (opened b 2 (if b.toNat = 0xe0 then 0xa0 else 0x80)
      (if b.toNat = 0xed then 0x9f else 0xbf) (b.toNat % 0x10)) := by
  rw [start?, if_neg (by omega), if_neg (by omega), if_neg (by omega), if_pos h.2]

theorem start?_four (h : 0xf0 ≤ b.toNat ∧ b.toNat < 0xf5) :
    start? b = some (opened b 3 (if b.toNat = 0xf0 then 0x90 else 0x80)
      (if b.toNat = 0xf4 then 0x8f else 0xbf) (b.toNat % 0x08)) := by
  rw [start?, if_neg (by omega), if_neg (by omega), if_neg (by omega), if_neg (by omega),
    if_pos h.2]

end

theorem exists_continues_encodeChar (ch : Char) : ∃ b c bytes, utf8EncodeChar ch = b :: bytes ∧
    start? b = some c ∧ c.Continues bytes ∧ c.bitsWith bytes = ch.toNat := by
  have hch : ch.val.toNat = ch.toNat := rfl
  have hvalid : ch.toNat < 0xd800 ∨ 0xdfff < ch.toNat ∧ ch.toNat < 0x110000 := ch.valid
  rw [utf8EncodeChar.eq_1, hch]
  generalize ch.toNat = v at hvalid
  split
  · next h =>
    have h₀ := toNat_ofNat_byte (n := v) (by omega)
    exact ⟨_, _, _, rfl, start?_one _ (by omega), rfl, h₀⟩
  split
  · next h =>
    have h₀ := toNat_ofNat_byte (n := v / 64 % 0x20 + 0xc0) (by omega)
    have h₁ := toNat_ofNat_byte (n := v % 64 + 0x80) (by omega)
    refine ⟨_, _, _, rfl, start?_two _ (by omega), ?_, ?_⟩ <;>
      simp only [Continues, bitsWith, extended, opened, and_true, h₀, h₁] <;> omega
  split
  · next h =>
    have h₀ := toNat_ofNat_byte (n := v / 4096 % 0x10 + 0xe0) (by omega)
    have h₁ := toNat_ofNat_byte (n := v / 64 % 64 + 0x80) (by omega)
    have h₂ := toNat_ofNat_byte (n := v % 64 + 0x80) (by omega)
    refine ⟨_, _, _, rfl, start?_three _ (by omega), ?_, ?_⟩ <;>
      simp only [Continues, bitsWith, extended, opened, and_true, h₀, h₁, h₂]
    · split_ifs <;> omega
    · omega
  · have h₀ := toNat_ofNat_byte (n := v / 262144 % 0x08 + 0xf0) (by omega)
    have h₁ := toNat_ofNat_byte (n := v / 4096 % 64 + 0x80) (by omega)
    have h₂ := toNat_ofNat_byte (n := v / 64 % 64 + 0x80) (by omega)
    have h₃ := toNat_ofNat_byte (n := v % 64 + 0x80) (by omega)
    refine ⟨_, _, _, rfl, start?_four _ (by omega), ?_, ?_⟩ <;>
      simp only [Continues, bitsWith, extended, opened, and_true, h₀, h₁, h₂, h₃]
    · split_ifs <;> omega
    · omega

end PartialChar

section

variable {c : PartialChar} {offset : Nat} {bytes : List UInt8} {cs : List Char} {ch : Char}

/-- Decodes the bytes from `offset` on behind the bytes of a character, which may be complete. -/
def decodeBehind (offset : Nat) (c : PartialChar) (bytes : List UInt8) :
    Except Utf8Error (List Char) :=
  if c.missing = 0 then (decodeFrom offset none bytes).map (Char.ofNat c.bits :: ·)
  else decodeFrom offset (some c) bytes

theorem decodeFrom_none_cons (b : UInt8) : decodeFrom offset none (b :: bytes) =
    match PartialChar.start? b with
    | none => .error ⟨.startByte, offset, b, 1⟩
    | some c => decodeBehind (offset + 1) c bytes := by
  rw [decodeFrom]
  rfl

theorem decodeFrom_some_cons (b : UInt8) : decodeFrom offset (some c) (b :: bytes) =
    if c.low ≤ b.toNat ∧ b.toNat ≤ c.high then decodeBehind (offset + 1) (c.extended b) bytes
    else .error (c.error offset .continuationByte) := by
  rw [decodeFrom, PartialChar.extend?_eq]
  split_ifs <;> rfl

theorem decodeBehind_eq_ok_iff : decodeBehind offset c bytes = .ok cs ↔
    ∃ more rest behind, bytes = more ++ rest ∧ c.Continues more ∧
      decodeFrom (offset + more.length) none rest = .ok behind ∧
      cs = Char.ofNat (c.bitsWith more) :: behind := by
  induction bytes generalizing offset c with
  | nil =>
    constructor
    · intro h
      by_cases hm : c.missing = 0
      · rw [decodeBehind, if_pos hm] at h
        cases h
        exact ⟨[], [], [], rfl, hm, rfl, rfl⟩
      · rw [decodeBehind, if_neg hm] at h
        cases h
    · rintro ⟨more, rest, behind, hbytes, hmore, hrest, rfl⟩
      obtain ⟨rfl, rfl⟩ := List.append_eq_nil_iff.1 hbytes.symm
      cases hrest
      exact if_pos hmore
  | cons b bytes ih =>
    by_cases hm : c.missing = 0
    · rw [decodeBehind, if_pos hm]
      constructor
      · intro h
        obtain ⟨behind, hrest, rfl⟩ := map_eq_ok_iff.1 h
        exact ⟨[], b :: bytes, behind, rfl, hm, hrest, rfl⟩
      · rintro ⟨more, rest, behind, hbytes, hmore, hrest, rfl⟩
        obtain rfl := List.eq_nil_of_length_eq_zero (hmore.length_eq.trans hm)
        obtain rfl : b :: bytes = rest := hbytes
        exact map_eq_ok_iff.2 ⟨behind, hrest, rfl⟩
    · rw [decodeBehind, if_neg hm, decodeFrom_some_cons]
      constructor
      · intro h
        split_ifs at h with hb
        obtain ⟨more, rest, behind, rfl, hmore, hrest, rfl⟩ := ih.1 h
        refine ⟨b :: more, rest, behind, rfl, ⟨hm, hb, hmore⟩, ?_, rfl⟩
        rwa [List.length_cons, Nat.add_comm more.length, ← Nat.add_assoc]
      · rintro ⟨more, rest, behind, hbytes, hmore, hrest, rfl⟩
        cases more with
        | nil => exact absurd hmore hm
        | cons b' more =>
          obtain ⟨rfl, rfl⟩ := List.cons.inj hbytes
          obtain ⟨-, hb, hmore⟩ := hmore
          rw [if_pos hb]
          rw [List.length_cons, Nat.add_comm more.length, ← Nat.add_assoc] at hrest
          exact ih.2 ⟨more, rest, behind, rfl, hmore, hrest, rfl⟩

/-- A text is decoded character by character. -/
theorem decodeFrom_eq_ok_iff :
    decodeFrom offset none bytes = .ok cs ↔ bytes = cs.flatMap utf8EncodeChar := by
  induction cs generalizing offset bytes with
  | nil =>
    constructor
    · intro h
      cases bytes with
      | nil => rfl
      | cons b bytes =>
        rw [decodeFrom_none_cons] at h
        split at h
        · cases h
        · obtain ⟨_, _, _, -, -, -, hcs⟩ := decodeBehind_eq_ok_iff.1 h
          cases hcs
    · rintro rfl
      rfl
  | cons ch cs ih =>
    constructor
    · intro h
      cases bytes with
      | nil => cases h
      | cons b bytes =>
        rw [decodeFrom_none_cons] at h
        split at h
        · cases h
        · next c hstart =>
          obtain ⟨more, rest, behind, rfl, hmore, hrest, hcs⟩ := decodeBehind_eq_ok_iff.1 h
          obtain ⟨rfl, rfl⟩ := List.cons.inj hcs
          rw [List.flatMap_cons, PartialChar.encodeChar_of_continues hstart hmore, ← ih.1 hrest]
          rfl
    · rintro rfl
      obtain ⟨b, c, more, hbytes, hstart, hmore, hbits⟩ :=
        PartialChar.exists_continues_encodeChar ch
      rw [List.flatMap_cons, hbytes, List.cons_append, decodeFrom_none_cons, hstart]
      refine decodeBehind_eq_ok_iff.2 ⟨more, _, cs, rfl, hmore, ih.2 rfl, ?_⟩
      rw [hbits, Char.ofNat_toNat]

end

variable {bytes : List UInt8} {s : String}

/-- Exactly the bytes of a text are decoded, and to that text. -/
theorem decode_eq_ok_iff : decode bytes = .ok s ↔ bytes = encode s := by
  rw [decode, map_eq_ok_iff, encode]
  constructor
  · rintro ⟨cs, h, rfl⟩
    rw [String.toList_ofList]
    exact decodeFrom_eq_ok_iff.1 h
  · rintro rfl
    exact ⟨s.toList, decodeFrom_eq_ok_iff.2 rfl, String.ofList_toList⟩

theorem decode_encode (s : String) : decode (encode s) = .ok s := decode_eq_ok_iff.2 rfl

end Calculator.Text
