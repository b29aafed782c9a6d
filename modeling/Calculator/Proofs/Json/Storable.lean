import Calculator.Proofs.Entries
import Calculator.Proofs.Json.Grammar

/-!
# Values that can be stored

A value is storable if its integers have no more digits and its brackets no greater depth than are
read, no two halves of a pair meet in its texts, and the keys of each dictionary differ. A storable
value is written as it is spelled, so it is read back from what is written; and what is read is
storable.
-/

namespace Calculator

open Text

/-- A finite float, or one that a word stands for. -/
def IsStorableFloat (v : Float) : Prop :=
  v.isFinite = true ∨ ∃ word, (word, Value.float v) ∈ Json.words

/-- A value that can be written and read back, with at most the given number of brackets open. -/
inductive Value.Storable : Nat → Value → Prop
  | null {n : Nat} : Storable n .null
  | bool {n : Nat} (b : Bool) : Storable n (.bool b)
  | int {n : Nat} {i : Int} : i.natAbs < 10 ^ maxIntegerDigits → Storable n (.int i)
  | float {n : Nat} {v : Float} : IsStorableFloat v → Storable n (.float v)
  | text {n : Nat} {t : LooseText} : t.IsJoined → Storable n (.text t)
  | list {n : Nat} {items : List Value} : (∀ v ∈ items, Storable n v) →
      Storable (n + 1) (.list items)
  | dict {n : Nat} {entries : Entries} : (entries.map Prod.fst).Nodup →
      (∀ entry ∈ entries, entry.1.IsJoined) → (∀ entry ∈ entries, Storable n entry.2) →
      Storable (n + 1) (.dict entries)

namespace Value.Storable

variable {n : Nat} {entries updates : Entries}

theorem distinct (h : Storable n (.dict entries)) : (entries.map Prod.fst).Nodup := by
  cases h with
  | dict hdistinct => exact hdistinct

theorem putEntries (h : Storable (n + 1) (.dict entries))
    (hkeys : ∀ entry ∈ updates, entry.1.IsJoined)
    (hvalues : ∀ entry ∈ updates, entry.2.Storable n) :
    Storable (n + 1) (.dict (putEntries entries updates)) := by
  cases h with
  | dict hdistinct hkeys' hvalues' =>
    refine .dict (nodup_keys_putEntries hdistinct updates) (fun entry hmem => ?_)
      fun entry hmem => ?_
    · exact (mem_putEntries hmem).elim (hkeys entry) (hkeys' entry)
    · exact (mem_putEntries hmem).elim (hvalues entry) (hvalues' entry)

theorem stated (h : Storable (n + 1) (.dict entries)) (key : String) :
    ((entries.get? key).getD .null).Storable n := by
  cases h with
  | dict _ _ hvalues =>
    cases hstated : entries.get? key with
    | none => exact .null
    | some v =>
      obtain ⟨before, after, hsplit, -⟩ := List.lookup_eq_some_iff.1 hstated
      exact hvalues (_, v) (hsplit ▸ List.mem_append_right before List.mem_cons_self)

end Value.Storable

theorem natAbs_lt_of_short {i : Int} (h : i.natAbs < 10 ^ 3) : i.natAbs < 10 ^ maxIntegerDigits :=
  h.trans_le (Nat.pow_le_pow_right (by decide) (by decide))

theorem storable_short (n : Nat) {i : Int} (h : i.natAbs < 10 ^ 3) : (Value.int i).Storable n :=
  .int (natAbs_lt_of_short h)

theorem storable_string (n : Nat) (s : String) : (Value.text s).Storable n :=
  .text (LooseText.isJoined_ofString s)

namespace Json

variable {n limit depth : Nat} {v : Value} {cs space : List Char}

theorem isBlank_newLine (depth : Nat) : IsBlank (newLine depth) := by
  intro c hc
  rcases List.mem_cons.1 hc with rfl | hc
  · rfl
  · rw [List.eq_of_mem_replicate hc]
    rfl

theorem spells_writeFloat {v : Float} (h : IsStorableFloat v) :
    Spells n (.value (.float v)) (writeFloat v) := by
  by_cases hv : v.isFinite = true
  · obtain ⟨cs, hspells, htext⟩ := spellsNumber_float hv
    rw [writeFloat, if_pos hv, htext]
    exact .number hspells
  · obtain ⟨word, hword⟩ := h.resolve_left hv
    have hwritten : writeFloat v = word.toList := by
      simp only [words, List.mem_cons, Prod.mk.injEq, reduceCtorEq, and_false, Value.float.injEq,
        List.not_mem_nil, or_false, false_or] at hword
      rcases hword with ⟨rfl, rfl⟩ | ⟨rfl, rfl⟩ | ⟨rfl, rfl⟩ <;> decide +kernel
    rw [hwritten]
    exact .word hword

theorem spells_writeString {t : LooseText} (h : t.IsJoined) :
    Spells n (.value (.text t)) (writeString t) := by
  have hspells : Spells n _ _ := .text (spellsUnits_flatMap t.points)
  rwa [joinPairs_unitsOf h] at hspells

theorem spellsKey_writeString {key : LooseText} (h : key.IsJoined) :
    SpellsKey key (writeString key ++ [':', ' ']) := by
  have hspells := SpellsKey.key (spellsUnits_flatMap key.points) (by simp [IsBlank] : IsBlank [])
    (by simp [IsBlank, isSpace] : IsBlank [' '])
  rw [joinPairs_unitsOf h] at hspells
  simpa [writeString] using hspells

theorem spells_writeItems {items : List Value} (hspace : IsBlank space)
    (h : Spells n (.value v) (writeValue depth v))
    (hmore : ∀ v ∈ items, Spells n (.value v) (writeValue depth v)) :
    Spells n (.items (v :: items)) (writeValue depth v ++ (writeItems depth items ++ space)) := by
  induction items generalizing v with
  | nil =>
    rw [writeItems, List.nil_append]
    exact .lastItem h hspace
  | cons v' items ih =>
    rw [List.forall_mem_cons] at hmore
    have hspells := Spells.item h (by simp [IsBlank] : IsBlank []) (isBlank_newLine depth)
      (ih hmore.1 hmore.2)
    simpa [writeItems] using hspells

theorem spells_writeEntries {entries : Entries} {key : LooseText} (hspace : IsBlank space)
    (hkey : key.IsJoined) (h : Spells n (.value v) (writeValue depth v))
    (hkeys : ∀ entry ∈ entries, entry.1.IsJoined)
    (hmore : ∀ entry ∈ entries, Spells n (.value entry.2) (writeValue depth entry.2)) :
    Spells n (.entries ((key, v) :: entries)) (writeString key ++ (':' :: ' ' ::
      (writeValue depth v ++ (writeEntries depth entries ++ space)))) := by
  induction entries generalizing key v with
  | nil =>
    have hspells := Spells.lastEntry (spellsKey_writeString hkey) h hspace
    simpa [writeEntries] using hspells
  | cons entry entries ih =>
    obtain ⟨key', v'⟩ := entry
    rw [List.forall_mem_cons] at hkeys hmore
    have hspells := Spells.entry (spellsKey_writeString hkey) h (by simp [IsBlank] : IsBlank [])
      (isBlank_newLine depth) (ih hkeys.1 hmore.1 hkeys.2 hmore.2)
    simpa [writeEntries] using hspells

/-- A storable value is written as it is spelled. -/
theorem spells_writeValue (h : v.Storable n) (depth : Nat) :
    Spells n (.value v) (writeValue depth v) := by
  induction h generalizing depth with
  | null => exact .word (by simp [words] : ("null", Value.null) ∈ words)
  | bool b =>
    cases b
    · exact .word (by simp [words] : ("false", Value.bool false) ∈ words)
    · exact .word (by simp [words] : ("true", Value.bool true) ∈ words)
  | int hi =>
    rw [writeValue, integerText, String.toList_ofList]
    exact .number (spellsNumber_int hi)
  | float hv => exact spells_writeFloat hv
  | text ht => exact spells_writeString ht
  | @list n items hitems ih =>
    cases items with
    | nil => exact .emptyList (by simp [IsBlank] : IsBlank [])
    | cons v items =>
      rw [List.forall_mem_cons] at ih
      have hspells := Spells.list (isBlank_newLine (depth + 1))
        (spells_writeItems (isBlank_newLine depth) (ih.1 (depth + 1)) fun v hv =>
          ih.2 v hv (depth + 1))
      simpa [writeValue] using hspells
  | @dict n entries hdistinct hkeys hvalues ih =>
    cases entries with
    | nil => exact .emptyDict (by simp [IsBlank] : IsBlank [])
    | cons entry entries =>
      obtain ⟨key, v⟩ := entry
      rw [List.forall_mem_cons] at ih hkeys
      have hspells := Spells.dict (isBlank_newLine (depth + 1))
        (spells_writeEntries (isBlank_newLine depth) hkeys.1 (ih.1 (depth + 1)) hkeys.2
          fun entry hmem => ih.2 entry hmem (depth + 1))
      rw [putEntries_nil hdistinct] at hspells
      simpa [writeValue] using hspells

/-- A storable value is read back from what is written. -/
theorem read_write (h : v.Storable (limit + 1)) : read limit (write v) = .ok v := by
  refine read_eq_ok_iff.2 ⟨[], writeValue 0 v, [], ?_, List.forall_mem_nil _, List.forall_mem_nil _,
    spells_writeValue h 0⟩
  rw [write, String.toList_ofList, List.nil_append, List.append_nil]

example : write (.dict [("a", .list [.text "\n😀"])]) =
    "\x7b\n    \"a\": [\n        \"\\n\\ud83d\\ude00\"\n    ]\n\x7d" := by cbv

/-- A printable character of ASCII, or a line feed. -/
def IsPlain (c : Char) : Prop := c = '\n' ∨ 0x20 ≤ c.toNat ∧ c.toNat < 0x7f

instance : DecidablePred IsPlain := fun c =>
  inferInstanceAs (Decidable (c = '\n' ∨ 0x20 ≤ c.toNat ∧ c.toNat < 0x7f))

theorem isPlain_of_all {cs : List Char} (h : (cs.all fun c => decide (IsPlain c)) = true) :
    ∀ c ∈ cs, IsPlain c := fun c hc => of_decide_eq_true (List.all_eq_true.1 h c hc)

theorem isPlain_digitChar {n : Nat} (h : n < 16) : IsPlain n.digitChar := by
  interval_cases n <;> decide

theorem isPlain_of_isDigit {c : Char} (h : c.isDigit = true) : IsPlain c := by
  have hc := Char.isDigit_iff_toNat.1 h
  have hzero : '0'.toNat = 48 := rfl
  have hnine : '9'.toNat = 57 := rfl
  exact .inr (by omega)

theorem isPlain_of_toLower {c : Char} (h : c.toLower = 'e') : IsPlain c := by
  have halpha : c.isAlpha := by
    rw [← Char.isAlpha_toLower_eq_isAlpha, h]
    rfl
  simp only [Char.isAlpha, Char.isUpper, Char.isLower, Bool.or_eq_true, Bool.and_eq_true,
    decide_eq_true_eq, UInt32.le_iff_toNat_le] at halpha
  have hbounds : (65 ≤ c.toNat ∧ c.toNat ≤ 90) ∨ (97 ≤ c.toNat ∧ c.toNat ≤ 122) := halpha
  exact .inr (by omega)

theorem isPlain_unitEscape {n : Nat} (hn : n < 0x10000) : ∀ c ∈ unitEscape n, IsPlain c := by
  rw [unitEscape, hexadecimal_four hn]
  simp only [List.forall_mem_cons]
  exact ⟨by decide, .inr (by decide), isPlain_digitChar (by omega),
    isPlain_digitChar (by omega), isPlain_digitChar (by omega), isPlain_digitChar (by omega),
    List.forall_mem_nil _⟩

theorem isPlain_stringChar (c : Char) : ∀ d ∈ stringChar c, IsPlain d := by
  have hescape : ∀ d : Char, IsPlain d → ∀ e ∈ ['\\', d], IsPlain e := fun d hd =>
    List.forall_mem_cons.2 ⟨by decide, List.forall_mem_singleton.2 hd⟩
  rw [stringChar]
  split_ifs with _ _ _ _ _ _ _ hprintable hshort
  · exact hescape '"' (by decide)
  · exact hescape '\\' (by decide)
  · exact hescape 'n' (by decide)
  · exact hescape 'r' (by decide)
  · exact hescape 't' (by decide)
  · exact hescape 'f' (by decide)
  · exact hescape 'b' (by decide)
  · have hlow : 0x20 ≤ c.toNat := hprintable.1
    have hhigh : c.toNat ≤ 0x7e := hprintable.2
    exact List.forall_mem_singleton.2 (.inr (by omega))
  · exact isPlain_unitEscape hshort
  · have hvalid : c.toNat < 0xd800 ∨ 0xdfff < c.toNat ∧ c.toNat < 0x110000 := c.valid
    simp only [firstHalf, firstLowHalf]
    exact List.forall_mem_append.2
      ⟨isPlain_unitEscape (by omega), isPlain_unitEscape (by omega)⟩

theorem isPlain_stringPoint (p : CodePoint) : ∀ c ∈ stringPoint p, IsPlain c := by
  cases p with
  | char c => exact isPlain_stringChar c
  | half place => exact isPlain_unitEscape (halfNumber_lt place)

theorem isPlain_writeString (t : LooseText) : ∀ c ∈ writeString t, IsPlain c := by
  have hquote : IsPlain '"' := by decide
  simp only [writeString, List.forall_mem_append, List.forall_mem_cons, List.forall_mem_flatMap]
  exact ⟨⟨hquote, fun p _ => isPlain_stringPoint p⟩, hquote, List.forall_mem_nil _⟩

theorem isPlain_of_allDigits {digits : List Char} (h : AllDigits digits) :
    ∀ c ∈ digits, IsPlain c := fun c hc => isPlain_of_isDigit (h c hc)

theorem isPlain_number {negative : Bool} (h : SpellsNumber negative v cs) :
    ∀ c ∈ withSign negative cs, IsPlain c := by
  have hminus : IsPlain '-' := by decide
  have hcs : ∀ c ∈ cs, IsPlain c := by
    cases h with
    | int hw => exact isPlain_of_allDigits hw.2.1
    | float hw hf hp =>
      refine List.forall_mem_append.2
        ⟨isPlain_of_allDigits hw.2.1, List.forall_mem_append.2 ⟨?_, ?_⟩⟩
      · cases hf with
        | absent => exact List.forall_mem_nil _
        | digits _ hd =>
          exact List.forall_mem_cons.2 ⟨by decide, isPlain_of_allDigits hd⟩
      · cases hp with
        | absent => exact List.forall_mem_nil _
        | digits he hs _ hd =>
          refine List.forall_mem_cons.2
            ⟨?_, List.forall_mem_append.2 ⟨?_, isPlain_of_allDigits hd⟩⟩
          · exact isPlain_of_toLower he
          · cases hs with
            | absent => exact List.forall_mem_nil _
            | plus => exact List.forall_mem_singleton.2 (by decide)
            | minus => exact List.forall_mem_singleton.2 hminus
  cases negative with
  | false => exact hcs
  | true => exact List.forall_mem_cons.2 ⟨hminus, hcs⟩

theorem isPlain_newLine (depth : Nat) : ∀ c ∈ newLine depth, IsPlain c := by
  refine List.forall_mem_cons.2 ⟨.inl rfl, fun c hc => ?_⟩
  rw [List.eq_of_mem_replicate hc]
  decide

theorem isPlain_writeItems {items : List Value}
    (h : ∀ v ∈ items, ∀ c ∈ writeValue depth v, IsPlain c) :
    ∀ c ∈ writeItems depth items, IsPlain c := by
  induction items with
  | nil => exact List.forall_mem_nil _
  | cons v items ih =>
    rw [List.forall_mem_cons] at h
    simp only [writeItems, List.forall_mem_append, List.forall_mem_cons]
    exact ⟨⟨⟨by decide, isPlain_newLine depth⟩, h.1⟩, ih h.2⟩

theorem isPlain_writeEntries {entries : Entries}
    (h : ∀ entry ∈ entries, ∀ c ∈ writeValue depth entry.2, IsPlain c) :
    ∀ c ∈ writeEntries depth entries, IsPlain c := by
  induction entries with
  | nil => exact List.forall_mem_nil _
  | cons entry entries ih =>
    rw [List.forall_mem_cons] at h
    simp only [writeEntries, List.forall_mem_append, List.forall_mem_cons]
    exact ⟨⟨⟨⟨by decide, isPlain_newLine depth⟩, isPlain_writeString entry.1⟩, by decide, by decide,
      h.1⟩, ih h.2⟩

theorem isPlain_writeFloat (v : Float) : ∀ c ∈ writeFloat v, IsPlain c := by
  rw [writeFloat]
  split
  · next hv =>
    obtain ⟨cs, hspells, htext⟩ := spellsNumber_float hv
    rw [htext]
    exact isPlain_number hspells
  · split_ifs <;> exact isPlain_of_all rfl

/-- A storable value is written in printable ASCII characters and line feeds. -/
theorem isPlain_writeValue (h : v.Storable n) (depth : Nat) :
    ∀ c ∈ writeValue depth v, IsPlain c := by
  induction h generalizing depth with
  | null => exact isPlain_of_all rfl
  | bool b =>
    cases b
    · exact isPlain_of_all rfl
    · exact isPlain_of_all rfl
  | @int n i hi =>
    rw [writeValue, integerText, String.toList_ofList]
    exact isPlain_number (spellsNumber_int hi)
  | float _ => exact isPlain_writeFloat _
  | text _ => exact isPlain_writeString _
  | @list n items hitems ih =>
    cases items with
    | nil => exact isPlain_of_all rfl
    | cons v items =>
      rw [List.forall_mem_cons] at ih
      simp only [writeValue, List.forall_mem_append, List.forall_mem_cons]
      exact ⟨⟨⟨⟨⟨by decide, isPlain_newLine _⟩, ih.1 _⟩,
        isPlain_writeItems fun v hv => ih.2 v hv _⟩, isPlain_newLine _⟩, by decide,
        List.forall_mem_nil _⟩
  | @dict n entries hdistinct hkeys hvalues ih =>
    cases entries with
    | nil => exact isPlain_of_all rfl
    | cons entry entries =>
      rw [List.forall_mem_cons] at ih
      simp only [writeValue, List.forall_mem_append, List.forall_mem_cons]
      exact ⟨⟨⟨⟨⟨⟨by decide, isPlain_newLine _⟩, isPlain_writeString _⟩, by decide, by decide,
        ih.1 _⟩, isPlain_writeEntries fun entry h => ih.2 entry h _⟩, isPlain_newLine _⟩,
        by decide, List.forall_mem_nil _⟩

theorem storable_number {negative : Bool} (h : SpellsNumber negative v cs) : v.Storable n := by
  cases h with
  | int hw hlength =>
    exact .int ((natAbs_integerOfDigits_lt hw.2.1 negative).trans_le
      (Nat.pow_le_pow_right (by decide) hlength))
  | @float whole fraction point behind power =>
    generalize hd : Decimal.ofDigits negative whole fraction (power.getD 0) = d
    refine .float ((d.toFloat_le_infinity.lt_or_eq).imp (isFinite_iff _).2 fun hinfinite => ?_)
    have hbits := floatOfBits_bits d.toFloat_le_infinity
    rw [hinfinite] at hbits
    cases hsign : signBit d.toFloat
    · exact ⟨"Infinity", by rw [← hbits, hsign]; simp [words]⟩
    · exact ⟨"-Infinity", by rw [← hbits, hsign]; simp [words]⟩

def Form.Storable (n : Nat) : Form → Prop
  | .value v => v.Storable n
  | .items vs => ∀ v ∈ vs, v.Storable n
  | .entries pairs => (∀ entry ∈ pairs, entry.1.IsJoined) ∧ ∀ entry ∈ pairs, entry.2.Storable n

theorem storable_of_spells {form : Form} (h : Spells n form cs) : form.Storable n := by
  have hkey : ∀ {key name}, SpellsKey key name → key.IsJoined := by
    rintro _ _ ⟨⟩
    exact isJoined_joinPairs _
  induction h with
  | @word n word v hw =>
    have hfloat : ∀ {v}, (word, Value.float v) ∈ words → IsStorableFloat v := fun h =>
      .inr ⟨word, h⟩
    have hcases := hw
    simp only [words, List.mem_cons, Prod.mk.injEq, List.not_mem_nil, or_false] at hcases
    rcases hcases with ⟨-, rfl⟩ | ⟨-, rfl⟩ | ⟨-, rfl⟩ | ⟨-, rfl⟩ | ⟨-, rfl⟩ | ⟨-, rfl⟩
    · exact .null
    · exact .bool true
    · exact .bool false
    · exact .float (hfloat hw)
    · exact .float (hfloat hw)
    · exact .float (hfloat hw)
  | number hs => exact storable_number hs
  | text => exact .text (isJoined_joinPairs _)
  | emptyList => exact .list (List.forall_mem_nil _)
  | list _ _ ih => exact .list ih
  | emptyDict => exact .dict .nil (List.forall_mem_nil _) (List.forall_mem_nil _)
  | @dict n pairs space cs _ _ ih =>
    have hmem : ∀ entry ∈ putEntries [] pairs, entry ∈ pairs := fun entry h =>
      (mem_putEntries h).resolve_right List.not_mem_nil
    exact .dict (nodup_keys_putEntries (by exact List.nodup_nil) pairs)
      (fun entry h => ih.1 entry (hmem entry h)) fun entry h => ih.2 entry (hmem entry h)
  | lastItem _ _ ih => exact List.forall_mem_singleton.2 ih
  | item _ _ _ _ ih ihMore => exact List.forall_mem_cons.2 ⟨ih, ihMore⟩
  | lastEntry hk _ _ ih =>
    exact ⟨List.forall_mem_singleton.2 (hkey hk), List.forall_mem_singleton.2 ih⟩
  | entry hk _ _ _ _ ih ihMore =>
    exact ⟨List.forall_mem_cons.2 ⟨hkey hk, ihMore.1⟩, List.forall_mem_cons.2 ⟨ih, ihMore.2⟩⟩

/-- What is read from a text is storable. -/
theorem storable_of_read {text : String} (h : read limit text = .ok v) :
    v.Storable (limit + 1) := by
  obtain ⟨_, _, _, _, _, _, hspells⟩ := read_eq_ok_iff.1 h
  exact storable_of_spells hspells

end Json

end Calculator
