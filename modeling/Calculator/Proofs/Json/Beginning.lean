import Calculator.Proofs.Json.Storable

/-!
# Texts that are broken off

A value whose whole numbers can all be shown is written to its end. Of any other value the text is
written up to the first number that cannot be shown, and what has been written is a beginning of the
whole text.
-/

namespace Calculator

namespace Value

theorem isShowable_int_iff {i : Int} :
    (int i).isShowable ↔ i.natAbs < 10 ^ maxIntegerDigits := by
  rw [isShowable]
  generalize maxIntegerDigits = digits
  exact decide_eq_true_iff

theorem areShowable_iff {vs : List Value} : areShowable vs ↔ ∀ v ∈ vs, v.isShowable := by
  induction vs with
  | nil => simp [areShowable]
  | cons v vs ih => simp [areShowable, ih]

theorem entriesShowable_iff {entries : Entries} :
    entriesShowable entries ↔ ∀ entry ∈ entries, entry.2.isShowable := by
  induction entries with
  | nil => simp [entriesShowable]
  | cons entry entries ih => simp [entriesShowable, ih]

theorem Storable.isShowable {n : Nat} {v : Value} (h : v.Storable n) : v.isShowable := by
  induction h with
  | int hi => exact isShowable_int_iff.2 hi
  | list _ ih => exact areShowable_iff.2 ih
  | dict _ _ _ ih => exact entriesShowable_iff.2 ih
  | null | bool | float | text => rfl

end Value

namespace Json

/-- Items with `lead` in front of the first of them. -/
def itemsText (depth : Nat) (lead : List Char) : List Value → List Char
  | [] => []
  | v :: vs => lead ++ writeValue depth v ++ writeItems depth vs

def entriesText (depth : Nat) (lead : List Char) : Entries → List Char
  | [] => []
  | (key, v) :: entries =>
    lead ++ writeString key ++ [':', ' '] ++ writeValue depth v ++ writeEntries depth entries

theorem writeItems_eq (depth : Nat) (vs : List Value) :
    writeItems depth vs = itemsText depth (',' :: newLine depth) vs := by
  cases vs <;> simp [writeItems, itemsText]

theorem writeEntries_eq (depth : Nat) (entries : Entries) :
    writeEntries depth entries = entriesText depth (',' :: newLine depth) entries := by
  cases entries <;> simp [writeEntries, entriesText]

theorem prefix_of_itemStart (lead start : List Char) (v : Value) :
    itemStart lead start v <+: lead ++ start := by
  unfold itemStart
  split
  · exact List.nil_prefix
  · exact List.prefix_rfl

mutual

theorem valueStart?_eq_none_iff (depth : Nat) :
    (v : Value) → (valueStart? depth v = none ↔ v.isShowable)
  | .int i => by
    rw [valueStart?]
    cases (Value.int i).isShowable <;> simp
  | .list vs => by
    rw [valueStart?, Value.isShowable]
    exact itemsStart?_eq_none_iff (depth + 1) _ vs
  | .dict entries => by
    rw [valueStart?, Value.isShowable]
    exact entriesStart?_eq_none_iff (depth + 1) _ entries
  | .null | .bool _ | .float _ | .text _ => by simp [valueStart?, Value.isShowable]

theorem itemsStart?_eq_none_iff (depth : Nat) (lead : List Char) :
    (vs : List Value) → (itemsStart? depth lead vs = none ↔ Value.areShowable vs)
  | [] => by simp [itemsStart?, Value.areShowable]
  | v :: vs => by
    have hv := valueStart?_eq_none_iff depth v
    have hvs := itemsStart?_eq_none_iff depth (',' :: newLine depth) vs
    rw [itemsStart?, Value.areShowable, Bool.and_eq_true, ← hv, ← hvs]
    split <;> simp_all

theorem entriesStart?_eq_none_iff (depth : Nat) (lead : List Char) :
    (entries : Entries) → (entriesStart? depth lead entries = none ↔ Value.entriesShowable entries)
  | [] => by simp [entriesStart?, Value.entriesShowable]
  | (key, v) :: entries => by
    have hv := valueStart?_eq_none_iff depth v
    have hentries := entriesStart?_eq_none_iff depth (',' :: newLine depth) entries
    rw [entriesStart?, Value.entriesShowable, Bool.and_eq_true, ← hv, ← hentries]
    split <;> simp_all

end

mutual

theorem prefix_of_valueStart? {start : List Char} (depth : Nat) :
    (v : Value) → valueStart? depth v = some start → start <+: writeValue depth v
  | .int i => by
    rw [valueStart?]
    intro h
    split at h
    · cases h
    · cases h
      exact List.nil_prefix
  | .list vs => by
    rw [valueStart?]
    intro h
    refine (prefix_of_itemsStart? (depth + 1) _ vs h).trans ?_
    cases vs with
    | nil => simp [itemsText]
    | cons v vs => simp [itemsText, writeValue]
  | .dict entries => by
    rw [valueStart?]
    intro h
    refine (prefix_of_entriesStart? (depth + 1) _ entries h).trans ?_
    cases entries with
    | nil => simp [entriesText]
    | cons entry entries => simp [entriesText, writeValue]
  | .null | .bool _ | .float _ | .text _ => by simp [valueStart?]

theorem prefix_of_itemsStart? {start : List Char} (depth : Nat) (lead : List Char) :
    (vs : List Value) → itemsStart? depth lead vs = some start →
      start <+: itemsText depth lead vs
  | [] => by simp [itemsStart?]
  | v :: vs => by
    rw [itemsStart?, itemsText]
    intro h
    split at h
    · next start' hstart =>
      cases h
      have hvalue := prefix_of_valueStart? depth v hstart
      have hitem : itemStart lead start' v <+: lead ++ writeValue depth v :=
        (prefix_of_itemStart lead start' v).trans ((List.prefix_append_right_inj lead).2 hvalue)
      exact hitem.trans (List.prefix_append _ _)
    · obtain ⟨more, hmore, rfl⟩ := Option.map_eq_some_iff.1 h
      rw [writeItems_eq]
      exact (List.prefix_append_right_inj _).2 (prefix_of_itemsStart? depth _ vs hmore)

theorem prefix_of_entriesStart? {start : List Char} (depth : Nat) (lead : List Char) :
    (entries : Entries) → entriesStart? depth lead entries = some start →
      start <+: entriesText depth lead entries
  | [] => by simp [entriesStart?]
  | (key, v) :: entries => by
    rw [entriesStart?, entriesText]
    intro h
    split at h
    · next start' hstart =>
      cases h
      have hvalue := prefix_of_valueStart? depth v hstart
      exact ((List.prefix_append_right_inj _).2 hvalue).trans (List.prefix_append _ _)
    · obtain ⟨more, hmore, rfl⟩ := Option.map_eq_some_iff.1 h
      rw [writeEntries_eq]
      exact (List.prefix_append_right_inj _).2 (prefix_of_entriesStart? depth _ entries hmore)

end

/-- A value is broken off exactly if it cannot be shown. -/
theorem writtenBefore?_eq_none_iff {v : Value} : writtenBefore? v = none ↔ v.isShowable := by
  rw [writtenBefore?, Option.map_eq_none_iff, valueStart?_eq_none_iff]

/-- What has been written is a beginning of the text. -/
theorem prefix_of_writtenBefore? {v : Value} {start : String} (h : writtenBefore? v = some start) :
    start.toList <+: (write v).toList := by
  obtain ⟨cs, hcs, rfl⟩ := Option.map_eq_some_iff.1 h
  rw [write, String.toList_ofList, String.toList_ofList]
  exact prefix_of_valueStart? 0 v hcs

end Json

end Calculator
