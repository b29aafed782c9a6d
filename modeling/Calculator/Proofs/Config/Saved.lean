import Calculator.Config
import Calculator.Proofs.Json.Beginning
import Calculator.Proofs.Text.Utf8

/-!
# Saving and loading settings

Settings that are saved are loaded again as they were, with the defaults for what they lack.
-/

namespace Calculator

open Text

namespace Text

/-- A text without carriage returns is read from a file as it is. -/
theorem lineFeedChars_of_notMem {cs : List Char} (h : '\r' ∉ cs) : lineFeedChars cs = cs := by
  fun_induction lineFeedChars cs with
  | case1 => rfl
  | case2 => simp at h
  | case3 c cs _ ih =>
    rw [List.mem_cons, not_or] at h
    rw [if_neg (Ne.symm h.1), ih h.2]

theorem toNat_lt_of_mem_encode {s : String} (h : ∀ c ∈ s.toList, c.toNat < 0x80) :
    ∀ b ∈ encode s, b.toNat < 0x80 := by
  rw [encode, List.forall_mem_flatMap]
  intro c hc
  have hb : (UInt8.ofNat c.toNat).toNat = c.toNat :=
    PartialChar.toNat_ofNat_byte ((h c hc).trans (by decide))
  have hlow := h c hc
  rw [← hb] at hlow
  rw [encodeChar_one hb.symm hlow]
  exact List.forall_mem_singleton.2 hlow

end Text

namespace ConfigFile

variable {file saved : ConfigFile} {settings : Entries} {limit : Nat}

/-- What becomes of a file in which settings are saved. -/
inductive Saves (file : ConfigFile) (settings : Entries) :
    Except Fault Bool × ConfigFile → Prop where
  | saved : file.writable = true → (Value.dict settings).isShowable = true →
    Saves file settings (.ok true, file.withText (Json.write (.dict settings)))
  | refused : file.writable = false → Saves file settings (.ok false, file)
  /-- The text breaks off in front of a whole number that cannot be shown. -/
  | brokenOff {start : String} : file.writable = true →
    (Value.dict settings).isShowable = false →
    start.toList <+: (Json.write (.dict settings)).toList →
    Saves file settings (.error .integerShown, file.withText start)

theorem saves_save (file : ConfigFile) (settings : Entries) :
    Saves file settings (file.save settings).value := by
  unfold save
  split
  · next hw =>
    cases hstart : Json.writtenBefore? (.dict settings) with
    | none => exact .saved hw (Json.writtenBefore?_eq_none_iff.1 hstart)
    | some start =>
      have hshown : ¬(Value.dict settings).isShowable = true := by
        rw [← Json.writtenBefore?_eq_none_iff, hstart]
        nofun
      exact .brokenOff hw (Bool.eq_false_iff.2 hshown) (Json.prefix_of_writtenBefore? hstart)
  · next hw => exact .refused (Bool.eq_false_iff.2 hw)

/-- Settings are saved wherever the file can be written and all of them can be shown. -/
theorem save_eq_saved_iff : (file.save settings).value = (.ok true, saved) ↔
    file.writable = true ∧ (Value.dict settings).isShowable = true ∧
      file.withText (Json.write (.dict settings)) = saved := by
  have hsaves := saves_save file settings
  generalize (file.save settings).value = answer at hsaves ⊢
  cases hsaves <;> simp_all

theorem read_withText {v : Value} (h : v.Storable (limit + 1)) :
    (file.withText (Json.write v)).read limit = .silent (.ok v) := by
  have hplain : ∀ c ∈ (Json.write v).toList, Json.IsPlain c := by
    rw [Json.write, String.toList_ofList]
    exact Json.isPlain_writeValue h 0
  have hfeeds : withLineFeeds (Json.write v) = Json.write v := by
    rw [withLineFeeds, lineFeedChars_of_notMem fun hmem => absurd (hplain _ hmem) (by decide),
      String.ofList_toList]
  have htext : (file.withText (Json.write v)).text? = some (.ok (Json.write v)) := by
    simp only [text?, withText, Option.map_some, decode_encode, Except.map, hfeeds]
  rw [read, htext]
  simp only [Json.read_write h]

theorem load_withText (h : (Value.dict settings).Storable (limit + 1)) :
    (file.withText (Json.write (.dict settings))).load limit =
      .silent (.ok (putEntries defaultSettings settings)) := by
  rw [load, read_withText h]
  rfl

/-- Settings that are saved are loaded again with the defaults for what they lack, each under its
key; and the file holds ASCII only. -/
theorem load_save (hd : (Value.dict settings).Storable (limit + 1))
    (hs : (file.save settings).value = (.ok true, saved)) :
    (∃ bytes, saved.content = some bytes ∧ ∀ b ∈ bytes, b.toNat < 0x80) ∧
      saved.setting limit allKey = .silent (.ok (.dict (putEntries defaultSettings settings))) ∧
      (∀ key, (putEntries defaultSettings settings).lookup key =
        (settings.lookup key).or (defaultSettings.lookup key)) ∧
      ∀ key v, key ≠ allKey → settings.get? key = some v →
        saved.setting limit key = .silent (.ok v) := by
  obtain ⟨-, -, rfl⟩ := save_eq_saved_iff.1 hs
  have hlookup := lookup_putEntries hd.distinct defaultSettings
  refine ⟨⟨_, rfl, toNat_lt_of_mem_encode fun c hc => ?_⟩, ?_, hlookup, fun key v hkey hv => ?_⟩
  · rw [Json.write, String.toList_ofList] at hc
    rcases Json.isPlain_writeValue hd 0 c hc with rfl | hc
    · decide
    · omega
  · rw [setting, load_withText hd]
    rfl
  · have hfound : Entries.get? (putEntries defaultSettings settings) key = some v := by
      rw [Entries.get?, hlookup, ← Entries.get?, hv, Option.some_or]
    rw [setting, load_withText hd]
    simp only [Logged.map, Logged.silent, Except.map, if_neg hkey, hfound, Option.getD_some]

def nestedSettings : Entries :=
  [("display_width", .null), ("precision", .int (-12)), ("note", .text "\"a\\b\"\n\x07é😀"),
    ("windows", .dict [("main", .list [.int 420, .bool true, .list [], .dict []])])]

theorem storable_nestedSettings : (Value.dict nestedSettings).Storable 4 := by
  have hmain (n : Nat) :
      (Value.list [.int 420, .bool true, .list [], .dict []]).Storable (n + 2) := by
    refine .list ?_
    simp only [List.forall_mem_cons]
    exact ⟨storable_short _ (by decide), .bool true, .list nofun, .dict .nil nofun nofun, nofun⟩
  refine .dict (by decide) (by simp [nestedSettings, LooseText.isJoined_ofString]) ?_
  simp only [nestedSettings, List.forall_mem_cons]
  refine ⟨.null, storable_short _ (by decide), storable_string _ _, .dict (by decide) ?_ ?_,
    nofun⟩ <;> simp only [List.forall_mem_singleton]
  · exact LooseText.isJoined_ofString _
  · exact hmain _

/-- The nested settings are loaded again as they were saved. -/
theorem load_save_nestedSettings :
    (Value.dict nestedSettings).Storable 4 ∧
      ((absent "config.json").save nestedSettings).value =
        (.ok true, ofEntries "config.json" nestedSettings) ∧
      (ofEntries "config.json" nestedSettings).setting 3 "note" =
        .silent (.ok (.text "\"a\\b\"\n\x07é😀")) := by
  have hsaved : ((absent "config.json").save nestedSettings).value =
      (.ok true, ofEntries "config.json" nestedSettings) :=
    save_eq_saved_iff.2 ⟨rfl, storable_nestedSettings.isShowable, rfl⟩
  exact ⟨storable_nestedSettings, hsaved,
    (load_save storable_nestedSettings hsaved).2.2.2 "note" _ (by decide) rfl⟩

end ConfigFile

end Calculator
