import Calculator.Config
import Calculator.Proofs.Json.Limits
import Calculator.Proofs.Json.Storable
import Calculator.Proofs.Text.Utf8

/-!
# Loading a file

A file whose bytes are no text cannot be loaded, nor one whose text comes upon a limit of reading.
Every other file can: what it holds is put over the defaults, and it counts as empty if it holds
nothing that is spelled as a value.
-/

namespace Calculator

open Text

namespace ConfigFile

/-- The file holds a text that spells the value. -/
def Holds (file : ConfigFile) (limit : Nat) (v : Value) : Prop :=
  ∃ text, file.content = some (encode text) ∧ Json.SpellsText limit (withLineFeeds text) v

/-- The bytes of the file are a text, if there are any, and the text comes upon no limit. -/
def IsLoadable (file : ConfigFile) (limit : Nat) : Prop :=
  ∀ bytes, file.content = some bytes → ∃ text, bytes = encode text ∧
    ∀ flaw, ¬Json.TextMeetsLimit limit (withLineFeeds text) flaw

variable {file : ConfigFile} {limit : Nat} {v : Value} {key : String} {entries : Entries}

theorem read_of_text {text : String} (h : file.content = some (encode text)) :
    file.read limit = match Json.read limit (withLineFeeds text) with
      | .ok v => .silent (.ok v)
      | .error .malformed => ⟨[.unreadable], .ok (.dict [])⟩
      | .error (.integerDigits n) => .silent (.error (.integerDigits n))
      | .error (.nesting container) => .silent (.error (.nesting container.word)) := by
  have htext : file.text? = some (.ok (withLineFeeds text)) := by
    simp only [text?, h, Option.map_some, decode_encode, Except.map]
  cases hread : Json.read limit (withLineFeeds text) with
  | ok v => simp only [read, htext, hread]
  | error flaw => cases flaw <;> simp only [read, htext, hread]

theorem read_of_holds (h : file.Holds limit v) : file.read limit = .silent (.ok v) := by
  obtain ⟨text, hcontent, hspells⟩ := h
  rw [read_of_text hcontent, Json.read_eq_ok_iff.2 hspells]

theorem read_of_not_holds (hload : file.IsLoadable limit) (h : ∀ v, ¬file.Holds limit v) :
    file.read limit = ⟨[.unreadable], .ok (.dict [])⟩ := by
  cases hcontent : file.content with
  | none =>
    have htext : file.text? = none := by rw [text?, hcontent, Option.map_none]
    rw [read, htext]
  | some bytes =>
    obtain ⟨text, rfl, hlimit⟩ := hload bytes hcontent
    rw [read_of_text hcontent]
    cases hread : Json.read limit (withLineFeeds text) with
    | ok v => exact absurd ⟨text, hcontent, Json.read_eq_ok_iff.1 hread⟩ (h v)
    | error flaw =>
      cases flaw with
      | malformed => rfl
      | integerDigits n =>
        exact absurd ((Json.read_eq_limit_iff (by simp)).1 hread) (hlimit (.integerDigits n))
      | nesting container =>
        exact absurd ((Json.read_eq_limit_iff (by simp)).1 hread) (hlimit (.nesting container))

/-- Exactly the loadable files are read. -/
theorem exists_read_iff : (∃ v, (file.read limit).value = .ok v) ↔ file.IsLoadable limit := by
  constructor
  · rintro ⟨v, h⟩ bytes hcontent
    cases hdecode : decode bytes with
    | error e =>
      have htext : file.text? = some (.error e) := by
        simp only [text?, hcontent, Option.map_some, hdecode, Except.map]
      rw [read, htext] at h
      cases h
    | ok text =>
      obtain rfl := decode_eq_ok_iff.1 hdecode
      refine ⟨text, rfl, fun flaw hlimit => ?_⟩
      have hlimited := hlimit.ne_malformed
      rw [read_of_text hcontent, (Json.read_eq_limit_iff hlimited).2 hlimit] at h
      cases flaw with
      | malformed => exact hlimited rfl
      | integerDigits n => cases h
      | nesting container => cases h
  · intro hload
    by_cases h : ∃ v, file.Holds limit v
    · obtain ⟨v, hv⟩ := h
      exact ⟨v, by rw [read_of_holds hv]; rfl⟩
    · exact ⟨.dict [], by rw [read_of_not_holds hload (not_exists.1 h)]⟩

theorem isLoadable_of_holds (h : file.Holds limit v) : file.IsLoadable limit :=
  exists_read_iff.1 ⟨v, by rw [read_of_holds h]; rfl⟩

theorem isLoadable_of_missing (h : file.content = none) : file.IsLoadable limit := by
  intro bytes hcontent
  rw [h] at hcontent
  cases hcontent

theorem distinct_of_holds (h : file.Holds limit (.dict entries)) :
    (entries.map Prod.fst).Nodup := by
  obtain ⟨text, -, hspells⟩ := h
  exact (Json.storable_of_read (Json.read_eq_ok_iff.2 hspells)).distinct

theorem mem_keys_overlay {key : LooseText} (h : key ∈ defaultSettings.map Prod.fst)
    (stored : Value) : key ∈ (overlay stored).map Prod.fst := by
  cases stored with
  | dict entries => exact mem_keys_putEntries h entries
  | _ => exact h

theorem load_eq (h : (file.read limit).value = .ok v) :
    (file.load limit).value = .ok (overlay v) := by
  rw [load, Logged.map, h]
  rfl

theorem setting_eq (h : (file.read limit).value = .ok v) (key : String) :
    (file.setting limit key).value = .ok
      (if key = allKey then .dict (overlay v) else ((overlay v).get? key).getD (.int 0)) := by
  rw [setting, Logged.map, load_eq h]
  rfl

theorem exists_setting_iff (key : String) :
    (∃ v, (file.setting limit key).value = .ok v) ↔ file.IsLoadable limit := by
  rw [← exists_read_iff]
  constructor
  · rintro ⟨v, h⟩
    obtain ⟨settings, hsettings, -⟩ := map_eq_ok_iff.1 h
    obtain ⟨stored, hstored, -⟩ := map_eq_ok_iff.1 hsettings
    exact ⟨stored, hstored⟩
  · rintro ⟨v, h⟩
    exact ⟨_, setting_eq h key⟩

theorem description_eq (key : String) : (file.read limit).value = .ok v →
    (file.description limit key).value =
      if key = allKey then .ok v
      else match v with
        | .dict entries => .ok ((Entries.get? entries key).getD (.text key))
        | v => .error (.notNamed v.kindName) := by
  intro h
  rw [description, Logged.map, h]
  rfl

/-- What is read is what the file holds, or nothing at all. -/
theorem holds_or_empty (h : (file.read limit).value = .ok v) :
    file.Holds limit v ∨ v = .dict [] ∧ ∀ w, ¬file.Holds limit w := by
  by_cases hholds : ∃ w, file.Holds limit w
  · obtain ⟨w, hw⟩ := hholds
    rw [read_of_holds hw] at h
    cases h
    exact .inl hw
  · rw [not_exists] at hholds
    rw [read_of_not_holds (exists_read_iff.1 ⟨v, h⟩) hholds] at h
    cases h
    exact .inr ⟨rfl, hholds⟩

theorem exists_description_iff (key : String) :
    (∃ v, (file.description limit key).value = .ok v) ↔ file.IsLoadable limit ∧
      (key = allKey ∨ ∀ v, file.Holds limit v → ∃ entries, v = .dict entries) := by
  rw [← exists_read_iff]
  constructor
  · rintro ⟨v, h⟩
    obtain ⟨stored, hstored, -⟩ := bind_eq_ok_iff.1 h
    rw [description_eq key hstored] at h
    refine ⟨⟨stored, hstored⟩, or_iff_not_imp_left.2 fun hkey w hw => ?_⟩
    rw [read_of_holds hw] at hstored
    cases hstored
    rw [if_neg hkey] at h
    split at h
    · exact ⟨_, rfl⟩
    · cases h
  · rintro ⟨⟨v, hv⟩, hkey⟩
    rw [description_eq key hv]
    by_cases hall : key = allKey
    · exact ⟨v, if_pos hall⟩
    · rw [if_neg hall]
      obtain ⟨entries, rfl⟩ : ∃ entries, v = .dict entries := by
        rcases holds_or_empty hv with h | ⟨rfl, -⟩
        · exact hkey.resolve_left hall v h
        · exact ⟨[], rfl⟩
      exact ⟨_, rfl⟩

/-- Exactly the loadable files give settings and descriptions, but for the descriptions in a file
that holds something other than a dictionary. The settings are the stored ones over the defaults,
and the description of a key is the stored one or the key. -/
theorem loaded_over_defaults (file : ConfigFile) (limit : Nat) :
    (∀ key, (∃ v, (file.setting limit key).value = .ok v) ↔ file.IsLoadable limit) ∧
    (∀ key, (∃ v, (file.description limit key).value = .ok v) ↔ file.IsLoadable limit ∧
      (key = allKey ∨ ∀ v, file.Holds limit v → ∃ entries, v = .dict entries)) ∧
    (file.IsLoadable limit → ∃ settings : Entries,
      (file.setting limit allKey).value = .ok (.dict settings) ∧
      (∀ key ∈ defaultSettings.map Prod.fst, key ∈ settings.map Prod.fst) ∧
      (∀ entries, file.Holds limit (.dict entries) → ∀ key,
        settings.lookup key = (entries.lookup key).or (defaultSettings.lookup key)) ∧
      ((∀ entries, ¬file.Holds limit (.dict entries)) → settings = defaultSettings) ∧
      ∀ key, key ≠ allKey →
        (file.setting limit key).value = .ok ((settings.get? key).getD (.int 0))) ∧
    (∀ key entries, key ≠ allKey → file.Holds limit (.dict entries) →
      (file.description limit key).value = .ok ((Entries.get? entries key).getD (.text key))) ∧
    ∀ key, key ≠ allKey → file.IsLoadable limit → (∀ v, ¬file.Holds limit v) →
      (file.description limit key).value = .ok (.text key) := by
  refine ⟨exists_setting_iff, exists_description_iff, fun hload => ?_,
    fun key entries hkey h => ?_, fun key hkey hload h => ?_⟩
  · obtain ⟨v, hv⟩ := exists_read_iff.2 hload
    refine ⟨overlay v, (setting_eq hv allKey).trans (by rw [if_pos rfl]),
      fun key hkey => mem_keys_overlay hkey v, fun entries h => ?_, fun h => ?_, fun key hkey =>
        (setting_eq hv key).trans (by rw [if_neg hkey])⟩
    · rw [read_of_holds h] at hv
      cases hv
      exact lookup_putEntries (distinct_of_holds h) defaultSettings
    · rcases holds_or_empty hv with hholds | ⟨rfl, -⟩
      · cases v with
        | dict entries => exact absurd hholds (h entries)
        | _ => rfl
      · rfl
  · have hread : (file.read limit).value = .ok (.dict entries) := by
      rw [read_of_holds h]
      rfl
    rw [description_eq key hread, if_neg hkey]
  · have hread : (file.read limit).value = .ok (.dict []) := by rw [read_of_not_holds hload h]
    rw [description_eq key hread, if_neg hkey]
    rfl

/-- A byte that begins no character keeps the settings from being loaded, and an empty list only
the descriptions; without a file each key describes itself. -/
theorem loaded_over_defaults_damaged :
    let damaged : ConfigFile := ⟨"config.json", some [0xff], true⟩
    let listed : ConfigFile := (absent "config.json").withText "[]"
    (¬∃ v, (damaged.setting 0 "precision").value = .ok v) ∧
      (∃ v, (listed.setting 0 "precision").value = .ok v) ∧
      (¬∃ v, (listed.description 0 "precision").value = .ok v) ∧
      ((absent "config.json").description 0 "precision").value = .ok (.text "precision") := by
  intro damaged listed
  have hkey : "precision" ≠ allKey := by decide
  have hdamaged : ¬damaged.IsLoadable 0 := by
    intro h
    obtain ⟨text, hbytes, -⟩ := h _ rfl
    have hdecode := decode_encode text
    rw [← hbytes] at hdecode
    cases hdecode
  have hlisted : listed.Holds 0 (.list []) := ⟨"[]", rfl, Json.read_eq_ok_iff.1 rfl⟩
  have hmissing : (absent "config.json").IsLoadable 0 := isLoadable_of_missing rfl
  obtain ⟨hsettings, hdescriptions, -⟩ := loaded_over_defaults listed 0
  refine ⟨fun h => hdamaged (((loaded_over_defaults damaged 0).1 "precision").1 h),
    (hsettings "precision").2 (isLoadable_of_holds hlisted), fun h => ?_, ?_⟩
  · obtain ⟨entries, hentries⟩ :=
      (((hdescriptions "precision").1 h).2.resolve_left hkey) (.list []) hlisted
    cases hentries
  · obtain ⟨-, -, -, -, hfallback⟩ := loaded_over_defaults (absent "config.json") 0
    refine hfallback "precision" hkey hmissing ?_
    rintro v ⟨text, hcontent, -⟩
    cases hcontent

end ConfigFile

end Calculator
