import Calculator.Proofs.Window.Settings

/-!
# Saving from the dialog

Settings that the session accepts and the file takes are in force everywhere: in the session, in the
file and in the window that loads them again. Settings that the session refuses change nothing. The
session takes settings over before they are written, so where the file cannot be written they stay
in the session alone.
-/

namespace Calculator

open Text

/-- A session looks at the entries only through their keys. -/
theorem Session.applySettings_congr {entries entries' : Entries}
    (h : ∀ key : String, entries.get? key = entries'.get? key) (s : Session) :
    s.applySettings entries = s.applySettings entries' := by
  simp only [applySettings, h]

theorem ArithmeticSettings.precisionOf_int_eq_ok_iff {i : Int} {p : Nat} :
    precisionOf (.int i) = .ok p ↔ i = p := by
  unfold precisionOf
  dsimp only
  split
  · simp only [refuse_ne_ok, false_iff]
    omega
  · rw [Except.ok.injEq]
    omega

section

variable {v : Value}

theorem ArithmeticMode.ofValue_ne_fault (h : v.isShowable = true) (f : Fault) :
    ofValue v ≠ .error (.fault f) := by
  unfold ofValue
  split
  · nofun
  · exact refuse_ne_fault (by rwa [Cause.isShowable]) f

theorem ArithmeticSettings.precisionOf_ne_fault (h : v.isShowable = true) (f : Fault) :
    precisionOf v ≠ .error (.fault f) := by
  unfold precisionOf
  split
  · split
    · exact refuse_ne_fault (by rwa [Cause.isShowable]) f
    · nofun
  · exact refuse_ne_fault (by rwa [Cause.isShowable]) f

theorem Session.stepLimitOf_ne_fault (h : v.isShowable = true) (f : Fault) :
    stepLimitOf v ≠ .error (.fault f) := by
  unfold stepLimitOf
  split
  · split
    · exact refuse_ne_fault (by rwa [Cause.isShowable]) f
    · nofun
  · exact refuse_ne_fault (by rwa [Cause.isShowable]) f

end

/-- A session takes over values that can be shown, or refuses them with an error. -/
theorem Session.applySettings_ne_fault {s : Session} {entries : Entries} {mode precision : Value}
    (hmode : entries.get? "arithmetic_mode" = some mode) (hm : mode.isShowable = true)
    (hprecision : entries.get? "precision" = some precision) (hp : precision.isShowable = true)
    (hl : ((entries.get? "max_steps").getD (.int s.maxSteps)).isShowable = true) (f : Fault) :
    (s.applySettings entries).value ≠ .error (.fault f) := by
  rw [value_applySettings]
  intro h
  rcases bind_eq_error_iff.1 h with h | ⟨limit, -, h⟩
  · exact stepLimitOf_ne_fault hl f h
  · rw [map_eq_error_iff, changeSettings_eq_error_iff, hmode, hprecision] at h
    rcases bind_eq_error_iff.1 h with h | ⟨_, -, h⟩
    · exact ArithmeticMode.ofValue_ne_fault hm f h
    · rcases bind_eq_error_iff.1 h with h | ⟨_, -, h⟩
      · exact ArithmeticSettings.precisionOf_ne_fault hp f h
      · cases h

namespace Dialog

/-- The dialog that was opened for a file, with the changes made in its fields. -/
inductive Shows (fields : DialogFields) (file : ConfigFile) (limit : Nat) : Dialog → Prop where
  | opened {d : Dialog} (h : Dialog.opened fields file limit = .ok d) : Shows fields file limit d
  | edited {d : Dialog} {a : DialogAct} (h : Shows fields file limit d) (ha : a.IsOffered) :
    Shows fields file limit (d.edit a)

/-- The session has the mode, the precision and the limit for steps that the dialog states. -/
structure StatesOf (d : Dialog) (s : Session) : Prop where
  mode : ArithmeticMode.ofValue (.text d.mode) = .ok s.settings.mode
  precision : d.precision = s.settings.precision
  significant : d.checks.lookup "use_significant_digits" = some s.settings.significant
  maxSteps : d.settings.get? "max_steps" = some (.int s.maxSteps)

def IsAccepted (d : Dialog) : Prop := ∃ s, d.StatesOf s ∧ 0 ≤ s.maxSteps

variable {fields : DialogFields} {d : Dialog} {a : DialogAct} {file : ConfigFile} {limit : Nat}
  {w : Window} {s s' : Session}

theorem Shows.hasFields (h : Shows fields file limit d) : d.HasFields limit := by
  induction h with
  | opened h => exact hasFields_opened h
  | edited _ ha ih => exact ih.edit ha

theorem Shows.load (h : Shows fields file limit d) :
    (file.load limit).value = .ok d.settings := by
  induction h with
  | opened h => exact load_of_opened h
  | edited _ _ ih => exact ih

theorem Shows.mem_keys (h : Shows fields file limit d) {key : LooseText}
    (hkey : key ∈ defaultSettings.map Prod.fst) : key ∈ d.settings.map Prod.fst := by
  obtain ⟨stored, -, hstored⟩ := map_eq_ok_iff.1 h.load
  exact hstored ▸ ConfigFile.mem_keys_overlay hkey stored

theorem lookup_checks (checks : List (String × Bool)) (key : String) :
    (checks.map fun (key, b) => (LooseText.ofString key, Value.bool b)).lookup
      (LooseText.ofString key) = (checks.lookup key).map .bool := by
  induction checks with
  | nil => rfl
  | cons check checks ih =>
    rw [List.map_cons, List.lookup_cons, List.lookup_cons, ih]
    by_cases hkey : key = check.1
    · simp [hkey]
    · have hne : LooseText.ofString key ≠ LooseText.ofString check.1 := fun h =>
        hkey (LooseText.ofString_injective h)
      simp [beq_false_of_ne hkey, beq_false_of_ne hne]

theorem HasFields.get?_mode (hd : d.HasFields limit) :
    d.entries.get? "arithmetic_mode" = some (.text d.mode) := by
  rw [hd.get?_entries]
  rfl

theorem HasFields.get?_precision (hd : d.HasFields limit) :
    d.entries.get? "precision" = some (.int d.precision) := by
  rw [hd.get?_entries]
  rfl

theorem HasFields.get?_check (hd : d.HasFields limit) {key : String} (hkey : key ∈ checkKeys) :
    d.entries.get? key = (d.checks.lookup key).map .bool := by
  obtain ⟨b, hb⟩ := exists_lookup_of_mem (hd.checks ▸ hkey)
  have hshown : d.shownEntries.get? key = some (.bool b) := by
    have hlookup := lookup_checks d.checks key
    rw [hb] at hlookup
    simp only [checkKeys, List.mem_cons, List.not_mem_nil, or_false] at hkey
    rcases hkey with rfl | rfl | rfl <;> exact hlookup
  rw [hd.get?_entries, hshown, hb]
  rfl

theorem HasFields.get?_maxSteps (hd : d.HasFields limit) :
    d.entries.get? "max_steps" = d.settings.get? "max_steps" := by
  have hnone : d.shownEntries.get? "max_steps" = none := by
    refine lookup_eq_none_of_notMem ?_
    rw [hd.keys_shownEntries]
    decide
  rw [hd.get?_entries, hnone, Option.none_or]

theorem StatesOf.unique (h : d.StatesOf s) (h' : d.StatesOf s') :
    s.settings = s'.settings ∧ s.maxSteps = s'.maxSteps := by
  have hmode := Except.ok.inj (h.mode.symm.trans h'.mode)
  have hprecision := Int.ofNat.inj (h.precision.symm.trans h'.precision)
  have hsignificant := Option.some.inj (h.significant.symm.trans h'.significant)
  have hsteps := Value.int.inj (Option.some.inj (h.maxSteps.symm.trans h'.maxSteps))
  refine ⟨?_, hsteps⟩
  obtain ⟨⟨mode, precision, significant⟩, _, _, _⟩ := s
  obtain ⟨⟨mode', precision', significant'⟩, _, _, _⟩ := s'
  obtain rfl : mode = mode' := hmode
  obtain rfl : precision = precision' := hprecision
  obtain rfl : significant = significant' := hsignificant
  rfl

/-- The session takes over exactly what the dialog states. -/
theorem Shows.applySettings_eq_ok_iff (h : Shows fields file limit d) :
    (s.applySettings d.entries).value = .ok s' ↔ (d.StatesOf s' ∧ 0 ≤ s'.maxSteps) ∧
      s'.symbols = s.symbols ∧ s'.maxNodes = s.maxNodes := by
  have hd := h.hasFields
  obtain ⟨b, hb⟩ : ∃ b, d.checks.lookup "use_significant_digits" = some b :=
    exists_lookup_of_mem (hd.checks ▸ by decide)
  obtain ⟨limit, hlimit⟩ : ∃ v, d.settings.get? "max_steps" = some v :=
    exists_lookup_of_mem (h.mem_keys (by decide))
  rw [Session.applySettings_eq_ok_iff, hd.get?_mode, hd.get?_precision,
    hd.get?_check (by decide), hd.get?_maxSteps, hb, hlimit]
  constructor
  · rintro ⟨htakes, hnonneg⟩
    refine ⟨⟨⟨htakes.mode, ?_, ?_, ?_⟩, hnonneg⟩, htakes.symbols, htakes.maxNodes⟩
    · exact ArithmeticSettings.precisionOf_int_eq_ok_iff.1 htakes.precision
    · exact hb.trans (congrArg some (Except.ok.inj htakes.significant))
    · rw [hlimit, (Session.stepLimitOf_eq_ok_iff.1 htakes.maxSteps).1]
  · rintro ⟨⟨hstates, hnonneg⟩, hsymbols, hnodes⟩
    refine ⟨⟨hsymbols, hnodes, hstates.mode, ?_, ?_, ?_⟩, hnonneg⟩
    · exact ArithmeticSettings.precisionOf_int_eq_ok_iff.2 hstates.precision
    · exact congrArg Except.ok (Option.some.inj (hb.symm.trans hstates.significant))
    · exact Session.stepLimitOf_eq_ok_iff.2
        ⟨Option.some.inj (hlimit.symm.trans hstates.maxSteps), hnonneg⟩

theorem Shows.isAccepted_iff (h : Shows fields file limit d) (s : Session) :
    d.IsAccepted ↔ ∃ s', (s.applySettings d.entries).value = .ok s' := by
  constructor
  · rintro ⟨s', hstates, hnonneg⟩
    refine ⟨{ s' with symbols := s.symbols, maxNodes := s.maxNodes },
      h.applySettings_eq_ok_iff.2 ⟨⟨⟨?_, ?_, ?_, ?_⟩, hnonneg⟩, rfl, rfl⟩⟩
    · exact hstates.mode
    · exact hstates.precision
    · exact hstates.significant
    · exact hstates.maxSteps
  · rintro ⟨s', hs'⟩
    exact ⟨s', (h.applySettings_eq_ok_iff.1 hs').1⟩

theorem save_of_error {e : MathError}
    (h : (w.session.applySettings d.entries).value = .error (.error e)) :
    d.save w limit = ({ window := w, notices := [refusal e] }, false) := by
  rw [save, h]

theorem Shows.applySettings_cases (h : Shows fields file limit d) (s : Session) :
    (∃ s', (s.applySettings d.entries).value = .ok s') ∨
      ∃ e, (s.applySettings d.entries).value = .error (.error e) := by
  have hd := h.hasFields
  have hprecision : (Value.int d.precision).Storable limit := .int hd.precision
  have hlimit : ((d.entries.get? "max_steps").getD (.int s.maxSteps)).isShowable = true := by
    have hkey : ("max_steps" : LooseText) ∈ defaultSettings.map Prod.fst := by decide
    obtain ⟨v, hv⟩ := exists_lookup_of_mem (h.mem_keys hkey)
    have hstated := hd.settings.stated "max_steps"
    rw [hd.get?_maxSteps, Entries.get?, hv]
    rw [Entries.get?, hv] at hstated
    exact hstated.isShowable
  rcases hanswer : (s.applySettings d.entries).value with (e | f) | s'
  · exact .inr ⟨e, rfl⟩
  · exact absurd hanswer (Session.applySettings_ne_fault hd.get?_mode rfl hd.get?_precision
      hprecision.isShowable hlimit f)
  · exact .inl ⟨s', rfl⟩

/-- The settings in the dialog have been loaded, so saving them leaves no default to be added. -/
theorem Shows.lookup_reloaded (h : Shows fields file limit d)
    (hs : (Value.dict d.entries).Storable (limit + 1)) (key : LooseText) :
    (putEntries defaultSettings d.entries).lookup key = d.entries.lookup key := by
  rw [lookup_putEntries hs.distinct]
  cases hfound : d.entries.lookup key with
  | some v => rfl
  | none =>
    rw [Option.none_or]
    refine lookup_eq_none_of_notMem fun hmem => ?_
    obtain ⟨v, hv⟩ := exists_lookup_of_mem (mem_keys_putEntries (h.mem_keys hmem) d.shownEntries)
    rw [← entries_eq, hfound] at hv
    cases hv

/-- The new settings are in force in the session, in the file and in the window, and nothing has
been said about it. -/
structure Saved (d : Dialog) (w : Window) (limit : Nat) (r : Reaction) : Prop where
  states : d.StatesOf r.window.session
  symbols : r.window.session.symbols = w.session.symbols
  maxNodes : r.window.session.maxNodes = w.session.maxNodes
  stored : (r.window.file.read limit).value = .ok (.dict d.entries)
  loaded : (r.window.file.load limit).value = .ok r.window.settings
  settings : ∀ key : String, r.window.settings.get? key =
    (d.shownEntries.get? key).or (d.settings.get? key)
  quiet : r.notices = [] ∧ r.fault = none

theorem Shows.saved (h : Shows fields file limit d)
    (happly : (w.session.applySettings d.entries).value = .ok s) (hw : w.file.writable = true) :
    d.Saved w limit (d.save w limit).1 := by
  have hd := h.hasFields
  have hs := hd.storable_entries happly
  have hload : ((w.file.withText (Json.write (.dict d.entries))).load limit).value =
      .ok (putEntries defaultSettings d.entries) := by
    rw [ConfigFile.load_withText hs]
    rfl
  have hagain : (s.applySettings (putEntries defaultSettings d.entries)).value = .ok s := by
    rw [Session.applySettings_congr fun key => h.lookup_reloaded hs key]
    exact Session.applySettings_again happly
  obtain ⟨⟨hstates, -⟩, hsymbols, hnodes⟩ := h.applySettings_eq_ok_iff.1 happly
  rw [save_of_writable happly hs.isShowable hw]
  simp only [Window.reload, hload, Window.adopt, hagain]
  refine ⟨hstates, hsymbols, hnodes, ?_, hload, fun key => ?_, rfl, rfl⟩
  · rw [ConfigFile.read_withText hs]
    rfl
  · exact (h.lookup_reloaded hs key).trans (hd.get?_entries key)

/-- The window is as before but for the session, which is as before exactly if it refuses the new
settings or has had them already. -/
structure Unsaved (d : Dialog) (w : Window) (r : Reaction) : Prop where
  window : r.window = { w with session := r.window.session }
  refused : ¬d.IsAccepted → r.window = w
  accepted : d.IsAccepted → d.StatesOf r.window.session
  kept : r.window.session.settings = w.session.settings ∧
      r.window.session.maxSteps = w.session.maxSteps ↔ ¬d.IsAccepted ∨ d.StatesOf w.session
  told : ∃ notice, r.notices = [notice]

theorem Shows.unsaved (h : Shows fields file limit d)
    (hw : d.IsAccepted → w.file.writable = false) : d.Unsaved w (d.save w limit).1 := by
  rcases h.applySettings_cases w.session with ⟨s, happly⟩ | ⟨e, happly⟩
  · have haccepted : d.IsAccepted := (h.isAccepted_iff w.session).2 ⟨s, happly⟩
    obtain ⟨⟨hstates, -⟩, -, -⟩ := h.applySettings_eq_ok_iff.1 happly
    rw [save_of_not_writable happly (hw haccepted)]
    refine ⟨rfl, fun hnot => absurd haccepted hnot, fun _ => hstates, ?_, _, rfl⟩
    constructor
    · rintro ⟨hsettings, hsteps⟩
      right
      dsimp only at hsettings hsteps
      obtain ⟨hmode, hprecision, hsignificant, hlimit⟩ := hstates
      rw [hsettings] at hmode hprecision hsignificant
      rw [hsteps] at hlimit
      exact ⟨hmode, hprecision, hsignificant, hlimit⟩
    · rintro (hnot | hold)
      · exact absurd haccepted hnot
      · exact hstates.unique hold
  · have hnot : ¬d.IsAccepted := by
      rw [h.isAccepted_iff w.session]
      rintro ⟨s, hs⟩
      rw [happly] at hs
      cases hs
    rw [save_of_error happly]
    exact ⟨rfl, fun _ => rfl, fun haccepted => absurd haccepted hnot,
      iff_of_true ⟨rfl, rfl⟩ (.inl hnot), _, rfl⟩

/-- Settings are saved exactly if the session accepts them and the file can be written, and then
they are in force everywhere. Else the window keeps its file and its settings; its session keeps its
own only if it refuses the new ones or has had them already. -/
theorem save_everywhere_or_not (h : Shows fields file limit d) (w : Window) :
    ((d.save w limit).2 = true ↔ d.IsAccepted ∧ w.file.writable = true) ∧
    ((d.save w limit).2 = true → d.Saved w limit (d.save w limit).1) ∧
    ((d.save w limit).2 = false → d.Unsaved w (d.save w limit).1) := by
  have hiff : (d.save w limit).2 = true ↔ d.IsAccepted ∧ w.file.writable = true := by
    rw [h.isAccepted_iff w.session]
    rcases h.applySettings_cases w.session with ⟨s, happly⟩ | ⟨e, happly⟩
    · have hs := h.hasFields.storable_entries happly
      cases hw : w.file.writable with
      | false => simp [save_of_not_writable happly hw, happly]
      | true => simp [save_of_writable happly hs.isShowable hw, happly]
    · simp [save_of_error happly, happly]
  refine ⟨hiff, fun hsaved => ?_, fun hunsaved => ?_⟩
  · obtain ⟨haccepted, hw⟩ := hiff.1 hsaved
    obtain ⟨s, happly⟩ := (h.isAccepted_iff w.session).1 haccepted
    exact h.saved happly hw
  · refine h.unsaved fun haccepted => Bool.eq_false_iff.2 fun hw => ?_
    rw [hiff.2 ⟨haccepted, hw⟩] at hunsaved
    cases hunsaved

def usual : Dialog where
  settings := defaultSettings
  mode := "normal"
  precision := 4
  checks := [("use_significant_digits", false), ("show_steps", true), ("darkmode", false)]
  dark := false

/-- In a directory that cannot be written to, a precision of 2 is not saved, but the session has it
from then on. -/
theorem save_everywhere_or_not_unwritable :
    let file : ConfigFile := ⟨"config.json", none, false⟩
    let w : Window := { file, session := {}, settings := defaultSettings }
    let d := usual.edit ⟨none, some 2, [], some .ok⟩
    Shows .offering file 100 d ∧ (d.save w 100).2 = false ∧ w.session.settings.precision = 4 ∧
      (d.save w 100).1.window.session.settings.precision = 2 := by
  intro file w d
  have hopened : Dialog.opened .offering file 100 = .ok usual := by rfl
  have h : Shows .offering file 100 d :=
    .edited (.opened hopened) ⟨by simp [dialogPrecisions], nofun⟩
  have haccepted : d.IsAccepted :=
    ⟨{ settings := ⟨.normal, 2, false⟩ }, ⟨rfl, rfl, rfl, rfl⟩, by decide⟩
  obtain ⟨hiff, -, hnot⟩ := save_everywhere_or_not h w
  have hunsaved : (d.save w 100).2 = false :=
    Bool.eq_false_iff.2 fun hsaved => Bool.false_ne_true (hiff.1 hsaved).2
  have hstates := (hnot hunsaved).accepted haccepted
  exact ⟨h, hunsaved, rfl, (Int.ofNat.inj hstates.precision).symm⟩

end Dialog

end Calculator
