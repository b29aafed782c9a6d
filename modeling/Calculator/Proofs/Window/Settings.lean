import Calculator.Proofs.Config.Loaded
import Calculator.Proofs.Config.Saved
import Calculator.Proofs.Window.Job
import Calculator.Window.Dialog

/-!
# Settings of the window

The dialog puts what is chosen over the settings that it has loaded. What it saves is loaded again
as it was saved, and the width of the lines is not among what can be chosen. So the width that the
window has in force stays a width, and nothing that is calculated or shown changes.
-/

namespace Calculator

open Text

theorem allDigits_dropUnderscores {cs digits : List Char} {previous : Char}
    (hcs : ∀ c ∈ cs, (c.isDigit || c == '_') = true)
    (h : dropUnderscores? previous cs = some digits) : AllDigits digits := by
  fun_induction dropUnderscores? previous cs generalizing digits with
  | case1 =>
    cases h
    nofun
  | case2 previous cs _ ih => exact ih (List.forall_mem_cons.1 hcs).2 h
  | case3 => cases h
  | case4 previous c cs hc ih =>
    rw [List.forall_mem_cons] at hcs
    obtain ⟨more, hmore, rfl⟩ := Option.map_eq_some_iff.1 h
    have hdigit : c.isDigit = true := by simpa [hc] using hcs.1
    exact List.forall_mem_cons.2 ⟨hdigit, ih hcs.2 hmore⟩

theorem natAbs_readInteger_lt {t : LooseText} {i : Int} (h : readInteger t = .ok i) :
    i.natAbs < 10 ^ maxIntegerDigits := by
  simp only [readInteger] at h
  split at h
  · cases h
  · next digits hdigits =>
    have hall : AllDigits digits :=
      allDigits_dropUnderscores (fun c hc => (List.mem_takeWhile_imp hc :)) hdigits
    split_ifs at h with hlength
    cases h
    exact (natAbs_integerOfDigits_lt hall _).trans_le
      (Nat.pow_le_pow_right (by decide) (Nat.le_of_not_lt hlength))

namespace Binary

theorem natAbs_signed (b : Binary) (n : Nat) : (b.signed n).natAbs = n := by
  rw [signed]
  split
  · rw [Int.natAbs_neg, Int.natAbs_natCast]
  · rw [Int.natAbs_natCast]

theorem natAbs_truncate_ofFloat_lt (v : Float) :
    (ofFloat v).truncate.natAbs < 10 ^ maxIntegerDigits := by
  have hsignificand : (ofFloat v).significand < 2 ^ 53 := (fields_ofFloat v).1
  have hexponent : (ofFloat v).exponent.toNat ≤ 972 := by
    have hbits : magnitudeBits v < 2 ^ 63 := Nat.mod_lt _ (twos_pos 63)
    rw [ofFloat_eq]
    dsimp only
    omega
  have hdigits : 53 + (ofFloat v).exponent.toNat ≤ maxIntegerDigits :=
    (Nat.add_le_add_left hexponent 53).trans (by decide)
  calc (ofFloat v).truncate.natAbs
      ≤ (ofFloat v).numerator := by
        rw [truncate, natAbs_signed]
        exact Nat.div_le_self _ _
    _ < 2 ^ 53 * 2 ^ (ofFloat v).exponent.toNat :=
        Nat.mul_lt_mul_of_pos_right hsignificand (Nat.two_pow_pos _)
    _ = 2 ^ (53 + (ofFloat v).exponent.toNat) := (Nat.pow_add _ _ _).symm
    _ ≤ 10 ^ (53 + (ofFloat v).exponent.toNat) := Nat.pow_le_pow_left (by decide) _
    _ ≤ 10 ^ maxIntegerDigits := Nat.pow_le_pow_right (by decide) hdigits

end Binary

namespace Value

variable {n : Nat} {v : Value} {i : Int}

/-- A storable value stands for no whole number that is too long to be stored. -/
theorem Storable.natAbs_toInteger_lt (hv : v.Storable n) (h : v.toInteger = .ok i) :
    i.natAbs < 10 ^ maxIntegerDigits := by
  cases hv with
  | int hi =>
    cases h
    exact hi
  | bool b =>
    cases h
    cases b <;> exact natAbs_lt_of_short (by decide)
  | @float _ v =>
    rw [toInteger] at h
    split_ifs at h
    cases h
    exact Binary.natAbs_truncate_ofFloat_lt v
  | text _ => exact natAbs_readInteger_lt (mapError_eq_ok_iff.1 h)
  | null | list | dict => cases h

end Value

def Entries.width (settings : Entries) : Value := (settings.get? "display_width").getD .null

/-- The width that a file states, if it can be loaded, is a width. -/
def ConfigFile.HasWidth (file : ConfigFile) (limit : Nat) : Prop :=
  ∀ settings : Entries, (file.load limit).value = .ok settings → settings.width.IsWidth

theorem storable_defaultSettings (n : Nat) : (Value.dict defaultSettings).Storable (n + 1) := by
  refine .dict (by decide) (by simp [defaultSettings, LooseText.isJoined_ofString]) ?_
  simp only [defaultSettings, List.forall_mem_cons]
  exact ⟨storable_string _ _, storable_short _ (by decide), .bool _, .bool _,
    storable_short _ (by decide), storable_short _ (by decide), .bool _, storable_string _ _, nofun⟩

namespace ConfigFile

variable {file : ConfigFile} {limit : Nat} {settings : Entries}

theorem storable_of_load (h : (file.load limit).value = .ok settings) :
    (Value.dict settings).Storable (limit + 1) := by
  obtain ⟨stored, hread, rfl⟩ := map_eq_ok_iff.1 h
  rcases holds_or_empty hread with ⟨text, -, hspells⟩ | ⟨rfl, -⟩
  · cases Json.storable_of_read (Json.read_eq_ok_iff.2 hspells) with
    | dict _ hkeys hvalues => exact (storable_defaultSettings _).putEntries hkeys hvalues
    | null | bool | int | float | text | list => exact storable_defaultSettings _
  · exact storable_defaultSettings _

theorem hasWidth_withText (file : ConfigFile)
    (hs : (Value.dict settings).Storable (limit + 1)) (hw : settings.width.IsWidth) :
    (file.withText (Json.write (.dict settings))).HasWidth limit := by
  intro loaded h
  rw [load_withText hs] at h
  cases h
  rw [Entries.width, Entries.get?, lookup_putEntries hs.distinct, ← Entries.get?]
  rw [Entries.width] at hw
  cases hstated : settings.get? "display_width" with
  | none => trivial
  | some width =>
    rw [hstated] at hw
    exact hw

theorem hasWidth_ofEntries (path : String)
    (hs : (Value.dict settings).Storable (limit + 1)) (hw : settings.width.IsWidth) :
    (ofEntries path settings).HasWidth limit := hasWidth_withText _ hs hw

end ConfigFile

theorem ArithmeticMode.isJoined_of_ofValue {t : LooseText} {mode : ArithmeticMode}
    (h : ofValue (.text t) = .ok mode) : t.IsJoined := by
  unfold ofValue at h
  split at h
  · next hmode =>
    obtain ⟨word, hword, -⟩ := Option.bind_eq_some_iff.1 hmode
    have ht : t = LooseText.ofString word := LooseText.eq_ofString_of_toString? hword
    exact ht ▸ LooseText.isJoined_ofString word
  · exact absurd h (refuse_ne_ok _ _)

/-- Fields that offer the modes and some precisions: another mode leaves the first one chosen, and
of the precisions the nearest one is taken. -/
def DialogFields.offering : DialogFields where
  mode t :=
    .ok (if ArithmeticMode.all.any fun m => t = LooseText.ofString m.name then t else "normal")
  precision p := .ok (max dialogPrecisions.1 (min p dialogPrecisions.2))
  precision_cases _ _ h :=
    .inr (Except.ok.inj h ▸ ⟨le_max_left _ _, max_le (by decide) (min_le_right _ _)⟩)

/-- The dialog has the fields for the changes. -/
def DialogAct.IsOffered (a : DialogAct) : Prop :=
  (∀ p ∈ a.precision, (dialogPrecisions.1 : Int) ≤ p ∧ p ≤ dialogPrecisions.2) ∧
    ∀ check ∈ a.checks, check.1 ∈ checkKeys

namespace Dialog

/-- The settings in the dialog can be stored, and the fields are those of the dialog. -/
structure HasFields (d : Dialog) (limit : Nat) : Prop where
  settings : (Value.dict d.settings).Storable (limit + 1)
  precision : d.precision.natAbs < 10 ^ maxIntegerDigits
  checks : d.checks.map Prod.fst = checkKeys

/-- A dialog with its fields whose settings state a width. -/
structure IsSound (d : Dialog) (limit : Nat) : Prop extends d.HasFields limit where
  width : d.settings.width.IsWidth

variable {fields : DialogFields} {d : Dialog} {a : DialogAct} {file : ConfigFile} {limit : Nat}
  {w : Window} {acts : List DialogAct}

theorem load_of_opened (h : opened fields file limit = .ok d) :
    (file.load limit).value = .ok d.settings := by
  obtain ⟨settings, hload, h⟩ := bind_eq_ok_iff.1 h
  obtain ⟨mode, -, h⟩ := bind_eq_ok_iff.1 h
  obtain ⟨precision, -, h⟩ := bind_eq_ok_iff.1 h
  obtain ⟨shown, -, h⟩ := bind_eq_ok_iff.1 h
  cases h
  exact hload

theorem natAbs_lt_of_offered {p : Int}
    (h : (dialogPrecisions.1 : Int) ≤ p ∧ p ≤ dialogPrecisions.2) :
    p.natAbs < 10 ^ maxIntegerDigits := by
  obtain ⟨hlow, hhigh⟩ : 0 ≤ p ∧ p ≤ 15 := h
  have hshort : p.natAbs < 10 ^ 3 := by omega
  exact natAbs_lt_of_short hshort

theorem hasFields_opened (h : opened fields file limit = .ok d) : d.HasFields limit := by
  obtain ⟨settings, hload, h⟩ := bind_eq_ok_iff.1 h
  obtain ⟨mode, -, h⟩ := bind_eq_ok_iff.1 h
  obtain ⟨precision, hprecision, h⟩ := bind_eq_ok_iff.1 h
  obtain ⟨shown, hshown, h⟩ := bind_eq_ok_iff.1 h
  cases h
  have hstorable := ConfigFile.storable_of_load hload
  refine ⟨hstorable, ?_, rfl⟩
  rcases fields.precision_cases precision shown hshown with rfl | hchosen
  · exact (hstorable.stated "precision").natAbs_toInteger_lt hprecision
  · exact natAbs_lt_of_offered hchosen

theorem isSound_opened (hf : file.HasWidth limit) (h : opened fields file limit = .ok d) :
    d.IsSound limit :=
  ⟨hasFields_opened h, hf _ (load_of_opened h)⟩

theorem HasFields.edit (hd : d.HasFields limit) (ha : a.IsOffered) :
    (d.edit a).HasFields limit := by
  refine ⟨hd.settings, ?_, ?_⟩
  · change (a.precision.getD d.precision).natAbs < _
    cases hp : a.precision with
    | none => exact hd.precision
    | some p => exact natAbs_lt_of_offered (ha.1 p hp)
  · refine (keys_putEntries_of_mem fun check hmem => ?_).trans hd.checks
    rw [hd.checks]
    exact ha.2 check hmem

theorem IsSound.edit (hd : d.IsSound limit) (ha : a.IsOffered) : (d.edit a).IsSound limit :=
  ⟨hd.toHasFields.edit ha, hd.width⟩

def shownEntries (d : Dialog) : Entries :=
  let chosen : Entries := [("arithmetic_mode", .text d.mode), ("precision", .int d.precision)]
  chosen ++ d.checks.map fun (key, b) => (LooseText.ofString key, .bool b)

theorem entries_eq (d : Dialog) : d.entries = putEntries d.settings d.shownEntries := rfl

theorem HasFields.keys_shownEntries (hd : d.HasFields limit) : d.shownEntries.map Prod.fst =
    (["arithmetic_mode", "precision"] ++ checkKeys).map LooseText.ofString := by
  rw [← hd.checks]
  simp [shownEntries, Function.comp_def]

theorem HasFields.get?_entries (hd : d.HasFields limit) (key : String) :
    d.entries.get? key = (d.shownEntries.get? key).or (d.settings.get? key) := by
  have hdistinct : (d.shownEntries.map Prod.fst).Nodup := by
    rw [hd.keys_shownEntries]
    decide
  exact lookup_putEntries hdistinct _ _

/-- The width is not among the settings that the dialog shows. -/
theorem HasFields.width_entries (hd : d.HasFields limit) :
    d.entries.width = d.settings.width := by
  have hnone : d.shownEntries.get? "display_width" = none := by
    refine lookup_eq_none_of_notMem ?_
    rw [hd.keys_shownEntries]
    decide
  rw [Entries.width, hd.get?_entries, hnone, Option.none_or, Entries.width]

theorem HasFields.storable_entries {s s' : Session} (hd : d.HasFields limit)
    (h : (s.applySettings d.entries).value = .ok s') :
    (Value.dict d.entries).Storable (limit + 1) := by
  -- The session takes over only a mode with a name, so its text has no half of a pair.
  have hmode : d.mode.IsJoined := by
    have hstated : d.entries.get? "arithmetic_mode" = some (.text d.mode) := by
      rw [hd.get?_entries]
      rfl
    have htaken := (Session.takes_of_applySettings h).mode
    rw [hstated] at htaken
    exact ArithmeticMode.isJoined_of_ofValue htaken
  rw [entries_eq]
  refine hd.settings.putEntries (fun entry hmem => ?_) fun entry hmem => ?_
  · have hkey := List.mem_map_of_mem (f := Prod.fst) hmem
    rw [hd.keys_shownEntries] at hkey
    obtain ⟨key, -, hkey⟩ := List.mem_map.1 hkey
    exact hkey ▸ LooseText.isJoined_ofString key
  · rcases List.mem_append.1 hmem with hmem | hmem
    · simp only [List.mem_cons, List.not_mem_nil, or_false] at hmem
      obtain rfl | rfl := hmem
      · exact .text hmode
      · exact .int hd.precision
    · obtain ⟨check, -, rfl⟩ := List.mem_map.1 hmem
      exact .bool _

end Dialog

/-- The windows have the same calculation at hand, and show the same. -/
structure Window.SameWork (w w' : Window) : Prop where
  busy : w'.busy = w.busy
  running : w'.running = w.running
  posted : w'.posted = w.posted
  lastResult : w'.lastResult = w.lastResult
  display : w'.display = w.display
  steps : w'.steps = w.steps

/-- The width in force is a width, and so is the one in the file. -/
structure Window.Settled (w : Window) (limit : Nat) : Prop where
  file : w.file.HasWidth limit
  width : w.settings.width.IsWidth

namespace Window

variable {w w' w'' : Window} {limit : Nat}

theorem SameWork.refl (w : Window) : w.SameWork w := ⟨rfl, rfl, rfl, rfl, rfl, rfl⟩

theorem SameWork.trans (h : w.SameWork w') (h' : w'.SameWork w'') : w.SameWork w'' :=
  ⟨h'.busy.trans h.busy, h'.running.trans h.running, h'.posted.trans h.posted,
    h'.lastResult.trans h.lastResult, h'.display.trans h.display, h'.steps.trans h.steps⟩

theorem sameWork_reload (w : Window) (limit : Nat) : w.SameWork (w.reload limit).window := by
  unfold reload adopt
  split
  · dsimp only
    split <;> exact ⟨rfl, rfl, rfl, rfl, rfl, rfl⟩
  · exact .refl w

theorem settled_reload (hf : w.file.HasWidth limit) (hw : w.settings.width.IsWidth) :
    (w.reload limit).window.Settled limit := by
  unfold reload adopt
  split
  · next settings hload =>
    dsimp only
    split <;> exact ⟨hf, hf settings hload⟩
  · exact ⟨hf, hw⟩

end Window

namespace Dialog

variable {d : Dialog} {a : DialogAct} {w : Window} {limit : Nat} {acts : List DialogAct}

theorem save_of_not_writable {s : Session}
    (h : (w.session.applySettings d.entries).value = .ok s) (hw : w.file.writable = false) :
    d.save w limit =
      ({ window := { w with session := s }, notices := [unsavedNotice w.file] }, false) := by
  have hunsaved : (w.file.save d.entries).value = (.ok false, w.file) := by
    rw [ConfigFile.save, hw]
    rfl
  simp only [save, h, hunsaved]

theorem save_of_writable {s : Session} (h : (w.session.applySettings d.entries).value = .ok s)
    (hs : (Value.dict d.entries).isShowable = true) (hw : w.file.writable = true) :
    d.save w limit =
      ({ w with session := s,
                file := w.file.withText (Json.write (.dict d.entries)) }.reload limit, true) := by
  have hsaved : (w.file.save d.entries).value = (.ok true, _) :=
    ConfigFile.save_eq_saved_iff.2 ⟨hw, hs, rfl⟩
  simp only [save, h, hsaved]

theorem sameWork_save (d : Dialog) (w : Window) (limit : Nat) :
    w.SameWork (d.save w limit).1.window := by
  unfold save
  split
  · exact .refl w
  · exact .refl w
  · dsimp only
    split
    · next session _ _ file _ =>
      have hsaved : w.SameWork { w with session := session, file := file } :=
        ⟨rfl, rfl, rfl, rfl, rfl, rfl⟩
      exact hsaved.trans (Window.sameWork_reload _ limit)
    · exact ⟨rfl, rfl, rfl, rfl, rfl, rfl⟩
    · exact ⟨rfl, rfl, rfl, rfl, rfl, rfl⟩

theorem IsSound.settled_save (hd : d.IsSound limit) (hw : w.Settled limit) :
    (d.save w limit).1.window.Settled limit := by
  cases happly : (w.session.applySettings d.entries).value with
  | error failure =>
    cases failure <;> simpa only [save, happly] using hw
  | ok session =>
    have hs := hd.storable_entries happly
    cases hwritable : w.file.writable with
    | false =>
      rw [save_of_not_writable happly hwritable]
      exact ⟨hw.file, hw.width⟩
    | true =>
      rw [save_of_writable happly hs.isShowable hwritable]
      refine Window.settled_reload (ConfigFile.hasWidth_withText _ hs ?_) hw.width
      rw [hd.width_entries]
      exact hd.width

theorem IsSound.press (hd : d.IsSound limit) (hw : w.Settled limit) (button : DialogButton) :
    w.SameWork (d.press w limit button).1.window ∧
      (d.press w limit button).1.window.Settled limit := by
  cases button with
  | ok => exact ⟨d.sameWork_save w limit, hd.settled_save hw⟩
  | cancel => exact ⟨.refl w, hw⟩

/-- Whatever is done in the dialog, the window has the same calculation at hand. -/
theorem IsSound.run (hd : d.IsSound limit) (hw : w.Settled limit)
    (hacts : ∀ act ∈ acts, act.IsOffered) :
    w.SameWork (d.run w limit acts).1.window ∧ (d.run w limit acts).1.window.Settled limit := by
  induction acts generalizing d w with
  | nil => exact ⟨.refl w, hw⟩
  | cons act acts ih =>
    rw [List.forall_mem_cons] at hacts
    have hedited := hd.edit hacts.1
    unfold Dialog.run
    dsimp only
    split
    · exact ih hedited hw hacts.2
    · next button _ =>
      obtain ⟨hsame, hsettled⟩ := hedited.press hw button
      split
      · exact ⟨hsame, hsettled⟩
      · obtain ⟨hlater, hlaterSettled⟩ := ih hedited hsettled hacts.2
        unfold Reaction.andThen
        split
        · exact ⟨hsame, hsettled⟩
        · exact ⟨hsame.trans hlater, hlaterSettled⟩

end Dialog

def Window.openSettings (w : Window) (fields : DialogFields) (limit : Nat)
    (acts : List DialogAct) : Reaction :=
  match Dialog.opened fields w.file limit with
  | .ok d => (d.run w limit acts).1
  | .error f => { window := w, fault := some f }

/-- Settings are saved beside a calculation, and leave the width as it is. -/
theorem Window.Settled.openSettings {w : Window} {limit : Nat} (hw : w.Settled limit)
    (fields : DialogFields) {acts : List DialogAct} (hacts : ∀ act ∈ acts, act.IsOffered) :
    w.SameWork (w.openSettings fields limit acts).window ∧
      (w.openSettings fields limit acts).window.Settled limit := by
  unfold Window.openSettings
  split
  · next d hopened => exact (Dialog.isSound_opened hw.file hopened).run hw hacts
  · exact ⟨.refl w, hw⟩

end Calculator
