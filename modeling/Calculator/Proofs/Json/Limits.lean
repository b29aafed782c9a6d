import Calculator.Proofs.Json.Grammar

/-!
# The limits of reading

`MeetsLimit` says where reading comes upon a whole number with too many digits, or upon a bracket
inside too many others, and nothing before it is out of the format. Reading a text fails at a limit
exactly if it comes upon one.
-/

namespace Calculator

open Text

namespace Json

def NumberEnds (rest : List Char) : Prop := ∀ more behind, rest = more ++ behind →
  (AllDigits more ∨ (∃ fraction, SpellsFraction fraction more) ∨ ∃ power, SpellsPower power more) →
  more = []

/-- What is being read: a value, or what stands between the brackets of one. -/
inductive Part where
  | value
  | items
  | entries

/-- The part is read from the characters up to a limit, with at most the given number of brackets
open. -/
inductive MeetsLimit : Nat → Flaw → Part → List Char → Prop
  | digits {n : Nat} {negative : Bool} {whole rest : List Char} : IsWhole whole →
      maxIntegerDigits < whole.length → NumberEnds rest →
      MeetsLimit n (.integerDigits whole.length) .value (withSign negative whole ++ rest)
  | array {rest : List Char} : MeetsLimit 0 (.nesting .array) .value ('[' :: rest)
  | object {rest : List Char} : MeetsLimit 0 (.nesting .object) .value ('\x7b' :: rest)
  | list {n : Nat} {flaw : Flaw} {space cs : List Char} : IsBlank space →
      MeetsLimit n flaw .items cs → MeetsLimit (n + 1) flaw .value ('[' :: (space ++ cs))
  | dict {n : Nat} {flaw : Flaw} {space cs : List Char} : IsBlank space →
      MeetsLimit n flaw .entries cs → MeetsLimit (n + 1) flaw .value ('\x7b' :: (space ++ cs))
  | item {n : Nat} {flaw : Flaw} {cs : List Char} : MeetsLimit n flaw .value cs →
      MeetsLimit n flaw .items cs
  | laterItem {n : Nat} {flaw : Flaw} {v : Value} {cs space space' more : List Char} :
      Spells n (.value v) cs → IsBlank space → IsBlank space' → MeetsLimit n flaw .items more →
      MeetsLimit n flaw .items (cs ++ (space ++ ',' :: (space' ++ more)))
  | entry {n : Nat} {flaw : Flaw} {key : LooseText} {name cs : List Char} : SpellsKey key name →
      MeetsLimit n flaw .value cs → MeetsLimit n flaw .entries (name ++ cs)
  | laterEntry {n : Nat} {flaw : Flaw} {key : LooseText} {v : Value}
      {name cs space space' more : List Char} : SpellsKey key name → Spells n (.value v) cs →
      IsBlank space → IsBlank space' → MeetsLimit n flaw .entries more →
      MeetsLimit n flaw .entries (name ++ (cs ++ (space ++ ',' :: (space' ++ more))))

variable {n limit depth fuel : Nat} {flaw : Flaw} {part : Part} {cs rest : List Char}

theorem NumberEnds.not_isDigit (h : NumberEnds rest) : ∀ c ∈ rest.head?, ¬c.isDigit := by
  intro c hc hdigit
  cases rest with
  | nil => cases hc
  | cons d rest =>
    cases hc
    exact absurd (h [c] rest rfl (.inl fun x hx => List.mem_singleton.1 hx ▸ hdigit)) (by simp)

theorem NumberEnds.splitFraction_eq (h : NumberEnds rest) : splitFraction rest = ([], rest) := by
  obtain ⟨point, hrest, hspells⟩ := splitFraction_spec (Prod.mk.eta (p := splitFraction rest)).symm
  obtain rfl := h _ _ hrest (.inr (.inl ⟨_, hspells⟩))
  cases hf : splitFraction rest with
  | mk fraction rest' =>
    rw [hf] at hspells hrest
    cases hspells
    rw [hrest, List.nil_append]

theorem NumberEnds.splitPower_eq (h : NumberEnds rest) : splitPower rest = (none, rest) := by
  obtain ⟨behind, hrest, hspells⟩ := splitPower_spec (Prod.mk.eta (p := splitPower rest)).symm
  obtain rfl := h _ _ hrest (.inr (.inr ⟨_, hspells⟩))
  cases hp : splitPower rest with
  | mk power rest' =>
    rw [hp] at hspells hrest
    cases hspells
    rw [hrest, List.nil_append]

theorem numberEnds_of_splits (hdigit : ∀ c ∈ rest.head?, ¬c.isDigit)
    (hfraction : (splitFraction rest).1 = []) (hpower : (splitPower rest).1 = none) :
    NumberEnds rest := by
  rintro more behind rfl (hdigits | ⟨fraction, hspells⟩ | ⟨power, hspells⟩)
  · cases more with
    | nil => rfl
    | cons c more => exact absurd (hdigits c List.mem_cons_self) (hdigit c rfl)
  · cases hspells with
    | absent => rfl
    | digits hne hd =>
      rw [List.cons_append, splitFraction, if_pos (isDigit_headD_append hne hd behind)] at hfraction
      exact absurd hfraction (isDigit_headD_iff.1 (isDigit_headD_append hne hd behind))
  · cases hspells with
    | absent => rfl
    | digits he hs hne hd =>
      rw [List.cons_append, splitPower, hs.splitSign_eq hne hd] at hpower
      dsimp only at hpower
      rw [if_pos ⟨he, isDigit_headD_append hne hd behind⟩] at hpower
      cases hpower

theorem not_isDigit_of_splitWhole {whole : List Char} (h : splitWhole cs = (whole, rest))
    (hzero : whole ≠ ['0']) : ∀ c ∈ rest.head?, ¬c.isDigit := by
  unfold splitWhole at h
  split at h
  · cases h
    exact absurd rfl hzero
  · cases h
    intro c hc
    have hstop := List.head?_dropWhile_not Char.isDigit cs
    rw [Option.mem_def.1 hc] at hstop
    rw [hstop]
    exact Bool.false_ne_true

theorem readNumber_of_long (negative : Bool) {whole : List Char} (hw : IsWhole whole)
    (hlength : maxIntegerDigits < whole.length) (hr : NumberEnds rest) :
    readNumber negative (whole ++ rest) = .error (.integerDigits whole.length) := by
  simp only [readNumber, splitWhole_append hw hr.not_isDigit, hr.splitFraction_eq,
    hr.splitPower_eq, if_neg hw.1, and_self, if_true, if_pos hlength]

theorem exists_long_of_readNumber {negative : Bool} (h : readNumber negative cs = .error flaw)
    (hf : flaw ≠ .malformed) : ∃ whole rest, cs = whole ++ rest ∧ IsWhole whole ∧
      maxIntegerDigits < whole.length ∧ NumberEnds rest ∧ flaw = .integerDigits whole.length := by
  obtain ⟨whole, cs₁, hwhole⟩ : ∃ whole cs₁, splitWhole cs = (whole, cs₁) := ⟨_, _, rfl⟩
  obtain ⟨fraction, cs₂, hfraction⟩ : ∃ fraction cs₂, splitFraction cs₁ = (fraction, cs₂) :=
    ⟨_, _, rfl⟩
  obtain ⟨power, cs₃, hpower⟩ : ∃ power cs₃, splitPower cs₂ = (power, cs₃) := ⟨_, _, rfl⟩
  simp only [readNumber, hwhole, hfraction, hpower] at h
  obtain ⟨rfl, hw⟩ := splitWhole_spec hwhole
  split_ifs at h with hne hint hlength
  · cases h
    exact absurd rfl hf
  · cases h
    obtain ⟨rfl, rfl⟩ := hint
    obtain ⟨point, hcs₁, hpoint⟩ := splitFraction_spec hfraction
    cases hpoint with
    | digits hempty => exact absurd rfl hempty
    | absent =>
      obtain rfl : cs₁ = cs₂ := hcs₁
      have hzero : whole ≠ ['0'] := by
        rintro rfl
        exact absurd hlength (by decide)
      exact ⟨whole, cs₁, rfl, hw hne, hlength, numberEnds_of_splits
        (not_isDigit_of_splitWhole hwhole hzero) (by rw [hfraction]) (by rw [hpower]), rfl⟩

theorem meetsLimit_of_readPlain (h : readPlain cs = .error flaw) (hf : flaw ≠ .malformed) :
    MeetsLimit n flaw .value cs := by
  unfold readPlain at h
  split at h
  · cases h
  · split at h
    · obtain ⟨whole, rest, rfl, hw, hlength, hr, rfl⟩ := exists_long_of_readNumber h hf
      exact @MeetsLimit.digits n true _ _ hw hlength hr
    · obtain ⟨whole, rest, rfl, hw, hlength, hr, rfl⟩ := exists_long_of_readNumber h hf
      exact @MeetsLimit.digits n false _ _ hw hlength hr

theorem readUnits_ne_limit (h : readUnits cs = .error flaw) : flaw = .malformed := by
  fun_induction readUnits cs with
  | case1 => exact (Except.error.inj h).symm
  | case2 => cases h
  | case3 => exact (Except.error.inj h).symm
  | case4 _ _ _ _ _ _ _ ih => exact ih (map_eq_error_iff.1 h)
  | case5 => exact (Except.error.inj h).symm
  | case6 _ _ _ _ _ ih => exact ih (map_eq_error_iff.1 h)
  | case7 => exact (Except.error.inj h).symm
  | case8 _ _ _ _ _ _ ih => exact ih (map_eq_error_iff.1 h)

theorem readKey_ne_limit (h : readKey cs = .error flaw) : flaw = .malformed := by
  unfold readKey at h
  split at h
  · split at h
    · next hkey =>
      cases h
      exact readUnits_ne_limit (map_eq_error_iff.1 hkey)
    · split at h
      · cases h
      · exact (Except.error.inj h).symm
  · exact (Except.error.inj h).symm

/-- A reader that fails at a limit with the given fuel meets it. -/
structure FindsLimit (limit fuel : Nat) : Prop where
  value : ∀ depth cs flaw, readValue limit depth fuel cs = .error flaw → flaw ≠ .malformed →
    MeetsLimit (limit + 1 - depth) flaw .value cs
  items : ∀ depth cs flaw, readItems limit depth fuel cs = .error flaw → flaw ≠ .malformed →
    MeetsLimit (limit + 1 - depth) flaw .items cs
  entries : ∀ depth cs flaw, readEntries limit depth fuel cs = .error flaw → flaw ≠ .malformed →
    MeetsLimit (limit + 1 - depth) flaw .entries cs

theorem FindsLimit.value_succ (ih : FindsLimit limit fuel)
    (h : readValue limit depth (fuel + 1) cs = .error flaw) (hf : flaw ≠ .malformed) :
    MeetsLimit (limit + 1 - depth) flaw .value cs := by
  have hdepth : ¬limit < depth → limit + 1 - depth = limit + 1 - (depth + 1) + 1 := by
    omega
  unfold readValue at h
  split at h
  · cases h
    exact absurd rfl hf
  · -- a text
    exact absurd (readUnits_ne_limit (map_eq_error_iff.1 (map_eq_error_iff.1 h))) hf
  · -- a list
    next n behind hn =>
    cases hn
    split at h
    · next hnesting =>
      cases h
      rw [Nat.sub_eq_zero_of_le hnesting]
      exact .array
    next hnesting =>
    rw [hdepth hnesting]
    obtain ⟨space, hspace, hbehind⟩ := exists_isBlank behind
    split at h
    · cases h
    · rw [hbehind]
      exact .list hspace (ih.items _ _ _ (map_eq_error_iff.1 h) hf)
  · -- a dictionary
    next n behind hn =>
    cases hn
    split at h
    · next hnesting =>
      cases h
      rw [Nat.sub_eq_zero_of_le hnesting]
      exact .object
    next hnesting =>
    rw [hdepth hnesting]
    obtain ⟨space, hspace, hbehind⟩ := exists_isBlank behind
    split at h
    · cases h
    · rw [hbehind]
      exact .dict hspace (ih.entries _ _ _ (map_eq_error_iff.1 h) hf)
  · exact meetsLimit_of_readPlain h hf

theorem FindsLimit.items_succ (ih : FindsLimit limit fuel)
    (h : readItems limit depth (fuel + 1) cs = .error flaw) (hf : flaw ≠ .malformed) :
    MeetsLimit (limit + 1 - depth) flaw .items cs := by
  unfold readItems at h
  split at h
  · next hvalue =>
    cases h
    exact .item (ih.value _ _ _ hvalue hf)
  next v behind hvalue =>
  obtain ⟨pre, rfl, hpre⟩ := (findsSpelled _ _).value _ _ _ _ hvalue
  obtain ⟨space, hspace, hbehind⟩ := exists_isBlank behind
  split at h
  · next behind' hcomma =>
    obtain ⟨space', hspace', hbehind'⟩ := exists_isBlank behind'
    rw [hbehind, hcomma, hbehind']
    exact .laterItem hpre hspace hspace' (ih.items _ _ _ (map_eq_error_iff.1 h) hf)
  · cases h
  · exact absurd (Except.error.inj h).symm hf

theorem FindsLimit.entries_succ (ih : FindsLimit limit fuel)
    (h : readEntries limit depth (fuel + 1) cs = .error flaw) (hf : flaw ≠ .malformed) :
    MeetsLimit (limit + 1 - depth) flaw .entries cs := by
  unfold readEntries at h
  split at h
  · next hkey =>
    cases h
    exact absurd (readKey_ne_limit hkey) hf
  next key behind₀ hkey =>
  obtain ⟨name, rfl, hname⟩ := exists_spellsKey hkey
  split at h
  · next hvalue =>
    cases h
    exact .entry hname (ih.value _ _ _ hvalue hf)
  next v behind hvalue =>
  obtain ⟨pre, rfl, hpre⟩ := (findsSpelled _ _).value _ _ _ _ hvalue
  obtain ⟨space, hspace, hbehind⟩ := exists_isBlank behind
  split at h
  · next behind' hcomma =>
    obtain ⟨space', hspace', hbehind'⟩ := exists_isBlank behind'
    rw [hbehind, hcomma, hbehind']
    exact .laterEntry hname hpre hspace hspace' (ih.entries _ _ _ (map_eq_error_iff.1 h) hf)
  · cases h
  · exact absurd (Except.error.inj h).symm hf

theorem findsLimit (limit fuel : Nat) : FindsLimit limit fuel := by
  induction fuel with
  | zero =>
    exact ⟨fun _ _ _ h hf => absurd (Except.error.inj h).symm hf,
      fun _ _ _ h hf => absurd (Except.error.inj h).symm hf,
      fun _ _ _ h hf => absurd (Except.error.inj h).symm hf⟩
  | succ fuel ih =>
    exact ⟨fun _ _ _ => ih.value_succ, fun _ _ _ => ih.items_succ, fun _ _ _ => ih.entries_succ⟩

theorem MeetsLimit.opens (h : MeetsLimit n flaw part cs) : Opens cs := by
  induction h with
  | digits hw =>
    obtain ⟨c, tail, rfl, hc⟩ := hw.exists_digit
    exact ((startsPlain_withSign _ hc tail).append _).opens
  | array | list => exact ⟨'[', _, rfl, by decide⟩
  | object | dict => exact ⟨'\x7b', _, rfl, by decide⟩
  | item _ ih => exact ih
  | laterItem hs => exact hs.opens.append _
  | entry hk => exact hk.opens.append _
  | laterEntry hk => exact hk.opens.append _

def Part.FailsFrom (limit depth fuel : Nat) (cs : List Char) (flaw : Flaw) : Part → Prop
  | .value => readValue limit depth fuel cs = .error flaw
  | .items => readItems limit depth fuel cs = .error flaw
  | .entries => readEntries limit depth fuel cs = .error flaw

def Part.fuelFor (cs : List Char) : Part → Nat
  | .value => 2 * cs.length + 1
  | .items | .entries => 2 * cs.length + 2

theorem Part.exists_fuel (h : part.fuelFor cs ≤ fuel) : ∃ m, fuel = m + 1 := by
  refine Nat.exists_eq_add_one.2 (Nat.lt_of_lt_of_le ?_ h)
  cases part <;> simp [fuelFor]

/-- What comes upon a limit is not read. -/
theorem MeetsLimit.failsFrom (h : MeetsLimit n flaw part cs) (hdepth : n + depth = limit + 1)
    (hfuel : part.fuelFor cs ≤ fuel) : part.FailsFrom limit depth fuel cs flaw := by
  have hcomma : IsBoundary ',' := .inr (.inl rfl)
  induction h generalizing depth fuel with
  | @digits n negative whole rest hw hlength hr =>
    obtain ⟨fuel, rfl⟩ := Part.exists_fuel hfuel
    have hread := readNumber_of_long negative hw hlength hr
    obtain ⟨c, tail, rfl, hc⟩ := hw.exists_digit
    rw [Part.FailsFrom, readValue_plain ((startsPlain_withSign negative hc tail).append rest),
      withSign_append, List.cons_append, readPlain_withSign negative hc]
    exact hread
  | array =>
    obtain ⟨fuel, rfl⟩ := Part.exists_fuel hfuel
    exact if_pos (by omega)
  | object =>
    obtain ⟨fuel, rfl⟩ := Part.exists_fuel hfuel
    exact if_pos (by omega)
  | @list n flaw space cs hspace hs ih =>
    obtain ⟨fuel, rfl⟩ := Part.exists_fuel hfuel
    simp only [Part.fuelFor, List.length_cons, List.length_append] at hfuel
    have hitems : readItems limit (depth + 1) fuel cs = .error flaw :=
      ih (by omega) (by simp only [Part.fuelFor]; omega)
    exact (readValue_list (by omega) hspace hs.opens).trans (map_eq_error_iff.2 hitems)
  | @dict n flaw space cs hspace hs ih =>
    obtain ⟨fuel, rfl⟩ := Part.exists_fuel hfuel
    simp only [Part.fuelFor, List.length_cons, List.length_append] at hfuel
    have hentries : readEntries limit (depth + 1) fuel cs = .error flaw :=
      ih (by omega) (by simp only [Part.fuelFor]; omega)
    exact (readValue_dict (by omega) hspace hs.opens).trans (map_eq_error_iff.2 hentries)
  | @item n flaw cs hs ih =>
    obtain ⟨fuel, rfl⟩ := Part.exists_fuel hfuel
    simp only [Part.fuelFor] at hfuel
    have hvalue : readValue limit depth fuel cs = .error flaw :=
      ih hdepth (by simp only [Part.fuelFor]; omega)
    rw [Part.FailsFrom, readItems, hvalue]
  | @laterItem n flaw v cs space space' more hs hspace hspace' hmore ih =>
    obtain ⟨fuel, rfl⟩ := Part.exists_fuel hfuel
    simp only [Part.fuelFor, List.length_append, List.length_cons] at hfuel
    have hvalue : readValue limit depth fuel (cs ++ (space ++ _)) = .ok (v, _) :=
      hs.isReadFrom (by omega) (by simp only [Form.fuelFor]; omega) _
        (ends_append hspace hcomma (space' ++ more))
    have hitems : readItems limit depth fuel more = .error flaw :=
      ih hdepth (by simp only [Part.fuelFor]; omega)
    rw [Part.FailsFrom, readItems, hvalue]
    simp only [skipSpace_append hspace (by rfl : isSpace ',' = false),
      hmore.opens.skipSpace_append hspace', hitems]
    rfl
  | @entry n flaw key name cs hk hs ih =>
    obtain ⟨fuel, rfl⟩ := Part.exists_fuel hfuel
    simp only [Part.fuelFor, List.length_append] at hfuel
    have hvalue : readValue limit depth fuel cs = .error flaw :=
      ih hdepth (by simp only [Part.fuelFor]; omega)
    rw [Part.FailsFrom, readEntries, hk.readKey_eq hs.opens]
    simp only [hvalue]
  | @laterEntry n flaw key v name cs space space' more hk hs hspace hspace' hmore ih =>
    obtain ⟨fuel, rfl⟩ := Part.exists_fuel hfuel
    simp only [Part.fuelFor, List.length_append, List.length_cons] at hfuel
    have hvalue : readValue limit depth fuel (cs ++ (space ++ _)) = .ok (v, _) :=
      hs.isReadFrom (by omega) (by simp only [Form.fuelFor]; omega) _
        (ends_append hspace hcomma (space' ++ more))
    have hentries : readEntries limit depth fuel more = .error flaw :=
      ih hdepth (by simp only [Part.fuelFor]; omega)
    rw [Part.FailsFrom, readEntries, hk.readKey_eq (hs.opens.append _)]
    simp only [hvalue, skipSpace_append hspace (by rfl : isSpace ',' = false),
      hmore.opens.skipSpace_append hspace', hentries]
    rfl

/-- The text comes upon a limit behind the blanks in front of it. -/
def TextMeetsLimit (limit : Nat) (text : String) (flaw : Flaw) : Prop :=
  ∃ before cs, text.toList = before ++ cs ∧ IsBlank before ∧ MeetsLimit (limit + 1) flaw .value cs

theorem MeetsLimit.ne_malformed (h : MeetsLimit n flaw part cs) : flaw ≠ .malformed := by
  induction h with
  | digits => nofun
  | array => nofun
  | object => nofun
  | list _ _ ih => exact ih
  | dict _ _ ih => exact ih
  | item _ ih => exact ih
  | laterItem _ _ _ _ ih => exact ih
  | entry _ _ ih => exact ih
  | laterEntry _ _ _ _ _ ih => exact ih

theorem TextMeetsLimit.ne_malformed {text : String} (h : TextMeetsLimit limit text flaw) :
    flaw ≠ .malformed := by
  obtain ⟨_, _, _, _, hlimit⟩ := h
  exact hlimit.ne_malformed

/-- Reading a text fails at a limit exactly if it comes upon one. -/
theorem read_eq_limit_iff {text : String} (hf : flaw ≠ .malformed) :
    read limit text = .error flaw ↔ TextMeetsLimit limit text flaw := by
  rw [read]
  constructor
  · intro h
    split at h
    · next flaw' hread =>
      cases h
      obtain ⟨before, hbefore, htext⟩ := exists_isBlank text.toList
      exact ⟨before, _, htext, hbefore, (findsLimit _ _).value _ _ _ hread hf⟩
    · split_ifs at h
      exact absurd (Except.error.inj h).symm hf
  · rintro ⟨before, cs, htext, hbefore, hlimit⟩
    have hfuel : 2 * cs.length + 1 ≤ enoughFuel text.toList := by
      rw [enoughFuel, htext, List.length_append]
      omega
    have hread : readValue limit 0 (enoughFuel text.toList) cs = .error flaw :=
      hlimit.failsFrom rfl hfuel
    have hskip := hlimit.opens.skipSpace_append hbefore
    rw [← htext] at hskip
    simp only [hskip, hread]

end Json

end Calculator
