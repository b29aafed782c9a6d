import Calculator.Proofs.Json.Numbers
import Calculator.Proofs.Json.Strings

/-!
# The grammar of JSON

`Spells` says which characters spell a value, with a limit on the brackets that are open at once.
Reading a text finds a value exactly if the text spells it between blanks.
-/

namespace Calculator

open Text

namespace Json

def IsBlank (cs : List Char) : Prop := ∀ c ∈ cs, isSpace c = true

/-- What characters can spell: a value, or what stands between the brackets of one. -/
inductive Form where
  | value (v : Value)
  | items (items : List Value)
  | entries (entries : Entries)

inductive SpellsKey : LooseText → List Char → Prop
  | key {units : List Nat} {cs space space' : List Char} : SpellsUnits units cs → IsBlank space →
      IsBlank space' → SpellsKey ⟨joinPairs units⟩ ('"' :: (cs ++ '"' :: (space ++ ':' :: space')))

/-- The characters spell the form with at most the given number of brackets open. -/
inductive Spells : Nat → Form → List Char → Prop
  | word {n : Nat} {word : String} {v : Value} : (word, v) ∈ words →
      Spells n (.value v) word.toList
  | number {n : Nat} {negative : Bool} {v : Value} {cs : List Char} : SpellsNumber negative v cs →
      Spells n (.value v) (withSign negative cs)
  | text {n : Nat} {units : List Nat} {cs : List Char} : SpellsUnits units cs →
      Spells n (.value (.text ⟨joinPairs units⟩)) ('"' :: (cs ++ ['"']))
  | emptyList {n : Nat} {space : List Char} : IsBlank space →
      Spells (n + 1) (.value (.list [])) ('[' :: (space ++ [']']))
  | list {n : Nat} {items : List Value} {space cs : List Char} : IsBlank space →
      Spells n (.items items) cs →
      Spells (n + 1) (.value (.list items)) ('[' :: (space ++ (cs ++ [']'])))
  | emptyDict {n : Nat} {space : List Char} : IsBlank space →
      Spells (n + 1) (.value (.dict [])) ('\x7b' :: (space ++ ['\x7d']))
  /-- A repeated key keeps its first place and its last value. -/
  | dict {n : Nat} {entries : Entries} {space cs : List Char} : IsBlank space →
      Spells n (.entries entries) cs →
      Spells (n + 1) (.value (.dict (putEntries [] entries)))
        ('\x7b' :: (space ++ (cs ++ ['\x7d'])))
  | lastItem {n : Nat} {v : Value} {cs space : List Char} : Spells n (.value v) cs →
      IsBlank space → Spells n (.items [v]) (cs ++ space)
  | item {n : Nat} {v : Value} {items : List Value} {cs space space' more : List Char} :
      Spells n (.value v) cs → IsBlank space → IsBlank space' → Spells n (.items items) more →
      Spells n (.items (v :: items)) (cs ++ (space ++ ',' :: (space' ++ more)))
  | lastEntry {n : Nat} {key : LooseText} {v : Value} {name cs space : List Char} :
      SpellsKey key name → Spells n (.value v) cs → IsBlank space →
      Spells n (.entries [(key, v)]) (name ++ (cs ++ space))
  | entry {n : Nat} {key : LooseText} {v : Value} {entries : Entries}
      {name cs space space' more : List Char} : SpellsKey key name → Spells n (.value v) cs →
      IsBlank space → IsBlank space' → Spells n (.entries entries) more →
      Spells n (.entries ((key, v) :: entries)) (name ++ (cs ++ (space ++ ',' :: (space' ++ more))))

variable {n limit depth fuel : Nat} {form : Form} {v : Value} {cs rest space : List Char}

theorem exists_isBlank (cs : List Char) : ∃ space, IsBlank space ∧ cs = space ++ skipSpace cs :=
  ⟨cs.takeWhile isSpace, fun _ hc => List.all_eq_true.1 (List.all_takeWhile ..) _ hc,
    List.takeWhile_append_dropWhile.symm⟩

theorem skipSpace_append (h : IsBlank space) {c : Char} (hc : isSpace c = false) (cs : List Char) :
    skipSpace (space ++ c :: cs) = c :: cs := by
  rw [skipSpace, List.dropWhile_append_of_pos h, List.dropWhile_cons_of_neg (by simp [hc])]

theorem skipSpace_of_isBlank (h : IsBlank space) : skipSpace space = [] := by
  rw [skipSpace, List.dropWhile_eq_nil_iff]
  exact h

/-- Something other than a blank or a closing bracket comes first. -/
def Opens (cs : List Char) : Prop :=
  ∃ c tail, cs = c :: tail ∧ isSpace c = false ∧ c ≠ ']' ∧ c ≠ '\x7d'

theorem Opens.append (h : Opens cs) (rest : List Char) : Opens (cs ++ rest) := by
  obtain ⟨c, tail, rfl, hc⟩ := h
  exact ⟨c, tail ++ rest, rfl, hc⟩

theorem Opens.skipSpace_append (h : Opens cs) (hspace : IsBlank space) :
    skipSpace (space ++ cs) = cs := by
  obtain ⟨c, tail, rfl, hc, -⟩ := h
  exact Json.skipSpace_append hspace hc tail

/-- A letter, a digit or a minus sign comes first, as in a word or a number. -/
def StartsPlain (cs : List Char) : Prop :=
  ∃ c tail, cs = c :: tail ∧ (c.isAlphanum = true ∨ c = '-')

theorem StartsPlain.append (h : StartsPlain cs) (rest : List Char) : StartsPlain (cs ++ rest) := by
  obtain ⟨c, tail, rfl, hc⟩ := h
  exact ⟨c, tail ++ rest, rfl, hc⟩

theorem StartsPlain.exists_cons (h : StartsPlain cs) : ∃ c tail, cs = c :: tail ∧
    ∀ d, d.isAlphanum = false → d ≠ '-' → c ≠ d := by
  obtain ⟨c, tail, rfl, hc⟩ := h
  refine ⟨c, tail, rfl, ?_⟩
  rintro d hd hminus rfl
  rcases hc with hc | hc
  · rw [hd] at hc
    cases hc
  · exact hminus hc

theorem StartsPlain.opens (h : StartsPlain cs) : Opens cs := by
  obtain ⟨c, tail, rfl, hne⟩ := h.exists_cons
  refine ⟨c, tail, rfl, ?_, hne _ rfl (by decide), hne _ rfl (by decide)⟩
  rw [← Bool.not_eq_true, isSpace_iff]
  rintro (h | h | h | h) <;> exact hne _ (by decide) (by decide) h

theorem startsPlain_word {word : String} (h : (word, v) ∈ words) : StartsPlain word.toList := by
  have hall : ∀ word ∈ words, StartsPlain word.1.toList := by
    simp only [words, List.forall_mem_cons]
    exact ⟨⟨'n', _, rfl, by decide⟩, ⟨'t', _, rfl, by decide⟩, ⟨'f', _, rfl, by decide⟩,
      ⟨'N', _, rfl, by decide⟩, ⟨'I', _, rfl, by decide⟩, ⟨'-', _, rfl, by decide⟩, nofun⟩
  exact hall _ h

theorem IsWhole.exists_digit {whole : List Char} (h : IsWhole whole) :
    ∃ c tail, whole = c :: tail ∧ c.isDigit = true := by
  obtain ⟨c, tail, rfl⟩ := List.exists_cons_of_ne_nil h.1
  exact ⟨c, tail, rfl, h.2.1 c List.mem_cons_self⟩

theorem SpellsNumber.exists_digit {negative : Bool} (h : SpellsNumber negative v cs) :
    ∃ c tail, cs = c :: tail ∧ c.isDigit = true := by
  cases h with
  | int hw => exact hw.exists_digit
  | float hw =>
    obtain ⟨c, tail, rfl, hc⟩ := hw.exists_digit
    exact ⟨c, _, rfl, hc⟩

theorem startsPlain_withSign (negative : Bool) {c : Char} (hc : c.isDigit = true)
    (cs : List Char) : StartsPlain (withSign negative (c :: cs)) := by
  cases negative with
  | false => exact ⟨c, cs, rfl, .inl (by rw [Char.isAlphanum, hc, Bool.or_true])⟩
  | true => exact ⟨'-', _, rfl, .inr rfl⟩

theorem SpellsNumber.startsPlain {negative : Bool} (h : SpellsNumber negative v cs) :
    StartsPlain (withSign negative cs) := by
  obtain ⟨c, tail, rfl, hc⟩ := h.exists_digit
  exact startsPlain_withSign negative hc tail

theorem SpellsKey.opens {key : LooseText} (h : SpellsKey key cs) : Opens cs := by
  cases h
  exact ⟨'"', _, rfl, by decide⟩

theorem Spells.opens (h : Spells n form cs) : Opens cs := by
  induction h with
  | word hw => exact (startsPlain_word hw).opens
  | number hs => exact hs.startsPlain.opens
  | text => exact ⟨'"', _, rfl, by decide⟩
  | emptyList | list => exact ⟨'[', _, rfl, by decide⟩
  | emptyDict | dict => exact ⟨'\x7b', _, rfl, by decide⟩
  | lastItem _ _ ih => exact ih.append _
  | item _ _ _ _ ih => exact ih.append _
  | lastEntry hk => exact hk.opens.append _
  | entry hk => exact hk.opens.append _

theorem exists_spellsKey {key : LooseText} (h : readKey cs = .ok (key, rest)) :
    ∃ name, cs = name ++ rest ∧ SpellsKey key name := by
  unfold readKey at h
  split at h
  · split at h
    · cases h
    · next key' behind hkey =>
      obtain ⟨⟨units, behind'⟩, hunits, heq⟩ := map_eq_ok_iff.1 hkey
      cases heq
      obtain ⟨pre, rfl, hpre⟩ := exists_spellsUnits hunits
      obtain ⟨space, hspace, hbehind⟩ := exists_isBlank behind
      split at h
      · next behind' hcolon =>
        cases h
        obtain ⟨space', hspace', hvalue⟩ := exists_isBlank behind'
        rw [hcolon, hvalue] at hbehind
        exact ⟨_, by rw [hbehind]; simp, .key hpre hspace hspace'⟩
      · cases h
  · cases h

theorem exists_spells_plain (h : readPlain cs = .ok (v, rest)) :
    ∃ pre, cs = pre ++ rest ∧ Spells n (.value v) pre := by
  unfold readPlain at h
  split at h
  · next word v' hfind =>
    cases h
    have hprefix := List.find?_some hfind
    obtain ⟨behind, rfl⟩ := List.isPrefixOf_iff_prefix.1 hprefix
    refine ⟨word.toList, ?_, .word (List.mem_of_find?_eq_some hfind)⟩
    rw [← String.length_toList, List.drop_left]
  · split at h
    · obtain ⟨pre, rfl, hpre⟩ := exists_spellsNumber h
      exact ⟨'-' :: pre, rfl, .number hpre⟩
    · obtain ⟨pre, rfl, hpre⟩ := exists_spellsNumber h
      exact ⟨pre, rfl, .number hpre⟩

/-- What is read as a value, as items or as entries with the given fuel spells them. -/
structure FindsSpelled (limit fuel : Nat) : Prop where
  value : ∀ depth cs v rest, readValue limit depth fuel cs = .ok (v, rest) →
    ∃ pre, cs = pre ++ rest ∧ Spells (limit + 1 - depth) (.value v) pre
  items : ∀ depth cs items rest, readItems limit depth fuel cs = .ok (items, rest) →
    ∃ pre, cs = pre ++ ']' :: rest ∧ Spells (limit + 1 - depth) (.items items) pre
  entries : ∀ depth cs entries rest, readEntries limit depth fuel cs = .ok (entries, rest) →
    ∃ pre, cs = pre ++ '\x7d' :: rest ∧ Spells (limit + 1 - depth) (.entries entries) pre

theorem FindsSpelled.value_succ (ih : FindsSpelled limit fuel)
    (h : readValue limit depth (fuel + 1) cs = .ok (v, rest)) :
    ∃ pre, cs = pre ++ rest ∧ Spells (limit + 1 - depth) (.value v) pre := by
  have hdepth : ¬limit < depth → limit + 1 - depth = limit + 1 - (depth + 1) + 1 := by
    omega
  unfold readValue at h
  split at h
  · cases h
  · -- a text
    obtain ⟨⟨t, cs'⟩, htext, heq⟩ := map_eq_ok_iff.1 h
    cases heq
    obtain ⟨⟨units, cs'⟩, hunits, heq⟩ := map_eq_ok_iff.1 htext
    cases heq
    obtain ⟨pre, rfl, hpre⟩ := exists_spellsUnits hunits
    exact ⟨_, by simp, .text hpre⟩
  · -- a list
    next n behind hn =>
    cases hn
    split at h
    · cases h
    next hnesting =>
    rw [hdepth hnesting]
    obtain ⟨space, hspace, hbehind⟩ := exists_isBlank behind
    split at h
    · next behind' hclose =>
      cases h
      rw [hclose] at hbehind
      exact ⟨_, by rw [hbehind]; simp, .emptyList hspace⟩
    · obtain ⟨⟨items, rest'⟩, hitems, heq⟩ := map_eq_ok_iff.1 h
      cases heq
      obtain ⟨pre, hpre, hspells⟩ := ih.items _ _ _ _ hitems
      rw [hpre] at hbehind
      exact ⟨_, by rw [hbehind]; simp, .list hspace hspells⟩
  · -- a dictionary
    next n behind hn =>
    cases hn
    split at h
    · cases h
    next hnesting =>
    rw [hdepth hnesting]
    obtain ⟨space, hspace, hbehind⟩ := exists_isBlank behind
    split at h
    · next behind' hclose =>
      cases h
      rw [hclose] at hbehind
      exact ⟨_, by rw [hbehind]; simp, .emptyDict hspace⟩
    · obtain ⟨⟨entries, rest'⟩, hentries, heq⟩ := map_eq_ok_iff.1 h
      cases heq
      obtain ⟨pre, hpre, hspells⟩ := ih.entries _ _ _ _ hentries
      rw [hpre] at hbehind
      exact ⟨_, by rw [hbehind]; simp, .dict hspace hspells⟩
  · exact exists_spells_plain h

theorem FindsSpelled.items_succ (ih : FindsSpelled limit fuel) {items : List Value}
    (h : readItems limit depth (fuel + 1) cs = .ok (items, rest)) :
    ∃ pre, cs = pre ++ ']' :: rest ∧ Spells (limit + 1 - depth) (.items items) pre := by
  unfold readItems at h
  split at h
  · cases h
  next v behind hvalue =>
  obtain ⟨pre, rfl, hpre⟩ := ih.value _ _ _ _ hvalue
  obtain ⟨space, hspace, hbehind⟩ := exists_isBlank behind
  split at h
  · next behind' hcomma =>
    obtain ⟨⟨items', rest'⟩, hitems, heq⟩ := map_eq_ok_iff.1 h
    cases heq
    obtain ⟨space', hspace', hbehind'⟩ := exists_isBlank behind'
    obtain ⟨more, hmore, hspells⟩ := ih.items _ _ _ _ hitems
    rw [hcomma, hbehind', hmore] at hbehind
    exact ⟨_, by rw [hbehind]; simp, .item hpre hspace hspace' hspells⟩
  · next behind' hclose =>
    cases h
    rw [hclose] at hbehind
    exact ⟨_, by rw [hbehind]; simp, .lastItem hpre hspace⟩
  · cases h

theorem FindsSpelled.entries_succ (ih : FindsSpelled limit fuel) {entries : Entries}
    (h : readEntries limit depth (fuel + 1) cs = .ok (entries, rest)) :
    ∃ pre, cs = pre ++ '\x7d' :: rest ∧ Spells (limit + 1 - depth) (.entries entries) pre := by
  unfold readEntries at h
  split at h
  · cases h
  next key behind₀ hkey =>
  obtain ⟨name, rfl, hname⟩ := exists_spellsKey hkey
  split at h
  · cases h
  next v behind hvalue =>
  obtain ⟨pre, rfl, hpre⟩ := ih.value _ _ _ _ hvalue
  obtain ⟨space, hspace, hbehind⟩ := exists_isBlank behind
  split at h
  · next behind' hcomma =>
    obtain ⟨⟨entries', rest'⟩, hentries, heq⟩ := map_eq_ok_iff.1 h
    cases heq
    obtain ⟨space', hspace', hbehind'⟩ := exists_isBlank behind'
    obtain ⟨more, hmore, hspells⟩ := ih.entries _ _ _ _ hentries
    rw [hcomma, hbehind', hmore] at hbehind
    exact ⟨_, by rw [hbehind]; simp, .entry hname hpre hspace hspace' hspells⟩
  · next behind' hclose =>
    cases h
    rw [hclose] at hbehind
    exact ⟨_, by rw [hbehind]; simp, .lastEntry hname hpre hspace⟩
  · cases h

theorem findsSpelled (limit fuel : Nat) : FindsSpelled limit fuel := by
  induction fuel with
  | zero => exact ⟨nofun, nofun, nofun⟩
  | succ fuel ih =>
    exact ⟨fun _ _ _ _ => ih.value_succ, fun _ _ _ _ => ih.items_succ,
      fun _ _ _ _ => ih.entries_succ⟩

theorem SpellsKey.readKey_eq {key : LooseText} {name more : List Char} (h : SpellsKey key name)
    (hmore : Opens more) : readKey (name ++ more) = .ok (key, more) := by
  obtain ⟨hunits, hspace, hspace'⟩ := h
  rename_i units cs space space'
  have hread := hunits.readUnits_eq (space ++ ':' :: (space' ++ more))
  have hcolon := skipSpace_append hspace (by rfl : isSpace ':' = false) (space' ++ more)
  simp only [List.cons_append, List.append_assoc, readKey, readString, hread]
  simp only [Except.map, hcolon, hmore.skipSpace_append hspace']

theorem readPlain_word {word : String} (h : (word, v) ∈ words) (rest : List Char) :
    readPlain (word.toList ++ rest) = .ok (v, rest) := by
  simp only [words, List.mem_cons, Prod.mk.injEq, List.not_mem_nil, or_false] at h
  rcases h with ⟨rfl, rfl⟩ | ⟨rfl, rfl⟩ | ⟨rfl, rfl⟩ | ⟨rfl, rfl⟩ | ⟨rfl, rfl⟩ | ⟨rfl, rfl⟩ <;> rfl

theorem not_isPrefixOf_cons {a b : Char} {as bs : List Char} (h : a ≠ b) :
    ¬(a :: as).isPrefixOf (b :: bs) = true := by
  simp [List.isPrefixOf, h]

theorem find?_words_number (negative : Bool) {c : Char} (hc : c.isDigit = true) (cs : List Char) :
    (words.find? fun word => word.1.toList.isPrefixOf (withSign negative (c :: cs))) = none := by
  have hne : ∀ a : Char, a.isDigit = false → a ≠ c := by
    rintro a ha rfl
    rw [ha] at hc
    cases hc
  rw [List.find?_eq_none]
  simp only [words, List.forall_mem_cons]
  cases negative with
  | false =>
    exact ⟨not_isPrefixOf_cons (hne 'n' rfl), not_isPrefixOf_cons (hne 't' rfl),
      not_isPrefixOf_cons (hne 'f' rfl), not_isPrefixOf_cons (hne 'N' rfl),
      not_isPrefixOf_cons (hne 'I' rfl), not_isPrefixOf_cons (hne '-' rfl), nofun⟩
  | true =>
    have hsecond : ¬"Infinity".toList.isPrefixOf (c :: cs) = true :=
      not_isPrefixOf_cons (hne 'I' rfl)
    exact ⟨not_isPrefixOf_cons (by decide), not_isPrefixOf_cons (by decide),
      not_isPrefixOf_cons (by decide), not_isPrefixOf_cons (by decide),
      not_isPrefixOf_cons (by decide), hsecond, nofun⟩

theorem readPlain_withSign (negative : Bool) {c : Char} (hc : c.isDigit = true) (cs : List Char) :
    readPlain (withSign negative (c :: cs)) = readNumber negative (c :: cs) := by
  unfold readPlain
  rw [find?_words_number negative hc cs]
  cases negative with
  | true => rfl
  | false =>
    rw [withSign, if_neg Bool.false_ne_true]
    dsimp only
    split
    · next heq =>
      obtain ⟨rfl, -⟩ := List.cons.inj heq
      cases hc
    · rfl

theorem withSign_append (negative : Bool) (cs rest : List Char) :
    withSign negative cs ++ rest = withSign negative (cs ++ rest) := by
  cases negative <;> rfl

theorem readPlain_number {negative : Bool} (h : SpellsNumber negative v cs) (hr : Ends rest) :
    readPlain (withSign negative cs ++ rest) = .ok (v, rest) := by
  have hread := h.readNumber_eq hr
  obtain ⟨c, tail, rfl, hc⟩ := h.exists_digit
  rw [withSign_append, List.cons_append, readPlain_withSign negative hc]
  exact hread

theorem readValue_plain (h : StartsPlain cs) :
    readValue limit depth (fuel + 1) cs = readPlain cs := by
  obtain ⟨c, tail, rfl, hne⟩ := h.exists_cons
  rw [readValue]
  · exact fun _ heq => hne '"' rfl (by decide) (List.cons.inj heq).1
  · exact fun _ heq => hne '[' rfl (by decide) (List.cons.inj heq).1
  · exact fun _ heq => hne '\x7b' rfl (by decide) (List.cons.inj heq).1

theorem readValue_list (hdepth : depth ≤ limit) (hspace : IsBlank space) (h : Opens cs) :
    readValue limit depth (fuel + 1) ('[' :: (space ++ cs)) =
      (readItems limit (depth + 1) fuel cs).map fun (items, cs) => (.list items, cs) := by
  rw [readValue, if_neg (Nat.not_lt.2 hdepth), h.skipSpace_append hspace]
  obtain ⟨c, tail, rfl, -, hclose, -⟩ := h
  split
  · next heq => exact absurd (List.cons.inj heq).1 hclose
  · rfl

theorem readValue_dict (hdepth : depth ≤ limit) (hspace : IsBlank space) (h : Opens cs) :
    readValue limit depth (fuel + 1) ('\x7b' :: (space ++ cs)) =
      (readEntries limit (depth + 1) fuel cs).map fun (entries, cs) =>
        (.dict (putEntries [] entries), cs) := by
  rw [readValue, if_neg (Nat.not_lt.2 hdepth), h.skipSpace_append hspace]
  obtain ⟨c, tail, rfl, -, -, hclose⟩ := h
  split
  · next heq => exact absurd (List.cons.inj heq).1 hclose
  · rfl

/-- The readers find the form in front of anything that does not belong to it. -/
def Form.IsReadFrom (limit depth fuel : Nat) (cs : List Char) : Form → Prop
  | .value v => ∀ rest, Ends rest → readValue limit depth fuel (cs ++ rest) = .ok (v, rest)
  | .items vs => ∀ rest, readItems limit depth fuel (cs ++ ']' :: rest) = .ok (vs, rest)
  | .entries pairs =>
    ∀ rest, readEntries limit depth fuel (cs ++ '\x7d' :: rest) = .ok (pairs, rest)

def Form.fuelFor (cs : List Char) : Form → Nat
  | .value _ => 2 * cs.length + 1
  | .items _ | .entries _ => 2 * cs.length + 2

theorem Form.exists_fuel (h : form.fuelFor cs ≤ fuel) : ∃ m, fuel = m + 1 := by
  refine Nat.exists_eq_add_one.2 (Nat.lt_of_lt_of_le ?_ h)
  cases form <;> simp [fuelFor]

theorem ends_append (h : IsBlank space) {c : Char} (hc : IsBoundary c) (rest : List Char) :
    Ends (space ++ c :: rest) := by
  cases space with
  | nil =>
    rintro _ ⟨⟩
    exact hc
  | cons d space =>
    rintro _ ⟨⟩
    exact .inl (h d List.mem_cons_self)

/-- What is spelled is read, to its end and not farther. -/
theorem Spells.isReadFrom (h : Spells n form cs) (hdepth : n + depth ≤ limit + 1)
    (hfuel : form.fuelFor cs ≤ fuel) : form.IsReadFrom limit depth fuel cs := by
  have hcomma : IsBoundary ',' := .inr (.inl rfl)
  induction h generalizing depth fuel with
  | word hw =>
    obtain ⟨fuel, rfl⟩ := Form.exists_fuel hfuel
    intro rest hr
    rw [readValue_plain ((startsPlain_word hw).append rest), readPlain_word hw]
  | number hs =>
    obtain ⟨fuel, rfl⟩ := Form.exists_fuel hfuel
    intro rest hr
    rw [readValue_plain (hs.startsPlain.append rest), readPlain_number hs hr]
  | @text n units cs hs =>
    obtain ⟨fuel, rfl⟩ := Form.exists_fuel hfuel
    intro rest hr
    have hread := hs.readUnits_eq rest
    simp only [List.cons_append, List.append_assoc, List.nil_append, readValue, readString, hread]
    rfl
  | @emptyList n space hspace =>
    obtain ⟨fuel, rfl⟩ := Form.exists_fuel hfuel
    intro rest hr
    simp only [List.cons_append, List.append_assoc, List.nil_append]
    rw [readValue, if_neg (by omega), skipSpace_append hspace rfl]
    rfl
  | @list n vs space cs hspace hs ih =>
    obtain ⟨fuel, rfl⟩ := Form.exists_fuel hfuel
    intro rest hr
    simp only [Form.fuelFor, List.length_cons, List.length_append] at hfuel
    have hitems : readItems limit (depth + 1) fuel (cs ++ ']' :: rest) = .ok (vs, rest) :=
      ih (by omega) (by simp only [Form.fuelFor]; omega) rest
    simp only [List.cons_append, List.append_assoc, List.nil_append]
    rw [readValue_list (by omega) hspace (hs.opens.append _), hitems]
    rfl
  | @emptyDict n space hspace =>
    obtain ⟨fuel, rfl⟩ := Form.exists_fuel hfuel
    intro rest hr
    simp only [List.cons_append, List.append_assoc, List.nil_append]
    rw [readValue, if_neg (by omega), skipSpace_append hspace rfl]
    rfl
  | @dict n pairs space cs hspace hs ih =>
    obtain ⟨fuel, rfl⟩ := Form.exists_fuel hfuel
    intro rest hr
    simp only [Form.fuelFor, List.length_cons, List.length_append] at hfuel
    have hentries : readEntries limit (depth + 1) fuel (cs ++ '\x7d' :: rest) = .ok (pairs, rest) :=
      ih (by omega) (by simp only [Form.fuelFor]; omega) rest
    simp only [List.cons_append, List.append_assoc, List.nil_append]
    rw [readValue_dict (by omega) hspace (hs.opens.append _), hentries]
    rfl
  | @lastItem n v cs space hs hspace ih =>
    obtain ⟨fuel, rfl⟩ := Form.exists_fuel hfuel
    intro rest
    simp only [Form.fuelFor, List.length_append] at hfuel
    have hvalue : readValue limit depth fuel (cs ++ (space ++ ']' :: rest)) = .ok (v, _) :=
      ih hdepth (by simp only [Form.fuelFor]; omega) _
        (ends_append hspace (.inr (.inr (.inl rfl))) rest)
    rw [readItems, List.append_assoc, hvalue]
    simp only [skipSpace_append hspace (by rfl : isSpace ']' = false)]
  | @item n v vs cs space space' more hs hspace hspace' hmore ih ihMore =>
    obtain ⟨fuel, rfl⟩ := Form.exists_fuel hfuel
    intro rest
    simp only [Form.fuelFor, List.length_append, List.length_cons] at hfuel
    have hvalue : readValue limit depth fuel (cs ++ (space ++ _)) = .ok (v, _) :=
      ih hdepth (by simp only [Form.fuelFor]; omega) _
        (ends_append hspace hcomma (space' ++ (more ++ ']' :: rest)))
    have hitems : readItems limit depth fuel (more ++ ']' :: rest) = .ok (vs, rest) :=
      ihMore hdepth (by simp only [Form.fuelFor]; omega) rest
    simp only [List.append_assoc, List.cons_append]
    rw [readItems, hvalue]
    simp only [skipSpace_append hspace (by rfl : isSpace ',' = false),
      (hmore.opens.append _).skipSpace_append hspace', hitems]
    rfl
  | @lastEntry n key v name cs space hk hs hspace ih =>
    obtain ⟨fuel, rfl⟩ := Form.exists_fuel hfuel
    intro rest
    simp only [Form.fuelFor, List.length_append] at hfuel
    have hkey := hk.readKey_eq (hs.opens.append (space ++ '\x7d' :: rest))
    have hvalue : readValue limit depth fuel (cs ++ (space ++ '\x7d' :: rest)) = .ok (v, _) :=
      ih hdepth (by simp only [Form.fuelFor]; omega) _
        (ends_append hspace (.inr (.inr (.inr rfl))) rest)
    simp only [List.append_assoc]
    rw [readEntries, hkey]
    simp only [hvalue, skipSpace_append hspace (by rfl : isSpace '\x7d' = false)]
  | @entry n key v pairs name cs space space' more hk hs hspace hspace' hmore ih ihMore =>
    obtain ⟨fuel, rfl⟩ := Form.exists_fuel hfuel
    intro rest
    simp only [Form.fuelFor, List.length_append, List.length_cons] at hfuel
    have hkey := hk.readKey_eq (hs.opens.append
      (space ++ ',' :: (space' ++ (more ++ '\x7d' :: rest))))
    have hvalue : readValue limit depth fuel (cs ++ (space ++ _)) = .ok (v, _) :=
      ih hdepth (by simp only [Form.fuelFor]; omega) _
        (ends_append hspace hcomma (space' ++ (more ++ '\x7d' :: rest)))
    have hentries : readEntries limit depth fuel (more ++ '\x7d' :: rest) = .ok (pairs, rest) :=
      ihMore hdepth (by simp only [Form.fuelFor]; omega) rest
    simp only [List.append_assoc, List.cons_append]
    rw [readEntries, hkey]
    simp only [hvalue, skipSpace_append hspace (by rfl : isSpace ',' = false),
      (hmore.opens.append _).skipSpace_append hspace', hentries]
    rfl

def SpellsText (limit : Nat) (text : String) (v : Value) : Prop :=
  ∃ before cs behind, text.toList = before ++ (cs ++ behind) ∧ IsBlank before ∧ IsBlank behind ∧
    Spells (limit + 1) (.value v) cs

/-- A text is read as a value exactly if it spells the value. -/
theorem read_eq_ok_iff {text : String} : read limit text = .ok v ↔ SpellsText limit text v := by
  rw [read]
  constructor
  · intro h
    split at h
    · cases h
    next v' rest hread =>
    split_ifs at h with hrest
    cases h
    obtain ⟨before, hbefore, htext⟩ := exists_isBlank text.toList
    obtain ⟨behind, hbehind, hrest'⟩ := exists_isBlank rest
    obtain ⟨cs, hcs, hspells⟩ := (findsSpelled _ _).value _ _ _ _ hread
    rw [hrest, List.append_nil] at hrest'
    subst hrest'
    exact ⟨before, cs, rest, by rw [← hcs, ← htext], hbefore, hbehind, hspells⟩
  · rintro ⟨before, cs, behind, htext, hbefore, hbehind, hspells⟩
    have hends : Ends behind := fun c hc => .inl (hbehind c (List.mem_of_mem_head? hc))
    have hfuel : 2 * cs.length + 1 ≤ enoughFuel text.toList := by
      rw [enoughFuel, htext, List.length_append, List.length_append]
      omega
    have hread := hspells.isReadFrom (le_refl (limit + 1 + 0)) hfuel behind hends
    have hskip := (hspells.opens.append behind).skipSpace_append hbefore
    rw [← htext] at hskip
    simp only [hskip, hread, skipSpace_of_isBlank hbehind, if_true]

end Json

end Calculator
