import Calculator.Proofs.Entries
import Calculator.Proofs.Evaluation.Finite
import Calculator.Proofs.Evaluation.Node
import Calculator.Symbols

/-!
# Tables as finite maps

What an assignment needs, what it leaves behind, and what every table keeps: a bounded number of
variables with different names and finite values. A table of this kind can be copied variable by
variable.
-/

namespace Calculator

open Text (LooseText CodePoint)

theorem Text.LooseText.eq_ofString_of_toString? {t : LooseText} {s : String}
    (h : t.toString? = some s) : t = ofString s := by
  have hpoints {points : List CodePoint} {cs : List Char}
      (hcs : points.mapM CodePoint.char? = some cs) : points = cs.map .char := by
    induction points generalizing cs with
    | nil =>
      cases hcs
      rfl
    | cons point points ih =>
      rw [List.mapM_cons] at hcs
      cases point with
      | half place => simp [CodePoint.char?] at hcs
      | char c =>
        obtain ⟨tail, htail, rfl⟩ : ∃ tail, points.mapM CodePoint.char? = some tail ∧
            c :: tail = cs := by simpa [CodePoint.char?, Option.bind_eq_some_iff] using hcs
        rw [ih htail, List.map_cons]
  obtain ⟨cs, hcs, rfl⟩ := Option.map_eq_some_iff.1 h
  rw [ofString, String.toList_ofList, ← hpoints hcs]

theorem Text.LooseText.toString?_eq_some_iff {t : LooseText} {s : String} :
    t.toString? = some s ↔ t = ofString s :=
  ⟨eq_ofString_of_toString?, fun h => h ▸ toString?_ofString s⟩

theorem Text.LooseText.ofString_injective : Function.Injective ofString := by
  intro s s' h
  have hsame := congrArg toString? h
  rwa [toString?_ofString, toString?_ofString, Option.some.injEq] at hsame

/-- A name that a variable can have. -/
def IsVariableName (name : String) : Prop :=
  isValidName name = true ∧ constantValue? name = none

namespace SymbolTable

variable {t t' : SymbolTable} {name value : Value} {n m : String} {v : Float}

theorem nameOf_eq_ok_iff : nameOf name = .ok n ↔ name = .text n ∧ IsVariableName n := by
  unfold nameOf
  split
  · next text =>
    rw [Value.text.injEq, ← LooseText.toString?_eq_some_iff]
    split
    · next hnone =>
      simp only [refuse_ne_ok, IsVariableName, false_iff, not_and]
      rintro hs hvalid
      simp [hs, hvalid] at hnone
    · next s hs =>
      obtain ⟨hs, hvalid⟩ := Option.filter_eq_some_iff.1 hs
      rw [hs, Option.some.injEq]
      cases hc : constantValue? s with
      | none =>
        simp only [Option.isSome_none, Bool.false_eq_true, if_false, Except.ok.injEq]
        exact ⟨fun h => ⟨h, h ▸ hvalid, h ▸ hc⟩, fun h => h.1⟩
      | some c =>
        simp only [Option.isSome_some, if_true, refuse_ne_ok, false_iff]
        rintro ⟨rfl, -, hnone⟩
        rw [hc] at hnone
        cases hnone
  · next hkind =>
    simp only [refuse_ne_ok, false_iff]
    rintro ⟨rfl, -⟩
    exact hkind _ rfl

theorem numberOf_eq_ok_iff :
    numberOf n value = .ok v ↔ value.toFloat? = .ok (some v) ∧ v.isFinite = true := by
  unfold numberOf
  split
  · next f hf => simp [hf]
  · next hnone => simp [hnone, refuse_ne_ok]
  · next w hw =>
    rw [hw]
    split
    · next hfinite =>
      simp only [Except.ok.injEq, Option.some.injEq]
      exact ⟨fun h => ⟨h, h ▸ hfinite⟩, fun h => h.1⟩
    · next hinfinite =>
      simp only [refuse_ne_ok, Except.ok.injEq, Option.some.injEq, false_iff]
      rintro ⟨rfl, hfinite⟩
      exact hinfinite hfinite

/-- The table with a new value for a variable, in whose place it stays. -/
def stored (t : SymbolTable) (name : String) (v : Float) : SymbolTable :=
  { t with entries := putEntry name v t.entries }

/-- A variable of the name is there, or one more fits in. -/
def HasRoomFor (t : SymbolTable) (name : String) : Prop :=
  t.contains name = true ∨ (t.size : Int) < t.capacity

theorem hasRoomFor_iff_of_new (h : t.contains n = false) :
    t.HasRoomFor n ↔ ¬t.capacity ≤ t.size := by
  rw [HasRoomFor, h, not_le]
  exact or_iff_right Bool.false_ne_true

theorem put_eq_ok (h : t.HasRoomFor n) (v : Float) : t.put n v = .ok (t.stored n v) := by
  refine if_neg ?_
  rw [Bool.and_eq_true, Bool.not_eq_true', decide_eq_true_iff]
  rintro ⟨hnew, hfull⟩
  rcases h with hold | hroom
  · rw [hnew] at hold
    cases hold
  · omega

theorem put_eq_error (h : ¬t.HasRoomFor n) (v : Float) :
    t.put n v = refuse (.variableLimit t.capacity n) := by
  obtain ⟨hnew, hfull⟩ := not_or.1 h
  refine if_pos ?_
  rw [Bool.and_eq_true, Bool.not_eq_true', decide_eq_true_iff]
  exact ⟨Bool.eq_false_iff.2 hnew, not_lt.1 hfull⟩

theorem put_eq_ok_iff : t.put n v = .ok t' ↔ t.HasRoomFor n ∧ t' = t.stored n v := by
  by_cases h : t.HasRoomFor n
  · rw [put_eq_ok h, Except.ok.injEq, eq_comm, and_iff_right h]
  · rw [put_eq_error h]
    exact ⟨fun hok => absurd hok (refuse_ne_ok _ _), fun hok => absurd hok.1 h⟩

theorem set_eq_ok_iff : t.set name value = .ok t' ↔
    ∃ (n : String) (v : Float), (name = .text n ∧ IsVariableName n) ∧
      (value.toFloat? = .ok (some v) ∧ v.isFinite = true) ∧ t.HasRoomFor n ∧ t' = t.stored n v := by
  simp only [set, bind_eq_ok_iff, nameOf_eq_ok_iff, numberOf_eq_ok_iff, put_eq_ok_iff]
  grind

theorem set_of_number (hn : IsVariableName n) (hv : v.isFinite = true) :
    t.set (.text n) (.float v) = t.put n v := by
  have hname : nameOf (.text n) = .ok n := nameOf_eq_ok_iff.2 ⟨rfl, hn⟩
  have hnumber : numberOf n (.float v) = .ok v := numberOf_eq_ok_iff.2 ⟨rfl, hv⟩
  simp only [set, hname, hnumber, bind, Except.bind]

theorem contains_iff : t.contains n = true ↔ n ∈ t.entries.map Prod.fst := by
  rw [contains, get?, List.lookup_isSome_iff, List.mem_map]
  constructor
  · rintro ⟨entry, hmem, heq⟩
    exact ⟨entry, hmem, (beq_iff_eq.1 heq).symm⟩
  · rintro ⟨entry, hmem, rfl⟩
    exact ⟨entry, hmem, beq_self_eq_true _⟩

@[simp]
theorem get?_stored (t : SymbolTable) (n m : String) (v : Float) :
    (t.stored n v).get? m = if m = n then some v else t.get? m :=
  lookup_putEntry n m v t.entries

@[simp]
theorem get?_erase (t : SymbolTable) (n m : String) :
    (t.erase n).get? m = if m = n then none else t.get? m := by
  unfold erase get?
  induction t.entries with
  | nil => simp
  | cons entry rest ih =>
    obtain ⟨k, v⟩ := entry
    by_cases hk : k = n <;> by_cases hm : m = k <;> grind

theorem mem_entries_of_get? (h : t.get? n = some v) : (n, v) ∈ t.entries := by
  obtain ⟨front, back, heq, -⟩ := List.lookup_eq_some_iff.1 h
  rw [heq]
  exact List.mem_append_right _ List.mem_cons_self

theorem get?_of_mem (hd : (t.entries.map Prod.fst).Nodup) (h : (n, v) ∈ t.entries) :
    t.get? n = some v := by
  obtain ⟨front, back, heq⟩ := List.append_of_mem h
  rw [heq, List.map_append, List.map_cons] at hd
  have hfront := (List.nodup_middle.1 hd).notMem
  refine List.lookup_eq_some_iff.2 ⟨front, back, heq, fun entry hmem => ?_⟩
  rw [bne_iff_ne]
  rintro rfl
  exact hfront (List.mem_append_left _ (List.mem_map.2 ⟨entry, hmem, rfl⟩))

/-- The variables fit into the table, have different names that can be given, and are finite. -/
structure WellFormed (t : SymbolTable) : Prop where
  bounded : (t.size : Int) ≤ t.capacity
  distinct : (t.entries.map Prod.fst).Nodup
  admissible : ∀ entry ∈ t.entries, IsVariableName entry.1
  finite : t.IsFinite

theorem wellFormed_empty {capacity : Int} (h : 0 ≤ capacity) : (empty capacity).WellFormed :=
  ⟨h, List.nodup_nil, nofun, nofun⟩

theorem keys_stored (t : SymbolTable) (n : String) (v : Float) :
    (t.stored n v).entries.map Prod.fst = if t.contains n then t.entries.map Prod.fst
      else t.entries.map Prod.fst ++ [n] := by
  simp only [contains_iff]
  exact keys_putEntry n v t.entries

theorem size_stored (t : SymbolTable) (n : String) (v : Float) :
    (t.stored n v).size = if t.contains n then t.size else t.size + 1 := by
  have hkeys := congrArg List.length (keys_stored t n v)
  rw [List.length_map] at hkeys
  rw [size, hkeys]
  split <;> simp [size]

namespace WellFormed

theorem stored (h : t.WellFormed) (hn : IsVariableName n) (hv : v.isFinite = true)
    (hroom : t.HasRoomFor n) : (t.stored n v).WellFormed where
  bounded := by
    have hbounded := h.bounded
    rw [size_stored]
    split
    · exact hbounded
    · next hnew =>
      have := hroom.resolve_left hnew
      change ((t.size + 1 : Nat) : Int) ≤ t.capacity
      omega
  distinct := by
    rw [keys_stored]
    split
    · exact h.distinct
    · next hnew =>
      rw [contains_iff] at hnew
      exact List.concat_eq_append ▸ h.distinct.concat hnew
  admissible entry hmem := by
    rcases mem_putEntry hmem with rfl | hold
    · exact hn
    · exact h.admissible entry hold
  finite entry hmem := by
    rcases mem_putEntry hmem with rfl | hold
    · exact hv
    · exact h.finite entry hold

theorem of_set (h : t.WellFormed) (hset : t.set name value = .ok t') : t'.WellFormed := by
  obtain ⟨n, v, ⟨-, hn⟩, ⟨-, hv⟩, hroom, rfl⟩ := set_eq_ok_iff.1 hset
  exact h.stored hn hv hroom

theorem erase (h : t.WellFormed) (n : String) : (t.erase n).WellFormed where
  bounded := by
    have hle : (t.erase n).size ≤ t.size := List.length_filter_le _ _
    exact le_trans (Int.ofNat_le.2 hle) h.bounded
  distinct := h.distinct.sublist (List.filter_sublist.map _)
  admissible entry hmem := h.admissible entry (List.mem_of_mem_filter hmem)
  finite entry hmem := h.finite entry (List.mem_of_mem_filter hmem)

theorem clear (h : t.WellFormed) : t.clear.WellFormed :=
  wellFormed_empty (le_trans (Int.natCast_nonneg _) h.bounded)

end WellFormed

/-- Setting the variables of a table into an empty one adds them one behind the other. -/
theorem foldlM_set {done items : List (String × Float)} {capacity : Int}
    (hd : ((done ++ items).map Prod.fst).Nodup)
    (ha : ∀ entry ∈ items, IsVariableName entry.1 ∧ entry.2.isFinite = true)
    (hb : ((done ++ items).length : Int) ≤ capacity) :
    items.foldlM (fun clone item => clone.set (.text item.1) (.float item.2))
      (⟨capacity, done⟩ : SymbolTable) = .ok ⟨capacity, done ++ items⟩ := by
  induction items generalizing done with
  | nil => simp [pure, Except.pure]
  | cons item items ih =>
    obtain ⟨n, v⟩ := item
    obtain ⟨hn, hv⟩ := ha (n, v) List.mem_cons_self
    have hnew : n ∉ done.map Prod.fst := by
      rw [List.map_append, List.map_cons] at hd
      exact fun hmem => (List.nodup_middle.1 hd).notMem (List.mem_append_left _ hmem)
    have hroom : (⟨capacity, done⟩ : SymbolTable).HasRoomFor n := by
      rw [List.length_append, List.length_cons] at hb
      refine .inr (lt_of_lt_of_le (Int.ofNat_lt.2 ?_) hb)
      change done.length < _
      omega
    have hset : (⟨capacity, done⟩ : SymbolTable).set (.text n) (.float v) =
        .ok ⟨capacity, done ++ [(n, v)]⟩ := by
      rw [set_of_number hn hv, put_eq_ok hroom, stored, putEntry_of_notMem hnew]
    rw [List.append_cons] at hd hb ⊢
    rw [List.foldlM_cons, hset]
    exact ih hd (fun entry hmem => ha entry (List.mem_cons_of_mem _ hmem)) hb

theorem perm_items (t : SymbolTable) : t.items.Perm t.entries := List.mergeSort_perm _ _

def arranged (t : SymbolTable) : SymbolTable := ⟨t.capacity, t.items⟩

theorem WellFormed.copy_eq (h : t.WellFormed) : t.copy = .ok t.arranged := by
  have hperm := t.perm_items
  refine @foldlM_set [] t.items t.capacity ?_ (fun entry hmem => ?_) ?_
  · exact (hperm.map Prod.fst).nodup_iff.2 h.distinct
  · have hold := hperm.mem_iff.1 hmem
    exact ⟨h.admissible entry hold, h.finite entry hold⟩
  · rw [List.nil_append, hperm.length_eq]
    exact h.bounded

theorem WellFormed.arranged (h : t.WellFormed) : t.arranged.WellFormed where
  bounded := (congrArg Nat.cast t.perm_items.length_eq).trans_le h.bounded
  distinct := (t.perm_items.map Prod.fst).nodup_iff.2 h.distinct
  admissible entry hmem := h.admissible entry (t.perm_items.mem_iff.1 hmem)
  finite entry hmem := h.finite entry (t.perm_items.mem_iff.1 hmem)

theorem WellFormed.get?_arranged (h : t.WellFormed) (n : String) :
    t.arranged.get? n = t.get? n := by
  ext v
  constructor
  · intro hv
    exact get?_of_mem h.distinct (t.perm_items.mem_iff.1 (mem_entries_of_get? hv))
  · intro hv
    exact get?_of_mem h.arranged.distinct (t.perm_items.mem_iff.2 (mem_entries_of_get? hv))

theorem items_arranged (t : SymbolTable) : t.arranged.items = t.items := by
  refine List.mergeSort_of_pairwise (List.pairwise_mergeSort (fun a b c hab hbc => ?_) ?_ _)
  · exact decide_eq_true (le_trans (of_decide_eq_true hab) (of_decide_eq_true hbc))
  · intro a b
    simpa using le_total a.1 b.1

end SymbolTable

end Calculator
