import Calculator.Proofs.Float.Order
import Calculator.Proofs.Symbols.Cells

/-!
# Assignments

An assignment looks at the name, then at the value, then at the room, and the first of them that is
not suitable decides the error. A whole number past the floats is a fault, and so is a message that
had to show a whole number of too many digits. Whatever an assignment fails with, it has written
nothing.
-/

namespace Calculator

/-- The value is the text of a name that a variable can have. -/
def Value.IsNameOf (name : Value) (n : String) : Prop := name = .text n ∧ IsVariableName n

/-- The value stands for the number, and the number is finite. -/
def Value.Gives (value : Value) (v : Float) : Prop :=
  value.toFloat? = .ok (some v) ∧ v.isFinite = true

/-- A whole number past the floats, with either sign. -/
def Value.IsTooLarge (value : Value) : Prop := ∃ i : Int, value = .int i ∧ overflowLimit ≤ i.natAbs

def MathError.IsOf (e : MathError) (kind : ErrorKind) : Prop :=
  e.stage = .evaluation ∧ e.kind = some kind

namespace SymbolTable

variable {t : SymbolTable} {name value : Value} {n : String} {v : Float}

/-- The second table is the first with one number stored: in the place of the name, or behind all
others. -/
structure SetsOnly (t : SymbolTable) (n : String) (v : Float) (t' : SymbolTable) : Prop where
  value : t'.get? n = some v
  others : ∀ m, m ≠ n → t'.get? m = t.get? m
  names : t'.entries.map Prod.fst = if t.contains n then t.entries.map Prod.fst
    else t.entries.map Prod.fst ++ [n]
  capacity : t'.capacity = t.capacity

/-- What an assignment comes to: the name decides before the value, and the value before the
room. -/
inductive Assigned (t : SymbolTable) (name value : Value) : Except Failure SymbolTable → Prop where
  | stored {n : String} {v : Float} {t' : SymbolTable} (hn : name.IsNameOf n) (hv : value.Gives v)
      (hroom : t.HasRoomFor n) (ht : t.SetsOnly n v t') : Assigned t name value (.ok t')
  | badName {e : MathError} (hn : ∀ n, ¬name.IsNameOf n) (hs : name.isShowable = true)
      (he : e.IsOf .invalidName) : Assigned t name value (.error (.error e))
  | badValue {n : String} {e : MathError} (hn : name.IsNameOf n) (hv : ∀ v, ¬value.Gives v)
      (hi : ¬value.IsTooLarge) (hs : value.isShowable = true) (he : e.IsOf .invalidOperation) :
      Assigned t name value (.error (.error e))
  | noRoom {n : String} {v : Float} {e : MathError} (hn : name.IsNameOf n) (hv : value.Gives v)
      (hroom : ¬t.HasRoomFor n) (he : e.IsOf .variableLimitExceeded) :
      Assigned t name value (.error (.error e))
  /-- The whole number has no float, and nothing makes an error of that. -/
  | tooLarge {n : String} (hn : name.IsNameOf n) (hi : value.IsTooLarge) :
      Assigned t name value (.error (.fault .integerTooLarge))
  /-- The message about the name cannot be written. -/
  | unshownName (hn : ∀ n, ¬name.IsNameOf n) (hs : name.isShowable = false) :
      Assigned t name value (.error (.fault .integerShown))
  /-- The message about the value cannot be written. -/
  | unshownValue {n : String} (hn : name.IsNameOf n) (hv : ∀ v, ¬value.Gives v)
      (hi : ¬value.IsTooLarge) (hs : value.isShowable = false) :
      Assigned t name value (.error (.fault .integerShown))

theorem setsOnly_stored (t : SymbolTable) (n : String) (v : Float) :
    t.SetsOnly n v (t.stored n v) where
  value := by rw [get?_stored, if_pos rfl]
  others m hm := by rw [get?_stored, if_neg hm]
  names := keys_stored t n v
  capacity := rfl

/-- The cause is of the kind, and its message shows the value if it shows any that can be too
long. -/
structure Blames (cause : Cause) (value : Value) (kind : ErrorKind) : Prop where
  stage : cause.stage = .evaluation
  kind : cause.kind = some kind
  shown : cause.isShowable = value.isShowable

theorem Blames.refuse_cases {cause : Cause} {kind : ErrorKind} (h : Blames cause value kind) :
    (value.isShowable = true ∧ ∃ e : MathError, e.IsOf kind ∧
      (refuse cause : Except Failure SymbolTable) = .error (.error e)) ∨
    (value.isShowable = false ∧
      (refuse cause : Except Failure SymbolTable) = .error (.fault .integerShown)) := by
  rw [← h.shown, refuse]
  cases cause.isShowable with
  | true => exact .inl ⟨rfl, .of cause none, ⟨h.stage, h.kind⟩, rfl⟩
  | false => exact .inr ⟨rfl, rfl⟩

/-- A name is refused unless a variable can have it. -/
theorem nameOf_eq_refuse (h : ∀ n, ¬name.IsNameOf n) :
    ∃ cause, nameOf name = refuse cause ∧ Blames cause name .invalidName := by
  cases hok : nameOf name with
  | ok n => exact absurd (nameOf_eq_ok_iff.1 hok) (h n)
  | error f =>
    rw [← hok]
    unfold nameOf at hok ⊢
    split
    · split
      · exact ⟨_, rfl, rfl, rfl, rfl⟩
      · next s hs =>
        split
        · exact ⟨_, rfl, rfl, rfl, rfl⟩
        · next hnone => simp [hs, hnone] at hok
    · exact ⟨_, rfl, rfl, rfl, rfl⟩

theorem toFloat?_int (i : Int) : (Value.int i).toFloat? =
    if (floatOfInt i).isFinite then .ok (some (floatOfInt i)) else .error .integerTooLarge := rfl

/-- Only a whole number past the floats has no answer to what number it stands for. -/
theorem toFloat?_eq_error_iff {f : Fault} :
    value.toFloat? = .error f ↔ value.IsTooLarge ∧ f = .integerTooLarge := by
  cases value with
  | int i =>
    have hiff : (Value.int i).IsTooLarge ↔ ¬(floatOfInt i).isFinite = true := by
      rw [isFinite_floatOfInt_iff, not_lt]
      exact ⟨fun ⟨j, hj, hle⟩ => Value.int.inj hj ▸ hle, fun hle => ⟨i, rfl, hle⟩⟩
    rw [hiff, toFloat?_int]
    cases (floatOfInt i).isFinite with
    | true => simp
    | false => simp [eq_comm]
  | _ => simp [Value.toFloat?, Value.IsTooLarge]

theorem not_gives_of_isTooLarge (h : value.IsTooLarge) (v : Float) : ¬value.Gives v := by
  rintro ⟨hv, -⟩
  rw [toFloat?_eq_error_iff.2 ⟨h, rfl⟩] at hv
  cases hv

theorem numberOf_of_isTooLarge (h : value.IsTooLarge) (n : String) :
    numberOf n value = .error (.fault .integerTooLarge) := by
  rw [numberOf, toFloat?_eq_error_iff.2 ⟨h, rfl⟩]

/-- Values that stand for an infinity or for no number are neither whole numbers nor compound. -/
theorem isShowable_of_infinite (h : value.toFloat? = .ok (some v)) (hv : v.isFinite = false) :
    value.isShowable = true := by
  cases value with
  | int i =>
    rw [toFloat?_int] at h
    split at h
    · next hfinite =>
      cases h
      rw [hfinite] at hv
      cases hv
    · cases h
  | list items => cases h
  | dict entries => cases h
  | _ => rfl

/-- A value that gives no finite number is refused unless it is a whole number past the floats. -/
theorem numberOf_eq_refuse (n : String) (h : ∀ v, ¬value.Gives v) (hi : ¬value.IsTooLarge) :
    ∃ cause, numberOf n value = refuse cause ∧ Blames cause value .invalidOperation := by
  unfold numberOf
  cases hv : value.toFloat? with
  | error f => exact absurd (toFloat?_eq_error_iff.1 hv).1 hi
  | ok number =>
    cases number with
    | none => exact ⟨_, rfl, rfl, rfl, rfl⟩
    | some v =>
      have hinfinite : v.isFinite = false := Bool.eq_false_iff.2 fun hfinite => h v ⟨hv, hfinite⟩
      refine ⟨.invalidValue n (.float v), if_neg (Bool.eq_false_iff.1 hinfinite), rfl, rfl, ?_⟩
      exact (isShowable_of_infinite hv hinfinite).symm

theorem set_of_isNameOf (hn : name.IsNameOf n) (t : SymbolTable) (value : Value) :
    t.set name value = numberOf n value >>= t.put n := by
  rw [set, nameOf_eq_ok_iff.2 hn]
  rfl

theorem assigned_put (hn : name.IsNameOf n) (hv : value.Gives v) :
    t.Assigned name value (t.put n v) := by
  by_cases hroom : t.HasRoomFor n
  · rw [put_eq_ok hroom]
    exact .stored hn hv hroom (setsOnly_stored t n v)
  · rw [put_eq_error hroom]
    exact .noRoom hn hv hroom ⟨rfl, rfl⟩

/-- The checks in their order: what one of them does not refuse goes on to the next. -/
theorem assigned_set (t : SymbolTable) (name value : Value) :
    t.Assigned name value (t.set name value) := by
  by_cases hname : ∃ n, name.IsNameOf n
  · obtain ⟨n, hn⟩ := hname
    rw [set_of_isNameOf hn]
    by_cases hvalue : ∃ v, value.Gives v
    · obtain ⟨v, hv⟩ := hvalue
      rw [numberOf_eq_ok_iff.2 hv]
      exact assigned_put hn hv
    · rw [not_exists] at hvalue
      by_cases hi : value.IsTooLarge
      · rw [numberOf_of_isTooLarge hi]
        exact .tooLarge hn hi
      · obtain ⟨cause, hrefuse, hblames⟩ := numberOf_eq_refuse n hvalue hi
        rw [hrefuse, refuse_bind]
        rcases hblames.refuse_cases with ⟨hs, e, he, hr⟩ | ⟨hs, hr⟩ <;> rw [hr]
        · exact .badValue hn hvalue hi hs he
        · exact .unshownValue hn hvalue hi hs
  · rw [not_exists] at hname
    obtain ⟨cause, hrefuse, hblames⟩ := nameOf_eq_refuse hname
    rw [set, hrefuse, refuse_bind]
    rcases hblames.refuse_cases with ⟨hs, e, he, hr⟩ | ⟨hs, hr⟩ <;> rw [hr]
    · exact .badName hname hs he
    · exact .unshownName hname hs

end SymbolTable

namespace Store

variable {w : Store}

/-- An assignment in place comes to what the first unsuitable of name, value and room decides. If
none is, it writes one number into one table, and else nothing at all. -/
theorem Separate.assign_outcome (h : w.Separate) (i : Nat) (name value : Value) :
    ∃ r, (w.view i).Assigned name value r ∧ Performs (Store.assign i name value) w i r :=
  ⟨_, (w.view i).assigned_set name value, h.assign i name value⟩

/-- In an empty table a suitable name does not help a number of 401 digits. -/
theorem Separate.assign_outcome_overflow :
    (start 10).Separate ∧ InPlace.on (Store.assign 0 (.text "x") (.int (10 ^ 400))) (start 10) =
      (.error (.fault .integerTooLarge), start 10) := by
  have h : (start 10).Separate := separate_start 10
  have hn : (Value.text "x").IsNameOf "x" := ⟨rfl, by decide +kernel, rfl⟩
  have hi : (Value.int (10 ^ 400)).IsTooLarge := ⟨_, rfl, by decide +kernel⟩
  refine ⟨h, ?_⟩
  obtain ⟨r, hr, hperforms⟩ := h.assign_outcome 0 (.text "x") (.int (10 ^ 400))
  cases hr with
  | tooLarge => exact hperforms
  | stored _ hv | noRoom _ hv => exact absurd hv (SymbolTable.not_gives_of_isTooLarge hi _)
  | badValue _ _ hnot | unshownValue _ _ hnot => exact absurd hi hnot
  | badName hnot | unshownName hnot => exact absurd hn (hnot _)

end Store

end Calculator
