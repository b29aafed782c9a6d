import Calculator.Proofs.Symbols.Cells

/-!
# Tables after any changes

Tables are set, unset, cleared and copied in any order, and some of this fails. Every table stays a
bounded map of names that can be given to finite numbers, and what it holds can be read off its
history. A copy shares the history of its table up to the copying, and nothing afterwards.
-/

namespace Calculator

def Value.name? : Value → Option String
  | text t => t.toString?
  | _ => none

theorem Value.name?_eq_some_iff {value : Value} {n : String} :
    value.name? = some n ↔ value = .text n := by
  cases value <;> simp [name?, Text.LooseText.toString?_eq_some_iff]

/-- A change of a table. What is no text names no variable. -/
inductive TableChange where
  | set (name value : Value)
  | unset (name : Value)
  | clear

namespace TableChange

def apply (t : SymbolTable) : TableChange → Except Failure SymbolTable
  | set name value => t.set name value
  | unset name => .ok (name.name?.elim t t.erase)
  | clear => .ok t.clear

def program (i : Nat) : TableChange → InPlace Store Unit
  | set name value => Store.assign i name value
  | unset name => name.name?.elim (pure ()) (Store.unset i)
  | clear => Store.clear i

/-- What is known of the value of a name after the change; none if it is the value from before. -/
def effect (name : String) : TableChange → Option (Option Float)
  | set n value => if n.name? = some name then some value.toFloat?.toOption.join else none
  | unset n => if n.name? = some name then some none else none
  | clear => some none

variable {t t' : SymbolTable} {w : Store} {change : TableChange} {i : Nat}

theorem performs_program (h : w.Separate) (i : Nat) (change : TableChange) :
    Store.Performs (change.program i) w i (change.apply (w.view i)) := by
  cases change with
  | set name value => exact h.assign i name value
  | clear => exact h.clear i
  | unset name =>
    simp only [program, apply]
    cases name.name? with
    | none => exact ⟨w, rfl, h, (Function.update_eq_self i w.view).symm⟩
    | some n => exact h.unset i n

theorem wellFormed_of_apply (h : t.WellFormed) (ha : change.apply t = .ok t') : t'.WellFormed := by
  cases change with
  | set name value => exact h.of_set ha
  | clear =>
    cases ha
    exact h.clear
  | unset name =>
    cases ha
    cases name.name? with
    | none => exact h
    | some n => exact h.erase n

theorem capacity_of_apply (ha : change.apply t = .ok t') : t'.capacity = t.capacity := by
  cases change with
  | clear =>
    cases ha
    rfl
  | set name value =>
    obtain ⟨n, v, -, -, -, rfl⟩ := SymbolTable.set_eq_ok_iff.1 ha
    rfl
  | unset name =>
    cases ha
    cases name.name? <;> rfl

theorem get?_of_apply (ha : change.apply t = .ok t') (n : String) :
    t'.get? n = (change.effect n).getD (t.get? n) := by
  cases change with
  | clear =>
    cases ha
    rfl
  | set name value =>
    obtain ⟨m, v, ⟨rfl, -⟩, ⟨hvalue, -⟩, -, rfl⟩ := SymbolTable.set_eq_ok_iff.1 ha
    have hname : (Value.text m).name? = some m := Value.name?_eq_some_iff.2 rfl
    rw [SymbolTable.get?_stored, effect, hname, hvalue]
    by_cases hn : n = m
    · simp [hn, Except.toOption]
    · simp [hn, Ne.symm hn]
  | unset name =>
    cases ha
    cases hname : name.name? with
    | none => simp [effect, hname]
    | some m =>
      by_cases hn : n = m
      · simp [effect, hname, hn]
      · simp [effect, hname, hn, Ne.symm hn]

end TableChange

/-- The changes of a table and whether they succeeded, the latest first. -/
abbrev TableHistory := List (TableChange × Bool)

/-- The number that was given to a name last, unless the name was taken out afterwards. -/
def TableHistory.valueOf (name : String) : TableHistory → Option Float
  | [] => none
  | (change, true) :: earlier => (change.effect name).getD (valueOf name earlier)
  | (_, false) :: earlier => valueOf name earlier

inductive TableRequest where
  | change (i : Nat) (change : TableChange)
  /-- A copy of the table `i` under the handle `j`. -/
  | copy (i j : Nat)

def TableRequest.target : TableRequest → Nat
  | change i _ => i
  | copy _ j => j

/-- The tables in their store, and what was done to each. -/
structure TableRecord where
  store : Store
  histories : Nat → TableHistory

namespace TableRecord

def start (capacity : Int) : TableRecord := ⟨.start capacity, fun _ => []⟩

def table (r : TableRecord) (i : Nat) : SymbolTable := r.store.view i

def step (r : TableRecord) : TableRequest → TableRecord
  | .change i change =>
    let (outcome, store) := InPlace.on (change.program i) r.store
    ⟨store, Function.update r.histories i ((change, outcome.isOk) :: r.histories i)⟩
  | .copy i j =>
    let (_, store) := InPlace.on (Store.copy i j) r.store
    ⟨store, Function.update r.histories j (r.histories i)⟩

def after (capacity : Int) (requests : List TableRequest) : TableRecord :=
  requests.foldl step (start capacity)

variable {r : TableRecord} {c : Int} {i j : Nat}

/-- Every table is bounded and well-formed, and holds what its history says. -/
structure Sound (c : Int) (r : TableRecord) : Prop where
  separate : r.store.Separate
  capacity : ∀ i, (r.table i).capacity = c
  wellFormed : ∀ i, (r.table i).WellFormed
  recorded : ∀ i n, (r.table i).get? n = (r.histories i).valueOf n

theorem sound_start (hc : 0 ≤ c) : (start c).Sound c :=
  ⟨Store.separate_start c, fun _ => rfl, fun _ => SymbolTable.wellFormed_empty hc, fun _ _ => rfl⟩

/-- A request exchanges one table together with its history, and keeps all others. -/
theorem Sound.step_cases (h : r.Sound c) (request : TableRequest) : ∃ w t history,
    r.step request = ⟨w, Function.update r.histories request.target history⟩ ∧ w.Separate ∧
      w.view = Function.update r.store.view request.target t ∧ t.capacity = c ∧ t.WellFormed ∧
      ∀ n, t.get? n = TableHistory.valueOf n history := by
  cases request with
  | change i change =>
    have hp := TableChange.performs_program h.separate i change
    cases ha : change.apply (r.store.view i) with
    | error f =>
      rw [ha] at hp
      change InPlace.on _ _ = _ at hp
      refine ⟨r.store, r.table i, _, by rw [step, hp]; rfl, h.separate,
        (Function.update_eq_self i r.store.view).symm, h.capacity i, h.wellFormed i, ?_⟩
      exact h.recorded i
    | ok t =>
      rw [ha] at hp
      obtain ⟨w, hon, hw, hview⟩ := hp
      refine ⟨w, t, _, by rw [step, hon]; rfl, hw, hview, ?_,
        TableChange.wellFormed_of_apply (h.wellFormed i) ha, fun n => ?_⟩
      · rw [TableChange.capacity_of_apply ha]
        exact h.capacity i
      · rw [TableChange.get?_of_apply ha]
        exact congrArg _ (h.recorded i n)
  | copy i j =>
    obtain ⟨w, hon, hw, hview⟩ := h.separate.copy (h.wellFormed i) j
    refine ⟨w, _, _, by rw [step, hon]; rfl, hw, hview, h.capacity i, (h.wellFormed i).arranged,
      fun n => ?_⟩
    exact ((h.wellFormed i).get?_arranged n).trans (h.recorded i n)

theorem Sound.step (h : r.Sound c) (request : TableRequest) : (r.step request).Sound c := by
  obtain ⟨w, t, history, hstep, hw, hview, hc, ht, hget⟩ := h.step_cases request
  have htable (j : Nat) : (r.step request).table j =
      if j = request.target then t else r.table j := by
    rw [table, hstep, hview, Function.update_apply]
    rfl
  have hhistory (j : Nat) : (r.step request).histories j =
      if j = request.target then history else r.histories j := by
    rw [hstep]
    exact Function.update_apply r.histories _ history j
  refine ⟨hstep ▸ hw, fun j => ?_, fun j => ?_, fun j n => ?_⟩
  · rw [htable]
    split
    · exact hc
    · exact h.capacity j
  · rw [htable]
    split
    · exact ht
    · exact h.wellFormed j
  · rw [htable, hhistory]
    split
    · exact hget n
    · exact h.recorded j n

/-- A request keeps the tables that it does not address. -/
theorem Sound.table_step (h : r.Sound c) {request : TableRequest} (hi : request.target ≠ i) :
    (r.step request).table i = r.table i := by
  obtain ⟨w, t, history, hstep, -, hview, -⟩ := h.step_cases request
  rw [table, hstep, hview, Function.update_of_ne hi.symm]
  rfl

theorem Sound.foldl_step (h : r.Sound c) (requests : List TableRequest) :
    (requests.foldl TableRecord.step r).Sound c := by
  induction requests generalizing r with
  | nil => exact h
  | cons request requests ih => exact ih (h.step request)

theorem Sound.table_foldl_step (h : r.Sound c) {requests : List TableRequest}
    (hi : ∀ request ∈ requests, request.target ≠ i) :
    (requests.foldl TableRecord.step r).table i = r.table i := by
  induction requests generalizing r with
  | nil => rfl
  | cons request requests ih =>
    rw [List.forall_mem_cons] at hi
    rw [List.foldl_cons, ih (h.step request) hi.2, h.table_step hi.1]

end TableRecord

/-- What holds of a table in a store of tables of one capacity, whatever was done to them. -/
structure TableLaws (c : Int) (r : TableRecord) (i : Nat) : Prop where
  capacity : (r.table i).capacity = c
  wellFormed : (r.table i).WellFormed
  /-- A name has the number that was given to it last, unless it was taken out afterwards. -/
  recorded : ∀ n, (r.table i).get? n = (r.histories i).valueOf n
  /-- A change of the table in the store is the change of the table alone, and leaves the other
  tables as they are; where it fails, nothing is changed. -/
  changed : ∀ change : TableChange,
    Store.Performs (change.program i) r.store i (change.apply (r.table i))
  /-- A change keeps the values of all names but the one that it is about. -/
  kept : ∀ (change : TableChange) t' n, change.apply (r.table i) = .ok t' →
    change.effect n = none → t'.get? n = (r.table i).get? n
  /-- A variable that is there takes every finite number. -/
  overwritten : ∀ (n : String) v, (r.table i).contains n = true → v.isFinite = true →
    ∃ t', (r.table i).set (.text n) (.float v) = .ok t'
  /-- A new variable takes every finite number as long as the table is not full. -/
  introduced : ∀ (n : String) v, IsVariableName n → v.isFinite = true →
    (r.table i).contains n = false →
      if c ≤ (r.table i).size then
        (r.table i).set (.text n) (.float v) = refuse (.variableLimit c n)
      else ∃ t', (r.table i).set (.text n) (.float v) = .ok t'
  /-- A copy succeeds; it has the variables and the capacity of the table. -/
  copied : ∀ j, ∃ t', (r.table i).copy = .ok t' ∧ t'.items = (r.table i).items ∧ t'.capacity = c ∧
    Store.Performs (Store.copy i j) r.store j (.ok t')
  constant : ∀ n v span, constantValue? n = some v → (r.table i).resolve n span = .ok v

theorem TableRecord.Sound.tableLaws {c : Int} {r : TableRecord} (h : r.Sound c) (i : Nat) :
    TableLaws c r i where
  capacity := h.capacity i
  wellFormed := h.wellFormed i
  recorded := h.recorded i
  changed := TableChange.performs_program h.separate i
  kept change t' n ha he := by rw [TableChange.get?_of_apply ha, he, Option.getD_none]
  overwritten n v hn hv := by
    have hname : IsVariableName n := by
      obtain ⟨entry, hmem, rfl⟩ := List.mem_map.1 (SymbolTable.contains_iff.1 hn)
      exact (h.wellFormed i).admissible entry hmem
    exact ⟨_, (SymbolTable.set_of_number hname hv).trans (SymbolTable.put_eq_ok (.inl hn) v)⟩
  introduced n v hname hv hn := by
    have hroom : (r.table i).HasRoomFor n ↔ ¬c ≤ (r.table i).size :=
      h.capacity i ▸ SymbolTable.hasRoomFor_iff_of_new hn
    rw [SymbolTable.set_of_number hname hv]
    split
    · next hfull =>
      rw [SymbolTable.put_eq_error fun hr => hroom.1 hr hfull, h.capacity i]
    · next hfree => exact ⟨_, SymbolTable.put_eq_ok (hroom.2 hfree) v⟩
  copied j := ⟨_, (h.wellFormed i).copy_eq, (r.table i).items_arranged, h.capacity i,
    h.separate.copy (h.wellFormed i) j⟩
  constant n v span hn := by rw [SymbolTable.resolve, hn, Option.some_or]

/-- Whatever is done to tables of one capacity that are empty at first, failing changes and copies
included, every table is a bounded map of names to finite numbers that holds what its history says;
and later requests keep the tables that they do not address. -/
theorem tableLaws_after {c : Int} (hc : 0 ≤ c) (requests : List TableRequest) (i : Nat) :
    TableLaws c (.after c requests) i ∧
      ∀ more : List TableRequest, (∀ request ∈ more, request.target ≠ i) →
        (TableRecord.after c (requests ++ more)).table i =
          (TableRecord.after c requests).table i := by
  have hsound := (TableRecord.sound_start hc).foldl_step requests
  refine ⟨hsound.tableLaws i, fun more hmore => ?_⟩
  rw [TableRecord.after, List.foldl_append]
  exact hsound.table_foldl_step hmore

/-- A variable of a full table and its copy take different numbers. -/
theorem tableLaws_after_copy :
    let requests : List TableRequest := [.change 0 (.set (.text "x") (.float 1.5)), .copy 0 1,
      .change 0 (.set (.text "y") (.float 4.5)), .change 1 (.set (.text "x") (.float 2.5))]
    (0 : Int) ≤ 1 ∧ TableLaws 1 (.after 1 requests) 0 ∧ TableLaws 1 (.after 1 requests) 1 ∧
      ((TableRecord.after 1 requests).table 0).items = [("x", 1.5)] ∧
      ((TableRecord.after 1 requests).table 1).items = [("x", 2.5)] ∧
      ((TableRecord.after 1 (requests ++ [.change 1 .clear])).table 0).items = [("x", 1.5)] := by
  intro requests
  have hc : (0 : Int) ≤ 1 := by decide
  have hzero : ((TableRecord.after 1 requests).table 0).items = [("x", 1.5)] := by decide +kernel
  have hone : ((TableRecord.after 1 requests).table 1).items = [("x", 2.5)] := by decide +kernel
  obtain ⟨hlaws, hmore⟩ := tableLaws_after hc requests 0
  refine ⟨hc, hlaws, (tableLaws_after hc requests 1).1, hzero, hone, ?_⟩
  rw [hmore [.change 1 .clear] (by simp [TableRequest.target]), hzero]

end Calculator
