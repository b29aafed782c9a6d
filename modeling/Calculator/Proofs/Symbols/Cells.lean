import Calculator.Proofs.InPlace
import Calculator.Proofs.Symbols.Table

/-!
# Tables in place

Tables that are changed in place: the values of the variables are cells of a store that all tables
share, and an assignment to a variable that is there writes its cell. No cell belongs to two
variables, so the store does to the table that is changed what the table alone would do, and nothing
to the other tables.
-/

namespace Calculator

/-- A table whose variables are cells. -/
structure CellTable where
  capacity : Int
  slots : List (String × Nat)

/-- The cells of all variables, and the tables by their handles. -/
structure Store where
  cells : Nat → Float
  /-- The first cell that has not been given away. -/
  next : Nat
  tables : Nat → CellTable

namespace Store

/-- The table as it is read. -/
def view (w : Store) (i : Nat) : SymbolTable :=
  ⟨(w.tables i).capacity, (w.tables i).slots.map fun slot => (slot.1, w.cells slot.2)⟩

/-- Every variable has a cell of its own, which has been given away, and the names in a table are
different. -/
structure Separate (w : Store) : Prop where
  given : ∀ i, ∀ slot ∈ (w.tables i).slots, slot.2 < w.next
  own : ∀ i j, ∀ slot ∈ (w.tables i).slots, ∀ other ∈ (w.tables j).slots,
    slot.2 = other.2 → i = j ∧ slot.1 = other.1
  distinct : ∀ i, ((w.tables i).slots.map Prod.fst).Nodup

def start (capacity : Int) : Store := ⟨fun _ => 0.0, 0, fun _ => ⟨capacity, []⟩⟩

def write (w : Store) (cell : Nat) (v : Float) : Store :=
  { w with cells := Function.update w.cells cell v }

def withSlots (w : Store) (i : Nat) (slots : List (String × Nat)) : Store :=
  { w with tables := Function.update w.tables i { w.tables i with slots := slots } }

def give (w : Store) (i : Nat) (name : String) (v : Float) : Store :=
  { (w.withSlots i ((w.tables i).slots ++ [(name, w.next)])).write w.next v with
    next := w.next + 1 }

def withEmpty (w : Store) (i : Nat) (capacity : Int) : Store :=
  { w with tables := Function.update w.tables i ⟨capacity, []⟩ }

/-- Writes the cell of a variable. A new variable needs room. -/
def put (i : Nat) (name : String) (v : Float) : InPlace Store Unit := do
  let w ← get
  match (w.tables i).slots.lookup name with
  | some cell => modify (·.write cell v)
  | none =>
    if (w.tables i).capacity ≤ (w.tables i).slots.length then
      .check (refuse (.variableLimit (w.tables i).capacity name))
    else modify (·.give i name v)

def assign (i : Nat) (name value : Value) : InPlace Store Unit := do
  let n ← .check (SymbolTable.nameOf name)
  let v ← .check (SymbolTable.numberOf n value)
  put i n v

def unset (i : Nat) (name : String) : InPlace Store Unit :=
  modify fun w => w.withSlots i ((w.tables i).slots.filter (·.1 != name))

def clear (i : Nat) : InPlace Store Unit := modify (·.withSlots i [])

/-- Makes a table under the handle `j` and sets the variables of the table `i` into it. -/
def copy (i j : Nat) : InPlace Store Unit := do
  let w ← get
  modify (·.withEmpty j (w.tables i).capacity)
  forM (w.view i).items fun item => assign j (.text item.1) (.float item.2)

variable {w : Store} {i j : Nat} {n : String} {v : Float} {cell : Nat}

theorem lookup_map_snd (slots : List (String × Nat)) (f : Nat → Float) (n : String) :
    (slots.map fun slot => (slot.1, f slot.2)).lookup n = (slots.lookup n).map f := by
  induction slots with
  | nil => rfl
  | cons slot slots ih =>
    rw [List.map_cons, List.lookup_cons, List.lookup_cons, ih]
    split <;> rfl

theorem get?_view (w : Store) (i : Nat) (n : String) :
    (w.view i).get? n = ((w.tables i).slots.lookup n).map w.cells :=
  lookup_map_snd _ _ n

theorem keys_view (w : Store) (i : Nat) :
    (w.view i).entries.map Prod.fst = (w.tables i).slots.map Prod.fst := by
  rw [view, List.map_map]
  rfl

theorem mem_slots_of_lookup {slots : List (String × Nat)} (h : slots.lookup n = some cell) :
    (n, cell) ∈ slots := by
  obtain ⟨front, back, rfl, -⟩ := List.lookup_eq_some_iff.1 h
  exact List.mem_append_right front List.mem_cons_self

/-- A table reads the same as long as its cells hold the same. -/
theorem view_congr {w' : Store} (ht : w'.tables i = w.tables i)
    (hc : ∀ slot ∈ (w.tables i).slots, w'.cells slot.2 = w.cells slot.2) :
    w'.view i = w.view i := by
  rw [view, view, ht]
  congr 1
  exact List.map_congr_left fun slot hmem => by rw [hc slot hmem]

theorem map_update_eq_putEntry {slots : List (String × Nat)} {f : Nat → Float}
    (hd : (slots.map Prod.fst).Nodup) (hc : slots.lookup n = some cell)
    (ho : ∀ slot ∈ slots, slot.2 = cell → slot.1 = n) (v : Float) :
    (slots.map fun slot => (slot.1, Function.update f cell v slot.2)) =
      putEntry n v (slots.map fun slot => (slot.1, f slot.2)) := by
  induction slots with
  | nil => cases hc
  | cons slot slots ih =>
    obtain ⟨m, other⟩ := slot
    obtain ⟨hnew, hd⟩ := List.nodup_cons.1 hd
    by_cases hm : m = n
    · subst hm
      obtain rfl : other = cell := by simpa using hc
      have hrest : ∀ slot ∈ slots, (slot.1, Function.update f other v slot.2) =
          (slot.1, f slot.2) := by
        intro slot hmem
        have hne : slot.2 ≠ other := fun heq =>
          hnew (ho slot (List.mem_cons_of_mem _ hmem) heq ▸ List.mem_map.2 ⟨slot, hmem, rfl⟩)
        rw [Function.update_of_ne hne]
      rw [List.map_cons, List.map_cons, putEntry, if_pos rfl, Function.update_self,
        List.map_congr_left hrest]
    · have hne : other ≠ cell := fun heq => hm (ho _ List.mem_cons_self heq)
      have hc' : slots.lookup n = some cell := by
        rwa [List.lookup_cons, beq_false_of_ne (Ne.symm hm)] at hc
      rw [List.map_cons, List.map_cons, putEntry, if_neg hm, Function.update_of_ne hne,
        ih hd hc' fun slot hmem => ho slot (List.mem_cons_of_mem _ hmem)]

theorem view_write (h : w.Separate) (hc : (w.tables i).slots.lookup n = some cell) (v : Float) :
    (w.write cell v).view = Function.update w.view i ((w.view i).stored n v) := by
  have hmem := mem_slots_of_lookup hc
  funext j
  by_cases hj : j = i
  · subst hj
    rw [Function.update_self, SymbolTable.stored]
    refine congrArg (SymbolTable.mk _) (map_update_eq_putEntry (h.distinct j) hc ?_ v)
    exact fun slot hslot heq => (h.own j j slot hslot _ hmem heq).2
  · rw [Function.update_of_ne hj]
    refine view_congr rfl fun slot hslot => Function.update_of_ne (fun heq => ?_) _ _
    exact hj (h.own j i slot hslot _ hmem heq).1

theorem slots_withSlots (w : Store) (i j : Nat) (slots : List (String × Nat)) :
    ((w.withSlots i slots).tables j).slots = if j = i then slots else (w.tables j).slots := by
  simp only [withSlots, Function.update_apply]
  split <;> rfl

theorem slots_give (w : Store) (i j : Nat) (n : String) (v : Float) :
    ((w.give i n v).tables j).slots =
      if j = i then (w.tables i).slots ++ [(n, w.next)] else (w.tables j).slots :=
  slots_withSlots w i j _

theorem view_give (h : w.Separate) (hn : n ∉ (w.tables i).slots.map Prod.fst) (v : Float) :
    (w.give i n v).view = Function.update w.view i ((w.view i).stored n v) := by
  funext j
  have hold : ∀ slot ∈ (w.tables j).slots, (w.give i n v).cells slot.2 = w.cells slot.2 :=
    fun slot hslot => Function.update_of_ne (h.given j slot hslot).ne _ _
  have hcells : ∀ slot ∈ (w.tables j).slots,
      (slot.1, (w.give i n v).cells slot.2) = (slot.1, w.cells slot.2) :=
    fun slot hslot => by rw [hold slot hslot]
  by_cases hj : j = i
  · subst hj
    rw [← keys_view] at hn
    rw [Function.update_self, SymbolTable.stored, putEntry_of_notMem hn, view]
    simp only [slots_give, if_true, List.map_append, List.map_congr_left hcells]
    simp [give, withSlots, Store.write, view]
  · rw [Function.update_of_ne hj]
    exact view_congr (Function.update_of_ne hj _ _) hold

theorem separate_start (capacity : Int) : (start capacity).Separate :=
  ⟨nofun, nofun, fun _ => List.nodup_nil⟩

theorem Separate.of_sublist {w' : Store} (h : w.Separate) (hnext : w'.next = w.next)
    (hs : ∀ i, (w'.tables i).slots.Sublist (w.tables i).slots) : w'.Separate where
  given i slot hslot := hnext ▸ h.given i slot ((hs i).mem hslot)
  own i j slot hslot other hother := h.own i j slot ((hs i).mem hslot) other ((hs j).mem hother)
  distinct i := (h.distinct i).sublist ((hs i).map Prod.fst)

theorem Separate.write (h : w.Separate) (cell : Nat) (v : Float) : (w.write cell v).Separate :=
  h.of_sublist rfl fun _ => List.Sublist.refl _

theorem Separate.withSlots (h : w.Separate) {slots : List (String × Nat)}
    (hs : slots.Sublist (w.tables i).slots) : (w.withSlots i slots).Separate := by
  refine h.of_sublist rfl fun j => ?_
  rw [slots_withSlots]
  split
  · next hj => exact hj ▸ hs
  · exact List.Sublist.refl _

theorem Separate.give (h : w.Separate) (hn : n ∉ (w.tables i).slots.map Prod.fst) (v : Float) :
    (w.give i n v).Separate := by
  have hslot : ∀ j, ∀ slot ∈ ((w.give i n v).tables j).slots,
      slot ∈ (w.tables j).slots ∨ j = i ∧ slot = (n, w.next) := by
    intro j slot hslot
    rw [slots_give] at hslot
    split at hslot
    · next hj =>
      subst hj
      exact (List.mem_append.1 hslot).imp_right fun hlast => ⟨rfl, List.mem_singleton.1 hlast⟩
    · exact .inl hslot
  refine ⟨fun j slot hmem => ?_, fun j k slot hmem other hother heq => ?_, fun j => ?_⟩
  · rcases hslot j slot hmem with hold | ⟨-, rfl⟩
    · exact Nat.lt_succ_of_lt (h.given j slot hold)
    · exact Nat.lt_succ_self w.next
  · rcases hslot j slot hmem with hold | ⟨rfl, rfl⟩ <;>
      rcases hslot k other hother with hold' | ⟨rfl, rfl⟩
    · exact h.own j k slot hold other hold' heq
    · exact absurd heq (h.given j slot hold).ne
    · exact absurd heq.symm (h.given k other hold').ne
    · exact ⟨rfl, rfl⟩
  · rw [slots_give]
    split
    · next hj =>
      rw [List.map_append]
      exact List.concat_eq_append ▸ (h.distinct i).concat hn
    · exact h.distinct j

/-- The program does to the table what the step says, and nothing to the others; where the step
fails, nothing is written at all. -/
def Performs (p : InPlace Store Unit) (w : Store) (i : Nat)
    (step : Except Failure SymbolTable) : Prop :=
  match step with
  | .ok t =>
    ∃ w', InPlace.on p w = (.ok (), w') ∧ w'.Separate ∧ w'.view = Function.update w.view i t
  | .error f => InPlace.on p w = (.error f, w)

theorem contains_view (w : Store) (i : Nat) (n : String) :
    (w.view i).contains n = ((w.tables i).slots.lookup n).isSome := by
  rw [SymbolTable.contains, get?_view, Option.isSome_map]

theorem size_view (w : Store) (i : Nat) : (w.view i).size = (w.tables i).slots.length :=
  List.length_map _

theorem Performs.check {α : Type} {x : Except Failure α} {next : α → InPlace Store Unit}
    {step : α → Except Failure SymbolTable} (h : ∀ a, Performs (next a) w i (step a)) :
    Performs (InPlace.check x >>= next) w i (x >>= step) := by
  cases x with
  | error f => exact InPlace.on_bind _ _ _
  | ok a => exact h a

theorem Separate.put (h : w.Separate) (i : Nat) (n : String) (v : Float) :
    Performs (put i n v) w i ((w.view i).put n v) := by
  cases hslot : (w.tables i).slots.lookup n with
  | some cell =>
    have hon : InPlace.on (Store.put i n v) w = (.ok (), w.write cell v) := by
      simp [Store.put, InPlace.on_bind, hslot]
    have hroom : (w.view i).HasRoomFor n := .inl (by rw [contains_view, hslot, Option.isSome_some])
    rw [SymbolTable.put_eq_ok hroom]
    exact ⟨_, hon, h.write cell v, view_write h hslot v⟩
  | none =>
    have hnew : (w.view i).contains n = false := by rw [contains_view, hslot, Option.isSome_none]
    have hroom : (w.view i).HasRoomFor n ↔
        ¬(w.tables i).capacity ≤ (w.tables i).slots.length := by
      rw [← size_view]
      exact SymbolTable.hasRoomFor_iff_of_new hnew
    by_cases hfull : (w.tables i).capacity ≤ (w.tables i).slots.length
    · have hon : InPlace.on (Store.put i n v) w =
          (refuse (.variableLimit (w.tables i).capacity n), w) := by
        simp [Store.put, InPlace.on_bind, hslot, hfull]
      rw [SymbolTable.put_eq_error fun h => hroom.1 h hfull]
      exact hon
    · have hon : InPlace.on (Store.put i n v) w = (.ok (), w.give i n v) := by
        simp [Store.put, InPlace.on_bind, hslot, hfull]
      have hn : n ∉ (w.tables i).slots.map Prod.fst := by
        rw [← keys_view, ← SymbolTable.contains_iff, hnew]
        exact Bool.false_ne_true
      rw [SymbolTable.put_eq_ok (hroom.2 hfull)]
      exact ⟨_, hon, h.give hn v, view_give h hn v⟩

theorem Separate.assign (h : w.Separate) (i : Nat) (name value : Value) :
    Performs (assign i name value) w i ((w.view i).set name value) :=
  .check fun n => .check fun v => h.put i n v

theorem view_withSlots (w : Store) (i : Nat) (slots : List (String × Nat)) :
    (w.withSlots i slots).view = Function.update w.view i
      ⟨(w.tables i).capacity, slots.map fun slot => (slot.1, w.cells slot.2)⟩ := by
  funext j
  by_cases hj : j = i
  · subst hj
    simp [view, withSlots]
  · rw [Function.update_of_ne hj]
    exact view_congr (Function.update_of_ne hj _ _) fun _ _ => rfl

theorem Separate.unset (h : w.Separate) (i : Nat) (n : String) :
    Performs (unset i n) w i (.ok ((w.view i).erase n)) := by
  refine ⟨_, rfl, h.withSlots List.filter_sublist, ?_⟩
  rw [view_withSlots, SymbolTable.erase, view, List.filter_map]
  rfl

theorem Separate.clear (h : w.Separate) (i : Nat) :
    Performs (clear i) w i (.ok (w.view i).clear) :=
  ⟨_, rfl, h.withSlots (List.nil_sublist _), view_withSlots w i []⟩

theorem Separate.withEmpty (h : w.Separate) (i : Nat) (capacity : Int) :
    (w.withEmpty i capacity).Separate := by
  refine h.of_sublist rfl fun j => ?_
  by_cases hj : j = i
  · subst hj
    simp [Store.withEmpty]
  · simp [Store.withEmpty, hj]

theorem view_withEmpty (w : Store) (i : Nat) (capacity : Int) :
    (w.withEmpty i capacity).view = Function.update w.view i (.empty capacity) := by
  funext j
  by_cases hj : j = i
  · subst hj
    simp [view, Store.withEmpty, SymbolTable.empty]
  · rw [Function.update_of_ne hj]
    exact view_congr (Function.update_of_ne hj _ _) fun _ _ => rfl

theorem Performs.andThen {p q : InPlace Store Unit} {t t' : SymbolTable}
    (hp : Performs p w i (.ok t))
    (hq : ∀ w', w'.Separate → w'.view i = t → Performs q w' i (.ok t')) :
    Performs (p >>= fun _ => q) w i (.ok t') := by
  obtain ⟨w', hon, h', hview⟩ := hp
  have ht : w'.view i = t := by rw [hview, Function.update_self]
  obtain ⟨w'', hon', h'', hview'⟩ := hq w' h' ht
  refine ⟨w'', ?_, h'', ?_⟩
  · rw [InPlace.on_bind, hon, ← hon']
  · rw [hview', hview, Function.update_idem]

/-- Variables that can be set into a table one after the other are set in place. -/
theorem Separate.forM_assign {items : List (String × Float)} {t : SymbolTable} (h : w.Separate)
    (hset : items.foldlM (fun clone item => clone.set (.text item.1) (.float item.2))
      (w.view i) = .ok t) :
    Performs (forM items fun item => Store.assign i (.text item.1) (.float item.2)) w i
      (.ok t) := by
  induction items generalizing w with
  | nil =>
    cases hset
    exact ⟨w, rfl, h, (Function.update_eq_self i w.view).symm⟩
  | cons item items ih =>
    obtain ⟨t₁, hfirst, hrest⟩ := bind_eq_ok_iff.1 hset
    have hassign := h.assign i (.text item.1) (.float item.2)
    rw [show (w.view i).set _ _ = .ok t₁ from hfirst] at hassign
    rw [List.forM_cons]
    exact hassign.andThen fun w' h' ht => ih h' (ht ▸ hrest)

/-- A copy in place has the variables of the table in the order of their names. -/
theorem Separate.copy (h : w.Separate) (hw : (w.view i).WellFormed) (j : Nat) :
    Performs (copy i j) w j (.ok (w.view i).arranged) := by
  have hempty : Performs (modify (·.withEmpty j (w.tables i).capacity)) w j
      (.ok (.empty (w.tables i).capacity)) :=
    ⟨_, rfl, h.withEmpty j _, view_withEmpty w j _⟩
  have hall : Performs (modify (·.withEmpty j (w.tables i).capacity) >>= fun _ =>
      forM (w.view i).items fun item => Store.assign j (.text item.1) (.float item.2)) w j
      (.ok (w.view i).arranged) :=
    hempty.andThen fun w' h' ht => h'.forM_assign (ht ▸ hw.copy_eq)
  exact hall

end Store

end Calculator
