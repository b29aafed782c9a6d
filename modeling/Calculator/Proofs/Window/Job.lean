import Calculator.Proofs.Session.InPlace
import Calculator.Window.Job

/-!
# What becomes of a line

A line that is entered ends with a result, an error or a fault. A job delivers each of them, and
only a result changes the session. In a width that is null or a whole number every result can be
shown.
-/

namespace Calculator

/-- The value states a width: null stands for any width, a whole number for itself. -/
def Value.IsWidth : Value → Prop
  | .null | .int _ => True
  | _ => False

theorem exists_shorten {width : Value} (h : width.IsWidth) (text : String) :
    ∃ line, shorten width text = .ok line := by
  cases width with
  | null => exact ⟨text, rfl⟩
  | int n => exact ⟨shortenTo n text, rfl⟩
  | bool | float | text | list | dict => exact h.elim

theorem CalculationResult.exists_lines {width : Value} (h : width.IsWidth)
    (r : CalculationResult) : ∃ lines, r.lines width = .ok lines := by
  choose line hline using exists_shorten h
  refine ⟨(r.steps.map Step.line ++ r.droppedNote).map line, mapM_eq_ok_iff.2 ?_⟩
  rw [List.forall₂_map_right_iff, List.forall₂_same]
  exact fun text _ => hline text

def Session.Faults (s : Session) (line : String) (trace : Bool) (f : Fault) : Prop :=
  (s.enter line trace).value = .error (.fault f)

namespace Job

variable {j : Job} {s s' : Session} {entry : Entry}

theorem run_of_ok (h : (s.enter j.line j.traced).value = .ok (entry, s')) :
    (j.run s).value = (⟨.ok entry.result, j.line, entry.name⟩, s') := by
  simp only [run, Logged.map, h]

theorem run_of_error {e : MathError} (h : (s.enter j.line j.traced).value = .error (.error e)) :
    (j.run s).value = (⟨.error e, j.line, none⟩, s) := by
  simp only [run, Logged.map, h]

theorem run_of_fault {f : Fault} (h : s.Faults j.line j.traced f) :
    (j.run s).value = (⟨.error (f.report j.line), j.line, none⟩, s) := by
  simp only [run, Logged.map, show (s.enter j.line j.traced).value = .error (.fault f) from h]

theorem line_run (j : Job) (s : Session) : (j.run s).value.1.line = j.line := by
  rcases h : (s.enter j.line j.traced).value with (e | f) | ⟨entry, s'⟩
  · rw [run_of_error h]
  · rw [run_of_fault h]
  · rw [run_of_ok h]

def post (d : Delivery) : InPlace (Session × List Delivery) Unit :=
  modify fun (s, posted) => (s, posted ++ [d])

def attempt (j : Job) : InPlace (Session × List Delivery) Unit := do
  let (s, _) ← get
  let r ← .check (s.evaluate (splitAssignment j.line).2 j.traced).value
  match (splitAssignment j.line).1 with
  | none => pure ()
  | some name => .first (Session.writeVariable (.text name) (.float r.value))
  post ⟨.ok r, j.line, (splitAssignment j.line).1⟩

/-- The job in place. What stops the attempt is posted, an error as it is and a fault with a
report. -/
def program (j : Job) : InPlace (Session × List Delivery) Unit :=
  tryCatch j.attempt fun
    | .error e => post ⟨.error e, j.line, none⟩
    | .fault f => post ⟨.error (f.report j.line), j.line, none⟩

theorem on_attempt (j : Job) (s : Session) (posted : List Delivery) :
    InPlace.on j.attempt (s, posted) = match (s.enter j.line j.traced).value with
      | .ok (entry, s') => (.ok (), (s', posted ++ [⟨.ok entry.result, j.line, entry.name⟩]))
      | .error f => (.error f, (s, posted)) := by
  rw [Session.value_enter, attempt, InPlace.on_bind, InPlace.on_get]
  dsimp only
  rw [InPlace.on_bind, InPlace.on_check]
  cases (s.evaluate (splitAssignment j.line).2 j.traced).value with
  | error f => rfl
  | ok r =>
    cases (splitAssignment j.line).1 with
    | none => rfl
    | some name =>
      have hassign := s.performs_writeVariable (.text name) (.float r.value)
      unfold InPlace.Performs at hassign
      dsimp only
      rw [InPlace.on_bind, InPlace.on_first, hassign]
      simp only [bind, Except.bind, Option.elim_some]
      cases (s.setVariable (.text name) (.float r.value)).value <;> rfl

/-- A job posts exactly one delivery, whatever becomes of its line. -/
theorem on_program (j : Job) (s : Session) (posted : List Delivery) :
    InPlace.on j.program (s, posted) =
      (.ok (), ((j.run s).value.2, posted ++ [(j.run s).value.1])) := by
  rw [program, InPlace.on_tryCatch, on_attempt]
  rcases h : (s.enter j.line j.traced).value with (e | f) | ⟨entry, s'⟩
  · rw [run_of_error h]
    rfl
  · rw [run_of_fault h]
    rfl
  · rw [run_of_ok h]

end Job

end Calculator
