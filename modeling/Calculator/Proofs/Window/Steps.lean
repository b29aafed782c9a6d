import Calculator.Proofs.Window.Settings

/-!
# One calculation at a time

What happens at the window is a sequence of steps: lines are started, jobs work, what they deliver
is shown, the display is cleared, results are copied and settings are saved. In every order of them
at most one job is on its way, the window is busy exactly while one is, and each job that is started
is delivered once. What is shown is the last result in the width that was in force when it came, or
nothing since the display was cleared.
-/

namespace Calculator

/-- What happens at the window. -/
inductive WindowStep where
  /-- A text is entered and started. -/
  | start (text : String)
  /-- A job does its work. -/
  | work
  /-- What was delivered first is taken. -/
  | deliver
  | clear
  | copy
  /-- The settings dialog is opened and used. -/
  | settings (acts : List DialogAct)
  /-- Another program changes the configuration file. -/
  | replace (file : ConfigFile)

/-- The dialog has fields for what is done in it, and the width in a new file is a width. -/
def WindowStep.IsAllowed (limit : Nat) : WindowStep → Prop
  | settings acts => ∀ act ∈ acts, act.IsOffered
  | replace file => file.HasWidth limit
  | start _ | work | deliver | clear | copy => True

/-- A result on the display, and the width of its steps. -/
structure Showing where
  result : CalculationResult
  name : Option String
  width : Value

def Showing.display (x : Showing) : String :=
  x.name.elim x.result.formatted fun n => s!"{n} = {x.result.formatted}"

/-- What a delivery brings to the display, if it is no error. -/
def Delivery.showing? (d : Delivery) (width : Value) : Option Showing :=
  match d.outcome with
  | .ok r => some ⟨r, d.name, width⟩
  | .error _ => none

namespace Window

section

variable (fields : DialogFields) (limit : Nat)

def react (w : Window) : WindowStep → Reaction
  | .start text => (w.type text).start
  | .work => { window := w.work }
  | .deliver => w.deliver
  | .clear => { window := w.clear }
  | .copy => w.copyResult
  | .settings acts => w.openSettings fields limit acts
  | .replace file => { window := { w with file } }

def after (w : Window) (steps : List WindowStep) : Window :=
  steps.foldl (fun w step => (w.react fields limit step).window) w

/-- What comes of one step after the other. -/
def collect {α : Type} (of : Window → WindowStep → List α) (w : Window) : List WindowStep → List α
  | [] => []
  | step :: steps => of w step ++ collect of (w.react fields limit step).window steps

end

/-- The jobs that a step starts: a line that is not blank, unless the window is busy. -/
def started (w : Window) : WindowStep → List Job
  | .start text =>
    if Text.trim text = "" ∨ w.busy = true then []
    else [⟨Text.trim text, (w.setting "show_steps").isSet⟩]
  | _ => []

def received (w : Window) : WindowStep → List Delivery
  | .deliver => w.posted.take 1
  | _ => []

/-- What a step puts on the display: a result, or nothing in place of what was there. -/
def shown (w : Window) : WindowStep → List (Option Showing)
  | .deliver => ((w.posted.take 1).filterMap (·.showing? (w.setting "display_width"))).map some
  | .clear => [none]
  | _ => []

/-- The lines that have been started and are not shown yet. -/
def awaited (w : Window) : List String := w.posted.map (·.line) ++ w.running.map (·.line)

/-- Exactly one job is on its way while the window is busy, and none otherwise. -/
def IsOrderly (w : Window) : Prop := w.running.length + w.posted.length = w.busy.toNat

/-- The display shows the last result with its steps, or nothing. -/
def Presents (w : Window) : Option Showing → Prop
  | none => w.display = blankDisplay ∧ w.steps = []
  | some x => w.lastResult = some x.result ∧ w.display = x.display ∧
      x.result.lines x.width = .ok w.steps

/-- How a step changes the work of the window, with the jobs that it starts, the deliveries that it
takes and what it puts on the display. -/
inductive Changes (limit : Nat) (w w' : Window) :
    List Job → List Delivery → List (Option Showing) → Prop where
  | nothing : w.SameWork w' → w'.Settled limit → Changes limit w w' [] [] []
  | start {entry : String} {job : Job} : w.busy = false →
      w' = { w with entry, busy := true, running := w.running ++ [job] } →
      Changes limit w w' [job] [] []
  | work {job : Job} {jobs : List Job} : w.running = job :: jobs →
      w' = { w with
        session := (job.run w.session).value.2
        running := jobs
        posted := w.posted ++ [(job.run w.session).value.1] } → Changes limit w w' [] [] []
  | error {d : Delivery} {ds : List Delivery} : w.posted = d :: ds →
      w' = { w with busy := false, posted := ds } → Changes limit w w' [] [d] []
  | result {d : Delivery} {ds : List Delivery} {x : Showing} {lines : List String} :
      w.posted = d :: ds → x.result.lines x.width = .ok lines →
      w' = { w with
        busy := false
        posted := ds
        lastResult := some x.result
        display := x.display
        steps := lines } → Changes limit w w' [] [d] [some x]
  | clear : w' = w.clear → Changes limit w w' [] [] [none]

variable {fields : DialogFields} {limit : Nat} {w : Window} {step : WindowStep}
  {steps : List WindowStep}

theorem start_of_blank {text : String} (h : Text.trim text = "") :
    (w.type text).start = { window := w.type text } := if_pos h

theorem start_of_busy {text : String} (h : Text.trim text ≠ "") (hw : w.busy = true) :
    (w.type text).start = { window := w.type text, notices := [busyNotice] } :=
  (if_neg h).trans (if_pos hw)

theorem start_of_idle {text : String} (h : Text.trim text ≠ "") (hw : w.busy = false) :
    (w.type text).start =
      { window := { w.type text with
          busy := true
          running := w.running ++ [⟨Text.trim text, (w.setting "show_steps").isSet⟩] } } :=
  (if_neg h).trans (if_neg (by simp [type, hw]))

theorem busy_start {text : String} (h : Text.trim text ≠ "") :
    (w.react fields limit (.start text)).window.busy = true := by
  cases hw : w.busy with
  | true =>
    rw [react, start_of_busy h hw]
    exact hw
  | false => rw [react, start_of_idle h hw]

theorem busy_after_start (fields : DialogFields) (limit : Nat) (text : String)
    (h : Text.trim text ≠ "") (w : Window) (steps : List WindowStep) :
    (w.after fields limit (steps ++ [.start text])).busy = true := by
  rw [after, List.foldl_append]
  exact busy_start h

theorem deliver_of_error {d : Delivery} {ds : List Delivery} {e : MathError}
    (h : w.posted = d :: ds) (hd : d.outcome = .error e) :
    w.deliver = { window := { w with busy := false, posted := ds }, notices := [e.notice] } := by
  simp only [deliver, h, receive, hd]

theorem deliver_of_result {d : Delivery} {ds : List Delivery} {r : CalculationResult}
    {lines : List String} (h : w.posted = d :: ds) (hd : d.outcome = .ok r)
    (hlines : r.lines (w.setting "display_width") = .ok lines) :
    w.deliver =
      { window := { w with
          busy := false
          posted := ds
          lastResult := some r
          display := (Showing.mk r d.name (w.setting "display_width")).display
          steps := lines } } := by
  simp only [deliver, h, receive, hd, showResult]
  split
  · next lines' hlines' =>
    cases hlines.symm.trans hlines'
    rfl
  · next f hfault => cases hlines.symm.trans hfault

/-- Every step does one of these. -/
theorem changes_react (fields : DialogFields) (hw : w.Settled limit)
    (hstep : step.IsAllowed limit) :
    Changes limit w (w.react fields limit step).window (w.started step) (w.received step)
      (w.shown step) := by
  cases step with
  | start text =>
    by_cases htext : Text.trim text = ""
    · rw [react, start_of_blank htext, started, if_pos (.inl htext)]
      exact .nothing ⟨rfl, rfl, rfl, rfl, rfl, rfl⟩ ⟨hw.file, hw.width⟩
    · cases hbusy : w.busy with
      | true =>
        rw [react, start_of_busy htext hbusy, started, if_pos (.inr hbusy)]
        exact .nothing ⟨rfl, rfl, rfl, rfl, rfl, rfl⟩ ⟨hw.file, hw.width⟩
      | false =>
        rw [react, start_of_idle htext hbusy, started, if_neg (by simp [htext, hbusy])]
        exact .start hbusy rfl
  | work =>
    cases hrunning : w.running with
    | nil =>
      have hwork : w.work = w := by simp only [Window.work, hrunning]
      rw [react, hwork]
      exact .nothing (.refl w) hw
    | cons job jobs =>
      refine .work hrunning ?_
      simp only [react, Window.work, hrunning]
  | deliver =>
    cases hposted : w.posted with
    | nil =>
      have hdeliver : w.deliver = { window := w } := by simp only [Window.deliver, hposted]
      rw [react, hdeliver, received, shown, hposted]
      exact .nothing (.refl w) hw
    | cons d ds =>
      cases hd : d.outcome with
      | error e =>
        rw [react, deliver_of_error hposted hd, received, shown, hposted]
        simp only [List.take_succ_cons, List.take_zero, List.filterMap_cons, Delivery.showing?, hd]
        exact .error hposted rfl
      | ok r =>
        obtain ⟨lines, hlines⟩ := r.exists_lines hw.width
        rw [react, deliver_of_result hposted hd hlines, received, shown, hposted]
        simp only [List.take_succ_cons, List.take_zero, List.filterMap_cons, Delivery.showing?, hd]
        exact .result hposted (x := ⟨r, d.name, w.setting "display_width"⟩) hlines rfl
  | clear => exact .clear rfl
  | copy => exact .nothing (.refl w) hw
  | settings acts =>
    obtain ⟨hsame, hsettled⟩ := hw.openSettings fields hstep
    exact .nothing hsame hsettled
  | replace file => exact .nothing ⟨rfl, rfl, rfl, rfl, rfl, rfl⟩ ⟨hstep, hw.width⟩

namespace Changes

variable {w' : Window} {jobs : List Job} {deliveries : List Delivery}
  {showings : List (Option Showing)}

theorem settled (h : Changes limit w w' jobs deliveries showings) (hw : w.Settled limit) :
    w'.Settled limit := by
  cases h with
  | nothing _ h => exact h
  | start _ h | work _ h | error _ h | result _ _ h | clear h =>
    subst h
    exact ⟨hw.file, hw.width⟩

theorem isOrderly (h : Changes limit w w' jobs deliveries showings) (hw : w.IsOrderly) :
    w'.IsOrderly := by
  unfold IsOrderly at hw ⊢
  cases h with
  | nothing h => rwa [h.running, h.posted, h.busy]
  | start hidle h =>
    subst h
    rw [hidle, Bool.toNat_false] at hw
    simp only [List.length_append, List.length_singleton, Bool.toNat_true]
    omega
  | work hrunning h =>
    subst h
    rw [hrunning, List.length_cons] at hw
    simp only [List.length_append, List.length_singleton]
    omega
  | error hposted h | result hposted _ h =>
    subst h
    -- Something was posted, so it was all that was on its way.
    have hone := Bool.toNat_le w.busy
    rw [hposted, List.length_cons] at hw
    simp only [Bool.toNat_false]
    omega
  | clear h =>
    subst h
    exact hw

/-- No line is lost, and none is delivered twice. -/
theorem lines (h : Changes limit w w' jobs deliveries showings) :
    deliveries.map (·.line) ++ w'.awaited = w.awaited ++ jobs.map (·.line) := by
  unfold awaited
  cases h with
  | nothing h => simp [h.running, h.posted]
  | start _ h =>
    subst h
    simp
  | work hrunning h =>
    subst h
    simp [hrunning, Job.line_run]
  | error hposted h | result hposted _ h =>
    subst h
    simp [hposted]
  | clear h =>
    subst h
    simp [Window.clear]

/-- What is put on the display replaces what was there. -/
theorem presents (h : Changes limit w w' jobs deliveries showings) {last : Option Showing}
    (hw : w.Presents last) : w'.Presents (showings.getLast?.getD last) := by
  cases h with
  | nothing h =>
    cases last with
    | none => exact ⟨h.display.trans hw.1, h.steps.trans hw.2⟩
    | some x =>
      refine ⟨h.lastResult.trans hw.1, h.display.trans hw.2.1, ?_⟩
      rw [h.steps]
      exact hw.2.2
  | start _ h | work _ h | error _ h =>
    subst h
    cases last <;> exact hw
  | result _ hlines h =>
    subst h
    exact ⟨rfl, rfl, hlines⟩
  | clear h =>
    subst h
    exact ⟨rfl, rfl⟩

theorem lastResult (h : Changes limit w w' jobs deliveries showings) :
    w'.lastResult = (showings.reduceOption.getLast?.map (·.result)).or w.lastResult := by
  cases h with
  | nothing h => exact h.lastResult
  | start _ h | work _ h | error _ h | result _ _ h | clear h =>
    subst h
    rfl

end Changes

theorem after_cons (w : Window) (step : WindowStep) (steps : List WindowStep) :
    w.after fields limit (step :: steps) =
      (w.react fields limit step).window.after fields limit steps := rfl

/-- What the steps of a run change adds up, since each of them leaves a width in force. -/
theorem changes_after (fields : DialogFields) (hw : w.Settled limit)
    (hsteps : ∀ step ∈ steps, step.IsAllowed limit) :
    let w' := w.after fields limit steps
    let shows := w.collect fields limit shown steps
    (w.IsOrderly → w'.IsOrderly) ∧
    (w.collect fields limit received steps).map (·.line) ++ w'.awaited =
      w.awaited ++ (w.collect fields limit started steps).map (·.line) ∧
    (∀ last, w.Presents last → w'.Presents (shows.getLast?.getD last)) ∧
    w'.lastResult = (shows.reduceOption.getLast?.map (·.result)).or w.lastResult := by
  -- The width in force is what carries the induction: without it a result might not be shown.
  induction steps generalizing w with
  | nil => exact ⟨id, (List.append_nil _).symm, fun _ => id, rfl⟩
  | cons step steps ih =>
    rw [List.forall_mem_cons] at hsteps
    have hchanges := changes_react fields hw hsteps.1
    obtain ⟨horderly, hlines, hpresents, hlast⟩ := ih (hchanges.settled hw) hsteps.2
    simp only [after_cons, collect]
    refine ⟨fun h => horderly (hchanges.isOrderly h), ?_, fun last h => ?_, ?_⟩
    · rw [List.map_append, List.map_append, List.append_assoc, hlines, ← List.append_assoc,
        hchanges.lines, List.append_assoc]
    · rw [List.getLast?_append, Option.getD_or]
      exact hpresents _ (hchanges.presents h)
    · rw [hlast, hchanges.lastResult, List.reduceOption_append, List.getLast?_append,
        Option.map_or, Option.or_assoc]

namespace IsOrderly

theorem busy_iff (h : w.IsOrderly) : w.running.length + w.posted.length ≤ 1 ∧
    (w.busy = true ↔ w.running.length + w.posted.length = 1) := by
  rw [IsOrderly] at h
  rw [h]
  cases w.busy <;> decide

theorem of_running (h : w.IsOrderly) {job : Job} (hjob : job ∈ w.running) :
    w.running = [job] ∧ w.posted = [] := by
  obtain ⟨hle, -⟩ := h.busy_iff
  have hpos := List.length_pos_of_mem hjob
  obtain ⟨j, hj⟩ := List.length_eq_one_iff.1 (by omega : w.running.length = 1)
  rw [hj, List.mem_singleton] at hjob
  exact ⟨hjob ▸ hj, List.length_eq_zero_iff.1 (by omega)⟩

theorem of_posted (h : w.IsOrderly) {d : Delivery} (hd : d ∈ w.posted) : w.posted = [d] := by
  obtain ⟨hle, -⟩ := h.busy_iff
  have hpos := List.length_pos_of_mem hd
  obtain ⟨d', hd'⟩ := List.length_eq_one_iff.1 (by omega : w.posted.length = 1)
  rw [hd', List.mem_singleton] at hd
  exact hd ▸ hd'

end IsOrderly

/-- A job at work does in place what the window takes over from it. -/
theorem on_program_work {job : Job} (h : w.running = [job]) :
    InPlace.on job.program (w.session, w.posted) = (.ok (), (w.work.session, w.work.posted)) := by
  simp only [work, h, Job.on_program]

variable {file : ConfigFile}

theorem settled_opened (hfile : file.HasWidth limit) (session : Session) :
    (opened file limit session).window.Settled limit := settled_reload hfile trivial

/-- In every order of steps, from the window as it opens: at most one job is on its way, and the
window is busy exactly while one is. The lines that were started are those of the deliveries that
were taken and of the one on its way. A job at work posts one delivery, whatever becomes of its
line. A line that is started meanwhile is only answered with a notice, and a blank one with nothing.
The display shows the last result in the width that was in force when it was delivered, or nothing
since it was cleared; an error leaves it as it is. -/
theorem one_calculation_at_a_time (fields : DialogFields) (hfile : file.HasWidth limit)
    (session : Session) (hsteps : ∀ step ∈ steps, step.IsAllowed limit) :
    let start := (opened file limit session).window
    let w := start.after fields limit steps
    (w.running.length + w.posted.length ≤ 1 ∧
      (w.busy = true ↔ w.running.length + w.posted.length = 1)) ∧
    (start.collect fields limit started steps).map (·.line) =
      (start.collect fields limit received steps).map (·.line) ++
        (w.posted.map (·.line) ++ w.running.map (·.line)) ∧
    (∀ job ∈ w.running, w.running = [job] ∧
      InPlace.on job.program (w.session, w.posted) = (.ok (), (w.work.session, w.work.posted)) ∧
      w.work.posted.length = 1 ∧ w.work.running = []) ∧
    (∀ text,
      (Text.trim text = "" → w.react fields limit (.start text) = { window := w.type text }) ∧
      (Text.trim text ≠ "" → w.busy = true → w.react fields limit (.start text) =
        { window := w.type text, notices := [busyNotice] })) ∧
    w.Presents ((start.collect fields limit shown steps).getLast?.getD none) ∧
    w.lastResult =
      (start.collect fields limit shown steps).reduceOption.getLast?.map (·.result) ∧
    ∀ d ∈ w.posted, ∀ e, d.outcome = .error e → w.react fields limit .deliver =
      { window := { w with busy := false, posted := [] }, notices := [e.notice] } := by
  intro start w
  have hopened : start.Settled limit := settled_opened hfile session
  have hsame : SameWork { file, session, settings := defaultSettings } start := sameWork_reload _ _
  have horderly : start.IsOrderly := by
    rw [IsOrderly, hsame.running, hsame.posted, hsame.busy]
    rfl
  have hnone : start.awaited = [] := by
    rw [awaited, hsame.running, hsame.posted]
    rfl
  obtain ⟨horderly', hlines, hpresents, hlast⟩ := changes_after fields hopened hsteps
  have hw : w.IsOrderly := horderly' horderly
  rw [hnone, List.nil_append] at hlines
  rw [hsame.lastResult, Option.or_none] at hlast
  refine ⟨hw.busy_iff, hlines.symm, fun job hjob => ?_,
    fun text => ⟨start_of_blank, start_of_busy⟩, hpresents none ⟨hsame.display, hsame.steps⟩,
    hlast, fun d hd e he => ?_⟩
  · obtain ⟨hrunning, hposted⟩ := hw.of_running hjob
    refine ⟨hrunning, on_program_work hrunning, ?_, ?_⟩
    · simp only [work, hrunning, hposted, List.nil_append, List.length_singleton]
    · simp only [work, hrunning]
  · exact deliver_of_error (hw.of_posted hd) he

def stepsBefore : List WindowStep :=
  [.start "x = 2/3", .work, .deliver,
    .replace (ConfigFile.ofEntries "config.json" [("display_width", .null)]),
    .settings [⟨some "round", some 2, [("darkmode", true)], some .ok⟩]]

theorem isAllowed_stepsBefore (limit : Nat) : ∀ step ∈ stepsBefore, step.IsAllowed limit := by
  have hwide : WindowStep.IsAllowed limit
      (.replace (ConfigFile.ofEntries "config.json" [("display_width", .null)])) := by
    refine ConfigFile.hasWidth_ofEntries _ (.dict (by decide) ?_ ?_) trivial
    · exact List.forall_mem_singleton.2 (Text.LooseText.isJoined_ofString _)
    · exact List.forall_mem_singleton.2 .null
  have hacts : WindowStep.IsAllowed limit
      (.settings [⟨some "round", some 2, [("darkmode", true)], some .ok⟩]) := by
    refine List.forall_mem_singleton.2 ⟨?_, List.forall_mem_singleton.2 (by decide)⟩
    rintro p ⟨⟩
    decide
  simp only [stepsBefore, List.forall_mem_cons]
  exact ⟨trivial, trivial, trivial, hwide, hacts, nofun⟩

/-- After these steps a division by zero is at work when the next line is started. -/
theorem one_calculation_at_a_time_division :
    (ConfigFile.absent "config.json").HasWidth 100 ∧
      (∀ step ∈ stepsBefore ++ [.start "1/0"], step.IsAllowed 100) ∧
      let w := (opened (.absent "config.json") 100 {}).window.after .offering 100
        (stepsBefore ++ [.start "1/0"])
      w.busy = true ∧ w.react .offering 100 (.start "2") =
        { window := w.type "2", notices := [busyNotice] } := by
  have hfile : (ConfigFile.absent "config.json").HasWidth 100 := by
    rintro settings ⟨⟩
    trivial
  have hsteps : ∀ step ∈ stepsBefore ++ [.start "1/0"], step.IsAllowed 100 :=
    List.forall_mem_append.2 ⟨isAllowed_stepsBefore 100, List.forall_mem_singleton.2 trivial⟩
  obtain ⟨-, -, -, hanswer, -⟩ := one_calculation_at_a_time .offering hfile {} hsteps
  have hbusy := busy_after_start .offering 100 "1/0" (by decide +kernel)
    (opened (.absent "config.json") 100 {}).window stepsBefore
  exact ⟨hfile, hsteps, hbusy, (hanswer "2").2 (by decide +kernel) hbusy⟩

/-- A blank line that is started meanwhile is not answered. -/
theorem blank_start_unanswered :
    let w := (opened (.absent "config.json") 100 {}).window.after .offering 100 [.start "1+1"]
    w.busy = true ∧ (w.react .offering 100 (.start "  ")).notices ≠ [busyNotice] := by
  decide +kernel

end Window

end Calculator
