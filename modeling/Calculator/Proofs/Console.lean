import Calculator.Console
import Calculator.Proofs.Session.Closed
import Calculator.Proofs.Window.Job

/-!
# Console and jobs

The console and a job of the window do the same with a line: they leave the same session behind, and
both deliver the result or both report the error. They part at a fault, which a job reports and
which ends the console. A run of the console is therefore the run of the jobs of its lines, up to
the first fault; a line that fails adds what is written about it and changes nothing else.
-/

namespace Calculator

def Request.problem? : Request → Option String
  | enter problem => some problem
  | nothing | exit => none

/-- What is entered of the lines of an input: nothing from the first line on that asks for the
end. -/
def problemsOf (lines : List String) : List String :=
  ((lines.map Request.ofLine).takeWhile (· ≠ .exit)).filterMap Request.problem?

def Session.afterJobs (s : Session) (traced : Bool) (problems : List String) : Session :=
  problems.foldl (fun s problem => ((Job.mk problem traced).run s).value.2) s

/-- No line stops with a fault where the jobs of the lines before it have been done. -/
def Session.FaultFree (s : Session) (traced : Bool) (problems : List String) : Prop :=
  ∀ front problem back, problems = front ++ problem :: back →
    ∀ f, ¬(s.afterJobs traced front).Faults problem traced f

namespace Console

variable {c : Console} {s s' : Session} {line problem : String} {problems : List String}

def logged (c : Console) (s : Session) (line : String) : List String :=
  c.log.screenLines c.time (s.enter line c.showSteps).events

/-- The console has written and done about a line what a job delivers and does: a result is written
behind its steps, an error in one line behind what is logged. -/
inductive Follows (width : Value) (logged : List String) :
    Transcript Session → Delivery × Session → Prop where
  | result {r : CalculationResult} {steps : List String} {name : Option String} {line : String}
      {s : Session} (h : r.lines width = .ok steps) :
    Follows width logged
      ⟨logged ++ (steps.map (fun step => s!"  {step}") ++ [resultLine ⟨name, r⟩]), .ok s⟩
      (⟨.ok r, line, name⟩, s)
  | failure {e : MathError} {line : String} {s : Session} :
    Follows width logged ⟨logged ++ [errorLine e], .ok s⟩ (⟨.error e, line, none⟩, s)

theorem Follows.outcome {width : Value} {logged : List String} {t : Transcript Session}
    {d : Delivery × Session} (h : Follows width logged t d) : t.outcome = .ok d.2 := by
  cases h <;> rfl

theorem enter_of_ok (hw : c.width.IsWidth) {entry : Entry}
    (h : (s.enter line c.showSteps).value = .ok (entry, s')) :
    ∃ steps, entry.result.lines c.width = .ok steps ∧ c.enter s line =
      ⟨c.logged s line ++ (steps.map (fun step => s!"  {step}") ++ [resultLine entry]),
        .ok s'⟩ := by
  obtain ⟨steps, hsteps⟩ := entry.result.exists_lines hw
  have hlines : c.entryLines entry =
      .ok (steps.map (fun step => s!"  {step}") ++ [resultLine entry]) := by
    rw [entryLines, hsteps]
    rfl
  refine ⟨steps, hsteps, ?_⟩
  simp only [enter, h, report, hlines, Transcript.after]
  rfl

theorem enter_of_error {e : MathError}
    (h : (s.enter line c.showSteps).value = .error (.error e)) :
    c.enter s line = ⟨c.logged s line ++ [errorLine e], .ok s⟩ := by
  simp only [enter, h, report, Transcript.after]
  rfl

theorem enter_of_fault {f : Fault} (h : s.Faults line c.showSteps f) :
    c.enter s line = ⟨c.logged s line, .error (.fault f)⟩ := by
  simp only [enter, show (s.enter line c.showSteps).value = .error (.fault f) from h, report,
    Transcript.after, List.append_nil]
  rfl

/-- The console follows the job of a line exactly if the line does not stop with a fault. -/
theorem follows_iff (hw : c.width.IsWidth) (s : Session) (line : String) :
    Follows c.width (c.logged s line) (c.enter s line) ((Job.mk line c.showSteps).run s).value ↔
      ∀ f, ¬s.Faults line c.showSteps f := by
  rcases h : (s.enter line c.showSteps).value with (e | f) | ⟨entry, s'⟩
  · rw [enter_of_error h, Job.run_of_error (j := ⟨line, c.showSteps⟩) h]
    refine ⟨fun _ f hf => ?_, fun _ => .failure⟩
    rw [Session.Faults, h] at hf
    cases hf
  · rw [enter_of_fault h, Job.run_of_fault (j := ⟨line, c.showSteps⟩) h]
    refine ⟨fun hfollows => ?_, fun hf => (hf f h).elim⟩
    cases hfollows.outcome
  · obtain ⟨steps, hsteps, henter⟩ := enter_of_ok hw h
    rw [henter, Job.run_of_ok (j := ⟨line, c.showSteps⟩) h]
    refine ⟨fun _ f hf => ?_, fun _ => .result hsteps⟩
    rw [Session.Faults, h] at hf
    cases hf

def written (c : Console) : Session → List String → List String
  | _, [] => []
  | s, problem :: problems =>
    (c.enter s problem).lines ++ c.written (s.afterJobs c.showSteps [problem]) problems

/-- Enters one line after the other, up to the first fault. -/
def enterAll (c : Console) : Session → List String → Transcript Session
  | s, [] => ⟨[], .ok s⟩
  | s, problem :: problems => match (c.enter s problem).outcome with
    | .ok s' => (c.enterAll s' problems).after (c.enter s problem).lines
    | .error _ => c.enter s problem

theorem problemsOf_cons_nothing {line : String} (h : Request.ofLine line = .nothing)
    (rest : List String) : problemsOf (line :: rest) = problemsOf rest := by
  rw [problemsOf, List.map_cons, h]
  rfl

theorem problemsOf_cons_exit {line : String} (h : Request.ofLine line = .exit)
    (rest : List String) : problemsOf (line :: rest) = [] := by
  rw [problemsOf, List.map_cons, h]
  rfl

theorem problemsOf_cons_enter {line problem : String} (h : Request.ofLine line = .enter problem)
    (rest : List String) : problemsOf (line :: rest) = problem :: problemsOf rest := by
  rw [problemsOf, List.map_cons, h]
  rfl

theorem problemsOf_append {front : List String} (h : ∀ line ∈ front, Request.ofLine line ≠ .exit)
    (back : List String) : problemsOf (front ++ back) = problemsOf front ++ problemsOf back := by
  have hfront : ∀ r ∈ front.map Request.ofLine, decide (r ≠ .exit) = true := by
    intro r hr
    obtain ⟨line, hline, rfl⟩ := List.mem_map.1 hr
    exact decide_eq_true (h line hline)
  rw [problemsOf, problemsOf, List.map_append, List.takeWhile_append_of_pos hfront,
    List.takeWhile_eq_self_iff.2 hfront, List.filterMap_append]
  rfl

theorem readLines_eq_enterAll (c : Console) (s : Session) (lines : List String) :
    c.readLines s lines = c.enterAll s (problemsOf lines) := by
  induction lines generalizing s with
  | nil => rfl
  | cons line rest ih =>
    cases h : Request.ofLine line with
    | nothing =>
      rw [problemsOf_cons_nothing h, ← ih]
      simp only [readLines, turn, h, Transcript.after, List.nil_append]
    | exit =>
      rw [problemsOf_cons_exit h]
      simp only [readLines, turn, h, enterAll]
    | enter problem =>
      rw [problemsOf_cons_enter h]
      cases henter : (c.enter s problem).outcome <;>
        simp only [readLines, turn, h, enterAll, henter, ih]

end Console

namespace Session

variable {s : Session} {traced : Bool} {problem : String} {problems : List String}

theorem faultFree_cons : s.FaultFree traced (problem :: problems) ↔
    (∀ f, ¬s.Faults problem traced f) ∧
      (s.afterJobs traced [problem]).FaultFree traced problems := by
  refine ⟨fun h => ⟨h [] problem problems rfl, fun front p back heq => ?_⟩,
    fun ⟨hhead, htail⟩ => ?_⟩
  · exact h (problem :: front) p back (by rw [heq, List.cons_append])
  · rintro (_ | ⟨q, front⟩) p back heq
    · cases heq
      exact hhead
    · cases heq
      exact htail front p back rfl

end Session

namespace Console

variable {c : Console} {s s' : Session} {line problem : String} {problems lines : List String}

theorem outcome_enter (hw : c.width.IsWidth) (h : ∀ f, ¬s.Faults problem c.showSteps f) :
    (c.enter s problem).outcome = .ok (s.afterJobs c.showSteps [problem]) :=
  ((follows_iff hw s problem).2 h).outcome

theorem enterAll_of_faultFree (hw : c.width.IsWidth) (h : s.FaultFree c.showSteps problems) :
    c.enterAll s problems =
      ⟨c.written s problems, .ok (s.afterJobs c.showSteps problems)⟩ := by
  induction problems generalizing s with
  | nil => rfl
  | cons problem problems ih =>
    obtain ⟨hhead, htail⟩ := Session.faultFree_cons.1 h
    simp only [enterAll, outcome_enter hw hhead, ih htail]
    rfl

theorem faultFree_of_enterAll (hw : c.width.IsWidth)
    (h : (c.enterAll s problems).outcome = .ok s') : s.FaultFree c.showSteps problems := by
  induction problems generalizing s with
  | nil =>
    intro front problem back heq
    simp at heq
  | cons problem problems ih =>
    have hhead : ∀ f, ¬s.Faults problem c.showSteps f := by
      intro f hf
      simp only [enterAll, enter_of_fault hf] at h
      cases h
    simp only [enterAll, outcome_enter hw hhead] at h
    exact Session.faultFree_cons.2 ⟨hhead, ih h⟩

theorem enterAll_append {front : List String} (h : (c.enterAll s front).outcome = .ok s')
    (back : List String) :
    c.enterAll s (front ++ back) = (c.enterAll s' back).after (c.enterAll s front).lines := by
  induction front generalizing s with
  | nil =>
    cases h
    rfl
  | cons problem front ih =>
    rw [List.cons_append, enterAll, enterAll]
    rw [enterAll] at h
    cases henter : (c.enter s problem).outcome with
    | error f =>
      simp only [henter, reduceCtorEq] at h
    | ok s'' =>
      simp only [henter] at h
      simp only [ih h, Transcript.after, List.append_assoc]

end Console

/-- The settings keep numbers finite, and all variables are finite. -/
def Session.KeepsFinite (s : Session) : Prop :=
  s.settings.KeepsFinite ∧ s.symbols.IsFinite

theorem Faultless.bind {α β : Type} {x : Except Failure α} {next : α → Except Failure β}
    (h : Faultless x) (hn : ∀ a, Faultless (next a)) : Faultless (x >>= next) := by
  cases x with
  | ok a => exact hn a
  | error f => cases f <;> exact h

namespace SymbolTable

theorem faultless_nameOf (name : Text.LooseText) : Faultless (nameOf (.text name)) := by
  unfold nameOf
  dsimp only
  split
  · exact faultless_failAt rfl
  · split
    · exact faultless_failAt rfl
    · trivial

theorem faultless_numberOf (name : String) (v : Float) : Faultless (numberOf name (.float v)) := by
  simp only [numberOf, Value.toFloat?]
  split
  · trivial
  · exact faultless_failAt rfl

theorem faultless_put (t : SymbolTable) (name : String) (v : Float) : Faultless (t.put name v) := by
  unfold put
  split
  · exact faultless_failAt rfl
  · trivial

theorem IsFinite.stored {t : SymbolTable} (h : t.IsFinite) (name : String) {v : Float}
    (hv : v.isFinite = true) : (t.stored name v).IsFinite := by
  intro entry hentry
  rcases mem_putEntry hentry with rfl | hold
  · exact hv
  · exact h entry hold

end SymbolTable

namespace Session

variable {s s' : Session} {line : String} {traced : Bool} {problems : List String}

theorem faultless_setVariable (s : Session) (name : Text.LooseText) (v : Float) :
    Faultless (s.setVariable (.text name) (.float v)).value := by
  rw [value_setVariable]
  exact (SymbolTable.faultless_nameOf name).bind fun n =>
    (SymbolTable.faultless_numberOf n v).bind fun w => (s.symbols.faultless_put n w).bind fun _ =>
      trivial

theorem KeepsFinite.not_faults (h : s.KeepsFinite)
    (hn : NumeralsFinite (splitAssignment line).2) (f : Fault) : ¬s.Faults line traced f := by
  intro hf
  rw [Faults, value_enter] at hf
  have hclosed : Closed _ (s.evaluate (splitAssignment line).2 traced).value :=
    closed_evaluate h.1 h.2 hn
  cases hr : (s.evaluate (splitAssignment line).2 traced).value with
  | error g =>
    rw [hr] at hf hclosed
    cases hf
    exact hclosed
  | ok r =>
    have hset : Faultless ((splitAssignment line).1.elim (.ok s) fun name =>
        (s.setVariable (.text name) (.float r.value)).value) := by
      cases (splitAssignment line).1 with
      | none => trivial
      | some name => exact s.faultless_setVariable _ _
    have hline : Faultless (.error (.fault f) : Except Failure (Entry × Session)) := by
      rw [← hf, hr]
      exact hset.bind fun _ => trivial
    exact hline

theorem KeepsFinite.afterJob (h : s.KeepsFinite) (j : Job) : (j.run s).value.2.KeepsFinite := by
  rcases hline : (s.enter j.line j.traced).value with (e | f) | ⟨entry, s'⟩
  · rwa [Job.run_of_error hline]
  · rwa [Job.run_of_fault hline]
  · rw [Job.run_of_ok hline]
    rcases enter_cases hline with ⟨-, -, -, rfl⟩ | ⟨name, expression, -, -, hset⟩
    · exact h
    · rw [value_setVariable] at hset
      obtain ⟨n, -, hset⟩ := bind_eq_ok_iff.1 hset
      obtain ⟨v, hv, hset⟩ := bind_eq_ok_iff.1 hset
      obtain ⟨table, hput, hset⟩ := bind_eq_ok_iff.1 hset
      obtain ⟨-, rfl⟩ := SymbolTable.put_eq_ok_iff.1 hput
      cases hset
      exact ⟨h.1, h.2.stored n (SymbolTable.numberOf_eq_ok_iff.1 hv).2⟩

theorem KeepsFinite.faultFree (h : s.KeepsFinite)
    (hn : ∀ problem ∈ problems, NumeralsFinite (splitAssignment problem).2) :
    s.FaultFree traced problems := by
  induction problems generalizing s with
  | nil =>
    intro front problem back heq
    simp at heq
  | cons problem problems ih =>
    rw [List.forall_mem_cons] at hn
    exact faultFree_cons.2 ⟨h.not_faults hn.1, ih (h.afterJob _) hn.2⟩

end Session

/-- The console and the jobs of a window handle lines alike up to the first fault. On one line the
console does what the job does, unless the line stops with a fault: that is reported by the job and
ends the console. A run of the console reads to its end exactly if no line stops with a fault, and
then it leaves the session that the jobs of its lines leave. A line with an error writes one line
behind what is logged, and everything else is as it is without the line. Lines whose numerals are
finite cause no fault in a session that keeps numbers finite. -/
theorem Console.follows_jobs (c : Console) (hw : c.width.IsWidth) (s : Session) :
    (∀ line, (Follows c.width (c.logged s line) (c.enter s line)
        ((Job.mk line c.showSteps).run s).value ↔ ∀ f, ¬s.Faults line c.showSteps f) ∧
      ∀ f, s.Faults line c.showSteps f →
        c.enter s line = ⟨c.logged s line, .error (.fault f)⟩ ∧
        ((Job.mk line c.showSteps).run s).value = (⟨.error (f.report line), line, none⟩, s)) ∧
    (∀ lines, ((∃ s', (c.readLines s lines).outcome = .ok s') ↔
        s.FaultFree c.showSteps (problemsOf lines)) ∧
      (s.FaultFree c.showSteps (problemsOf lines) → c.readLines s lines =
        ⟨c.written s (problemsOf lines), .ok (s.afterJobs c.showSteps (problemsOf lines))⟩) ∧
      ∀ front problem back f, problemsOf lines = front ++ problem :: back →
        s.FaultFree c.showSteps front →
          (s.afterJobs c.showSteps front).Faults problem c.showSteps f → c.readLines s lines =
            ⟨c.written s front ++ c.logged (s.afterJobs c.showSteps front) problem,
              .error (.fault f)⟩) ∧
    (∀ front line back problem s' e, (∀ l ∈ front, Request.ofLine l ≠ .exit) →
      Request.ofLine line = .enter problem → (c.readLines s front).outcome = .ok s' →
      (s'.enter problem c.showSteps).value = .error (.error e) →
        c.readLines s (front ++ back) = (c.readLines s' back).after (c.readLines s front).lines ∧
        c.readLines s (front ++ line :: back) = (c.readLines s' back).after
          ((c.readLines s front).lines ++ (c.logged s' problem ++ [errorLine e]))) ∧
    (s.KeepsFinite → ∀ lines,
      (∀ problem ∈ problemsOf lines, NumeralsFinite (splitAssignment problem).2) →
        s.FaultFree c.showSteps (problemsOf lines)) := by
  refine ⟨fun line => ⟨follows_iff hw s line, fun f hf => ⟨enter_of_fault hf, Job.run_of_fault hf⟩⟩,
    fun lines => ?_, fun front line back problem s' e hexit hline hfront herror => ?_,
    fun h lines hn => h.faultFree hn⟩
  · rw [readLines_eq_enterAll]
    refine ⟨⟨fun ⟨s', h⟩ => faultFree_of_enterAll hw h, fun h => ?_⟩, enterAll_of_faultFree hw,
      fun front problem back f heq hfront hf => ?_⟩
    · exact ⟨_, by rw [enterAll_of_faultFree hw h]⟩
    · have hrun := enterAll_of_faultFree hw hfront
      rw [heq, enterAll_append (congrArg Transcript.outcome hrun), hrun]
      simp only [enterAll, enter_of_fault hf, Transcript.after]
  · simp only [readLines_eq_enterAll] at hfront ⊢
    rw [problemsOf_append hexit, problemsOf_append hexit, problemsOf_cons_enter hline,
      enterAll_append hfront, enterAll_append hfront]
    refine ⟨rfl, ?_⟩
    simp only [enterAll, enter_of_error herror, Transcript.after, List.append_assoc]

/-- A division by zero is passed over, and nothing is read behind `exit`. With more places than can
be asked for, the first fraction ends the console where its job reports the fault. -/
theorem Console.follows_jobs_division :
    let c : Console := ⟨{}, .int 40, true, ""⟩
    let lines := ["x = 2", "1/0", " x! ", "Exit", "3"]
    let precise : Session := { settings := ⟨.round, 2 ^ 31, false⟩ }
    c.width.IsWidth ∧
      (c.readLines {} lines).outcome = .ok (({} : Session).afterJobs true ["x = 2", "1/0", "x!"]) ∧
      ∃ f, precise.Faults "0.5" true f ∧ (c.enter precise "0.5").outcome = .error (.fault f) ∧
        ((Job.mk "0.5" true).run precise).value =
          (⟨.error (f.report "0.5"), "0.5", none⟩, precise) := by
  intro c lines precise
  have hw : c.width.IsWidth := trivial
  have hproblems : problemsOf lines = ["x = 2", "1/0", "x!"] := by decide +kernel
  have hs : ({} : Session).KeepsFinite := ⟨.inl rfl, List.forall_mem_nil _⟩
  have hn : ∀ problem ∈ problemsOf lines, NumeralsFinite (splitAssignment problem).2 := by
    rw [hproblems]
    unfold NumeralsFinite
    decide +kernel
  obtain ⟨-, hruns, -, hfree⟩ := Console.follows_jobs c hw {}
  obtain ⟨hline, -⟩ := Console.follows_jobs c hw precise
  have hends : (c.enter precise "0.5").outcome.isOk = false := by decide +kernel
  obtain ⟨f, hf⟩ : ∃ f, precise.Faults "0.5" true f := by
    by_contra hnone
    rw [outcome_enter hw (not_exists.1 hnone)] at hends
    cases hends
  obtain ⟨hconsole, hjob⟩ := (hline "0.5").2 f hf
  exact ⟨hw, by rw [(hruns lines).2.1 (hfree hs lines hn), hproblems], f, hf,
    congrArg Transcript.outcome hconsole, hjob⟩

end Calculator
