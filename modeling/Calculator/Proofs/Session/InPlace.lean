import Calculator.Proofs.InPlace
import Calculator.Proofs.Session.Line
import Calculator.Proofs.Symbols.Table

/-!
# Sessions in place

The operations of a session as programs that write its variables, its settings and its limit one
after the other. Each of them checks everything before it writes anything, so an operation that
fails leaves the session as it was, and an operation that succeeds changes only what it is about.
-/

namespace Calculator

/-- The name has got the number; nothing else has changed. -/
structure Session.Assigns (s : Session) (name : String) (v : Float) (s' : Session) : Prop where
  settings : s'.settings = s.settings
  maxSteps : s'.maxSteps = s.maxSteps
  maxNodes : s'.maxNodes = s.maxNodes
  capacity : s'.symbols.capacity = s.symbols.capacity
  value : ∀ n, s'.symbols.get? n = if n = name then some v else s.symbols.get? n

/-- What can be asked of a session. -/
inductive SessionRequest where
  | evaluate (text : String) (trace : Bool)
  | calculate (text : String)
  | validate (text : String)
  | parse (text : String)
  | formatExpression (text : String)
  | setVariable (name value : Value)
  | setArithmeticMode (mode precision : Value) (significant : Option Value)
  | applySettings (entries : Entries)
  /-- A line that is entered. -/
  | enter (line : String) (trace : Bool)

namespace Session

def look {α : Type} (answer : Session → Except Failure α) : InPlace Session Unit := do
  let s ← get
  let _ ← .check (answer s)

def writeVariable (name value : Value) : InPlace Session Unit := do
  let n ← .check (SymbolTable.nameOf name)
  let v ← .check (SymbolTable.numberOf n value)
  let s ← get
  let table ← .check (s.symbols.put n v)
  modify fun s => { s with symbols := table }

/-- Writes the settings one by one; what is not given is written as it was. -/
def writeSettings (mode precision significant : Option Value) : InPlace Session Unit := do
  let s ← get
  let m ← .check (mode.elim (.ok s.settings.mode) ArithmeticMode.ofValue)
  let p ← .check (precision.elim (.ok s.settings.precision) ArithmeticSettings.precisionOf)
  modify fun s => { s with settings := { s.settings with mode := m } }
  modify fun s => { s with settings := { s.settings with precision := p } }
  modify fun s => { s with settings :=
    { s.settings with significant := significant.elim s.settings.significant Value.isSet } }

def writeEntries (entries : Entries) : InPlace Session Unit := do
  let s ← get
  let limit ← .check (stepLimitOf ((entries.get? "max_steps").getD (.int s.maxSteps)))
  writeSettings (entries.get? "arithmetic_mode") (entries.get? "precision")
    (entries.get? "use_significant_digits")
  modify fun s => { s with maxSteps := limit }

def writeLine (line : String) (trace : Bool) : InPlace Session Unit := do
  let s ← get
  let r ← .check (s.evaluate (splitAssignment line).2 trace).value
  match (splitAssignment line).1 with
  | none => pure ()
  | some name => writeVariable (.text name) (.float r.value)

variable {s s' : Session}

theorem performs_look {α : Type} (answer : Session → Except Failure α) (s : Session) :
    InPlace.Performs (look answer) s ((answer s).map fun _ => s) := by
  change InPlace.on (Functor.map _ (InPlace.check (answer s))) s = _
  cases answer s <;> rfl

theorem value_setVariable (s : Session) (name value : Value) :
    (s.setVariable name value).value = do
      let n ← SymbolTable.nameOf name
      let v ← SymbolTable.numberOf n value
      let table ← s.symbols.put n v
      return { s with symbols := table } := by
  unfold setVariable SymbolTable.set
  cases SymbolTable.nameOf name with
  | error f => rfl
  | ok n =>
    cases hv : SymbolTable.numberOf n value with
    | error f => simp only [hv, bind, Except.bind, Logged.silent]
    | ok v =>
      simp only [hv, bind, Except.bind]
      cases s.symbols.put n v <;> rfl

theorem performs_writeVariable (s : Session) (name value : Value) :
    InPlace.Performs (writeVariable name value) s (s.setVariable name value).value := by
  rw [value_setVariable]
  exact .check fun n => .check fun v => .read <| .check fun table => rfl

theorem performs_writeSettings (s : Session) (mode precision significant : Option Value) :
    InPlace.Performs (writeSettings mode precision significant) s
      (s.changeSettings (s.settings.update mode precision significant)).value := by
  refine .read ?_
  unfold changeSettings ArithmeticSettings.update
  cases mode.elim (.ok s.settings.mode) ArithmeticMode.ofValue with
  | error e => rfl
  | ok m =>
    cases precision.elim (.ok s.settings.precision) ArithmeticSettings.precisionOf <;> rfl

theorem value_applySettings (s : Session) (entries : Entries) :
    (s.applySettings entries).value =
      stepLimitOf ((entries.get? "max_steps").getD (.int s.maxSteps)) >>= fun limit =>
        (s.changeSettings (s.settings.update (entries.get? "arithmetic_mode")
          (entries.get? "precision") (entries.get? "use_significant_digits"))).value.map
            fun s => { s with maxSteps := limit } := by
  unfold applySettings
  cases stepLimitOf ((entries.get? "max_steps").getD (.int s.maxSteps)) <;> rfl

theorem performs_writeEntries (s : Session) (entries : Entries) :
    InPlace.Performs (writeEntries entries) s (s.applySettings entries).value := by
  rw [value_applySettings]
  exact .read <| .check fun limit => (performs_writeSettings s _ _ _).andThen _

theorem performs_writeLine (s : Session) (line : String) (trace : Bool) :
    InPlace.Performs (writeLine line trace) s ((s.enter line trace).value.map Prod.snd) := by
  have hvalue : (s.enter line trace).value.map Prod.snd =
      (s.evaluate (splitAssignment line).2 trace).value >>= fun r =>
        (splitAssignment line).1.elim (.ok s) fun name =>
          (s.setVariable (.text name) (.float r.value)).value := by
    rw [value_enter]
    cases (s.evaluate (splitAssignment line).2 trace).value with
    | error f => rfl
    | ok r => exact map_snd_bind _ _
  rw [hvalue]
  refine .read <| .check fun r => ?_
  cases (splitAssignment line).1 with
  | none => rfl
  | some name => exact performs_writeVariable s _ _

theorem assigns_of_setVariable {name value : Value}
    (h : (s.setVariable name value).value = .ok s') : ∃ (n : String) (v : Float),
      name = .text n ∧ value.toFloat? = .ok (some v) ∧ s.Assigns n v s' := by
  rw [value_setVariable] at h
  obtain ⟨n, hname, h⟩ := bind_eq_ok_iff.1 h
  obtain ⟨v, hvalue, h⟩ := bind_eq_ok_iff.1 h
  obtain ⟨table, hput, h⟩ := bind_eq_ok_iff.1 h
  cases h
  obtain ⟨-, rfl⟩ := SymbolTable.put_eq_ok_iff.1 hput
  exact ⟨n, v, (SymbolTable.nameOf_eq_ok_iff.1 hname).1,
    (SymbolTable.numberOf_eq_ok_iff.1 hvalue).1, rfl, rfl, rfl, rfl,
    fun m => s.symbols.get?_stored n m v⟩

end Session

/-- The new value is what the given one says, or the old one if none is given. -/
def Taken {α : Type} (given : Option Value) (reads : Value → Except Failure α) (old new : α) :
    Prop :=
  match given with
  | none => new = old
  | some v => reads v = .ok new

theorem taken_iff {α : Type} {given : Option Value} {reads : Value → Except Failure α}
    {old new : α} : Taken given reads old new ↔ given.elim (.ok old) reads = .ok new := by
  cases given with
  | none => simp [Taken, eq_comm]
  | some v => rfl

/-- The given settings have been taken over; nothing else has changed. -/
structure Session.Takes (s : Session) (mode precision significant limit : Option Value)
    (s' : Session) : Prop where
  symbols : s'.symbols = s.symbols
  maxNodes : s'.maxNodes = s.maxNodes
  mode : Taken mode ArithmeticMode.ofValue s.settings.mode s'.settings.mode
  precision : Taken precision ArithmeticSettings.precisionOf s.settings.precision
    s'.settings.precision
  significant : Taken significant (fun v => .ok v.isSet) s.settings.significant
    s'.settings.significant
  maxSteps : Taken limit stepLimitOf s.maxSteps s'.maxSteps

namespace Session

variable {s s' : Session} {mode precision significant : Option Value}

theorem changeSettings_eq_error_iff {settings : Except Failure ArithmeticSettings} {f : Failure} :
    (s.changeSettings settings).value = .error f ↔ settings = .error f := by
  unfold changeSettings
  cases settings <;> simp [Logged.silent]

theorem takes_of_changeSettings
    (h : (s.changeSettings (s.settings.update mode precision significant)).value = .ok s') :
    s.Takes mode precision significant none s' := by
  unfold changeSettings at h
  cases hupdate : s.settings.update mode precision significant with
  | error e => simp [hupdate, Logged.silent] at h
  | ok settings =>
    rw [hupdate] at h
    cases h
    obtain ⟨m, hm, hupdate⟩ := bind_eq_ok_iff.1 hupdate
    obtain ⟨p, hp, hupdate⟩ := bind_eq_ok_iff.1 hupdate
    cases hupdate
    refine ⟨rfl, rfl, taken_iff.2 hm, taken_iff.2 hp, ?_, rfl⟩
    cases significant <;> rfl

theorem stepLimitOf_eq_ok_iff {v : Value} {limit : Int} :
    stepLimitOf v = .ok limit ↔ v = .int limit ∧ 0 ≤ limit := by
  unfold stepLimitOf
  split
  · next i =>
    split
    · next hneg =>
      simp only [refuse_ne_ok, Value.int.injEq, false_iff, not_and]
      omega
    · next hneg =>
      simp only [Except.ok.injEq, Value.int.injEq]
      omega
  · next hkind =>
    simp only [refuse_ne_ok, false_iff]
    rintro ⟨rfl, -⟩
    exact hkind _ rfl

theorem takes_of_applySettings {entries : Entries} (h : (s.applySettings entries).value = .ok s') :
    s.Takes (entries.get? "arithmetic_mode") (entries.get? "precision")
      (entries.get? "use_significant_digits") (entries.get? "max_steps") s' := by
  rw [value_applySettings] at h
  obtain ⟨limit, hlimit, h⟩ := bind_eq_ok_iff.1 h
  obtain ⟨s'', hs'', rfl⟩ := map_eq_ok_iff.1 h
  have htakes := takes_of_changeSettings hs''
  refine ⟨htakes.symbols, htakes.maxNodes, htakes.mode, htakes.precision, htakes.significant, ?_⟩
  cases hgiven : entries.get? "max_steps" with
  | some v =>
    rw [hgiven] at hlimit
    exact hlimit
  | none =>
    rw [hgiven, Option.getD_none] at hlimit
    exact (Value.int.inj (stepLimitOf_eq_ok_iff.1 hlimit).1).symm

theorem Takes.nonneg {limit : Option Value} (h : s.Takes mode precision significant limit s')
    (hs : 0 ≤ s.maxSteps) : 0 ≤ s'.maxSteps := by
  have hlimit := h.maxSteps
  cases limit with
  | none => exact (show s'.maxSteps = s.maxSteps from hlimit) ▸ hs
  | some v => exact (stepLimitOf_eq_ok_iff.1 hlimit).2

theorem changeSettings_of_takes (h : s.Takes mode precision significant none s') :
    (s.changeSettings (s.settings.update mode precision significant)).value = .ok s' := by
  have hupdate : s.settings.update mode precision significant = .ok s'.settings := by
    have hsignificant : significant.elim s.settings.significant Value.isSet =
        s'.settings.significant := by
      have htaken := h.significant
      cases significant with
      | none => exact (show s'.settings.significant = _ from htaken).symm
      | some v => exact Except.ok.inj htaken
    simp only [ArithmeticSettings.update, taken_iff.1 h.mode, taken_iff.1 h.precision, bind,
      Except.bind, hsignificant]
    rfl
  obtain ⟨settings, symbols, maxSteps, maxNodes⟩ := s'
  obtain ⟨hsymbols, hnodes, -, -, -, hsteps⟩ := h
  obtain rfl : symbols = s.symbols := hsymbols
  obtain rfl : maxNodes = s.maxNodes := hnodes
  obtain rfl : maxSteps = s.maxSteps := hsteps
  rw [hupdate]
  rfl

theorem applySettings_eq_ok_iff {entries : Entries} : (s.applySettings entries).value = .ok s' ↔
    s.Takes (entries.get? "arithmetic_mode") (entries.get? "precision")
      (entries.get? "use_significant_digits") (entries.get? "max_steps") s' ∧ 0 ≤ s'.maxSteps := by
  constructor
  · intro h
    refine ⟨takes_of_applySettings h, ?_⟩
    rw [value_applySettings] at h
    obtain ⟨limit, hlimit, h⟩ := bind_eq_ok_iff.1 h
    obtain ⟨s'', -, rfl⟩ := map_eq_ok_iff.1 h
    exact (stepLimitOf_eq_ok_iff.1 hlimit).2
  · rintro ⟨h, hnonneg⟩
    have hlimit : stepLimitOf ((entries.get? "max_steps").getD (.int s.maxSteps)) =
        .ok s'.maxSteps := by
      have htaken := h.maxSteps
      cases hgiven : entries.get? "max_steps" with
      | some v =>
        rw [hgiven] at htaken
        exact htaken
      | none =>
        rw [hgiven] at htaken
        rw [Option.getD_none, ← show s'.maxSteps = s.maxSteps from htaken]
        exact stepLimitOf_eq_ok_iff.2 ⟨rfl, hnonneg⟩
    have hsame : s.Takes (entries.get? "arithmetic_mode") (entries.get? "precision")
        (entries.get? "use_significant_digits") none { s' with maxSteps := s.maxSteps } :=
      ⟨h.symbols, h.maxNodes, h.mode, h.precision, h.significant, rfl⟩
    rw [value_applySettings, hlimit]
    change Except.map _ (s.changeSettings _).value = _
    rw [changeSettings_of_takes hsame]
    rfl

theorem Takes.again {limit : Option Value} (h : s.Takes mode precision significant limit s') :
    s'.Takes mode precision significant limit s' := by
  refine ⟨rfl, rfl, ?_, ?_, ?_, ?_⟩
  · cases mode with
    | none => rfl
    | some v => exact h.mode
  · cases precision with
    | none => rfl
    | some v => exact h.precision
  · cases significant with
    | none => rfl
    | some v => exact h.significant
  · cases limit with
    | none => rfl
    | some v => exact h.maxSteps

/-- Entries that have been accepted change nothing when they are applied once more. -/
theorem applySettings_again {entries : Entries} (h : (s.applySettings entries).value = .ok s') :
    (s'.applySettings entries).value = .ok s' := by
  rw [applySettings_eq_ok_iff] at h ⊢
  exact ⟨h.1.again, h.2⟩

end Session

namespace SessionRequest

def program : SessionRequest → InPlace Session Unit
  | evaluate text trace => Session.look fun s => (s.evaluate text trace).value
  | calculate text => Session.look fun s => (s.calculate text).value
  | validate text => Session.look fun s => .ok (s.validate text).value
  | parse text => Session.look fun s => (s.parse text).value.mapError .error
  | formatExpression text => Session.look fun s => (s.formatExpression text).value
  | setVariable name value => Session.writeVariable name value
  | setArithmeticMode mode precision significant =>
    Session.writeSettings (some mode) (some precision) (some (significant.getD (.bool false)))
  | applySettings entries => Session.writeEntries entries
  | enter line trace => Session.writeLine line trace

/-- The session that the operation answers with, the old one if the answer is no session. -/
def apply (s : Session) : SessionRequest → Except Failure Session
  | evaluate text trace => (s.evaluate text trace).value.map fun _ => s
  | calculate text => (s.calculate text).value.map fun _ => s
  | validate _ => .ok s
  | parse text => ((s.parse text).value.mapError .error).map fun _ => s
  | formatExpression text => (s.formatExpression text).value.map fun _ => s
  | setVariable name value => (s.setVariable name value).value
  | setArithmeticMode mode precision significant =>
    (s.setArithmeticMode mode precision significant).value
  | applySettings entries => (s.applySettings entries).value
  | enter line trace => (s.enter line trace).value.map Prod.snd

/-- What a successful operation may change. -/
def Frame (s s' : Session) : SessionRequest → Prop
  | evaluate _ _ | calculate _ | validate _ | parse _ | formatExpression _ => s' = s
  | setVariable name value => ∃ (n : String) (v : Float),
      name = .text n ∧ value.toFloat? = .ok (some v) ∧ s.Assigns n v s'
  | setArithmeticMode mode precision significant =>
    s.Takes (some mode) (some precision) (some (significant.getD (.bool false))) none s'
  | applySettings entries => s.Takes (entries.get? "arithmetic_mode") (entries.get? "precision")
      (entries.get? "use_significant_digits") (entries.get? "max_steps") s'
  | enter line trace => ((splitAssignment line).1 = none ∧ '=' ∉ line.toList ∧ s' = s) ∨
      ∃ name expression r, splitAssignment line = (some name, expression) ∧
        (s.evaluate expression trace).value = .ok r ∧ s.Assigns name r.value s'

variable {s s' : Session} {request : SessionRequest}

theorem performs_program (s : Session) (request : SessionRequest) :
    InPlace.Performs request.program s (request.apply s) := by
  cases request with
  | evaluate | calculate | parse | formatExpression => exact Session.performs_look _ s
  | validate text => rfl
  | setVariable name value => exact s.performs_writeVariable name value
  | setArithmeticMode mode precision significant => exact s.performs_writeSettings _ _ _
  | applySettings entries => exact s.performs_writeEntries entries
  | enter line trace => exact s.performs_writeLine line trace

theorem frame_of_apply (h : request.apply s = .ok s') : request.Frame s s' := by
  cases request with
  | evaluate | calculate | parse | formatExpression =>
    obtain ⟨-, -, rfl⟩ := map_eq_ok_iff.1 h
    rfl
  | validate text =>
    cases h
    rfl
  | setVariable name value => exact Session.assigns_of_setVariable h
  | setArithmeticMode mode precision significant =>
    exact Session.takes_of_changeSettings h
  | applySettings entries => exact Session.takes_of_applySettings h
  | enter line trace =>
    obtain ⟨⟨entry, s''⟩, hentry, rfl⟩ := map_eq_ok_iff.1 h
    rcases Session.enter_cases hentry with
      ⟨hsplit, -, hsign, rfl⟩ | ⟨name, expression, hsplit, hr, hset⟩
    · exact .inl ⟨congrArg Prod.fst hsplit, hsign, rfl⟩
    · obtain ⟨n, v, hname, hv, hassigns⟩ := Session.assigns_of_setVariable hset
      obtain rfl := Text.LooseText.ofString_injective (Value.text.inj hname)
      cases hv
      exact .inr ⟨name, expression, entry.result, hsplit, hr, hassigns⟩

theorem nonneg_of_frame (h : request.Frame s s') (hs : 0 ≤ s.maxSteps) : 0 ≤ s'.maxSteps := by
  cases request with
  | evaluate | calculate | validate | parse | formatExpression =>
    exact (show s' = s from h) ▸ hs
  | setVariable name value =>
    obtain ⟨n, v, -, -, hassigns⟩ := h
    exact hassigns.maxSteps ▸ hs
  | setArithmeticMode mode precision significant => exact Session.Takes.nonneg h hs
  | applySettings entries => exact Session.Takes.nonneg h hs
  | enter line trace =>
    rcases h with ⟨-, -, rfl⟩ | ⟨name, expression, r, -, -, hassigns⟩
    · exact hs
    · exact hassigns.maxSteps ▸ hs

theorem nonneg_on_program (request : SessionRequest) (hs : 0 ≤ s.maxSteps) :
    0 ≤ (InPlace.on request.program s).2.maxSteps := by
  rw [performs_program s request]
  cases h : request.apply s with
  | ok s' => exact nonneg_of_frame (frame_of_apply h) hs
  | error f => exact hs

end SessionRequest

/-- The session behind operations in place; those that fail leave behind what they have written. -/
def Session.after (s : Session) (requests : List SessionRequest) : Session :=
  requests.foldl (fun s request => (InPlace.on request.program s).2) s

theorem Session.nonneg_after {s : Session} (hs : 0 ≤ s.maxSteps) (requests : List SessionRequest) :
    0 ≤ (s.after requests).maxSteps := by
  induction requests generalizing s with
  | nil => exact hs
  | cons request requests ih => exact ih (request.nonneg_on_program hs)

/-- No operation leaves half a change. Whatever was asked of a session before, an operation that
fails in place leaves it as it is, and one that succeeds leaves the session that the operation
answers with, which differs only in what the operation is about. The limit for steps stays
non-negative; the precision is a natural number by its kind. A line with a sign of an assignment
that is no assignment fails. -/
theorem request_all_or_nothing {start : Session} (hs : 0 ≤ start.maxSteps)
    (requests : List SessionRequest) :
    let s := start.after requests
    (0 ≤ s.maxSteps ∧ s.settings.mode ∈ ArithmeticMode.all ∧ (0 : Int) ≤ s.settings.precision) ∧
    (∀ request : SessionRequest, InPlace.Performs request.program s (request.apply s) ∧
      ∀ s', request.apply s = .ok s' → request.Frame s s') ∧
    ∀ line trace, '=' ∈ line.toList → (splitAssignment line).1 = none →
      ∃ f, (s.enter line trace).value = .error f := by
  intro s
  refine ⟨⟨Session.nonneg_after hs requests, ?_, Int.natCast_nonneg _⟩,
    fun request => ⟨request.performs_program s, fun s' h => SessionRequest.frame_of_apply h⟩,
    fun line trace hsign hnone => ?_⟩
  · cases s.settings.mode <;> decide
  · cases h : (s.enter line trace).value with
    | error f => exact ⟨f, rfl⟩
    | ok answer =>
      rcases Session.enter_cases h with ⟨-, -, hfree, -⟩ | ⟨name, expression, hsplit, -⟩
      · exact absurd hsign hfree
      · rw [hsplit] at hnone
        cases hnone

/-- Settings with a precision below zero are refused as a whole, and so is a line with two signs of
an assignment; the variable and the mode that were set before stay. -/
theorem request_all_or_nothing_settings :
    let entries : Entries := [(("max_steps" : String), .int 5), (("precision" : String), .int (-1))]
    let requests : List SessionRequest :=
      [.setVariable (.text "x") (.float 2.5), .setArithmeticMode (.text "round") (.int 2) none]
    let s := ({} : Session).after requests
    0 ≤ ({} : Session).maxSteps ∧ s.symbols.get? "x" = some 2.5 ∧ s.settings = ⟨.round, 2, false⟩ ∧
      (∃ f, InPlace.on (SessionRequest.applySettings entries).program s = (.error f, s)) ∧
      ∃ f, (s.enter "y = x = 1" true).value = .error f := by
  intro entries requests s
  have hs : 0 ≤ ({} : Session).maxSteps := by decide
  obtain ⟨-, hperform, hsign⟩ := request_all_or_nothing hs requests
  have hrefused : (SessionRequest.apply s (.applySettings entries)).isOk = false := by
    decide +kernel
  have happly := (hperform (.applySettings entries)).1
  refine ⟨hs, by decide +kernel, by decide +kernel, ?_,
    hsign "y = x = 1" true (by decide) (by decide +kernel)⟩
  cases h : SessionRequest.apply s (.applySettings entries) with
  | ok s' =>
    rw [h] at hrefused
    cases hrefused
  | error f =>
    rw [h] at happly
    exact ⟨f, happly⟩

end Calculator
