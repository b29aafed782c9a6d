import Calculator.Proofs.Evaluation.Finite
import Calculator.Proofs.Grammar.Errors
import Calculator.Proofs.Lexing.Scan
import Calculator.Proofs.Session.Basic

/-!
# Closed evaluations

An evaluation is closed if it ends with a finite value or with an error that names the text. For
texts whose numerals are finite this holds exactly under the settings that keep numbers finite; a
numeral past the largest float is its own result under all settings.
-/

namespace Calculator

/-- No numeral of the text is past the largest float. -/
def NumeralsFinite (text : String) : Prop :=
  ∀ t ∈ (tokenize text).tokens, t.kind = .number → (numeralValue t.text).isFinite = true

/-- The evaluation of the text ends with a finite value, or with an error of the lexer, the parser
or the evaluation that names the text. -/
def Closed (text : String) : Except Failure CalculationResult → Prop
  | .ok r => r.value.isFinite = true
  | .error (.error e) =>
    e.equation = some text ∧ e.stage ∈ [ErrorStage.lexing, .parsing, .evaluation]
  | .error (.fault _) => False

theorem Derives.allFinite {c : Category} {ts : List Token} {e : Expr} (h : Derives c ts e)
    (hn : ∀ t ∈ ts, t.kind = .number → (numeralValue t.text).isFinite = true) : e.AllFinite := by
  induction h using Derives.byRules with
  | number ht => exact Expr.allFinite_number.2 (hn _ (by simp) ht)
  | named ht => exact Expr.allFinite_named
  | call _ _ h _ ih => exact Expr.allFinite_call.2 (ih fun t ht => hn t (by simp [ht]))
  | group _ h _ ih => exact Expr.allFinite_group.2 (ih fun t ht => hn t (by simp [ht]))
  | weaken _ _ ih => exact ih hn
  | factorial h _ ih => exact Expr.allFinite_factorial.2 (ih fun t ht => hn t (by simp [ht]))
  | negation _ h ih => exact Expr.allFinite_negation.2 (ih fun t ht => hn t (by simp [ht]))
  | joined hl _ hr ihl ihr =>
    exact Expr.allFinite_joined.2
      ⟨ihl fun t ht => hn t (by simp [ht]), ihr fun t ht => hn t (by simp [ht])⟩

/-- A sound walk ends with a finite value that can be shown, or with an error of the evaluation. -/
theorem closed_result {env : Environment} {w : Walk} {limit : Int} {text : String}
    (hs : env.settings.KeepsFinite) (h : Sound w.outcome) :
    Closed text ((env.result w limit text).mapError (·.inEquation text)) := by
  unfold Environment.result
  cases hw : w.outcome with
  | ok v =>
    have hvalue := ArithmeticSettings.isFinite_applyFormat hs (h.2 v hw)
    obtain ⟨formatted, hf⟩ := ArithmeticSettings.exists_formatNumber hs hvalue
    simp only [bind, Except.bind, hf, Except.mapError]
    exact hvalue
  | error f =>
    have hfault := h.1
    rw [hw] at hfault
    cases f with
    | error e =>
      have hstage : e.stage = .evaluation := hfault
      refine ⟨rfl, ?_⟩
      change e.stage ∈ _
      simp [hstage]
    | fault f => exact hfault.elim

namespace Session

variable {s : Session} {text : String} {trace : Bool}

/-- Under settings that keep numbers finite, texts with finite numerals are evaluated in a closed
way. -/
theorem closed_evaluate (hs : s.settings.KeepsFinite) (ht : s.symbols.IsFinite)
    (hn : NumeralsFinite text) : Closed text (s.evaluate text trace).value := by
  cases hp : (s.parse text).value with
  | error e =>
    rw [value_evaluate_of_error hp]
    rw [value_parse] at hp
    refine ⟨rfl, ?_⟩
    change e.stage ∈ _
    rcases stage_of_parse hp with hstage | hstage <;> simp [hstage]
  | ok p =>
    rw [value_evaluate hp]
    rw [value_parse] at hp
    have hf := (derives_of_parse hp).2.allFinite hn
    exact closed_result hs (Environment.sound_walk hs ht (printable_of_parse hp hf))

theorem value_evaluate_numeral {t fin : Token} (ht : tokenize text = ⟨[t], .ok fin⟩)
    (hk : t.kind = .number) (hroom : 1 ≤ s.maxNodes) :
    (s.evaluate text trace).value =
      ((s.environment trace).result
        (.leaf (.ok (s.settings.applyFormat (numeralValue t.text)))) s.maxSteps text).mapError
          (·.inEquation text) := by
  have hd : Derives .expression (tokenize text).tokens
      (.number (numeralValue t.text) (some t.span)) := by
    rw [ht]
    exact (Derives.number hk).toExpression
  have hp : Calculator.parse text s.maxNodes = .ok _ := parse_of_derives (by rw [ht]) hd hroom
  rw [← value_parse] at hp
  exact value_evaluate hp trace

/-- What is not finite passes all checks behind the rounding. -/
theorem result_of_not_isFinite {env : Environment} {v : Float} {limit : Int}
    (hv : v.isFinite = false) :
    ∃ r, env.result (.leaf (.ok v)) limit text = .ok r ∧ r.value = v := by
  have hformat : env.settings.formatNumber v = .ok (nonFiniteText v) := by
    rw [ArithmeticSettings.formatNumber, hv]
    rfl
  unfold Environment.result
  simp only [Walk.leaf, bind, Except.bind, ArithmeticSettings.applyFormat_of_not_isFinite hv,
    hformat]
  exact ⟨_, rfl, rfl⟩

theorem result_of_fault {env : Environment} {v : Float} {f : Fault} {limit : Int}
    (hformat : env.settings.applyFormat v = v) (hf : env.settings.formatNumber v = .error f) :
    env.result (.leaf (.ok v)) limit text = .error (.fault f) := by
  unfold Environment.result
  simp only [Walk.leaf, bind, Except.bind, hformat, hf]
  rfl

/-- Under other settings some numeral is not evaluated in a closed way. -/
theorem exists_not_closed (hs : ¬s.settings.KeepsFinite) (hroom : 1 ≤ s.maxNodes) :
    ∃ text, NumeralsFinite text ∧ ∀ trace, ¬Closed text (s.evaluate text trace).value := by
  obtain ⟨v, hv, hsign, hcase⟩ := ArithmeticSettings.exists_of_not_keepsFinite hs
  obtain ⟨cs, hcs, -, hvalue⟩ := literalText_eq hv hsign
  have ht := Lexer.tokenize_numeral hcs
  refine ⟨String.ofList cs, ?_, fun trace => ?_⟩
  · intro u hu _
    rw [ht, List.mem_singleton] at hu
    rw [hu, hvalue]
    exact hv
  · rw [value_evaluate_numeral ht rfl hroom, hvalue]
    rcases hcase with hinfinite | ⟨hformat, f, hf⟩
    · obtain ⟨r, hr, hrv⟩ : ∃ r, (s.environment trace).result _ s.maxSteps _ = .ok r ∧ _ :=
        result_of_not_isFinite hinfinite
      rw [hr]
      change ¬r.value.isFinite = true
      rw [hrv, hinfinite]
      exact Bool.false_ne_true
    · have hresult : (s.environment trace).result (.leaf (.ok v)) s.maxSteps (String.ofList cs) =
          .error (.fault f) := result_of_fault hformat hf
      rw [hformat, hresult]
      exact id

/-- For texts with finite numerals and tables of finite variables, evaluations are closed exactly
under the settings that keep numbers finite. A numeral past the largest float is returned as the
infinity that it is read as, whatever the settings are. -/
theorem evaluate_closed_iff (settings : ArithmeticSettings) :
    ((∀ s : Session, s.settings = settings → s.symbols.IsFinite → ∀ text, NumeralsFinite text →
      ∀ trace, Closed text (s.evaluate text trace).value) ↔ settings.KeepsFinite) ∧
    ∀ s : Session, s.settings = settings → 1 ≤ s.maxNodes → ∀ text t fin,
      tokenize text = ⟨[t], .ok fin⟩ → t.kind = .number →
      (numeralValue t.text).isFinite = false → ∀ trace,
        ∃ r, (s.evaluate text trace).value = .ok r ∧ r.value = numeralValue t.text := by
  refine ⟨⟨fun h => ?_, ?_⟩, ?_⟩
  · by_contra hs
    obtain ⟨text, hn, hopen⟩ := @exists_not_closed ⟨settings, .empty 0, 0, 1⟩ hs (Int.le_refl 1)
    exact hopen false (h _ rfl (by simp [SymbolTable.IsFinite, SymbolTable.empty]) text hn false)
  · rintro hs s rfl ht text hn trace
    exact closed_evaluate hs ht hn
  · rintro s rfl hroom text t fin ht hk hinfinite trace
    rw [value_evaluate_numeral ht hk hroom,
      ArithmeticSettings.applyFormat_of_not_isFinite hinfinite]
    obtain ⟨r, hr, hrv⟩ : ∃ r, (s.environment trace).result _ s.maxSteps text = .ok r ∧ _ :=
      result_of_not_isFinite hinfinite
    exact ⟨r, by rw [hr]; rfl, hrv⟩

/-- The usual settings keep numbers finite, and `1/0!` has finite numerals. -/
theorem evaluate_closed_iff_usual :
    ({} : ArithmeticSettings).KeepsFinite ∧ NumeralsFinite "1/0!" ∧
      ∀ trace, Closed "1/0!" (({} : Session).evaluate "1/0!" trace).value := by
  have hs : ({} : ArithmeticSettings).KeepsFinite := .inl rfl
  have hn : NumeralsFinite "1/0!" := by
    unfold NumeralsFinite
    decide +kernel
  exact ⟨hs, hn, (evaluate_closed_iff {}).1.2 hs {} rfl nofun "1/0!" hn⟩

end Session

end Calculator
