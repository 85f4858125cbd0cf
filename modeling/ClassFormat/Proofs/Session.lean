import ClassFormat.Proofs.Mapping
import ClassFormat.Session

namespace ClassFormat

theorem Options.valid_of_ofMapping {entries : List (Value × Value)} {options : Options}
    (h : ofMapping entries = .ok options) : options.Valid := by
  unfold ofMapping at h
  split at h
  · cases h
  · split at h
    · cases h
    · split at h
      · cases h
      · exact Overrides.valid_of_apply valid_default (eq_ok_of_mapError_eq_ok h)

namespace Session

variable {s : Session} {step : Step} {r : Except MappingError Options} {e : MappingError}

theorem setOptions_of_failed (h : (s.setOptions r).2 = .failed e) : (s.setOptions r).1 = s := by
  cases r with
  | ok options => cases h
  | error e => rfl

/-- A step that fails changes nothing. -/
theorem step_of_failed (h : (s.step step).2 = .failed e) : (s.step step).1 = s := by
  cases step with
  | format => cases h
  | edits => cases h
  | tags => cases h
  | configure overrides => exact setOptions_of_failed h
  | reset mapping => exact setOptions_of_failed h
  | apply edits => cases h
  | formatOnly indexes => cases h

theorem valid_setOptions (h : s.options.Valid) (hr : ∀ options, r = .ok options → options.Valid) :
    (s.setOptions r).1.options.Valid := by
  cases r with
  | ok options => exact hr options rfl
  | error e => exact h

theorem valid_step (h : s.options.Valid) (step : Step) : (s.step step).1.options.Valid := by
  cases step with
  | format => exact h
  | edits => exact h
  | tags => exact h
  | configure overrides =>
    apply valid_setOptions h
    intro options hoptions
    exact Overrides.valid_of_apply h (eq_ok_of_mapError_eq_ok hoptions)
  | reset mapping =>
    apply valid_setOptions h
    intro options hoptions
    exact Options.valid_of_ofMapping hoptions
  | apply edits => exact h
  | formatOnly indexes => exact h

/-- The session that a run of steps leaves. -/
def after (s : Session) (steps : List Step) : Session :=
  steps.foldl (fun s step => (s.step step).1) s

theorem run_append (s : Session) (steps more : List Step) :
    s.run (steps ++ more) = s.run steps ++ (s.after steps).run more := by
  induction steps generalizing s with
  | nil => rfl
  | cons step steps ih => exact congrArg ((s.step step).2 :: ·) (ih (s.step step).1)

theorem valid_after (h : s.options.Valid) (steps : List Step) : (s.after steps).options.Valid := by
  induction steps generalizing s with
  | nil => exact h
  | cons step steps ih => exact ih (valid_step h step)

theorem step_configure (s : Session) (o : Overrides) :
    (s.step (.configure o)).1 = { s with options := s.options.override o } := by
  rw [step, Options.override]
  cases o.apply s.options with
  | ok options => rfl
  | error e => rfl

theorem after_configure (s : Session) (steps : List Overrides) :
    s.after (steps.map .configure) = { s with options := s.options.after steps } := by
  induction steps generalizing s with
  | nil => rfl
  | cons o steps ih =>
    rw [List.map_cons, after, List.foldl_cons, ← after, step_configure, ih]
    rfl

/-- Behind steps that set options, a document is formatted with the options that these leave. -/
theorem run_configure_format (s : Session) (steps : List Overrides) :
    let text := Document.format (s.options.after steps) s.text
    s.run (steps.map .configure ++ [.format]) =
      s.run (steps.map .configure) ++ [.formatted text (text != s.text)] := by
  intro text
  rw [run_append, after_configure]
  rfl

end Session

end ClassFormat
