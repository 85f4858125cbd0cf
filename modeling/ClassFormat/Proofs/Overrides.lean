import ClassFormat.Options

namespace ClassFormat

theorem exists_of_bind_eq_ok {ε α β : Type} {x : Except ε α} {f : α → Except ε β} {b : β}
    (h : (x >>= f) = .ok b) : ∃ a, x = .ok a ∧ f a = .ok b := by
  cases x with
  | error e => cases h
  | ok a => exact ⟨a, rfl, h⟩

theorem exists_error_of_isOk_eq_false {ε α : Type} {x : Except ε α} (h : x.isOk = false) :
    ∃ e, x = .error e := by
  cases x with
  | error e => exact ⟨e, rfl⟩
  | ok a => cases h

theorem eq_ok_of_mapError_eq_ok {ε δ α : Type} {x : Except ε α} {f : ε → δ} {a : α}
    (h : x.mapError f = .ok a) : x = .ok a := by
  cases x with
  | error e => cases h
  | ok b =>
    cases h
    rfl

theorem CodeText.char?_eq_some_iff {n : Nat} {c : Char} : char? n = some c ↔ n = c.toNat := by
  constructor
  · intro h
    rw [char?] at h
    split at h
    · rename_i hn
      cases h
      rw [Char.ofNat, dif_pos hn]
      rfl
    · cases h
  · rintro rfl
    exact char?_toNat c

theorem CodeText.text?_eq_some_iff {t : CodeText} {s : Text} : t.text? = some s ↔ t = s.codes := by
  constructor
  · intro h
    induction t generalizing s with
    | nil =>
      cases h
      rfl
    | cons n t ih =>
      rw [text?, List.mapM_cons] at h
      obtain ⟨c, hc, h⟩ := Option.bind_eq_some_iff.1 h
      obtain ⟨r, hr, h⟩ := Option.bind_eq_some_iff.1 h
      cases h
      rw [char?_eq_some_iff.1 hc, ih hr]
      rfl
  · rintro rfl
    exact text?_codes s

theorem Value.text?_eq_some_iff {v : Value} {s : Text} : v.text? = some s ↔ v = ofText s := by
  cases v with
  | text t => simp [text?, codes?, CodeText.text?_eq_some_iff, ofText]
  | _ => simp [text?, codes?, ofText]

/-- A value, or another one in place of null. -/
def Value.orElse (v w : Value) : Value := if v.isNull then w else v

def Options.value (options : Options) : OptionKey → Value
  | .closeQuoteOnNewLine => .bool options.closeQuoteOnNewLine
  | .maxLineWidth => .int options.maxLineWidth
  | .wrapStyle => .ofText options.wrapStyle.name

/-- Options that a configuration may have: the width is not negative, and the style may be
chosen. -/
structure Options.Valid (options : Options) : Prop where
  width_nonneg : 0 ≤ options.maxLineWidth
  style_mem : options.wrapStyle ∈ WrapStyle.choices

/-- Whether a value fits an option. -/
def OptionKey.takes : OptionKey → Value → Bool
  | closeQuoteOnNewLine, .bool _ => true
  | maxLineWidth, .int n => 0 ≤ n
  | wrapStyle, v => WrapStyle.choices.any fun s => v.text? = some s.name
  | _, _ => false

theorem WrapStyle.ofName?_eq_some_iff {n : Text} {s : WrapStyle} :
    ofName? n = some s ↔ s ∈ choices ∧ s.name = n := by
  constructor
  · intro h
    have hn := List.find?_some h
    exact ⟨List.mem_of_find?_eq_some h, of_decide_eq_true hn⟩
  · rintro ⟨hs, rfl⟩
    cases s with
    | same => rfl
    | extra => rfl
    | other m => simp [choices] at hs

namespace Overrides

section Checks

variable {α : Type} {check : Value → Except OptionsError α} {current new : α} {v : Value}

theorem checkFlag_eq_ok_iff {b : Bool} : checkFlag v = .ok b ↔ v = .bool b := by
  cases v with
  | bool c => simp [checkFlag]
  | _ => simp [checkFlag]

theorem checkWidth_eq_ok_iff {n : Int} : checkWidth v = .ok n ↔ v = .int n ∧ 0 ≤ n := by
  cases v with
  | int m =>
    rw [checkWidth]
    split
    · rename_i hm
      constructor
      · intro h
        cases h
      · rintro ⟨h, hn⟩
        cases h
        omega
    · rename_i hm
      constructor
      · intro h
        cases h
        exact ⟨rfl, Int.not_lt.1 hm⟩
      · rintro ⟨h, -⟩
        cases h
        rfl
  | _ => simp [checkWidth]

theorem checkStyle_eq_ok_iff {s : WrapStyle} :
    checkStyle v = .ok s ↔ v = .ofText s.name ∧ s ∈ WrapStyle.choices := by
  have h : v.text?.bind WrapStyle.ofName? = some s ↔
      v = .ofText s.name ∧ s ∈ WrapStyle.choices := by
    simp [Option.bind_eq_some_iff, WrapStyle.ofName?_eq_some_iff, Value.text?_eq_some_iff, and_comm]
  rw [← h, checkStyle]
  split
  · rename_i hs
    rw [hs, Except.ok.injEq, Option.some.injEq]
  · rename_i hn
    rw [hn]
    simp

theorem exists_checkFlag_iff :
    (∃ b, checkFlag v = .ok b) ↔ OptionKey.closeQuoteOnNewLine.takes v = true := by
  cases v with
  | bool c => simp [checkFlag, OptionKey.takes]
  | _ => simp [checkFlag, OptionKey.takes]

theorem exists_checkWidth_iff :
    (∃ n, checkWidth v = .ok n) ↔ OptionKey.maxLineWidth.takes v = true := by
  cases v with
  | int m => simp [checkWidth_eq_ok_iff, OptionKey.takes]
  | _ => simp [checkWidth, OptionKey.takes]

theorem exists_checkStyle_iff :
    (∃ s, checkStyle v = .ok s) ↔ OptionKey.wrapStyle.takes v = true := by
  simp [checkStyle_eq_ok_iff, OptionKey.takes, Value.text?_eq_some_iff, and_comm]

theorem choose_of_isNull (h : v.isNull = true) : choose check current v = .ok current := by
  cases v with
  | null => rfl
  | _ => cases h

theorem choose_of_not_isNull (h : v.isNull = false) : choose check current v = check v := by
  cases v with
  | null => cases h
  | _ => rfl

theorem exists_choose_iff {key : OptionKey} (hcheck : (∃ a, check v = .ok a) ↔ key.takes v = true) :
    (∃ a, choose check current v = .ok a) ↔ (v.isNull || key.takes v) = true := by
  cases hv : v.isNull with
  | true => simp [choose_of_isNull hv]
  | false => rw [choose_of_not_isNull hv, hcheck, Bool.false_or]

theorem value_of_choose (toValue : α → Value)
    (hcheck : ∀ {v : Value} {a : α}, check v = .ok a → v = toValue a)
    (h : choose check current v = .ok new) : toValue new = v.orElse (toValue current) := by
  cases hv : v.isNull with
  | true =>
    rw [choose_of_isNull hv] at h
    cases h
    rw [Value.orElse, if_pos hv]
  | false =>
    rw [choose_of_not_isNull hv] at h
    rw [Value.orElse, hv, hcheck h]
    rfl

theorem choose_of_invariant {P : α → Prop} (hcheck : ∀ {v : Value} {a : α}, check v = .ok a → P a)
    (hcurrent : P current) (h : choose check current v = .ok new) : P new := by
  cases hv : v.isNull with
  | true =>
    rw [choose_of_isNull hv] at h
    cases h
    exact hcurrent
  | false =>
    rw [choose_of_not_isNull hv] at h
    exact hcheck h

theorem choose_choose {w : Value} (h : choose check current v = .ok new) :
    choose check new w = choose check current (w.orElse v) := by
  cases hw : w.isNull with
  | true => rw [choose_of_isNull hw, Value.orElse, if_pos hw, h]
  | false =>
    rw [choose_of_not_isNull hw, Value.orElse, hw]
    exact (choose_of_not_isNull hw).symm

end Checks

variable {o a b : Overrides} {c d : Options}

/-- The value that is given for an option, or null. -/
def value (o : Overrides) : OptionKey → Value
  | .closeQuoteOnNewLine => o.closeQuoteOnNewLine
  | .maxLineWidth => o.maxLineWidth
  | .wrapStyle => o.wrapStyle

/-- Whether every given value fits its option. -/
def isAccepted (o : Overrides) : Bool :=
  OptionKey.all.all fun key => (o.value key).isNull || key.takes (o.value key)

/-- The values of `b`, and those of `a` where `b` gives none. -/
def overlay (a b : Overrides) : Overrides where
  closeQuoteOnNewLine := b.closeQuoteOnNewLine.orElse a.closeQuoteOnNewLine
  maxLineWidth := b.maxLineWidth.orElse a.maxLineWidth
  wrapStyle := b.wrapStyle.orElse a.wrapStyle

/-- What a step does that does not fail: each option is chosen by itself. -/
theorem apply_eq_ok_iff : o.apply c = .ok d ↔
    choose checkFlag c.closeQuoteOnNewLine o.closeQuoteOnNewLine = .ok d.closeQuoteOnNewLine ∧
      choose checkWidth c.maxLineWidth o.maxLineWidth = .ok d.maxLineWidth ∧
      choose checkStyle c.wrapStyle o.wrapStyle = .ok d.wrapStyle := by
  rw [apply]
  constructor
  · intro h
    obtain ⟨f, hf, h⟩ := exists_of_bind_eq_ok h
    obtain ⟨w, hw, h⟩ := exists_of_bind_eq_ok h
    obtain ⟨s, hs, h⟩ := exists_of_bind_eq_ok h
    cases h
    exact ⟨hf, hw, hs⟩
  · rintro ⟨hf, hw, hs⟩
    rw [hf, hw, hs]
    rfl

theorem isAccepted_iff :
    o.isAccepted = true ↔ ∀ key, ((o.value key).isNull || key.takes (o.value key)) = true := by
  rw [isAccepted, List.all_eq_true]
  constructor
  · intro h key
    apply h
    cases key <;> decide
  · intro h key _
    exact h key

theorem exists_apply_eq_ok_iff : (∃ d, o.apply c = .ok d) ↔ o.isAccepted = true := by
  rw [isAccepted_iff]
  constructor
  · rintro ⟨d, h⟩ key
    obtain ⟨hf, hw, hs⟩ := apply_eq_ok_iff.1 h
    cases key with
    | closeQuoteOnNewLine => exact (exists_choose_iff exists_checkFlag_iff).1 ⟨_, hf⟩
    | maxLineWidth => exact (exists_choose_iff exists_checkWidth_iff).1 ⟨_, hw⟩
    | wrapStyle => exact (exists_choose_iff exists_checkStyle_iff).1 ⟨_, hs⟩
  · intro h
    obtain ⟨f, hf⟩ := (exists_choose_iff exists_checkFlag_iff).2 (h .closeQuoteOnNewLine)
    obtain ⟨w, hw⟩ := (exists_choose_iff exists_checkWidth_iff).2 (h .maxLineWidth)
    obtain ⟨s, hs⟩ := (exists_choose_iff exists_checkStyle_iff).2 (h .wrapStyle)
    exact ⟨⟨f, w, s⟩, apply_eq_ok_iff.2 ⟨hf, hw, hs⟩⟩

theorem value_of_apply (h : o.apply c = .ok d) (key : OptionKey) :
    d.value key = (o.value key).orElse (c.value key) := by
  obtain ⟨hf, hw, hs⟩ := apply_eq_ok_iff.1 h
  cases key with
  | closeQuoteOnNewLine => exact value_of_choose .bool checkFlag_eq_ok_iff.1 hf
  | maxLineWidth => exact value_of_choose .int (fun h => (checkWidth_eq_ok_iff.1 h).1) hw
  | wrapStyle =>
    apply value_of_choose (fun s => .ofText s.name) _ hs
    intro v s h
    exact (checkStyle_eq_ok_iff.1 h).1

theorem valid_of_apply (hc : c.Valid) (h : o.apply c = .ok d) : d.Valid := by
  obtain ⟨-, hw, hs⟩ := apply_eq_ok_iff.1 h
  constructor
  · exact choose_of_invariant (fun h => (checkWidth_eq_ok_iff.1 h).2) hc.width_nonneg hw
  · exact choose_of_invariant (fun h => (checkStyle_eq_ok_iff.1 h).2) hc.style_mem hs

/-- A second step works like one step with its values on top of those of the first. -/
theorem apply_of_apply_eq_ok (h : a.apply c = .ok d) (b : Overrides) :
    b.apply d = (a.overlay b).apply c := by
  obtain ⟨hf, hw, hs⟩ := apply_eq_ok_iff.1 h
  rw [apply, apply, choose_choose hf, choose_choose hw, choose_choose hs]
  rfl

/-- The value that was given last for an option, or the value at the start. -/
def lastGiven (key : OptionKey) (steps : List Overrides) (start : Value) : Value :=
  ((steps.map fun o => o.value key).filter fun v => !v.isNull).getLastD start

theorem lastGiven_cons {key : OptionKey} {steps : List Overrides} {start : Value} :
    lastGiven key (o :: steps) start = lastGiven key steps ((o.value key).orElse start) := by
  rw [lastGiven, lastGiven, List.map_cons, List.filter_cons, Value.orElse]
  cases (o.value key).isNull with
  | true => rfl
  | false =>
    rw [Bool.not_false, if_pos rfl, List.getLastD_cons]
    rfl

end Overrides

namespace Options

variable {start options : Options} {o : Overrides}

/-- The options after a step; one that fails leaves them as they are. -/
def override (options : Options) (o : Overrides) : Options :=
  match o.apply options with
  | .ok next => next
  | .error _ => options

/-- The options after a run of steps. -/
def after (start : Options) (steps : List Overrides) : Options := steps.foldl override start

theorem override_of_isAccepted (h : o.isAccepted = true) :
    o.apply options = .ok (options.override o) := by
  obtain ⟨d, hd⟩ := Overrides.exists_apply_eq_ok_iff.2 h
  rw [override, hd]

theorem override_of_not_isAccepted (h : ¬ o.isAccepted = true) : options.override o = options := by
  rw [override]
  split
  · rename_i d hd
    exact absurd (Overrides.exists_apply_eq_ok_iff.1 ⟨d, hd⟩) h
  · rfl

theorem Valid.override (h : options.Valid) (o : Overrides) : (options.override o).Valid := by
  by_cases ho : o.isAccepted = true
  · exact Overrides.valid_of_apply h (override_of_isAccepted ho)
  · rw [override_of_not_isAccepted ho]
    exact h

theorem Valid.after (h : start.Valid) (steps : List Overrides) : (start.after steps).Valid := by
  induction steps generalizing start with
  | nil => exact h
  | cons o steps ih => exact ih (h.override o)

theorem value_after (key : OptionKey) (start : Options) (steps : List Overrides) :
    (start.after steps).value key =
      Overrides.lastGiven key (steps.filter Overrides.isAccepted) (start.value key) := by
  induction steps generalizing start with
  | nil => rfl
  | cons o steps ih =>
    rw [after, List.foldl_cons, ← after, ih, List.filter_cons]
    by_cases ho : o.isAccepted = true
    · rw [if_pos ho, Overrides.lastGiven_cons]
      rw [Overrides.value_of_apply (override_of_isAccepted ho)]
    · rw [if_neg ho, override_of_not_isAccepted ho]

/-- A run of steps keeps options valid, every option has the value that was given for it last in a
step that did not fail, and two steps work like one with the second laid over the first. -/
theorem after_takes_last_given (h : start.Valid) (steps : List Overrides) :
    (start.after steps).Valid ∧
      (∀ key, (start.after steps).value key =
        Overrides.lastGiven key (steps.filter Overrides.isAccepted) (start.value key)) ∧
      (∀ (o : Overrides) (c : Options), o.isAccepted = true ↔ ∃ d, o.apply c = .ok d) ∧
      ∀ (a b : Overrides) (c d : Options),
        a.apply c = .ok d → b.apply d = (a.overlay b).apply c := by
  refine ⟨h.after steps, fun key => value_after key start steps, ?_, ?_⟩
  · intro o c
    exact Overrides.exists_apply_eq_ok_iff.symm
  · intro a b c d ha
    exact Overrides.apply_of_apply_eq_ok ha b

theorem after_takes_last_given_past_failures :
    let wide : Overrides := { maxLineWidth := .int 100, wrapStyle := .ofText "extra".toList }
    let negative : Overrides := { closeQuoteOnNewLine := .bool false, maxLineWidth := .int (-1) }
    let truth : Overrides := { maxLineWidth := .bool true }
    let last := ({} : Options).after [wide, negative, { wrapStyle := .null }, truth]
    last.Valid ∧ last.value .maxLineWidth = .int 100 ∧
      last.value .closeQuoteOnNewLine = .bool true ∧
      truth.apply last = (wide.overlay truth).apply {} := by
  intro wide negative truth last
  have hstart : ({} : Options).Valid := ⟨by decide, by decide⟩
  obtain ⟨hvalid, hvalue, -, happly⟩ :=
    after_takes_last_given hstart [wide, negative, { wrapStyle := .null }, truth]
  exact ⟨hvalid, hvalue .maxLineWidth, hvalue .closeQuoteOnNewLine, happly wide truth {} last rfl⟩

end Options

end ClassFormat
