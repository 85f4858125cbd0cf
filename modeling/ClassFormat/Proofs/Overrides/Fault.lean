import Mathlib.Data.Char
import Mathlib.Data.List.Lex
import ClassFormat.Configuration
import ClassFormat.Proofs.Overrides

namespace ClassFormat

/-- The error that a value gives that does not fit an option. -/
def OptionKey.fault : OptionKey → Value → OptionsError
  | closeQuoteOnNewLine, v => .notBoolean v
  | maxLineWidth, .int n => .negative n
  | maxLineWidth, v => .notInteger v
  | wrapStyle, v => .notStyle v

/-- The key at fault and the words of an error, if it can be put in words. -/
def OptionsError.report? (e : OptionsError) : Option (CodeText × Text) :=
  (Configuration.Error.options e).message?.map fun message => (e.keyCodes, message)

theorem OptionsError.report?_eq (e : OptionsError) :
    e.report? = if e.isWritable then some (e.keyCodes, e.message) else none := by
  rw [report?, Configuration.Error.message?]
  split <;> rfl

namespace OptionKey

variable {key other : OptionKey}

theorem keyCodes_fault (key : OptionKey) (v : Value) :
    (key.fault v).keyCodes = key.name.codes := by
  cases key with
  | closeQuoteOnNewLine => rfl
  | maxLineWidth => cases v <;> rfl
  | wrapStyle => rfl

theorem message_noValue (key : OptionKey) :
    (OptionsError.noValue key).message = key.name ++ " must have a value".toList := by
  have hkey : (OptionsError.noValue key).key = key.name := CodeText.written_codes key.name
  show (OptionsError.noValue key).key ++ _ = _
  rw [hkey]

theorem report?_noValue (key : OptionKey) : (OptionsError.noValue key).report? =
    some (key.name.codes, key.name ++ " must have a value".toList) := by
  rw [← message_noValue]
  exact (OptionsError.report?_eq _).trans (if_pos rfl)

theorem isWritable_fault (key : OptionKey) (v : Value) :
    (key.fault v).isWritable = v.isWritable := by
  cases key with
  | closeQuoteOnNewLine => rfl
  | maxLineWidth => cases v <;> rfl
  | wrapStyle => rfl

theorem name_le_name_iff : key.name ≤ other.name ↔ all.idxOf key ≤ all.idxOf other := by
  cases key <;> cases other <;> decide

theorem mem_all (key : OptionKey) : key ∈ all := by
  cases key <;> decide

theorem first_of_find?_all {p : OptionKey → Bool} (h : all.find? p = some key) :
    p key = true ∧ ∀ other, p other = true → all.idxOf key ≤ all.idxOf other := by
  obtain ⟨hkey, front, back, hall, hfront⟩ := List.find?_eq_some_iff_append.1 h
  refine ⟨hkey, fun other ho => ?_⟩
  have hother : other ∉ front := fun hm => by simpa [ho] using hfront other hm
  have hfound : key ∉ front := fun hm => by simpa [hkey] using hfront key hm
  rw [hall, List.idxOf_append_of_notMem hfound, List.idxOf_append_of_notMem hother]
  simp

/-- The first option with a property is the one that stands before all others with it. -/
theorem find?_all_eq_some_iff {p : OptionKey → Bool} : all.find? p = some key ↔
    p key = true ∧ ∀ other, p other = true → all.idxOf key ≤ all.idxOf other := by
  refine ⟨first_of_find?_all, ?_⟩
  rintro ⟨hkey, hfirst⟩
  obtain ⟨found, hfound⟩ := Option.isSome_iff_exists.1
    (List.find?_isSome.2 ⟨key, mem_all key, hkey⟩)
  obtain ⟨hp, hleast⟩ := first_of_find?_all hfound
  have he : all.idxOf found = all.idxOf key := Nat.le_antisymm (hleast key hkey) (hfirst found hp)
  rw [hfound, (List.idxOf_inj (mem_all found)).1 he]

end OptionKey

namespace Overrides

variable {o : Overrides} {c : Options} {key : OptionKey} {v : Value}

/-- Whether a value is given that does not fit. -/
def rejects (o : Overrides) (key : OptionKey) : Bool :=
  !((o.value key).isNull || key.takes (o.value key))

theorem rejects_eq_true_iff :
    o.rejects key = true ↔ (o.value key).isNull = false ∧ key.takes (o.value key) = false := by
  rw [rejects, Bool.not_eq_true', Bool.or_eq_false_iff]

theorem checkFlag_of_not_takes (h : OptionKey.closeQuoteOnNewLine.takes v = false) :
    checkFlag v = .error (OptionKey.closeQuoteOnNewLine.fault v) := by
  cases v with
  | bool b => cases h
  | _ => rfl

theorem checkWidth_of_not_takes (h : OptionKey.maxLineWidth.takes v = false) :
    checkWidth v = .error (OptionKey.maxLineWidth.fault v) := by
  cases v with
  | int n =>
    have hn : n < 0 := Int.not_le.1 (of_decide_eq_false h)
    rw [checkWidth, if_pos hn]
    rfl
  | _ => rfl

theorem checkStyle_of_not_takes (h : OptionKey.wrapStyle.takes v = false) :
    checkStyle v = .error (OptionKey.wrapStyle.fault v) := by
  rw [checkStyle]
  split
  · rename_i s hs
    have hok : checkStyle v = .ok s := by rw [checkStyle, hs]
    rw [exists_checkStyle_iff.1 ⟨s, hok⟩] at h
    cases h
  · rfl

theorem choose_of_misfit {α : Type} {check : Value → Except OptionsError α} {current : α}
    (hcheck : key.takes v = false → check v = .error (key.fault v)) (hnull : v.isNull = false)
    (h : key.takes v = false) : choose check current v = .error (key.fault v) := by
  rw [choose_of_not_isNull hnull, hcheck h]

theorem apply_of_find?_eq_some (h : OptionKey.all.find? o.rejects = some key) :
    o.apply c = .error (key.fault (o.value key)) := by
  obtain ⟨hkey, hfirst⟩ := OptionKey.first_of_find?_all h
  obtain ⟨hnull, hmisfit⟩ := rejects_eq_true_iff.1 hkey
  have hbefore (other : OptionKey) (hlt : OptionKey.all.idxOf other < OptionKey.all.idxOf key) :
      ((o.value other).isNull || other.takes (o.value other)) = true := by
    cases hr : o.rejects other with
    | true => exact absurd (hfirst other hr) (Nat.not_le.2 hlt)
    | false => rwa [rejects, Bool.not_eq_false'] at hr
  have hflag : (∃ b, choose checkFlag c.closeQuoteOnNewLine o.closeQuoteOnNewLine = .ok b) ↔ _ :=
    exists_choose_iff exists_checkFlag_iff
  have hwidth : (∃ n, choose checkWidth c.maxLineWidth o.maxLineWidth = .ok n) ↔ _ :=
    exists_choose_iff exists_checkWidth_iff
  rw [apply]
  cases key with
  | closeQuoteOnNewLine =>
    have he : choose checkFlag c.closeQuoteOnNewLine o.closeQuoteOnNewLine = .error _ :=
      choose_of_misfit checkFlag_of_not_takes hnull hmisfit
    rw [he]
    rfl
  | maxLineWidth =>
    obtain ⟨b, hb⟩ := hflag.2 (hbefore .closeQuoteOnNewLine (by decide))
    have he : choose checkWidth c.maxLineWidth o.maxLineWidth = .error _ :=
      choose_of_misfit checkWidth_of_not_takes hnull hmisfit
    rw [hb, he]
    rfl
  | wrapStyle =>
    obtain ⟨b, hb⟩ := hflag.2 (hbefore .closeQuoteOnNewLine (by decide))
    obtain ⟨n, hn⟩ := hwidth.2 (hbefore .maxLineWidth (by decide))
    have he : choose checkStyle c.wrapStyle o.wrapStyle = .error _ :=
      choose_of_misfit checkStyle_of_not_takes hnull hmisfit
    rw [hb, hn, he]
    rfl

theorem isAccepted_iff_find?_eq_none :
    o.isAccepted = true ↔ OptionKey.all.find? o.rejects = none := by
  rw [isAccepted, List.all_eq_true, List.find?_eq_none]
  simp only [rejects, Bool.not_eq_true, Bool.not_eq_false']

end Overrides

end ClassFormat
