import Mathlib.Algebra.Group.Nat.Defs
import Mathlib.Data.Set.Basic
import ClassFormat.Proofs.Overrides.Fault
import ClassFormat.Proofs.Sorting

namespace ClassFormat

namespace Options

def Gives (m : Set (Value × Value)) (key : OptionKey) (v : Value) : Prop :=
  (.ofText key.name, v) ∈ m

/-- A text that is a key and names no option. -/
def IsUnknown (m : Set (Value × Value)) (k : CodeText) : Prop :=
  (∃ v, (.text k, v) ∈ m) ∧ ∀ key : OptionKey, k ≠ key.name.codes

/-- Every key names an option. -/
def KnownKeys (m : Set (Value × Value)) : Prop :=
  ∀ e ∈ m, ∃ key : OptionKey, e.1 = .ofText key.name

/-- What the entries of a mapping come to. A key that is no text is the worst fault, then come
unknown keys, options without a value, and values that do not fit. -/
inductive Outcome (m : Set (Value × Value)) : Except MappingError Options → Prop where
  | keyNotText {e : Value × Value} (he : e ∈ m) (hkey : e.1.codes? = none) :
    Outcome m (.error .keyNotText)
  | unknownKeys {smallest : CodeText} {others : List CodeText}
    (htext : ∀ e ∈ m, e.1.codes? ≠ none)
    (hmem : ∀ k, k ∈ smallest :: others ↔ IsUnknown m k)
    (hsorted : (smallest :: others).Pairwise (· < ·)) :
    Outcome m (.error (.options (.unknownKeys smallest others)))
  | noValue {key : OptionKey} (hknown : KnownKeys m) (hnull : Gives m key .null)
    (hfirst : ∀ other, Gives m other .null → key.name ≤ other.name) :
    Outcome m (.error (.options (.noValue key)))
  | fault {key : OptionKey} {v : Value} (hknown : KnownKeys m) (hnull : ∀ key, ¬ Gives m key .null)
    (hv : Gives m key v) (hmisfit : key.takes v = false)
    (hfirst : ∀ other w, Gives m other w → other.takes w = false →
      OptionKey.all.idxOf key ≤ OptionKey.all.idxOf other) :
    Outcome m (.error (.options (key.fault v)))
  | options {options : Options} (hknown : KnownKeys m) (hnull : ∀ key, ¬ Gives m key .null)
    (hfit : ∀ key v, Gives m key v → key.takes v = true)
    (hvalid : options.Valid)
    (hgiven : ∀ key v, Gives m key v → options.value key = v)
    (hdefault : ∀ key, (∀ v, ¬ Gives m key v) → options.value key = ({} : Options).value key) :
    Outcome m (.ok options)

end Options

theorem Value.codes?_eq_some_iff {v : Value} {k : CodeText} : v.codes? = some k ↔ v = .text k := by
  cases v <;> simp [codes?]

theorem Value.isNull_iff {v : Value} : v.isNull = true ↔ v = .null := by
  cases v <;> simp [isNull]

namespace Options

variable {entries : List (Value × Value)} {key : OptionKey} {v : Value} {keys : List CodeText}
  {k : CodeText}

theorem mapM_codes?_eq_some_iff : (entries.mapM fun e => e.1.codes?) = some keys ↔
    entries.map Prod.fst = keys.map .text := by
  induction entries generalizing keys with
  | nil => simp [eq_comm]
  | cons e es ih =>
    rw [List.mapM_cons, List.map_cons]
    constructor
    · intro h
      obtain ⟨k, hk, h⟩ := Option.bind_eq_some_iff.1 h
      obtain ⟨ks, hks, h⟩ := Option.bind_eq_some_iff.1 h
      cases h
      rw [List.map_cons, Value.codes?_eq_some_iff.1 hk, ih.1 hks]
    · intro h
      obtain ⟨k, ks, rfl, hk, hks⟩ := List.map_eq_cons_iff.1 h.symm
      rw [Value.codes?_eq_some_iff.2 hk.symm, ih.2 hks.symm]
      rfl

theorem mapM_codes?_eq_none_iff : (entries.mapM fun e => e.1.codes?) = none ↔
    ∃ e ∈ entries, e.1.codes? = none := by
  induction entries with
  | nil => simp
  | cons e es ih =>
    rw [List.mapM_cons, List.exists_mem_cons_iff, ← ih]
    cases e.1.codes? with
    | none => simp
    | some k => cases es.mapM fun e => e.1.codes? <;> simp

theorem mem_unknownKeys :
    k ∈ unknownKeys keys ↔ k ∈ keys ∧ ∀ key : OptionKey, k ≠ key.name.codes := by
  rw [unknownKeys, (sortBy_perm _ _).mem_iff, List.mem_filter]
  apply and_congr_right
  intro _
  rw [Bool.not_eq_true', List.contains_eq_mem, decide_eq_false_iff_not, List.mem_map]
  constructor
  · intro h key he
    exact h ⟨key, OptionKey.mem_all key, he.symm⟩
  · rintro h ⟨key, -, he⟩
    exact h key he.symm

theorem pairwise_unknownKeys (h : keys.Nodup) : (unknownKeys keys).Pairwise (· < ·) := by
  have hle : (fun s t : CodeText => !decide (t < s)) = fun s t => decide (id s ≤ id t) := by
    funext s t
    rw [← decide_not]
    exact decide_eq_decide.2 not_lt
  have hsorted : (unknownKeys keys).Pairwise fun s t => id s ≤ id t := by
    rw [unknownKeys, hle]
    exact (isStableSort_sortBy id _).pairwise
  have hnodup : (unknownKeys keys).Nodup := (sortBy_perm _ _).nodup_iff.2 (h.filter _)
  exact (hsorted.and hnodup).imp fun hst => lt_of_le_of_ne hst.1 hst.2

theorem isUnknown_iff (hkeys : entries.map Prod.fst = keys.map .text) :
    IsUnknown {e | e ∈ entries} k ↔ k ∈ unknownKeys keys := by
  rw [mem_unknownKeys]
  apply and_congr_left
  intro _
  have hinj : Function.Injective Value.text := fun _ _ h => Value.text.inj h
  rw [← List.mem_map_of_injective hinj, ← hkeys, List.mem_map]
  simp

theorem knownKeys_iff (hkeys : entries.map Prod.fst = keys.map .text) :
    KnownKeys {e | e ∈ entries} ↔ unknownKeys keys = [] := by
  rw [List.eq_nil_iff_forall_not_mem]
  constructor
  · intro hknown k hk
    obtain ⟨⟨v, hv⟩, hne⟩ := (isUnknown_iff hkeys).2 hk
    obtain ⟨key, he⟩ := hknown _ hv
    exact hne key (Value.text.inj he)
  · intro hnone e he
    have hm : e.1 ∈ keys.map .text := hkeys ▸ List.mem_map_of_mem he
    obtain ⟨k, hk, hek⟩ := List.mem_map.1 hm
    by_contra hne
    apply hnone k
    rw [mem_unknownKeys]
    refine ⟨hk, fun key hkey => hne ⟨key, ?_⟩⟩
    rw [← hek, hkey]
    rfl

theorem exists_keys_of_knownKeys (hknown : KnownKeys {e | e ∈ entries}) :
    ∃ keys, (entries.mapM fun e => e.1.codes?) = some keys ∧ unknownKeys keys = [] := by
  cases hm : entries.mapM fun e => e.1.codes? with
  | none =>
    obtain ⟨e, he, hc⟩ := mapM_codes?_eq_none_iff.1 hm
    obtain ⟨key, hkey⟩ := hknown e he
    rw [hkey] at hc
    cases hc
  | some keys => exact ⟨keys, rfl, (knownKeys_iff (mapM_codes?_eq_some_iff.1 hm)).1 hknown⟩

theorem valid_default : ({} : Options).Valid :=
  ⟨by decide, by decide⟩

theorem eq_of_value_eq {c d : Options} (hc : c.Valid) (hd : d.Valid)
    (h : ∀ key, c.value key = d.value key) : c = d := by
  have hflag := Value.bool.inj (h .closeQuoteOnNewLine)
  have hwidth := Value.int.inj (h .maxLineWidth)
  have hname : c.wrapStyle.name = d.wrapStyle.name := by
    have htext : (Value.ofText c.wrapStyle.name).text? = some d.wrapStyle.name :=
      Value.text?_eq_some_iff.2 (h .wrapStyle)
    rw [Value.text?_eq_some_iff.2 rfl] at htext
    exact Option.some.inj htext
  have hstyle : c.wrapStyle = d.wrapStyle := by
    have hs := WrapStyle.ofName?_eq_some_iff.2 ⟨hc.style_mem, hname⟩
    rw [WrapStyle.ofName?_eq_some_iff.2 ⟨hd.style_mem, rfl⟩] at hs
    exact (Option.some.inj hs).symm
  cases c
  cases d
  cases hflag
  cases hwidth
  cases hstyle
  rfl

theorem isNull_of_gives {m : Set (Value × Value)} (hnull : ∀ key, ¬ Gives m key .null)
    (hv : Gives m key v) : v.isNull = false := by
  rw [← Bool.not_eq_true, Value.isNull_iff]
  rintro rfl
  exact hnull key hv

theorem value_overridesOf (entries : List (Value × Value)) (key : OptionKey) :
    (overridesOf entries).value key = (lookup? entries key).getD .null := by
  cases key <;> rfl

section Distinct

variable (h : (entries.map Prod.fst).Nodup)
include h

theorem lookup?_eq_some_iff : lookup? entries key = some v ↔ Gives {e | e ∈ entries} key v := by
  rw [lookup?, Option.map_eq_some_iff]
  constructor
  · rintro ⟨e, hf, rfl⟩
    have hk := List.find?_some hf
    rw [decide_eq_true_iff, Value.text?_eq_some_iff] at hk
    rw [Gives, ← hk]
    exact List.mem_of_find?_eq_some hf
  · intro hm
    have hsome : (entries.find? fun e => e.1.text? = some key.name).isSome = true := by
      rw [List.find?_isSome]
      exact ⟨_, hm, decide_eq_true (Value.text?_eq_some_iff.2 rfl)⟩
    obtain ⟨e, hf⟩ := Option.isSome_iff_exists.1 hsome
    have hk := List.find?_some hf
    rw [decide_eq_true_iff, Value.text?_eq_some_iff] at hk
    refine ⟨e, hf, ?_⟩
    rw [List.inj_on_of_nodup_map h (List.mem_of_find?_eq_some hf) hm hk]

theorem lookup?_eq_none_iff :
    lookup? entries key = none ↔ ∀ v, ¬ Gives {e | e ∈ entries} key v := by
  simp only [Option.eq_none_iff_forall_ne_some, ne_eq, lookup?_eq_some_iff h]

theorem any_isNull_lookup?_iff :
    (lookup? entries key).any Value.isNull = true ↔ Gives {e | e ∈ entries} key .null := by
  rw [Option.any_eq_true, ← lookup?_eq_some_iff h]
  constructor
  · rintro ⟨v, hv, hnull⟩
    rwa [Value.isNull_iff.1 hnull] at hv
  · intro hv
    exact ⟨.null, hv, rfl⟩

theorem find?_isNull_eq_some_iff :
    (OptionKey.all.find? fun k => (lookup? entries k).any Value.isNull) = some key ↔
      Gives {e | e ∈ entries} key .null ∧
        ∀ other, Gives {e | e ∈ entries} other .null → key.name ≤ other.name := by
  simp only [OptionKey.find?_all_eq_some_iff, any_isNull_lookup?_iff h, OptionKey.name_le_name_iff]

theorem find?_isNull_eq_none_iff :
    (OptionKey.all.find? fun k => (lookup? entries k).any Value.isNull) = none ↔
      ∀ key, ¬ Gives {e | e ∈ entries} key .null := by
  simp only [List.find?_eq_none, any_isNull_lookup?_iff h, OptionKey.mem_all, forall_const]

theorem value_overridesOf_of_gives (hv : Gives {e | e ∈ entries} key v) :
    (overridesOf entries).value key = v := by
  rw [value_overridesOf, (lookup?_eq_some_iff h).2 hv]
  rfl

variable (hnull : ∀ key, ¬ Gives {e | e ∈ entries} key .null)
include hnull

theorem rejects_overridesOf_iff : (overridesOf entries).rejects key = true ↔
    ∃ v, Gives {e | e ∈ entries} key v ∧ key.takes v = false := by
  rw [Overrides.rejects_eq_true_iff]
  constructor
  · rintro ⟨hn, ht⟩
    cases hl : lookup? entries key with
    | none =>
      rw [value_overridesOf, hl] at hn
      cases hn
    | some v =>
      have hv := (lookup?_eq_some_iff h).1 hl
      rw [value_overridesOf_of_gives h hv] at ht
      exact ⟨v, hv, ht⟩
  · rintro ⟨v, hv, ht⟩
    rw [value_overridesOf_of_gives h hv]
    exact ⟨isNull_of_gives hnull hv, ht⟩

theorem find?_rejects_eq_some_iff :
    OptionKey.all.find? (overridesOf entries).rejects = some key ↔
      (∃ v, Gives {e | e ∈ entries} key v ∧ key.takes v = false) ∧
        ∀ other w, Gives {e | e ∈ entries} other w → other.takes w = false →
          OptionKey.all.idxOf key ≤ OptionKey.all.idxOf other := by
  simp only [OptionKey.find?_all_eq_some_iff, rejects_overridesOf_iff h hnull, forall_exists_index,
    and_imp]

theorem isAccepted_overridesOf_iff : (overridesOf entries).isAccepted = true ↔
    ∀ key v, Gives {e | e ∈ entries} key v → key.takes v = true := by
  simp only [Overrides.isAccepted_iff_find?_eq_none, List.find?_eq_none, OptionKey.mem_all,
    rejects_overridesOf_iff h hnull, not_exists, not_and, Bool.not_eq_false, forall_const]

theorem value_of_apply_overridesOf {d : Options} (hd : (overridesOf entries).apply {} = .ok d) :
    (∀ key v, Gives {e | e ∈ entries} key v → d.value key = v) ∧
      ∀ key, (∀ v, ¬ Gives {e | e ∈ entries} key v) → d.value key = ({} : Options).value key := by
  constructor
  · intro key v hv
    rw [Overrides.value_of_apply hd, value_overridesOf_of_gives h hv, Value.orElse,
      isNull_of_gives hnull hv]
    rfl
  · intro key hv
    rw [Overrides.value_of_apply hd, value_overridesOf, (lookup?_eq_none_iff h).2 hv]
    rfl

end Distinct

/-- The values of a mapping without unknown keys and nulls are checked option by option. -/
theorem outcome_apply (h : (entries.map Prod.fst).Nodup) (hknown : KnownKeys {e | e ∈ entries})
    (hnull : ∀ key, ¬ Gives {e | e ∈ entries} key .null) :
    Outcome {e | e ∈ entries} (((overridesOf entries).apply {}).mapError .options) := by
  cases hf : OptionKey.all.find? (overridesOf entries).rejects with
  | some key =>
    obtain ⟨⟨v, hv, hmisfit⟩, hfirst⟩ := (find?_rejects_eq_some_iff h hnull).1 hf
    rw [Overrides.apply_of_find?_eq_some hf, value_overridesOf_of_gives h hv]
    exact .fault hknown hnull hv hmisfit hfirst
  | none =>
    have haccepted := Overrides.isAccepted_iff_find?_eq_none.2 hf
    obtain ⟨d, hd⟩ := Overrides.exists_apply_eq_ok_iff.2 haccepted
    obtain ⟨hgiven, hdefault⟩ := value_of_apply_overridesOf h hnull hd
    rw [hd]
    exact .options hknown hnull ((isAccepted_overridesOf_iff h hnull).1 haccepted)
      (Overrides.valid_of_apply valid_default hd) hgiven hdefault

theorem outcome_ofMapping (h : (entries.map Prod.fst).Nodup) :
    Outcome {e | e ∈ entries} (ofMapping entries) := by
  rw [ofMapping]
  split
  · rename_i hm
    obtain ⟨e, he, hkey⟩ := mapM_codes?_eq_none_iff.1 hm
    exact .keyNotText he hkey
  · rename_i keys hm
    have hkeys := mapM_codes?_eq_some_iff.1 hm
    split
    · rename_i smallest others hu
      refine .unknownKeys ?_ (fun k => ?_) ?_
      · intro e he hkey
        have hnone := mapM_codes?_eq_none_iff.2 ⟨e, he, hkey⟩
        rw [hm] at hnone
        cases hnone
      · rw [isUnknown_iff hkeys, hu]
      · rw [← hu]
        exact pairwise_unknownKeys (hkeys ▸ h).of_map
    · rename_i hu
      have hknown := (knownKeys_iff hkeys).2 hu
      split
      · rename_i key hf
        obtain ⟨hnull, hfirst⟩ := (find?_isNull_eq_some_iff h).1 hf
        exact .noValue hknown hnull hfirst
      · rename_i hf
        exact outcome_apply h hknown ((find?_isNull_eq_none_iff h).1 hf)

theorem ofMapping_of_null (hknown : KnownKeys {e | e ∈ entries})
    (hf : (OptionKey.all.find? fun k => (lookup? entries k).any Value.isNull) = some key) :
    ofMapping entries = .error (.options (.noValue key)) := by
  obtain ⟨keys, hm, hu⟩ := exists_keys_of_knownKeys hknown
  simp only [ofMapping, hm, hu, hf]

theorem ofMapping_of_no_null (hknown : KnownKeys {e | e ∈ entries})
    (hf : (OptionKey.all.find? fun k => (lookup? entries k).any Value.isNull) = none) :
    ofMapping entries = ((overridesOf entries).apply {}).mapError .options := by
  obtain ⟨keys, hm, hu⟩ := exists_keys_of_knownKeys hknown
  simp only [ofMapping, hm, hu, hf]

theorem ofMapping_eq_of_outcome {r : Except MappingError Options}
    (h : (entries.map Prod.fst).Nodup) (ho : Outcome {e | e ∈ entries} r) :
    ofMapping entries = r := by
  cases ho with
  | keyNotText he hkey => rw [ofMapping, mapM_codes?_eq_none_iff.2 ⟨_, he, hkey⟩]
  | @unknownKeys smallest others htext hmem hsorted =>
    cases hm : entries.mapM fun e => e.1.codes? with
    | none =>
      obtain ⟨e, he, hkey⟩ := mapM_codes?_eq_none_iff.1 hm
      exact absurd hkey (htext e he)
    | some keys =>
      have hkeys := mapM_codes?_eq_some_iff.1 hm
      have hu : unknownKeys keys = smallest :: others := by
        apply (pairwise_unknownKeys (hkeys ▸ h).of_map).eq_of_mem_iff hsorted
        intro k
        rw [hmem, isUnknown_iff hkeys]
      rw [ofMapping, hm]
      simp only [hu]
  | noValue hknown hnull hfirst =>
    exact ofMapping_of_null hknown ((find?_isNull_eq_some_iff h).2 ⟨hnull, hfirst⟩)
  | fault hknown hnull hv hmisfit hfirst =>
    have hf := (find?_rejects_eq_some_iff h hnull).2 ⟨⟨_, hv, hmisfit⟩, hfirst⟩
    rw [ofMapping_of_no_null hknown ((find?_isNull_eq_none_iff h).2 hnull),
      Overrides.apply_of_find?_eq_some hf, value_overridesOf_of_gives h hv]
    rfl
  | @options options hknown hnull hfit hvalid hgiven hdefault =>
    obtain ⟨d, hd⟩ := Overrides.exists_apply_eq_ok_iff.2
      ((isAccepted_overridesOf_iff h hnull).2 hfit)
    obtain ⟨hgiven', hdefault'⟩ := value_of_apply_overridesOf h hnull hd
    have he : d = options := by
      apply eq_of_value_eq (Overrides.valid_of_apply valid_default hd) hvalid
      intro key
      by_cases hg : ∃ v, Gives {e | e ∈ entries} key v
      · obtain ⟨v, hv⟩ := hg
        rw [hgiven' key v hv, hgiven key v hv]
      · rw [not_exists] at hg
        rw [hdefault' key hg, hdefault key hg]
    rw [ofMapping_of_no_null hknown ((find?_isNull_eq_none_iff h).2 hnull), hd, he]
    rfl

theorem ofMapping_eq_iff {r : Except MappingError Options} (h : (entries.map Prod.fst).Nodup) :
    ofMapping entries = r ↔ Outcome {e | e ∈ entries} r := by
  constructor
  · rintro rfl
    exact outcome_ofMapping h
  · exact ofMapping_eq_of_outcome h

theorem ofMapping_eq_of_perm {entries' : List (Value × Value)} (h : (entries.map Prod.fst).Nodup)
    (hp : entries.Perm entries') : ofMapping entries' = ofMapping entries := by
  have hset : {e | e ∈ entries'} = {e | e ∈ entries} := Set.ext fun e => hp.mem_iff.symm
  rw [ofMapping_eq_iff ((hp.map Prod.fst).nodup_iff.1 h), hset]
  exact outcome_ofMapping h

/-- A mapping comes to what the rules say, whatever the order of its entries is. An error is
reported with the key at fault, except where the value at fault cannot be written out. -/
theorem ofMapping_outcome (h : (entries.map Prod.fst).Nodup) :
    (∀ r, ofMapping entries = r ↔ Outcome {e | e ∈ entries} r) ∧
      (∀ entries', entries.Perm entries' → ofMapping entries' = ofMapping entries) ∧
      (∀ smallest others, (OptionsError.unknownKeys smallest others).report? =
        some (smallest, "Unknown configuration key(s): ".toList ++
          Value.commaSeparated ((smallest :: others).map CodeText.written))) ∧
      (∀ key, (OptionsError.noValue key).report? =
        some (key.name.codes, key.name ++ " must have a value".toList)) ∧
      ∀ key v, (OptionKey.fault key v).report? =
        if v.isWritable then some (key.name.codes, (key.fault v).message) else none := by
  refine ⟨fun r => ofMapping_eq_iff h, fun entries' => ofMapping_eq_of_perm h, fun _ _ => rfl,
    OptionKey.report?_noValue, fun key v => ?_⟩
  rw [OptionsError.report?_eq, OptionKey.isWritable_fault, OptionKey.keyCodes_fault]

/-- Two unknown keys are reported in ascending order, also next to other faults. -/
theorem ofMapping_outcome_of_several_faults :
    let entries := [(.ofText "wrap_indent_style".toList, .null), (.ofText "zebra".toList, .int 1),
      (.ofText "max_line_width".toList, .int (-3)), (.ofText "apple".toList, .bool true)]
    let error := MappingError.options
      (.unknownKeys (Text.codes "apple".toList) [Text.codes "zebra".toList])
    (entries.map Prod.fst).Nodup ∧ Outcome {e | e ∈ entries} (.error error) ∧
      ofMapping entries.reverse = .error error := by
  intro entries error
  have h : (entries.map Prod.fst).Nodup := by
    simp [entries, Value.ofText, Text.codes]
  have he : ofMapping entries = .error error := rfl
  obtain ⟨hiff, hperm, -⟩ := ofMapping_outcome h
  exact ⟨h, (hiff _).1 he, (hperm _ (List.reverse_perm _).symm).trans he⟩

theorem ofMapping_width_of_neg {n : Int} (hn : n < 0) :
    ofMapping [(.ofText OptionKey.maxLineWidth.name, .int n)] =
      .error (.options (.negative n)) := by
  have hf : OptionKey.all.find? (Overrides.rejects { maxLineWidth := .int n }) =
      some .maxLineWidth := by
    simp [OptionKey.all, Overrides.rejects, Overrides.value, OptionKey.takes, Value.isNull, hn]
  calc
    ofMapping [(.ofText OptionKey.maxLineWidth.name, .int n)] =
        (Overrides.apply { maxLineWidth := .int n } {}).mapError .options := rfl
    _ = .error (.options (.negative n)) := by
      rw [Overrides.apply_of_find?_eq_some hf]
      rfl

/-- A width that is negative and too long to be written gives an error without a report. -/
theorem ofMapping_unreported_of_long_width :
    let width : Int := -(10 ^ 4300 : Nat)
    OptionKey.maxLineWidth.takes (.int width) = false ∧
      ∃ e, ofMapping [(.ofText OptionKey.maxLineWidth.name, .int width)] = .error (.options e) ∧
        e.report? = none := by
  intro width
  have hneg : width < 0 := by decide +kernel
  exact ⟨by decide +kernel, .negative width, ofMapping_width_of_neg hneg, by decide +kernel⟩

end Options

end ClassFormat
