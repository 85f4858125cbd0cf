import Mathlib.Logic.Function.Iterate
import ClassFormat.Proofs.Document.LineEnds
import ClassFormat.Proofs.Document.Repetition

namespace ClassFormat

open Text Tag Document

namespace Segment

variable {options : Options} {newline : Newline} {indent rest : Text} {s : Segment}
  {ss : List Segment} {n k : Nat}

def passNewline (rest : Text) (ss : List Segment) : Newline := (join rest ss).dominantNewline

/-- The segments of a document after one pass. -/
def pass (options : Options) (rest : Text) (ss : List Segment) : List Segment :=
  formatAll options (passNewline rest ss) [] ss

/-- At most the given number of passes change the segments. -/
def StopsWithin (options : Options) (rest : Text) (n : Nat) (ss : List Segment) : Prop :=
  ∃ m ≤ n, (pass options rest)^[m + 1] ss = (pass options rest)^[m] ss

theorem StopsWithin.of_iterate (h : StopsWithin options rest n ((pass options rest)^[k] ss)) :
    StopsWithin options rest (n + k) ss := by
  obtain ⟨m, hm, he⟩ := h
  refine ⟨m + k, Nat.add_le_add_right hm k, ?_⟩
  rwa [← Function.iterate_add_apply, ← Function.iterate_add_apply, Nat.add_right_comm] at he

theorem StopsWithin.mono {n' : Nat} (h : StopsWithin options rest n ss) (hn : n ≤ n') :
    StopsWithin options rest n' ss := by
  obtain ⟨m, hm, he⟩ := h
  exact ⟨m, hm.trans hn, he⟩

theorem format_format (h : Indentation indent) :
    (s.format options newline indent).format options newline indent =
      s.format options newline indent := by
  have hv : packedValue options newline indent (s.format options newline indent).tag.value =
      (s.format options newline indent).tag.value := by
    rw [format_value, packedValue_packedValue h]
  rw [format, if_pos hv]

/-- If some segments have their final form, then after one more pass the next one has it too. -/
theorem take_formatAll_formatAll {done : Text} {i : Nat}
    (h : (formatAll options newline done ss).take i = ss.take i) :
    (formatAll options newline done (formatAll options newline done ss)).take (i + 1) =
      (formatAll options newline done ss).take (i + 1) := by
  induction ss generalizing done i with
  | nil => rfl
  | cons s ss ih =>
    rw [formatAll, formatAll, format_gap, format_format (indentation_lastIndent _),
      List.take_succ_cons, List.take_succ_cons]
    cases i with
    | zero => rw [List.take_zero, List.take_zero]
    | succ i =>
      -- The first segment did not change, so both passes see the same text before the others.
      rw [formatAll, List.take_succ_cons, List.take_succ_cons, List.cons.injEq] at h
      rw [h.1, ih h.2]

theorem length_pass : (pass options rest ss).length = ss.length := by
  rw [← List.length_map gap, pass, map_gap_formatAll, List.length_map]

theorem length_iterate_pass (k : Nat) (ss : List Segment) :
    ((pass options rest)^[k] ss).length = ss.length := by
  induction k with
  | zero => rfl
  | succ k ih => rw [Function.iterate_succ_apply', length_pass, ih]

/-- As long as the line ending does not change, every pass adds a tag that has its final form. -/
theorem take_iterate_pass {i : Nat}
    (h : ∀ k ≤ i, passNewline rest ((pass options rest)^[k] ss) = passNewline rest ss) :
    ((pass options rest)^[i + 1] ss).take i = ((pass options rest)^[i] ss).take i := by
  induction i with
  | zero => rw [List.take_zero, List.take_zero]
  | succ i ih =>
    have ih := ih fun k hk => h k (Nat.le_succ_of_le hk)
    have hn := (h (i + 1) (Nat.le_refl _)).trans (h i (Nat.le_succ i)).symm
    rw [Function.iterate_succ_apply'] at ih hn
    rw [Function.iterate_succ_apply', Function.iterate_succ_apply', pass, hn]
    exact take_formatAll_formatAll ih

theorem passNewline_eq_or_exists_change (options : Options) (rest : Text) (ss : List Segment)
    (i : Nat) :
    (∀ k ≤ i, passNewline rest ((pass options rest)^[k] ss) = passNewline rest ss) ∨
      ∃ k < i, passNewline rest ((pass options rest)^[k] ss) = passNewline rest ss ∧
        passNewline rest ((pass options rest)^[k + 1] ss) ≠ passNewline rest ss := by
  induction i with
  | zero =>
    left
    intro k hk
    rw [Nat.le_zero.1 hk]
    rfl
  | succ i ih =>
    rcases ih with h | ⟨k, hk, h⟩
    · by_cases hi : passNewline rest ((pass options rest)^[i + 1] ss) = passNewline rest ss
      · left
        intro k hk
        rcases Nat.le_succ_iff.1 hk with hk | rfl
        · exact h k hk
        · exact hi
      · exact .inr ⟨i, Nat.lt_succ_self i, h i (Nat.le_refl i), hi⟩
    · exact .inr ⟨k, Nat.lt_succ_of_lt hk, h⟩

/-- There is nothing to do after as many passes as there are tags, unless the line ending changes
before. -/
theorem stopsWithin_or_exists_change (options : Options) (rest : Text) (ss : List Segment) :
    StopsWithin options rest ss.length ss ∨
      ∃ k < ss.length, passNewline rest ((pass options rest)^[k] ss) = passNewline rest ss ∧
        passNewline rest ((pass options rest)^[k + 1] ss) ≠ passNewline rest ss := by
  rcases passNewline_eq_or_exists_change options rest ss ss.length with h | h
  · left
    have ht := take_iterate_pass h
    rw [List.take_of_length_le (length_iterate_pass _ ss).le,
      List.take_of_length_le (length_iterate_pass _ ss).le] at ht
    exact ⟨ss.length, Nat.le_refl _, ht⟩
  · exact .inr h

theorem scanned_pass (h : Scanned rest ss) (options : Options) :
    Scanned rest (pass options rest ss) :=
  scanned_formatAll h []

theorem scanned_iterate_pass (h : Scanned rest ss) (options : Options) (k : Nat) :
    Scanned rest ((pass options rest)^[k] ss) := by
  induction k with
  | zero => exact h
  | succ k ih =>
    rw [Function.iterate_succ_apply']
    exact scanned_pass ih options

theorem favored_pass (options : Options) (rest : Text) (ss : List Segment) :
    favored rest (pass options rest ss) = favored rest ss := by
  rw [favored, pass, kept_formatAll, favored]

theorem favored_iterate_pass (options : Options) (rest : Text) (ss : List Segment) (k : Nat) :
    favored rest ((pass options rest)^[k] ss) = favored rest ss := by
  induction k with
  | zero => rfl
  | succ k ih => rw [Function.iterate_succ_apply', favored_pass, ih]

theorem Scanned.passNewline_iterate_pass (h : Scanned rest ss)
    (hl : ∀ s ∈ ss, s.Leans (favored rest ss)) (options : Options) (k : Nat) :
    passNewline rest ((pass options rest)^[k] ss) = favored rest ss := by
  induction k generalizing ss with
  | zero => exact dominantNewline_eq_favored hl
  | succ k ih =>
    have hn : passNewline rest ss = favored rest ss := dominantNewline_eq_favored hl
    rw [Function.iterate_succ_apply, ih (scanned_pass h options), favored_pass]
    rw [favored_pass, pass, hn]
    exact h.leans_formatAll hl []

theorem Scanned.stopsWithin_of_favored (h : Scanned rest ss)
    (hne : passNewline rest (pass options rest ss) ≠ passNewline rest ss)
    (hf : passNewline rest (pass options rest ss) = favored rest ss) :
    StopsWithin options rest ss.length (pass options rest ss) := by
  have hl : ∀ s ∈ pass options rest (pass options rest ss),
      s.Leans (favored rest (pass options rest (pass options rest ss))) := by
    rw [favored_pass, favored_pass, ← hf]
    exact h.leans_formatAll_of_ne hne [] []
  rcases stopsWithin_or_exists_change options rest (pass options rest ss) with hs | ⟨k, _, _, hk⟩
  · rwa [length_pass] at hs
  · have h₂ := scanned_pass (scanned_pass h options) options
    rw [Function.iterate_succ_apply, h₂.passNewline_iterate_pass hl, favored_pass, favored_pass,
      hf] at hk
    exact absurd rfl hk

theorem Scanned.stopsWithin_of_change (h : Scanned rest ss)
    (hne : passNewline rest (pass options rest ss) ≠ passNewline rest ss) :
    StopsWithin options rest (2 * ss.length) (pass options rest ss) := by
  by_cases hf : passNewline rest (pass options rest ss) = favored rest ss
  · exact (h.stopsWithin_of_favored hne hf).mono (by omega)
  rcases stopsWithin_or_exists_change options rest (pass options rest ss) with
    hs | ⟨k, hk, he, hk'⟩
  · exact hs.mono (by rw [length_pass]; omega)
  have h₂ := scanned_iterate_pass (scanned_pass h options) options k
  have hlen : ((pass options rest)^[k] (pass options rest ss)).length = ss.length := by
    rw [length_iterate_pass, length_pass]
  rw [Function.iterate_succ_apply'] at hk'
  -- The second change leads away from a line ending that is not favored.
  have hf₂ := Newline.eq_of_ne_of_ne hk' hf
  rw [← favored_pass options rest ss, ← favored_iterate_pass options rest _ k] at hf₂
  have hs := h₂.stopsWithin_of_favored (by rwa [he]) hf₂
  rw [← Function.iterate_succ_apply' (pass options rest), hlen] at hs
  rw [length_pass] at hk
  exact hs.of_iterate.mono (by omega)

/-- The line ending changes at most twice, so three passes a tag are enough: after a change all tags
lean to the new line ending, and where the rest of the text favors it too, it stays. -/
theorem Scanned.stopsWithin (h : Scanned rest ss) (options : Options) :
    StopsWithin options rest (3 * ss.length) ss := by
  rcases stopsWithin_or_exists_change options rest ss with hs | ⟨k, hk, he, hne⟩
  · exact hs.mono (by omega)
  rw [Function.iterate_succ_apply', ← he] at hne
  have hs := (scanned_iterate_pass h options k).stopsWithin_of_change hne
  rw [← Function.iterate_succ_apply' (pass options rest), length_iterate_pass] at hs
  exact hs.of_iterate.mono (by omega)

theorem Scanned.iterate_format_join (h : Scanned rest ss) (options : Options) (n : Nat) :
    (Document.format options)^[n] (join rest ss) = join rest ((pass options rest)^[n] ss) := by
  induction n with
  | zero => rfl
  | succ n ih =>
    rw [Function.iterate_succ_apply', Function.iterate_succ_apply', ih,
      (scanned_iterate_pass h options n).format_join]
    rfl

end Segment

open Segment

namespace Document

/-- Formatting again and again comes to an end, with nothing left to edit. -/
theorem exists_iterate_format_eq (options : Options) (t : Text) :
    ∃ n ≤ 3 * (scan t).length, (format options)^[n + 1] t = (format options)^[n] t ∧
      edits options ((format options)^[n] t) = [] := by
  obtain ⟨rest, ss, hs, rfl⟩ := exists_scanned t
  obtain ⟨n, hn, he⟩ := hs.stopsWithin options
  have hf : (format options)^[n + 1] (join rest ss) = (format options)^[n] (join rest ss) := by
    rw [hs.iterate_format_join, hs.iterate_format_join, he]
  refine ⟨n, ?_, hf, ?_⟩
  · rwa [hs.scan_join, length_locate]
  · rw [Function.iterate_succ_apply'] at hf
    exact format_eq_self_iff.1 hf

end Document

end ClassFormat
