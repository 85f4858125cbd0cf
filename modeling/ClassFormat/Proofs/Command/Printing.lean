import Mathlib.Data.Char
import Mathlib.Data.List.Basic
import Mathlib.Data.List.Infix
import Mathlib.Data.List.TakeWhile
import ClassFormat.Command.Platform

namespace ClassFormat.Command

/-- An escape character and a bracket, then parameters, intermediate characters and a final one. -/
def IsControlSequence (s : Text) : Prop :=
  ∃ ps qs c, s = escapeChar :: '[' :: (ps ++ qs ++ [c]) ∧ (∀ d ∈ ps, isParameter d = true) ∧
    (∀ d ∈ qs, isIntermediate d = true) ∧ isFinal c = true

def StartsSequence (t : Text) : Prop := ∃ s, IsControlSequence s ∧ s <+: t

/-- A text in which no control sequence occurs. -/
def IsPlain (t : Text) : Prop := ∀ s, IsControlSequence s → ¬ s <:+: t

/-- What is printed of a text is all but its control sequences. -/
structure PrintsPlain (print : Text → Text) : Prop where
  nil : print [] = []
  cons : ∀ c t, ¬ StartsSequence (c :: t) → print (c :: t) = c :: print t
  sequence : ∀ s t, IsControlSequence s → print (s ++ t) = print t

theorem isParameter_eq_false_of_isIntermediate {c : Char} (h : isIntermediate c = true) :
    isParameter c = false := by
  rw [isIntermediate, Bool.and_eq_true, decide_eq_true_eq, decide_eq_true_eq] at h
  have hc : ¬ '0' ≤ c := not_le_of_gt (lt_of_le_of_lt h.2 (by decide : '/' < '0'))
  rw [isParameter, decide_eq_false hc, Bool.false_and]

theorem isParameter_eq_false_of_isFinal {c : Char} (h : isFinal c = true) :
    isParameter c = false := by
  rw [isFinal, Bool.and_eq_true, decide_eq_true_eq, decide_eq_true_eq] at h
  have hc : ¬ c ≤ '?' := not_le_of_gt (lt_of_lt_of_le (by decide : '?' < '@') h.1)
  rw [isParameter, decide_eq_false hc, Bool.and_false]

theorem isIntermediate_eq_false_of_isFinal {c : Char} (h : isFinal c = true) :
    isIntermediate c = false := by
  rw [isFinal, Bool.and_eq_true, decide_eq_true_eq, decide_eq_true_eq] at h
  have hc : ¬ c ≤ '/' := not_le_of_gt (lt_of_lt_of_le (by decide : '/' < '@') h.1)
  rw [isIntermediate, decide_eq_false hc, Bool.and_false]

theorem IsControlSequence.not_mem_dropLast {s : Text} {c : Char} (h : IsControlSequence s)
    (hc : isFinal c = true) (hb : c ≠ '[') : c ∉ s.dropLast := by
  obtain ⟨ps, qs, d, rfl, hps, hqs, hd⟩ := h
  have he : (escapeChar :: '[' :: (ps ++ qs ++ [d])).dropLast =
      escapeChar :: '[' :: (ps ++ qs) := by
    rw [← List.cons_append, ← List.cons_append, List.dropLast_concat]
  rw [he, List.mem_cons, List.mem_cons, List.mem_append]
  rintro (rfl | rfl | hm | hm)
  · exact absurd hc (by decide)
  · exact hb rfl
  · exact absurd (hps c hm) (by rw [isParameter_eq_false_of_isFinal hc]; decide)
  · exact absurd (hqs c hm) (by rw [isIntermediate_eq_false_of_isFinal hc]; decide)

/-- The characters of a control sequence behind the bracket are found again in any longer text. -/
theorem dropWhile_sequence {ps qs : Text} {c : Char} (hps : ∀ d ∈ ps, isParameter d = true)
    (hqs : ∀ d ∈ qs, isIntermediate d = true) (hc : isFinal c = true) (r : Text) :
    ((ps ++ qs ++ c :: r).dropWhile isParameter).dropWhile isIntermediate = c :: r := by
  have hq : (qs ++ c :: r).dropWhile isParameter = qs ++ c :: r := by
    cases qs with
    | nil => exact List.dropWhile_cons_of_neg (by simp [isParameter_eq_false_of_isFinal hc])
    | cons q qs =>
      have h := isParameter_eq_false_of_isIntermediate (hqs q List.mem_cons_self)
      exact List.dropWhile_cons_of_neg (by simp [h])
  have hf := isIntermediate_eq_false_of_isFinal hc
  rw [List.append_assoc, List.dropWhile_append_of_pos hps, hq, List.dropWhile_append_of_pos hqs,
    List.dropWhile_cons_of_neg (by simp [hf])]

theorem IsControlSequence.length_pos {s : Text} (h : IsControlSequence s) : 0 < s.length := by
  obtain ⟨ps, qs, c, rfl, -⟩ := h
  exact Nat.succ_pos _

theorem StartsSequence.head_eq {c : Char} {t : Text} (h : StartsSequence (c :: t)) :
    c = escapeChar := by
  obtain ⟨s, ⟨ps, qs, d, rfl, -⟩, hp⟩ := h
  exact (List.cons_prefix_cons.1 hp).1.symm

theorem isPlain_cons_iff {c : Char} {t : Text} :
    IsPlain (c :: t) ↔ ¬ StartsSequence (c :: t) ∧ IsPlain t := by
  constructor
  · intro h
    refine ⟨?_, fun s hs hi => h s hs (hi.trans (List.suffix_cons c t).isInfix)⟩
    rintro ⟨s, hs, hp⟩
    exact h s hs hp.isInfix
  · rintro ⟨hn, h⟩ s hs hi
    rcases List.infix_cons_iff.1 hi with hp | hi
    · exact hn ⟨s, hs, hp⟩
    · exact h s hs hi

theorem isPlain_nil : IsPlain [] := by
  intro s hs h
  rw [List.infix_nil.1 h] at hs
  exact absurd hs.length_pos (Nat.lt_irrefl 0)

theorem isPlain_of_not_mem {t : Text} (h : escapeChar ∉ t) : IsPlain t := by
  rintro s ⟨ps, qs, c, rfl, -⟩ hi
  exact h (hi.subset List.mem_cons_self)

namespace PrintsPlain

variable {print : Text → Text} (hp : PrintsPlain print)
include hp

theorem sublist (t : Text) : (print t).Sublist t := by
  match t with
  | [] => rw [hp.nil]
  | c :: cs =>
    by_cases h : StartsSequence (c :: cs)
    · obtain ⟨s, hs, u, hu⟩ := h
      have hlt : u.length < (c :: cs).length := by
        rw [← hu, List.length_append]
        exact Nat.lt_add_of_pos_left hs.length_pos
      rw [← hu, hp.sequence s u hs]
      exact (sublist u).trans (List.sublist_append_right s u)
    · rw [hp.cons c cs h]
      exact (sublist cs).cons_cons c
termination_by t.length
decreasing_by
  · exact hlt
  · exact Nat.lt_succ_self cs.length

theorem mem_of_mem {t : Text} {c : Char} (h : c ∈ print t) : c ∈ t :=
  (hp.sublist t).subset h

theorem append_of_not_mem {s : Text} (h : escapeChar ∉ s) (t : Text) :
    print (s ++ t) = s ++ print t := by
  induction s with
  | nil => rfl
  | cons c s ih =>
    obtain ⟨hc, hs⟩ := List.ne_and_not_mem_of_not_mem_cons h
    rw [List.cons_append, hp.cons _ _ fun hstart => hc hstart.head_eq.symm, ih hs,
      List.cons_append]

theorem eq_of_isPlain {t : Text} (h : IsPlain t) : print t = t := by
  induction t with
  | nil => exact hp.nil
  | cons c cs ih =>
    obtain ⟨hc, hcs⟩ := isPlain_cons_iff.1 h
    rw [hp.cons c cs hc, ih hcs]

theorem length_lt {t : Text} (h : ¬ IsPlain t) : (print t).length < t.length := by
  induction t with
  | nil => exact absurd isPlain_nil h
  | cons c cs ih =>
    by_cases hc : StartsSequence (c :: cs)
    · obtain ⟨s, hs, u, hu⟩ := hc
      rw [← hu, hp.sequence s u hs, List.length_append]
      exact Nat.lt_of_le_of_lt (hp.sublist u).length_le (Nat.lt_add_of_pos_left hs.length_pos)
    · have hcs : ¬ IsPlain cs := fun hplain => h (isPlain_cons_iff.2 ⟨hc, hplain⟩)
      rw [hp.cons c cs hc, List.length_cons, List.length_cons]
      exact Nat.succ_lt_succ (ih hcs)

/-- A text is printed as it is if and only if no control sequence occurs in it. -/
theorem eq_self_iff {t : Text} : print t = t ↔ IsPlain t := by
  refine ⟨fun he => ?_, hp.eq_of_isPlain⟩
  by_contra h
  exact absurd (congrArg List.length he) (Nat.ne_of_lt (hp.length_lt h))

theorem length_flatMap_le (ts : List Text) : (ts.flatMap print).length ≤ ts.flatten.length := by
  induction ts with
  | nil => exact Nat.le_refl 0
  | cons t ts ih =>
    rw [List.flatMap_cons, List.flatten_cons, List.length_append, List.length_append]
    exact Nat.add_le_add (hp.sublist t).length_le ih

/-- Texts printed one after another are their concatenation if and only if each is printed as it
is. -/
theorem flatMap_eq_flatten_iff {ts : List Text} :
    ts.flatMap print = ts.flatten ↔ ∀ t ∈ ts, IsPlain t := by
  induction ts with
  | nil => simp
  | cons t ts ih =>
    rw [List.flatMap_cons, List.flatten_cons, List.forall_mem_cons, ← ih, ← hp.eq_self_iff]
    constructor
    · intro he
      have hl := congrArg List.length he
      have hle := hp.length_flatMap_le ts
      have h := (hp.sublist t).length_le
      rw [List.length_append, List.length_append] at hl
      have ht : (print t).length = t.length := by omega
      exact List.append_inj he ht
    · rintro ⟨ht, hts⟩
      rw [ht, hts]

theorem append_cons {s : Text} {c : Char} (h : IsPlain (s ++ [c])) (hc : isFinal c = true)
    (hb : c ≠ '[') (t : Text) : print (s ++ c :: t) = s ++ c :: print t := by
  induction s with
  | nil =>
    have he : c ≠ escapeChar := by
      rintro rfl
      exact absurd hc (by decide)
    exact hp.cons c t fun hstart => he hstart.head_eq
  | cons d s ih =>
    rw [List.cons_append] at h ⊢
    obtain ⟨hd, hs⟩ := isPlain_cons_iff.1 h
    rw [hp.cons, ih hs, List.cons_append]
    rintro ⟨u, hu, hprefix⟩
    apply hd
    refine ⟨u, hu, ?_⟩
    have hw : u <+: (d :: (s ++ [c])) ++ t := by simpa using hprefix
    -- A sequence that went on behind the final character would hold it before its end.
    rcases List.prefix_or_prefix_of_prefix hw (List.prefix_append _ t) with h' | ⟨v, rfl⟩
    · exact h'
    · cases v with
      | nil => rw [List.append_nil]
      | cons e v =>
        refine absurd ?_ (hu.not_mem_dropLast hc hb)
        rw [List.dropLast_append_of_ne_nil (List.cons_ne_nil e v)]
        exact List.mem_append_left _ (by simp)

end PrintsPlain

theorem sequenceLength_append {ps qs : Text} {c : Char} (hps : ∀ d ∈ ps, isParameter d = true)
    (hqs : ∀ d ∈ qs, isIntermediate d = true) (hc : isFinal c = true) (t : Text) :
    sequenceLength ('[' :: (ps ++ qs ++ c :: t)) = ('[' :: (ps ++ qs ++ [c])).length := by
  rw [sequenceLength, dropWhile_sequence hps hqs hc]
  simp only [hc, if_true, List.length_append, List.length_cons, List.length_nil]
  omega

theorem sequenceLength_pos_iff {t : Text} :
    0 < sequenceLength t ↔ StartsSequence (escapeChar :: t) := by
  constructor
  · intro h
    unfold sequenceLength at h
    split at h
    · rename_i cs
      split at h
      · rename_i c after he
        split at h
        · rename_i hc
          have hcs : cs = cs.takeWhile isParameter ++
              (cs.dropWhile isParameter).takeWhile isIntermediate ++ [c] ++ after := by
            rw [List.append_assoc, List.append_assoc, List.singleton_append, ← he,
              List.takeWhile_append_dropWhile, List.takeWhile_append_dropWhile]
          refine ⟨escapeChar :: '[' :: (cs.takeWhile isParameter ++
            (cs.dropWhile isParameter).takeWhile isIntermediate ++ [c]), ⟨_, _, c, rfl,
              fun _ hd => List.mem_takeWhile_imp hd, fun _ hd => List.mem_takeWhile_imp hd, hc⟩,
            after, ?_⟩
          rw [List.cons_append, List.cons_append, ← hcs]
        · cases h
      · cases h
    · cases h
  · rintro ⟨s, ⟨ps, qs, c, rfl, hps, hqs, hc⟩, r, hr⟩
    rw [List.cons_append, List.cons.injEq] at hr
    obtain ⟨-, rfl⟩ := hr
    rw [List.cons_append, List.append_assoc _ [c], List.singleton_append,
      sequenceLength_append hps hqs hc]
    exact Nat.succ_pos _

theorem plainFrom_length_append (s t : Text) : plainFrom s.length (s ++ t) = plain t := by
  induction s with
  | nil => rfl
  | cons c s ih => exact ih

theorem prints_plain : PrintsPlain plain where
  nil := rfl
  cons c t h := by
    have hn : ¬ (c = escapeChar ∧ 0 < sequenceLength t) := by
      rintro ⟨rfl, hl⟩
      exact h (sequenceLength_pos_iff.1 hl)
    rw [plain, plainFrom, if_neg (by simpa using hn), plain]
  sequence s t h := by
    obtain ⟨ps, qs, c, rfl, hps, hqs, hc⟩ := h
    have he : ('[' :: (ps ++ qs ++ [c])) ++ t = '[' :: (ps ++ qs ++ c :: t) := by simp
    have hl := sequenceLength_append hps hqs hc t
    have hpos : 0 < sequenceLength ('[' :: (ps ++ qs ++ c :: t)) := hl ▸ Nat.succ_pos _
    rw [List.cons_append, he, plain, plainFrom, if_pos (by simpa using hpos), hl, ← he,
      plainFrom_length_append]

instance (t : Text) : Decidable (IsPlain t) :=
  decidable_of_iff (plain t = t) prints_plain.eq_self_iff

end ClassFormat.Command
