import Mathlib.Data.List.Nodup
import Mathlib.Data.List.Perm.Basic
import ClassFormat.Document
import ClassFormat.Proofs.Sorting

namespace ClassFormat

theorem insertBy_of_forall_not {α : Type} {le : α → α → Bool} {a : α} {l : List α}
    (h : ∀ b ∈ l, le a b = false) : insertBy le a l = l ++ [a] := by
  induction l with
  | nil => rfl
  | cons b bs ih =>
    rw [insertBy, h b List.mem_cons_self]
    simp only [Bool.false_eq_true, if_false, List.cons_append]
    rw [ih fun c hc => h c (List.mem_cons_of_mem b hc)]

theorem Text.splice_append (s t u new : Text) :
    (s ++ t ++ u : Text).splice s.length ((s.length + t.length : Nat) : Int) new =
      s ++ new ++ u := by
  have hs : (s ++ t ++ u : Text).position s.length = s.length :=
    position_natCast (by simp only [List.length_append]; omega)
  have ht : (s ++ t ++ u : Text).position ((s.length + t.length : Nat) : Int) =
      s.length + t.length :=
    position_natCast (by simp only [List.length_append]; omega)
  rw [splice, hs, ht, List.append_assoc s t u, List.take_left, ← List.append_assoc s t u,
    ← List.length_append, List.drop_left]

namespace Edit

theorem sortByStart_of_pairwise {edits : List Edit}
    (h : edits.Pairwise fun a b => a.start < b.start) : sortByStart edits = edits.reverse := by
  induction h with
  | nil => rfl
  | @cons e es he hes ih =>
    rw [sortByStart, sortBy, List.foldr_cons, ← sortBy, ← sortByStart, ih, List.reverse_cons]
    apply insertBy_of_forall_not
    intro b hb
    have hlt := he b (List.mem_reverse.1 hb)
    exact decide_eq_false (Int.not_le.2 hlt)

theorem applyAll_of_pairwise {edits : List Edit} (h : edits.Pairwise fun a b => a.start < b.start)
    (t : Text) : applyAll edits t = edits.foldr (fun edit t => edit.apply t) t := by
  rw [applyAll, sortByStart_of_pairwise h, List.foldl_reverse]

end Edit

namespace Edit

variable {edits edits' : List Edit} {t : Text}

/-- Edits of ranges inside a text that do not overlap and start at different places. -/
structure Independent (edits : List Edit) (t : Text) : Prop where
  start_nonneg : ∀ e ∈ edits, 0 ≤ e.start
  start_le_stop : ∀ e ∈ edits, e.start ≤ e.stop
  stop_le_length : ∀ e ∈ edits, e.stop ≤ t.length
  nodup_start : (edits.map start).Nodup
  apart : edits.Pairwise fun a b => a.stop ≤ b.start ∨ b.stop ≤ a.start

/-- Sorts edits by start, the smallest first. -/
def ascending (edits : List Edit) : List Edit := sortBy (fun a b => a.start ≤ b.start) edits

/-- A text from a place on, with new texts in the ranges of the edits, which are listed in
ascending order. -/
def replaceFrom (t : Text) (place : Nat) : List Edit → Text
  | [] => t.drop place
  | e :: es => (t.take e.start.toNat).drop place ++ e.newText ++ replaceFrom t e.stop.toNat es

theorem Independent.perm (h : Independent edits t) (hp : edits'.Perm edits) :
    Independent edits' t where
  start_nonneg e he := h.start_nonneg e (hp.mem_iff.1 he)
  start_le_stop e he := h.start_le_stop e (hp.mem_iff.1 he)
  stop_le_length e he := h.stop_le_length e (hp.mem_iff.1 he)
  nodup_start := (hp.map start).nodup_iff.2 h.nodup_start
  apart := (hp.pairwise_iff Or.symm).2 h.apart

theorem ascending_perm (edits : List Edit) : (ascending edits).Perm edits := sortBy_perm _ edits

theorem Independent.pairwise_start_lt (h : Independent edits t) :
    (ascending edits).Pairwise fun a b => a.start < b.start := by
  have hle := (isStableSort_sortBy start edits).pairwise
  have hne := List.pairwise_map.1 (h.perm (ascending_perm edits)).nodup_start
  apply (hle.and hne).imp
  intro a b hab
  exact lt_of_le_of_ne hab.1 hab.2

theorem Independent.pairwise_stop_le (h : Independent edits t) :
    (ascending edits).Pairwise fun a b => a.stop ≤ b.start := by
  have hperm := h.perm (ascending_perm edits)
  apply (h.pairwise_start_lt.and hperm.apart).imp_of_mem
  intro a b _ hb hab
  have hle := hperm.start_le_stop b hb
  rcases hab.2 with hstop | hstop
  · exact hstop
  · omega

theorem pairwise_sortByStart (edits : List Edit) :
    (sortByStart edits).Pairwise fun a b => b.start ≤ a.start := by
  have hsort : sortByStart edits = sortBy (fun a b => -a.start ≤ -b.start) edits := by
    unfold sortByStart
    congr
    funext a b
    exact decide_eq_decide.2 Int.neg_le_neg_iff.symm
  rw [hsort]
  apply (isStableSort_sortBy (fun e : Edit => -e.start) edits).pairwise.imp
  intro a b hab
  exact Int.neg_le_neg_iff.1 hab

/-- The order in which edits are listed does not matter if they start at different places. -/
theorem sortByStart_eq_of_perm (hn : (edits.map start).Nodup) (hp : edits'.Perm edits) :
    sortByStart edits' = sortByStart edits := by
  have hperm : (sortByStart edits').Perm (sortByStart edits) :=
    (sortBy_perm _ edits').trans (hp.trans (sortBy_perm _ edits).symm)
  apply hperm.eq_of_pairwise _ (pairwise_sortByStart edits') (pairwise_sortByStart edits)
  intro a b ha hb hab hba
  have ha' : a ∈ edits := hp.mem_iff.1 ((sortBy_perm _ edits').mem_iff.1 ha)
  have hb' : b ∈ edits := (sortBy_perm _ edits).mem_iff.1 hb
  exact List.inj_on_of_nodup_map hn ha' hb' (le_antisymm hba hab)

theorem apply_take_append {e : Edit} (hstart : 0 ≤ e.start) (hle : e.start ≤ e.stop)
    (hstop : e.stop ≤ t.length) (rest : Text) :
    e.apply (t.take e.stop.toNat ++ rest) = t.take e.start.toNat ++ e.newText ++ rest := by
  obtain ⟨start, stop, newText⟩ := e
  obtain ⟨m, rfl⟩ := Int.eq_ofNat_of_zero_le hstart
  obtain ⟨n, rfl⟩ := Int.eq_ofNat_of_zero_le (hstart.trans hle)
  have hmn : m ≤ n := Int.ofNat_le.1 hle
  have hn : n ≤ t.length := Int.ofNat_le.1 hstop
  have hfront : (t.take m).length = m := List.length_take_of_le (hmn.trans hn)
  have hrange : ((t.take n).drop m).length = n - m := by
    rw [List.length_drop, List.length_take_of_le hn]
  have hcut : t.take n = t.take m ++ (t.take n).drop m := by
    have h := List.take_append_drop m (t.take n)
    rwa [List.take_take, Nat.min_eq_left hmn, eq_comm] at h
  have hsplice := Text.splice_append (t.take m) ((t.take n).drop m) rest newText
  rw [hfront, hrange, Nat.add_sub_of_le hmn, ← hcut] at hsplice
  exact hsplice

theorem Independent.of_cons {e : Edit} (h : Independent (e :: edits) t) : Independent edits t where
  start_nonneg := (List.forall_mem_cons.1 h.start_nonneg).2
  start_le_stop := (List.forall_mem_cons.1 h.start_le_stop).2
  stop_le_length := (List.forall_mem_cons.1 h.stop_le_length).2
  nodup_start := (List.nodup_cons.1 h.nodup_start).2
  apart := h.apart.of_cons

theorem Independent.foldr_apply_eq (h : Independent edits t)
    (ho : edits.Pairwise fun a b => a.stop ≤ b.start) (place : Nat)
    (hplace : ∀ e ∈ edits, (place : Int) ≤ e.start) :
    edits.foldr (fun e t => e.apply t) t = t.take place ++ replaceFrom t place edits := by
  induction edits generalizing place with
  | nil => exact (List.take_append_drop place t).symm
  | cons e es ih =>
    obtain ⟨hbehind, hes⟩ := List.pairwise_cons.1 ho
    have hstart := h.start_nonneg e List.mem_cons_self
    have hle := h.start_le_stop e List.mem_cons_self
    have hstop := h.stop_le_length e List.mem_cons_self
    have hplace' : place ≤ e.start.toNat := by
      have := hplace e List.mem_cons_self
      omega
    -- The edits behind leave the text up to the end of this range as it was.
    have hrest := ih h.of_cons hes e.stop.toNat fun f hf => by
      have := hbehind f hf
      omega
    have hfront : t.take e.start.toNat =
        t.take place ++ (t.take e.start.toNat).drop place := by
      have hcut := List.take_append_drop place (t.take e.start.toNat)
      rwa [List.take_take, Nat.min_eq_left hplace', eq_comm] at hcut
    rw [List.foldr_cons, hrest, apply_take_append hstart hle hstop, hfront, replaceFrom]
    simp only [List.append_assoc]

theorem Independent.applyAll_eq (h : Independent edits t) :
    applyAll edits t = replaceFrom t 0 (ascending edits) := by
  have hperm := ascending_perm edits
  have hsort : sortByStart edits = sortByStart (ascending edits) :=
    (sortByStart_eq_of_perm h.nodup_start hperm).symm
  rw [applyAll, hsort, ← applyAll, applyAll_of_pairwise h.pairwise_start_lt,
    (h.perm hperm).foldr_apply_eq h.pairwise_stop_le 0 (h.perm hperm).start_nonneg]
  rfl

/-- Carrying out edits one after another replaces all their ranges at once, and the order in which
they are listed does not matter. -/
theorem applyAll_eq_replaceFrom (h : Independent edits t) :
    applyAll edits t = replaceFrom t 0 (ascending edits) ∧
      ∀ edits', edits'.Perm edits → applyAll edits' t = applyAll edits t := by
  refine ⟨h.applyAll_eq, fun edits' hp => ?_⟩
  rw [applyAll, sortByStart_eq_of_perm h.nodup_start hp, applyAll]

/-- Two ranges that touch each other, and an insertion at the end of the second one. -/
theorem applyAll_eq_replaceFrom_of_touching :
    Independent [⟨5, 5, "--".toList⟩, ⟨0, 2, []⟩, ⟨2, 5, "x".toList⟩] "abcdefg".toList ∧
      applyAll [⟨5, 5, "--".toList⟩, ⟨0, 2, []⟩, ⟨2, 5, "x".toList⟩] "abcdefg".toList =
        "x--fg".toList := by
  have h : Independent [⟨5, 5, "--".toList⟩, ⟨0, 2, []⟩, ⟨2, 5, "x".toList⟩] "abcdefg".toList :=
    ⟨by decide, by decide, by decide, by decide, by decide⟩
  refine ⟨h, ?_⟩
  rw [(applyAll_eq_replaceFrom h).1]
  decide

end Edit

end ClassFormat
