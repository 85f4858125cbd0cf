import Mathlib.Data.List.Pairwise
import Mathlib.Data.List.Sort
import ClassFormat.Basic
import ClassFormat.Proofs.Grouping

namespace ClassFormat

variable {α κ : Type} [LinearOrder κ] {key : α → κ} {l sorted sorted' : List α}

/-- A list sorted by a key, in which elements of one key stand as they stood before. -/
structure IsStableSort (key : α → κ) (l sorted : List α) : Prop where
  pairwise : sorted.Pairwise fun a b => key a ≤ key b
  filter_eq : ∀ k, sorted.filter (fun a => key a = k) = l.filter fun a => key a = k

theorem pairwise_of_key_eq {k : κ} (h : ∀ a ∈ l, key a = k) :
    l.Pairwise fun a b => key a ≤ key b :=
  List.pairwise_of_forall_mem_list fun a ha b hb => ((h a ha).trans (h b hb).symm).le

theorem isStableSort_of_key_eq {k : κ} (h : ∀ a ∈ l, key a = k) : IsStableSort key l l :=
  ⟨pairwise_of_key_eq h, fun _ => rfl⟩

theorem mem_iff_of_filter_eq
    (hf : ∀ k, l.filter (fun a => key a = k) = sorted.filter fun a => key a = k) {a : α} :
    a ∈ l ↔ a ∈ sorted := by
  have hself (l : List α) : a ∈ l.filter (fun b => key b = key a) ↔ a ∈ l := by
    rw [List.mem_filter, decide_eq_true rfl]
    exact and_iff_left rfl
  rw [← hself l, hf, hself]

theorem IsStableSort.mem_iff (h : IsStableSort key l sorted) {a : α} : a ∈ sorted ↔ a ∈ l :=
  mem_iff_of_filter_eq h.filter_eq

theorem key_le_of_mem_cons {a b : α} (h : (a :: l).Pairwise fun a b => key a ≤ key b)
    (hb : b ∈ a :: l) : key a ≤ key b := by
  rcases List.mem_cons.1 hb with rfl | hb
  · exact le_rfl
  · exact List.rel_of_pairwise_cons h hb

theorem eq_of_pairwise_of_filter_eq (h : l.Pairwise fun a b => key a ≤ key b)
    (h' : sorted.Pairwise fun a b => key a ≤ key b)
    (hf : ∀ k, l.filter (fun a => key a = k) = sorted.filter fun a => key a = k) : l = sorted := by
  induction l generalizing sorted with
  | nil =>
    rw [eq_comm, List.eq_nil_iff_forall_not_mem]
    intro a ha
    exact List.not_mem_nil ((mem_iff_of_filter_eq hf).2 ha)
  | cons a as ih =>
    cases sorted with
    | nil => exact absurd ((mem_iff_of_filter_eq hf).1 List.mem_cons_self) List.not_mem_nil
    | cons b bs =>
      -- Each list starts with the smallest key, so the first elements have one key and are the
      -- first of that key in both lists.
      have hkey : key a = key b :=
        le_antisymm (key_le_of_mem_cons h ((mem_iff_of_filter_eq hf).2 List.mem_cons_self))
          (key_le_of_mem_cons h' ((mem_iff_of_filter_eq hf).1 List.mem_cons_self))
      have hab : a = b := by
        have hk := hf (key b)
        rw [List.filter_cons_of_pos (by simp [hkey]), List.filter_cons_of_pos (by simp)] at hk
        exact (List.cons.inj hk).1
      subst hab
      rw [ih h.of_cons h'.of_cons]
      intro k
      have hk := hf k
      rw [List.filter_cons, List.filter_cons] at hk
      split at hk
      · exact (List.cons.inj hk).2
      · exact hk

theorem IsStableSort.eq (h : IsStableSort key l sorted) (h' : IsStableSort key l sorted') :
    sorted = sorted' :=
  eq_of_pairwise_of_filter_eq h.pairwise h'.pairwise fun k => by rw [h.filter_eq, h'.filter_eq]

theorem insertBy_eq_orderedInsert (a : α) (l : List α) :
    insertBy (fun a b => key a ≤ key b) a l = l.orderedInsert (fun a b => key a ≤ key b) a := by
  induction l with
  | nil => rfl
  | cons b bs ih =>
    rw [insertBy, List.orderedInsert_cons, ih]
    simp only [decide_eq_true_eq]

theorem sortBy_eq_insertionSort (l : List α) :
    sortBy (fun a b => key a ≤ key b) l = l.insertionSort fun a b => key a ≤ key b := by
  induction l with
  | nil => rfl
  | cons a as ih =>
    rw [sortBy, List.foldr_cons, ← sortBy, ih, insertBy_eq_orderedInsert, List.insertionSort_cons]

theorem isStableSort_sortBy (key : α → κ) (l : List α) :
    IsStableSort key l (sortBy (fun a b => key a ≤ key b) l) := by
  have : Std.Total fun a b => key a ≤ key b := ⟨fun a b => le_total (key a) (key b)⟩
  have : IsTrans α fun a b => key a ≤ key b := ⟨fun a b c => le_trans⟩
  refine ⟨?_, fun k => ?_⟩
  · rw [sortBy_eq_insertionSort]
    exact List.pairwise_insertionSort _ l
  · have hp : (l.filter fun a => key a = k).Pairwise fun a b => key a ≤ key b :=
      pairwise_of_key_eq fun a ha => of_decide_eq_true (List.mem_filter.1 ha).2
    have hs : (l.filter fun a => key a = k).Sublist (sortBy (fun a b => key a ≤ key b) l) := by
      rw [sortBy_eq_insertionSort]
      exact List.sublist_insertionSort hp List.filter_sublist
    have hf := hs.filter fun a => key a = k
    rw [List.filter_filter] at hf
    simp only [Bool.and_self] at hf
    exact (hf.eq_of_length ((sortBy_perm _ l).filter _).length_eq.symm).symm

theorem IsStableSort.sublist_of_le (h : IsStableSort key l sorted) {a b : α}
    (hs : [a, b].Sublist l) (hk : key a ≤ key b) : [a, b].Sublist sorted := by
  rw [h.eq (isStableSort_sortBy key l), sortBy_eq_insertionSort]
  exact List.pair_sublist_insertionSort hk hs

theorem IsStableSort.sublist_of_lt (h : IsStableSort key l sorted) {a b : α} (ha : a ∈ l)
    (hb : b ∈ l) (hk : key a < key b) : [a, b].Sublist sorted := by
  obtain ⟨front, back, rfl⟩ := List.append_of_mem (h.mem_iff.2 ha)
  have hback : b ∈ back := by
    rcases List.mem_append.1 (h.mem_iff.2 hb) with hfront | hrest
    · have hle := (List.pairwise_append.1 h.pairwise).2.2 b hfront a List.mem_cons_self
      exact absurd hk hle.not_gt
    · rcases List.mem_cons.1 hrest with rfl | hback
      · exact absurd hk (lt_irrefl _)
      · exact hback
  have hpair : [a, b].Sublist (a :: back) := (List.singleton_sublist.2 hback).cons_cons a
  exact hpair.trans (List.sublist_append_right front (a :: back))

theorem filter_filter_of_imp {p q : α → Bool} (h : ∀ a ∈ l, p a = true → q a = true) :
    (l.filter q).filter p = l.filter p := by
  rw [List.filter_filter]
  apply List.filter_congr
  intro a ha
  cases hp : p a with
  | false => rfl
  | true => rw [h a ha hp, Bool.and_self]

section Groups

variable {ι : Type} {places : List ι} {place : α → ι}

/-- Elements of an earlier place have smaller keys. -/
def Ascending (key : α → κ) (place : α → ι) (l : List α) (places : List ι) : Prop :=
  places.Pairwise fun i j => ∀ a ∈ l, ∀ b ∈ l, place a = i → place b = j → key a < key b

theorem Ascending.place_eq (h : Ascending key place l places) (hm : ∀ a ∈ l, place a ∈ places)
    {a b : α} (ha : a ∈ l) (hb : b ∈ l) (he : key a = key b) : place a = place b := by
  by_contra hne
  have hp : places.Pairwise fun i j =>
      ∀ a ∈ l, ∀ b ∈ l, place a = i → place b = j → key a ≠ key b := by
    refine h.imp ?_
    intro i j hij a ha b hb hi hj
    exact (hij a ha b hb hi hj).ne
  have : Std.Symm fun i j => ∀ a ∈ l, ∀ b ∈ l, place a = i → place b = j → key a ≠ key b :=
    ⟨fun i j hij a ha b hb hi hj => (hij b hb a ha hj hi).symm⟩
  exact hp.forall (hm a ha) (hm b hb) hne a ha b hb rfl rfl he

/-- Groups in a row, each of them sorted, are sorted if the keys of one group precede those of the
next. -/
theorem IsStableSort.flatMap [DecidableEq ι] {group : ι → List α} (hn : places.Nodup)
    (hm : ∀ a ∈ l, place a ∈ places) (hlt : Ascending key place l places)
    (hg : ∀ i ∈ places, IsStableSort key (l.filter fun a => place a = i) (group i)) :
    IsStableSort key l (places.flatMap group) := by
  have hgroup {i : ι} (hi : i ∈ places) {a : α} (ha : a ∈ group i) : a ∈ l ∧ place a = i := by
    obtain ⟨hal, hai⟩ := List.mem_filter.1 ((hg i hi).mem_iff.1 ha)
    exact ⟨hal, of_decide_eq_true hai⟩
  have hmem {a : α} (ha : a ∈ places.flatMap group) : a ∈ l := by
    obtain ⟨i, hi, hai⟩ := List.mem_flatMap.1 ha
    exact (hgroup hi hai).1
  refine ⟨?_, fun k => ?_⟩
  · rw [List.pairwise_flatMap]
    refine ⟨fun i hi => (hg i hi).pairwise, List.Pairwise.imp_of_mem ?_ hlt⟩
    intro i j hi hj hij a ha b hb
    obtain ⟨hal, hai⟩ := hgroup hi ha
    obtain ⟨hbl, hbj⟩ := hgroup hj hb
    exact (hij a hal b hbl hai hbj).le
  · by_cases hk : ∃ a ∈ l, key a = k
    · -- All elements of the key belong to one group, so both sides can be read off that group.
      obtain ⟨a, ha, rfl⟩ := hk
      have himp : ∀ b ∈ l, decide (key b = key a) = true → decide (place b = place a) = true := by
        intro b hb he
        exact decide_eq_true (hlt.place_eq hm hb ha (of_decide_eq_true he))
      rw [← filter_filter_of_imp fun b hb => himp b (hmem hb), ← filter_filter_of_imp himp,
        filter_flatMap_of_key hn (fun i hi b hb => (hgroup hi hb).2) (hm a ha),
        (hg _ (hm a ha)).filter_eq]
    · have hnil {l' : List α} (hl : ∀ a ∈ l', a ∈ l) : l'.filter (fun a => key a = k) = [] := by
        rw [List.filter_eq_nil_iff]
        exact fun a ha he => hk ⟨a, hl a ha, of_decide_eq_true he⟩
      rw [hnil fun a => hmem, hnil fun _ => id]

end Groups

end ClassFormat
