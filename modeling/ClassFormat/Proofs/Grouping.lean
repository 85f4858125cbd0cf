import Mathlib.Data.List.Nodup
import Mathlib.Data.List.Perm.Basic

namespace ClassFormat

variable {α κ : Type} {key : α → κ}

theorem filter_flatMap_of_key [DecidableEq κ] {keys : List κ} {group : κ → List α} (hk : keys.Nodup)
    (hg : ∀ k ∈ keys, ∀ a ∈ group k, key a = k) {k : κ} (hm : k ∈ keys) :
    (keys.flatMap group).filter (fun a => key a = k) = group k := by
  induction keys with
  | nil => cases hm
  | cons l ls ih =>
    obtain ⟨hl, hls⟩ := List.nodup_cons.1 hk
    have hg' : ∀ j ∈ ls, ∀ a ∈ group j, key a = j := fun j hj => hg j (List.mem_cons_of_mem l hj)
    rw [List.flatMap_cons, List.filter_append]
    rcases List.mem_cons.1 hm with rfl | hm
    · have hself : (group k).filter (fun a => key a = k) = group k := by
        rw [List.filter_eq_self]
        intro a ha
        exact decide_eq_true (hg k List.mem_cons_self a ha)
      have hrest : (ls.flatMap group).filter (fun a => key a = k) = [] := by
        rw [List.filter_eq_nil_iff]
        intro a ha he
        obtain ⟨j, hj, haj⟩ := List.mem_flatMap.1 ha
        exact hl (of_decide_eq_true he ▸ hg' j hj a haj ▸ hj)
      rw [hself, hrest, List.append_nil]
    · have hnil : (group l).filter (fun a => key a = k) = [] := by
        rw [List.filter_eq_nil_iff]
        intro a ha he
        exact hl (hg l List.mem_cons_self a ha ▸ of_decide_eq_true he ▸ hm)
      rw [hnil, List.nil_append, ih hls hg' hm]

/-- Groups taken from a list whose keys are covered are found again, also under a key that does not
occur. -/
theorem filter_flatMap_of_cover [DecidableEq κ] {keys : List κ} {group : κ → List α} {l : List α}
    (hk : keys.Nodup) (hm : ∀ a ∈ l, key a ∈ keys) (hg : ∀ k, ∀ a ∈ group k, a ∈ l ∧ key a = k)
    (k : κ) : (keys.flatMap group).filter (fun a => key a = k) = group k := by
  by_cases hmem : k ∈ keys
  · exact filter_flatMap_of_key hk (fun j _ a ha => (hg j a ha).2) hmem
  · have hnil : group k = [] := by
      rw [List.eq_nil_iff_forall_not_mem]
      intro a ha
      obtain ⟨hal, rfl⟩ := hg k a ha
      exact hmem (hm a hal)
    rw [hnil, List.filter_eq_nil_iff]
    intro a ha he
    obtain ⟨j, hj, haj⟩ := List.mem_flatMap.1 ha
    have hkey : key a = j := (hg j a haj).2
    exact hmem (of_decide_eq_true he ▸ hkey ▸ hj)

theorem nodup_eraseDups [BEq κ] [LawfulBEq κ] (l : List κ) : l.eraseDups.Nodup := by
  induction h : l.length using Nat.strongRecOn generalizing l with
  | _ n ih =>
    cases l with
    | nil => exact List.nodup_nil
    | cons a as =>
      rw [List.eraseDups_cons, List.nodup_cons, List.mem_eraseDups, List.mem_filter]
      refine ⟨by simp, ih _ ?_ _ rfl⟩
      rw [← h, List.length_cons]
      exact Nat.lt_succ_of_le (List.length_filter_le _ _)

theorem eraseDups_map_flatMap [BEq κ] [LawfulBEq κ] {keys : List κ} {group : κ → List α}
    (hk : keys.Nodup) (hg : ∀ k ∈ keys, ∀ a ∈ group k, key a = k) (hne : ∀ k ∈ keys, group k ≠ []) :
    ((keys.flatMap group).map key).eraseDups = keys := by
  induction keys with
  | nil => rfl
  | cons k ks ih =>
    obtain ⟨hkn, hks⟩ := List.nodup_cons.1 hk
    have hg' : ∀ j ∈ ks, ∀ a ∈ group j, key a = j := fun j hj => hg j (List.mem_cons_of_mem k hj)
    obtain ⟨a, as, ha⟩ := List.exists_cons_of_ne_nil (hne k List.mem_cons_self)
    have hkey : ∀ b ∈ a :: as, key b = k := fun b hb => hg k List.mem_cons_self b (ha ▸ hb)
    have has : (as.map key).filter (fun b => !b == k) = [] := by
      rw [List.filter_eq_nil_iff]
      intro b hb
      obtain ⟨c, hc, rfl⟩ := List.mem_map.1 hb
      simp [hkey c (List.mem_cons_of_mem a hc)]
    have hrest : ((ks.flatMap group).map key).filter (fun b => !b == k) =
        (ks.flatMap group).map key := by
      rw [List.filter_eq_self]
      intro b hb
      obtain ⟨c, hc, rfl⟩ := List.mem_map.1 hb
      obtain ⟨j, hj, hcj⟩ := List.mem_flatMap.1 hc
      rw [hg' j hj c hcj, Bool.not_eq_true', beq_eq_false_iff_ne]
      rintro rfl
      exact hkn hj
    rw [List.flatMap_cons, ha, List.map_append, List.map_cons, List.cons_append,
      List.eraseDups_cons, hkey a List.mem_cons_self, List.filter_append, has, hrest,
      List.nil_append, ih hks hg' fun j hj => hne j (List.mem_cons_of_mem k hj)]

theorem perm_flatMap_filter [DecidableEq κ] {keys : List κ} {l : List α} (hk : keys.Nodup)
    (hm : ∀ a ∈ l, key a ∈ keys) :
    (keys.flatMap fun k => l.filter fun a => key a = k).Perm l := by
  induction keys generalizing l with
  | nil =>
    have hl : l = [] := List.eq_nil_iff_forall_not_mem.2 fun a ha => List.not_mem_nil (hm a ha)
    rw [hl]
    exact .refl []
  | cons k ks ih =>
    obtain ⟨hkn, hks⟩ := List.nodup_cons.1 hk
    have hrest : ∀ j ∈ ks, (l.filter fun a => key a = j) =
        (l.filter fun a => !decide (key a = k)).filter fun a => key a = j := by
      intro j hj
      rw [List.filter_filter]
      apply List.filter_congr
      intro a _
      by_cases ha : key a = j
      · have hne : key a ≠ k := fun h => hkn (h ▸ ha ▸ hj)
        simp [hne]
      · simp [ha]
    have hm' : ∀ a ∈ l.filter (fun a => !decide (key a = k)), key a ∈ ks := by
      intro a ha
      obtain ⟨hal, hne⟩ := List.mem_filter.1 ha
      exact List.mem_of_ne_of_mem (by simpa using hne) (hm a hal)
    rw [List.flatMap_cons, List.flatMap_congr hrest]
    exact ((ih hks hm').append_left _).trans (List.filter_append_perm _ l)

/-- What comes first among the elements with a property comes first in the whole list. -/
theorem findIdx_lt_findIdx_of_filter {p q r : α → Bool} {l : List α}
    (h : (l.filter r).findIdx p < (l.filter r).findIdx q) :
    l.findIdx (fun a => r a && p a) < l.findIdx fun a => r a && q a := by
  induction l with
  | nil => exact h
  | cons a as ih =>
    rw [List.findIdx_cons, List.findIdx_cons]
    cases hr : r a with
    | false =>
      rw [List.filter_cons_of_neg (by simp [hr])] at h
      exact Nat.succ_lt_succ (ih h)
    | true =>
      rw [List.filter_cons_of_pos hr, List.findIdx_cons, List.findIdx_cons] at h
      cases hp : p a with
      | true =>
        cases hq : q a with
        | true => simp [hp, hq] at h
        | false => simp
      | false =>
        cases hq : q a with
        | true => simp [hp, hq] at h
        | false =>
          rw [hp, hq] at h
          exact Nat.succ_lt_succ (ih (Nat.lt_of_succ_lt_succ h))

theorem findIdx_cons_of_key_ne [BEq κ] [LawfulBEq κ] [DecidableEq κ] {a : α} {k : κ}
    (hk : key a ≠ k) (as : List α) :
    (a :: as).findIdx (fun b => key b = k) =
      as.findIdx (fun b => (!key b == key a) && decide (key b = k)) + 1 := by
  have hp : (fun b => (!key b == key a) && decide (key b = k)) = fun b => decide (key b = k) := by
    funext b
    by_cases hb : key b = k
    · simp [hb, hk.symm]
    · simp [hb]
  rw [List.findIdx_cons, hp, decide_eq_false hk]
  rfl

theorem pairwise_eraseDups_map [BEq κ] [LawfulBEq κ] [DecidableEq κ] (key : α → κ) (l : List α) :
    (l.map key).eraseDups.Pairwise
      fun j k => l.findIdx (fun a => key a = j) < l.findIdx fun a => key a = k := by
  induction h : l.length using Nat.strongRecOn generalizing l with
  | _ n ih =>
    cases l with
    | nil => exact .nil
    | cons a as =>
      have hlt : (as.filter fun b => !key b == key a).length < n := by
        rw [← h, List.length_cons]
        exact Nat.lt_succ_of_le (List.length_filter_le _ _)
      have hrest := ih _ hlt (as.filter fun b => !key b == key a) rfl
      have hmap : (as.map key).filter (fun k => !k == key a) =
          (as.filter fun b => !key b == key a).map key := List.filter_map ..
      have hne : ∀ k ∈ ((as.filter fun b => !key b == key a).map key).eraseDups, key a ≠ k := by
        intro k hk he
        obtain ⟨b, hb, rfl⟩ := List.mem_map.1 (List.mem_eraseDups.1 hk)
        have hb := (List.mem_filter.1 hb).2
        simp [he] at hb
      rw [List.map_cons, List.eraseDups_cons, hmap]
      refine .cons (fun k hk => ?_) (hrest.imp_of_mem fun {j k} hj hk hjk => ?_)
      · rw [findIdx_cons_of_key_ne (hne k hk), List.findIdx_cons, decide_eq_true rfl]
        exact Nat.succ_pos _
      · rw [findIdx_cons_of_key_ne (hne j hj), findIdx_cons_of_key_ne (hne k hk)]
        exact Nat.succ_lt_succ (findIdx_lt_findIdx_of_filter hjk)

end ClassFormat
