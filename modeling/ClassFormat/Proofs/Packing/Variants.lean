import ClassFormat.Proofs.Packing.Layout
import ClassFormat.Proofs.Sorting
import ClassFormat.Proofs.Token.Variants

namespace ClassFormat

open Text Token

namespace Token

theorem clusterKey_eq_of_base_eq {t u : Token} (ht : '\n' ∉ t) (hu : '\n' ∉ u)
    (hb : t.base = u.base) (hne : t.base ≠ []) : clusterKey t = clusterKey u := by
  have hcategory : t.categoryBase = u.categoryBase := by
    rw [categoryBase_eq_base ht hne, categoryBase_eq_base hu (hb ▸ hne), hb]
  have hproperty : t.property = u.property := by
    rw [property, property, hb]
  rw [clusterKey, clusterKey, Category.ofToken, Category.ofToken, hcategory, hproperty]

theorem isStableSort_rank (ts : List Token) : IsStableSort rank ts (sortByRank ts) := by
  have hranks : ranks.Pairwise (· < ·) := by decide
  apply IsStableSort.flatMap (by decide) fun t _ => rank_mem_ranks t
  · apply hranks.imp
    rintro r s hrs t - u - rfl rfl
    exact hrs
  · intro r _
    exact isStableSort_of_key_eq fun t ht => of_decide_eq_true (List.mem_filter.1 ht).2

theorem filter_sortByRank (p : Token → Bool) (ts : List Token) :
    (sortByRank ts).filter p = sortByRank (ts.filter p) := by
  rw [sortByRank, List.filter_flatMap, sortByRank]
  apply List.flatMap_congr
  intro r _
  rw [List.filter_filter, List.filter_filter]
  apply List.filter_congr
  intro t _
  exact Bool.and_comm _ _

theorem filter_base_cluster {t : Token} {ts : List Token} (hts : ∀ w ∈ ts, '\n' ∉ w) (ht : t ∈ ts)
    (hne : t.base ≠ []) :
    (sortByRank (ts.filter fun w => clusterKey w = clusterKey t)).filter
      (fun w => w.base = t.base) = sortByRank (ts.filter fun w => w.base = t.base) := by
  rw [filter_sortByRank, filter_filter_of_imp]
  intro w hw hb
  have hb := of_decide_eq_true hb
  exact decide_eq_true (clusterKey_eq_of_base_eq (hts w hw) (hts t ht) hb (hb ▸ hne))

end Token

namespace Packing

variable {options : Options} {indent value line : Text} {above below : List Text} {t : Token}

/-- Where the middle part holds all that a list has of some kind, the other parts hold none. -/
theorem not_of_mem_of_perm {α : Type} {front middle back l : List α} {p : α → Bool}
    (h : (front ++ middle ++ back).Perm l) (hm : (middle.filter p).Perm (l.filter p)) :
    ∀ a ∈ front ++ back, ¬ p a = true := by
  have hall := (h.filter p).length_eq
  have hmiddle := hm.length_eq
  rw [← List.filter_eq_nil_iff]
  apply List.eq_nil_of_length_eq_zero
  simp only [List.filter_append, List.length_append] at hall ⊢
  omega

theorem perm_of_lines_eq (h : Indentation indent)
    (hlines : lines options indent value = above ++ line :: below) :
    (above.flatMap words ++ line.words ++ below.flatMap words).Perm value.words := by
  have hall := flatMap_words_lines options h.blanks value
  rw [hlines, List.flatMap_append, List.flatMap_cons, ← List.append_assoc] at hall
  rw [hall]
  exact arranged_perm value.words

theorem exists_line_of_base (h : Indentation indent) (options : Options) (ht : t ∈ value.words)
    (hne : t.base ≠ []) :
    ∃ above line below, lines options indent value = above ++ line :: below ∧
      (∀ other ∈ above ++ below, ∀ w ∈ other.words, base w ≠ t.base) ∧
      IsStableSort rank (value.words.filter fun w => base w = t.base)
        (line.words.filter fun w => base w = t.base) := by
  obtain ⟨line, hl, before, after, hw⟩ := exists_line_of_mem h options ht
  obtain ⟨above, below, hlines⟩ := List.append_of_mem hl
  have hcluster := filter_base_cluster (fun w => newline_not_mem_of_mem_words) ht hne
  have hperm := perm_of_lines_eq h hlines
  rw [hw, ← List.append_assoc, ← List.append_assoc, List.append_assoc _ after] at hperm
  -- The lines have the words of the value and no more, so what the cluster holds is nowhere else.
  have hnone := not_of_mem_of_perm hperm (hcluster ▸ sortByRank_perm _)
  refine ⟨above, line, below, hlines, ?_, ?_⟩
  · intro other ho w hw hb
    apply hnone w _ (decide_eq_true hb)
    rcases List.mem_append.1 ho with ho | ho
    · simp [List.mem_flatMap.2 ⟨other, ho, hw⟩]
    · simp [List.mem_flatMap.2 ⟨other, ho, hw⟩]
  · have hbefore : before.filter (fun w => base w = t.base) = [] :=
      List.filter_eq_nil_iff.2 fun w hw => hnone w (by simp [hw])
    have hafter : after.filter (fun w => base w = t.base) = [] :=
      List.filter_eq_nil_iff.2 fun w hw => hnone w (by simp [hw])
    rw [hw, List.filter_append, List.filter_append, hcluster, hbefore, hafter, List.nil_append,
      List.append_nil]
    exact isStableSort_rank _

/-- Of two tokens with one base that is not empty, in the order of the value, both stand on one line
of the packed value. The one with the smaller rank comes first, and with one rank they keep their
order. No other line holds a token with that base. -/
theorem variants_share_line (options : Options) {indent : Text} (h : Indentation indent)
    {value : Text} {t u : Token} (hs : [t, u].Sublist value.words) (hb : t.base = u.base)
    (hne : t.base ≠ []) :
    ∃ above line below, (pack options indent value).wordLines = above ++ line :: below ∧
      (∀ other ∈ above ++ below, ∀ w ∈ other.words, base w ≠ t.base) ∧
      IsStableSort rank (value.words.filter fun w => base w = t.base)
        (line.words.filter fun w => base w = t.base) ∧
      (if u.rank < t.rank then [u, t].Sublist line.words else [t, u].Sublist line.words) := by
  obtain ⟨above, line, below, hlines, hother, hsort⟩ :=
    exists_line_of_base h options (hs.subset List.mem_cons_self) hne
  refine ⟨above, line, below, (wordLines_pack h options value).trans hlines, hother, hsort, ?_⟩
  have hpair : [t, u].Sublist (value.words.filter fun w => base w = t.base) := by
    have hf := hs.filter fun w => base w = t.base
    simpa [hb] using hf
  split
  · rename_i hlt
    exact (hsort.sublist_of_lt (hpair.subset (by simp)) (hpair.subset (by simp)) hlt).trans
      List.filter_sublist
  · rename_i hle
    exact (hsort.sublist_of_le hpair (not_lt.1 hle)).trans List.filter_sublist

/-- The four variants of `p-4` do not fit in the width, and still they stand on one line. -/
theorem variants_share_line_of_narrow :
    let value : Text := "md:p-4 flex hover:p-4 m-2 p-4 sm:p-4".toList
    Indentation "\t".toList ∧ ["md:p-4".toList, "p-4".toList].Sublist value.words ∧
      base "md:p-4".toList = base "p-4".toList ∧ base "md:p-4".toList ≠ [] ∧
      ∃ line ∈ (pack ⟨true, 10, .extra⟩ "\t".toList value).wordLines,
        ["p-4".toList, "md:p-4".toList].Sublist line.words := by
  intro value
  have h : Indentation "\t".toList := by decide
  have hs : ["md:p-4".toList, "p-4".toList].Sublist value.words := by decide +kernel
  have hb : base "md:p-4".toList = base "p-4".toList := by decide
  have hne : base "md:p-4".toList ≠ [] := by decide
  obtain ⟨above, line, below, he, -, -, hline⟩ :=
    variants_share_line ⟨true, 10, .extra⟩ h hs hb hne
  refine ⟨h, hs, hb, hne, line, he ▸ List.mem_append_right above List.mem_cons_self, ?_⟩
  rwa [if_pos (by decide)] at hline

end Packing

end ClassFormat
