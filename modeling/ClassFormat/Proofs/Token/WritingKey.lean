import Mathlib.Data.Prod.Lex
import ClassFormat.Proofs.Sorting
import ClassFormat.Proofs.Token.Order

namespace ClassFormat

namespace Token

variable {ts us : List Token} {t u : Token}

/-- The place of the first token with a category and a property. -/
def firstPlace (ts : List Token) (c : Category) (p : Text) : Nat :=
  ts.findIdx fun t => Category.ofToken t = c && t.property = p

/-- What decides where a token of a list is written: the place of its category, the place where its
cluster first appears in the list, and its rank. -/
def writingKey (ts : List Token) (t : Token) : Nat ×ₗ Nat ×ₗ Int :=
  toLex (Category.emitOrder.idxOf (Category.ofToken t),
    toLex (firstPlace ts (Category.ofToken t) t.property, t.rank))

theorem writingKey_lt_of_category (h : Category.emitOrder.idxOf (Category.ofToken t) <
    Category.emitOrder.idxOf (Category.ofToken u)) : writingKey ts t < writingKey ts u :=
  Prod.Lex.toLex_lt_toLex.2 (.inl h)

theorem writingKey_lt_of_property (hc : Category.ofToken t = Category.ofToken u)
    (h : firstPlace ts (Category.ofToken t) t.property <
      firstPlace ts (Category.ofToken u) u.property) : writingKey ts t < writingKey ts u := by
  refine Prod.Lex.toLex_lt_toLex.2 (.inr ⟨?_, Prod.Lex.toLex_lt_toLex.2 (.inl h)⟩)
  rw [hc]

theorem writingKey_lt_of_rank (hc : Category.ofToken t = Category.ofToken u)
    (hp : t.property = u.property) (h : t.rank < u.rank) : writingKey ts t < writingKey ts u := by
  refine Prod.Lex.toLex_lt_toLex.2 (.inr ⟨?_, Prod.Lex.toLex_lt_toLex.2 (.inr ⟨?_, h⟩)⟩)
  · rw [hc]
  · rw [hc, hp]

theorem pairwise_properties_ofCategory (c : Category) (ts : List Token) :
    (properties (ofCategory c ts)).Pairwise fun p q => firstPlace ts c p < firstPlace ts c q := by
  refine (pairwise_eraseDups_map property (ofCategory c ts)).imp ?_
  intro p q h
  exact findIdx_lt_findIdx_of_filter h

theorem isStableSort_sortByRank {c : Category} {p : Text} (hc : ∀ t ∈ us, Category.ofToken t = c)
    (hp : ∀ t ∈ us, t.property = p) : IsStableSort (writingKey ts) us (sortByRank us) := by
  have hranks : ranks.Pairwise (· < ·) := by decide
  apply IsStableSort.flatMap (by decide) fun t _ => rank_mem_ranks t
  · refine hranks.imp ?_
    rintro r s hrs t ht u hu rfl rfl
    have htu : Category.ofToken t = Category.ofToken u := (hc t ht).trans (hc u hu).symm
    exact writingKey_lt_of_rank htu ((hp t ht).trans (hp u hu).symm) hrs
  · intro r _
    apply isStableSort_of_key_eq (k := toLex (Category.emitOrder.idxOf c,
      toLex (firstPlace ts c p, r)))
    intro t ht
    obtain ⟨hm, hr⟩ := List.mem_filter.1 ht
    rw [writingKey, hc t hm, hp t hm, of_decide_eq_true hr]

theorem isStableSort_clusters (c : Category) (ts : List Token) :
    IsStableSort (writingKey ts) (ofCategory c ts) (clusters (ofCategory c ts)).flatten := by
  rw [flatten_clusters]
  apply IsStableSort.flatMap (nodup_properties _) fun t ht => property_mem_properties ht
  · refine (pairwise_properties_ofCategory c ts).imp ?_
    rintro p q hpq t ht u hu rfl rfl
    have htc := category_of_mem_ofCategory ht
    have huc := category_of_mem_ofCategory hu
    apply writingKey_lt_of_property (htc.trans huc.symm)
    rw [htc, huc]
    exact hpq
  · intro p _
    apply isStableSort_sortByRank (c := c) (p := p)
    · exact fun t ht => category_of_mem_ofCategory (List.mem_filter.1 ht).1
    · exact fun t ht => of_decide_eq_true (List.mem_filter.1 ht).2

/-- The written order is sorted by the writing key, and tokens of one key keep their order. -/
theorem isStableSort_arranged (ts : List Token) :
    IsStableSort (writingKey ts) ts (arranged ts) := by
  have hplaces : Category.emitOrder.Pairwise fun c d =>
      Category.emitOrder.idxOf c < Category.emitOrder.idxOf d := by decide
  apply IsStableSort.flatMap Category.nodup_emitOrder fun t _ => Category.mem_emitOrder _
  · refine hplaces.imp ?_
    rintro c d hcd t - u - rfl rfl
    exact writingKey_lt_of_category hcd
  · exact fun c _ => isStableSort_clusters c ts

theorem arranged_eq_sortBy (ts : List Token) :
    arranged ts = sortBy (fun t u => writingKey ts t ≤ writingKey ts u) ts :=
  (isStableSort_arranged ts).eq (isStableSort_sortBy (writingKey ts) ts)

/-- The tokens of one category, property and rank. -/
def ofKind (c : Category) (p : Text) (r : Int) (ts : List Token) : List Token :=
  ts.filter fun t => Category.ofToken t = c ∧ t.property = p ∧ t.rank = r

theorem ofKind_eq (c : Category) (p : Text) (r : Int) (ts : List Token) :
    ofKind c p r ts =
      ((ofCategory c ts).filter fun t => t.property = p).filter fun t => t.rank = r := by
  rw [ofKind, ofCategory, List.filter_filter, List.filter_filter]
  apply List.filter_congr
  intro t _
  simp only [Bool.decide_and]
  ac_rfl

theorem ofKind_arranged (c : Category) (p : Text) (r : Int) (ts : List Token) :
    ofKind c p r (arranged ts) = ofKind c p r ts := by
  rw [ofKind_eq, ofKind_eq, ofCategory_arranged, filter_property_flatten_clusters,
    filter_rank_sortByRank]

theorem properties_ofCategory_arranged (c : Category) (ts : List Token) :
    properties (ofCategory c (arranged ts)) = properties (ofCategory c ts) := by
  rw [ofCategory_arranged, properties_flatten_clusters]

theorem flatten_clusters_ofCategory (c : Category) (ts : List Token) :
    (clusters (ofCategory c ts)).flatten =
      (properties (ofCategory c ts)).flatMap fun p => ranks.flatMap fun r => ofKind c p r ts := by
  simp only [flatten_clusters, sortByRank, ofKind_eq]

/-- Two lists of tokens are written in one order if and only if the properties of each category
first appear in one order, and the tokens of each category, property and rank stand in one order. -/
theorem arranged_eq_arranged_iff : arranged ts = arranged us ↔
    (∀ c, properties (ofCategory c ts) = properties (ofCategory c us)) ∧
      ∀ c p r, ofKind c p r ts = ofKind c p r us := by
  constructor
  · intro h
    refine ⟨fun c => ?_, fun c p r => ?_⟩
    · rw [← properties_ofCategory_arranged, h, properties_ofCategory_arranged]
    · rw [← ofKind_arranged, h, ofKind_arranged]
  · rintro ⟨hp, ha⟩
    simp only [arranged, flatten_clusters_ofCategory, hp, ha]

end Token

end ClassFormat
