import ClassFormat.Packing
import ClassFormat.Proofs.Grouping

namespace ClassFormat

namespace Token

theorem sortByRank_perm (ts : List Token) : (sortByRank ts).Perm ts :=
  perm_flatMap_filter (by decide) fun t _ => rank_mem_ranks t

theorem mem_sortByRank {t : Token} {ts : List Token} : t ∈ sortByRank ts ↔ t ∈ ts :=
  (sortByRank_perm ts).mem_iff

theorem filter_rank_sortByRank (r : Int) (ts : List Token) :
    (sortByRank ts).filter (fun t => t.rank = r) = ts.filter fun t => t.rank = r := by
  apply filter_flatMap_of_cover (by decide) fun t _ => rank_mem_ranks t
  intro k t ht
  obtain ⟨hm, hr⟩ := List.mem_filter.1 ht
  exact ⟨hm, of_decide_eq_true hr⟩

@[simp]
theorem sortByRank_sortByRank (ts : List Token) : sortByRank (sortByRank ts) = sortByRank ts := by
  have h : ∀ r ∈ ranks, (sortByRank ts).filter (fun t => t.rank = r) =
      ts.filter fun t => t.rank = r := fun r _ => filter_rank_sortByRank r ts
  rw [sortByRank, List.flatMap_congr h, ← sortByRank]

/-- The properties of tokens, in the order in which they first appear. -/
def properties (ts : List Token) : List Text := (ts.map property).eraseDups

theorem nodup_properties (ts : List Token) : (properties ts).Nodup := nodup_eraseDups _

theorem property_mem_properties {ts : List Token} {t : Token} (h : t ∈ ts) :
    t.property ∈ properties ts :=
  List.mem_eraseDups.2 (List.mem_map_of_mem h)

theorem mem_properties {ts : List Token} {p : Text} :
    p ∈ properties ts ↔ ∃ t ∈ ts, t.property = p := by
  rw [properties, List.mem_eraseDups, List.mem_map]

theorem flatten_clusters (ts : List Token) : (clusters ts).flatten =
    (properties ts).flatMap fun p => sortByRank (ts.filter fun t => t.property = p) := by
  rw [clusters, ← List.flatMap_def, properties]

theorem mem_and_property_of_mem_cluster {ts : List Token} {t : Token} {p : Text}
    (h : t ∈ sortByRank (ts.filter fun t => t.property = p)) : t ∈ ts ∧ t.property = p := by
  obtain ⟨hm, hp⟩ := List.mem_filter.1 (mem_sortByRank.1 h)
  exact ⟨hm, of_decide_eq_true hp⟩

theorem sortByRank_ne_nil {ts : List Token} {p : Text} (hp : p ∈ properties ts) :
    sortByRank (ts.filter fun t => t.property = p) ≠ [] := by
  rw [properties, List.mem_eraseDups] at hp
  obtain ⟨t, ht, rfl⟩ := List.mem_map.1 hp
  exact List.ne_nil_of_mem (mem_sortByRank.2 (List.mem_filter.2 ⟨ht, decide_eq_true rfl⟩))

theorem properties_flatten_clusters (ts : List Token) :
    properties (clusters ts).flatten = properties ts := by
  rw [flatten_clusters, properties]
  exact eraseDups_map_flatMap (nodup_properties ts)
    (fun p _ t ht => (mem_and_property_of_mem_cluster ht).2) fun p hp => sortByRank_ne_nil hp

theorem filter_property_flatten_clusters (p : Text) (ts : List Token) :
    (clusters ts).flatten.filter (fun t => t.property = p) =
      sortByRank (ts.filter fun t => t.property = p) := by
  rw [flatten_clusters]
  exact filter_flatMap_of_cover (nodup_properties ts) (fun t ht => property_mem_properties ht)
    (fun q t ht => mem_and_property_of_mem_cluster ht) p

theorem clusters_flatten_clusters (ts : List Token) :
    clusters (clusters ts).flatten = clusters ts := by
  have h : ∀ p ∈ properties ts, sortByRank ((clusters ts).flatten.filter fun t => t.property = p) =
      sortByRank (ts.filter fun t => t.property = p) := by
    intro p _
    rw [filter_property_flatten_clusters, sortByRank_sortByRank]
  rw [clusters, ← properties, properties_flatten_clusters, List.map_congr_left h]
  rfl

theorem flatten_clusters_perm (ts : List Token) : (clusters ts).flatten.Perm ts := by
  rw [flatten_clusters]
  refine (List.Perm.flatMap_left _ fun p _ => sortByRank_perm _).trans ?_
  exact perm_flatMap_filter (nodup_properties ts) fun t ht => property_mem_properties ht

theorem mem_flatten_clusters {ts : List Token} {t : Token} :
    t ∈ (clusters ts).flatten ↔ t ∈ ts :=
  (flatten_clusters_perm ts).mem_iff

def ofCategory (c : Category) (ts : List Token) : List Token :=
  ts.filter fun t => Category.ofToken t = c

theorem category_of_mem_ofCategory {c : Category} {ts : List Token} {t : Token}
    (h : t ∈ ofCategory c ts) : Category.ofToken t = c :=
  of_decide_eq_true (List.mem_filter.1 h).2

/-- What is done for each bucket is done for each category, if an empty bucket gives nothing. -/
theorem flatMap_buckets {β : Type} {f : Bucket → List β} (hf : ∀ c, f ⟨c, []⟩ = [])
    (ts : List Token) :
    (buckets ts).flatMap f = Category.emitOrder.flatMap fun c => f ⟨c, ofCategory c ts⟩ := by
  rw [buckets]
  induction Category.emitOrder with
  | nil => rfl
  | cons c cs ih =>
    rw [List.filterMap_cons, List.flatMap_cons, ← ih, ofCategory]
    split
    · rename_i h
      split at h
      · rename_i ht
        rw [ht, hf, List.nil_append]
      · cases h
    · rename_i b h
      split at h
      · cases h
      · cases h
        rw [List.flatMap_cons]

/-- The tokens in the order in which they are written. -/
def arranged (ts : List Token) : List Token :=
  Category.emitOrder.flatMap fun c => (clusters (ofCategory c ts)).flatten

theorem ofCategory_arranged (c : Category) (ts : List Token) :
    ofCategory c (arranged ts) = (clusters (ofCategory c ts)).flatten := by
  apply filter_flatMap_of_key Category.nodup_emitOrder _ (Category.mem_emitOrder c)
  intro d _ t ht
  exact of_decide_eq_true (List.mem_filter.1 (mem_flatten_clusters.1 ht)).2

theorem clusters_ofCategory_arranged (c : Category) (ts : List Token) :
    clusters (ofCategory c (arranged ts)) = clusters (ofCategory c ts) := by
  rw [ofCategory_arranged, clusters_flatten_clusters]

theorem arranged_perm (ts : List Token) : (arranged ts).Perm ts := by
  refine (List.Perm.flatMap_left _ fun c _ => flatten_clusters_perm _).trans ?_
  exact perm_flatMap_filter Category.nodup_emitOrder fun t _ => Category.mem_emitOrder _

theorem mem_arranged {ts : List Token} {t : Token} : t ∈ arranged ts ↔ t ∈ ts :=
  (arranged_perm ts).mem_iff

/-- The category and the property of a token. -/
def clusterKey (t : Token) : Category × Text := (Category.ofToken t, t.property)

/-- The keys of the clusters of all categories, in the order in which they are written. -/
def clusterKeys (ts : List Token) : List (Category × Text) :=
  Category.emitOrder.flatMap fun c => (properties (ofCategory c ts)).map (c, ·)

theorem mem_clusterKeys {ts : List Token} {key : Category × Text} :
    key ∈ clusterKeys ts ↔ ∃ t ∈ ts, clusterKey t = key := by
  obtain ⟨c, p⟩ := key
  rw [clusterKeys, List.mem_flatMap]
  constructor
  · rintro ⟨d, -, hd⟩
    obtain ⟨q, hq, he⟩ := List.mem_map.1 hd
    obtain ⟨rfl, rfl⟩ := Prod.mk.inj he
    obtain ⟨t, ht, rfl⟩ := mem_properties.1 hq
    exact ⟨t, (List.mem_filter.1 ht).1, by rw [clusterKey, category_of_mem_ofCategory ht]⟩
  · rintro ⟨t, ht, he⟩
    obtain ⟨rfl, rfl⟩ := Prod.mk.inj he
    refine ⟨Category.ofToken t, Category.mem_emitOrder _, List.mem_map_of_mem ?_⟩
    exact property_mem_properties (List.mem_filter.2 ⟨ht, decide_eq_true rfl⟩)

theorem nodup_clusterKeys (ts : List Token) : (clusterKeys ts).Nodup := by
  have hinj (c : Category) : Function.Injective fun p : Text => (c, p) :=
    fun _ _ h => (Prod.mk.inj h).2
  rw [clusterKeys, List.nodup_flatMap]
  refine ⟨fun c _ => (nodup_properties _).map (hinj c), Category.nodup_emitOrder.imp ?_⟩
  intro c d hcd key hc hd
  obtain ⟨p, -, rfl⟩ := List.mem_map.1 hc
  obtain ⟨q, -, he⟩ := List.mem_map.1 hd
  exact hcd (Prod.mk.inj he).1.symm

/-- The clusters are in one-to-one correspondence with the distinct keys of the tokens. -/
theorem clusterKeys_perm (ts : List Token) :
    (clusterKeys ts).Perm (ts.map clusterKey).eraseDups := by
  rw [List.perm_ext_iff_of_nodup (nodup_clusterKeys ts) (nodup_eraseDups _)]
  intro key
  rw [mem_clusterKeys, List.mem_eraseDups, List.mem_map]

theorem clusterKey_of_mem_cluster {c : Category} {p : Text} {ts : List Token} {t : Token}
    (h : t ∈ sortByRank ((ofCategory c ts).filter fun u => u.property = p)) :
    clusterKey t = (c, p) := by
  obtain ⟨hm, rfl⟩ := mem_and_property_of_mem_cluster h
  rw [clusterKey, category_of_mem_ofCategory hm]

theorem filter_clusterKey (ts : List Token) (t : Token) :
    ts.filter (fun u => clusterKey u = clusterKey t) =
      (ofCategory (Category.ofToken t) ts).filter fun u => u.property = t.property := by
  rw [ofCategory, List.filter_filter]
  apply List.filter_congr
  intro u _
  simp only [clusterKey, Prod.mk.injEq, Bool.decide_and]
  exact Bool.and_comm _ _

theorem cluster_mem_clusters {ts : List Token} {t : Token} (h : t ∈ ts) :
    sortByRank (ts.filter fun u => clusterKey u = clusterKey t) ∈
      clusters (ofCategory (Category.ofToken t) ts) := by
  rw [filter_clusterKey, clusters]
  apply List.mem_map_of_mem
  exact property_mem_properties (List.mem_filter.2 ⟨h, decide_eq_true rfl⟩)

end Token

end ClassFormat
