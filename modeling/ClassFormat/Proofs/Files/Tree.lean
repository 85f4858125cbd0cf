import ClassFormat.Files.Tree

namespace ClassFormat.FileTree

variable {tree tree' tree'' : FileTree} {path : Text} {place : Place} {places places' : List Place}

/-- The trees differ at most in what stands at the given places. -/
structure SameOutside (places : List Place) (tree tree' : FileTree) : Prop where
  folders : tree'.folders = tree.folders
  current : tree'.current = tree.current
  contentAt? : ∀ place, place ∉ places → tree'.contentAt? place = tree.contentAt? place

namespace SameOutside

theorem refl (places : List Place) (tree : FileTree) : SameOutside places tree tree :=
  ⟨rfl, rfl, fun _ _ => rfl⟩

theorem trans (h : SameOutside places tree tree') (h' : SameOutside places tree' tree'') :
    SameOutside places tree tree'' :=
  ⟨h'.folders.trans h.folders, h'.current.trans h.current, fun place hp =>
    (h'.contentAt? place hp).trans (h.contentAt? place hp)⟩

theorem mono (h : SameOutside places tree tree') (hs : places ⊆ places') :
    SameOutside places' tree tree' :=
  ⟨h.folders, h.current, fun place hp => h.contentAt? place fun hm => hp (hs hm)⟩

end SameOutside

theorem follow_congr (h : tree'.folders = tree.folders) (place : Place) (segments : List Text) :
    tree'.follow place segments = tree.follow place segments := by
  induction segments generalizing place with
  | nil => rfl
  | cons s ss ih =>
    have hf : tree'.isFolder place = tree.isFolder place := by
      unfold isFolder
      rw [h]
    simp only [follow, hf, ih]

namespace SameOutside

theorem place?_eq (h : SameOutside places tree tree') (path : Text) :
    tree'.place? path = tree.place? path := by
  unfold place? find
  simp only [follow_congr h.folders, h.current]

theorem content?_eq (h : SameOutside places tree tree')
    (hp : ∀ place, tree.place? path = some place → place ∉ places) :
    tree'.content? path = tree.content? path := by
  unfold content?
  rw [h.place?_eq]
  cases hplace : tree.place? path with
  | none => rfl
  | some place => exact h.contentAt? place (hp place hplace)

end SameOutside

theorem lookup_cons_of_ne {p q : Place} (h : q ≠ p) (content : Bytes)
    (files : List (Place × Bytes)) : ((p, content) :: files).lookup q = files.lookup q := by
  rw [List.lookup_cons, beq_false_of_ne h]

theorem lookup_map_replace (files : List (Place × Bytes)) (place q : Place) (content : Bytes) :
    (files.map fun e => if e.1 = place then (place, content) else e).lookup q =
      if q = place then (files.lookup q).map fun _ => content else files.lookup q := by
  induction files with
  | nil => simp
  | cons e files ih =>
    obtain ⟨p, old⟩ := e
    rw [List.map_cons]
    by_cases hq : q = p
    · subst hq
      by_cases hp : q = place
      · simp [hp]
      · simp [hp]
    · rw [lookup_cons_of_ne hq, ← ih]
      by_cases hp : p = place
      · subst hp
        rw [if_pos rfl, lookup_cons_of_ne hq]
      · rw [if_neg hp, lookup_cons_of_ne hq]

theorem contentAt?_writeAt (tree : FileTree) (place q : Place) (content : Bytes) :
    (tree.writeAt place content).contentAt? q =
      if q = place then some content else tree.contentAt? q := by
  unfold writeAt
  split
  · rename_i h
    obtain ⟨old, hold⟩ := Option.isSome_iff_exists.1 h
    refine (lookup_map_replace tree.files place q content).trans ?_
    split
    · rename_i hq
      rw [hq, show tree.files.lookup place = some old from hold]
      rfl
    · rfl
  · rename_i h
    have hnone : tree.files.lookup place = none := Option.not_isSome_iff_eq_none.1 h
    show (tree.files ++ [(place, content)]).lookup q = _
    rw [List.lookup_append]
    split
    · rename_i hq
      rw [hq, hnone]
      exact List.lookup_cons_self
    · rename_i hq
      rw [lookup_cons_of_ne hq, List.lookup_nil, Option.or_none]
      rfl

theorem sameOutside_write (tree : FileTree) (path : Text) (content : Bytes) :
    SameOutside (tree.place? path).toList tree (tree.write path content) := by
  unfold write
  cases tree.place? path with
  | none => exact .refl _ tree
  | some place =>
    refine ⟨?_, ?_, fun q hq => ?_⟩
    · simp only [writeAt]
      split <;> rfl
    · simp only [writeAt]
      split <;> rfl
    · rw [contentAt?_writeAt, if_neg]
      simpa using hq

theorem content?_write (h : tree.place? path = some place) (content : Bytes) :
    (tree.write path content).content? path = some content := by
  have hs := sameOutside_write tree path content
  rw [content?, hs.place?_eq, h, Option.bind_some, write, h, contentAt?_writeAt, if_pos rfl]

end ClassFormat.FileTree
