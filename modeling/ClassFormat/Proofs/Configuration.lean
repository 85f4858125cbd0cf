import Mathlib.Data.List.Pairwise
import ClassFormat.Proofs.Mapping

namespace ClassFormat

namespace Yaml

variable {entries entries' known : List (Value × Value)} {k v : Value}

/-- No two entries have the same key. -/
def DistinctKeys (entries : List (Value × Value)) : Prop :=
  entries.Pairwise fun a b => Key.same a.1 b.1 = false

theorem DistinctKeys.concat (h : DistinctKeys entries)
    (hk : ∀ e ∈ entries, Key.same e.1 k = false) : DistinctKeys (entries ++ [(k, v)]) := by
  apply List.pairwise_append.2
  refine ⟨h, List.pairwise_singleton _ _, ?_⟩
  intro e he e' he'
  rw [List.mem_singleton.1 he']
  exact hk e he

theorem DistinctKeys.put (h : DistinctKeys entries) (k v : Value) :
    DistinctKeys (Entry.put entries k v) := by
  unfold Entry.put
  split
  · have hkey (e : Value × Value) : (if Key.same e.1 k then (e.1, v) else e).1 = e.1 := by
      split <;> rfl
    rw [DistinctKeys, List.pairwise_map]
    simp only [hkey]
    exact h
  · rename_i hnone
    apply h.concat
    intro e he
    rw [← Bool.not_eq_true]
    intro hsame
    exact hnone (List.any_eq_true.2 ⟨e, he, hsame⟩)

theorem DistinctKeys.add (h : DistinctKeys entries) (ha : Entry.add entries k v = .ok entries') :
    DistinctKeys entries' := by
  unfold Entry.add at ha
  split at ha
  · rename_i hnone
    cases ha
    apply h.concat
    intro e he
    exact Bool.eq_false_iff.2 (List.find?_eq_none.1 hnone e he)
  · split at ha
    · cases ha
    · cases ha

theorem DistinctKeys.join (h : DistinctKeys entries) {merged : Bool}
    (hj : Entry.join merged entries k v = .ok entries') : DistinctKeys entries' := by
  unfold Entry.join at hj
  split at hj
  · cases hj
  · split at hj
    · cases hj
      exact h.put k v
    · exact h.add hj

theorem DistinctKeys.entryValues {room : Nat} {merged : Bool} {rest : List (Tree × Tree)}
    (h : DistinctKeys known) (hv : Tree.entryValues room merged known rest = .ok entries) :
    DistinctKeys entries := by
  induction rest generalizing known with
  | nil =>
    rw [Tree.entryValues] at hv
    cases hv
    exact h
  | cons e rest ih =>
    obtain ⟨k, v⟩ := e
    rw [Tree.entryValues] at hv
    obtain ⟨key, -, hv⟩ := exists_of_bind_eq_ok hv
    obtain ⟨-, -, hv⟩ := exists_of_bind_eq_ok hv
    obtain ⟨value, -, hv⟩ := exists_of_bind_eq_ok hv
    obtain ⟨joined, hj, hv⟩ := exists_of_bind_eq_ok hv
    exact ih (h.join hj) hv

theorem isCollection_timestamp {t : Text} {r : Except Error Value}
    (h : Timestamp.value? t = some r) (hv : r = .ok v) : Key.isCollection v = false := by
  unfold Timestamp.value? at h
  split at h
  · cases h
    unfold Timestamp.ofDate at hv
    split at hv
    · cases hv
      rfl
    · cases hv
  · obtain ⟨m, -, rfl⟩ := Option.map_eq_some_iff.1 h
    unfold Timestamp.ofMoment at hv
    split at hv
    · cases hv
    · split at hv
      · cases hv
        rfl
      · split at hv
        · cases hv
          rfl
        · cases hv

theorem isCollection_number {α : Type} {number : α → Value} {n : Option α}
    (hnumber : ∀ a, Key.isCollection (number a) = false) (h : Plain.numberValue number n = .ok v) :
    Key.isCollection v = false := by
  cases n with
  | none => cases h
  | some n =>
    cases h
    exact hnumber n

theorem isCollection_plain {t : Text} (h : Plain.value t = .ok v) :
    Key.isCollection v = false := by
  unfold Plain.value at h
  split at h
  · cases h
    rfl
  · split at h
    · exact isCollection_number (fun _ => rfl) h
    · split at h
      · exact isCollection_number (fun _ => rfl) h
      · split at h
        · cases h
        · split at h
          · cases h
            rfl
          · rename_i r hr
            exact isCollection_timestamp hr h
          · cases h
            rfl

theorem distinctKeys_of_value {room : Nat} {t : Tree} (h : t.value room = .ok (.mapping entries)) :
    DistinctKeys entries := by
  cases t with
  | plain text =>
    rw [Tree.value] at h
    cases isCollection_plain h
  | quoted text =>
    rw [Tree.value] at h
    cases h
  | sequence items =>
    cases room with
    | zero =>
      rw [Tree.value] at h
      cases h
    | succ room =>
      rw [Tree.value] at h
      obtain ⟨values, -, h⟩ := exists_of_bind_eq_ok h
      cases h
  | mapping merged own =>
    cases room with
    | zero =>
      rw [Tree.value] at h
      cases h
    | succ room =>
      rw [Tree.value] at h
      obtain ⟨known, hknown, h⟩ := exists_of_bind_eq_ok h
      obtain ⟨all, hall, h⟩ := exists_of_bind_eq_ok h
      cases h
      have hmerged : DistinctKeys known := DistinctKeys.entryValues List.Pairwise.nil hknown
      exact hmerged.entryValues hall
  | unmergeable =>
    rw [Tree.value] at h
    cases h

theorem distinctKeys_of_load {t : Text} (h : load t = .ok (.mapping entries)) :
    DistinctKeys entries := by
  obtain ⟨node, -, h⟩ := exists_of_bind_eq_ok h
  obtain ⟨-, -, h⟩ := exists_of_bind_eq_ok h
  exact distinctKeys_of_value h

theorem DistinctKeys.nodup (h : DistinctKeys entries) (ht : ∀ e ∈ entries, e.1.codes? ≠ none) :
    (entries.map Prod.fst).Nodup := by
  apply List.pairwise_map.2
  apply h.imp_of_mem
  intro a b ha _ hsame he
  obtain ⟨k, hk⟩ := Option.ne_none_iff_exists'.1 (ht a ha)
  rw [← he, Value.codes?_eq_some_iff.1 hk] at hsame
  simp [Key.same, Key.sameScalar, Key.form] at hsame

theorem DistinctKeys.outcome (h : DistinctKeys entries) :
    Options.Outcome {e | e ∈ entries} (Options.ofMapping entries) := by
  by_cases hkey : ∃ e ∈ entries, e.1.codes? = none
  · obtain ⟨e, he, hnone⟩ := hkey
    rw [Options.ofMapping, Options.mapM_codes?_eq_none_iff.2 ⟨e, he, hnone⟩]
    exact .keyNotText he hnone
  · apply Options.outcome_ofMapping
    apply h.nodup
    intro e he hnone
    exact hkey ⟨e, he, hnone⟩

end Yaml

namespace Configuration

variable {yaml : Text → Except Yaml.Error Value} {tree : FileTree} {path t : Text}
  {content : Bytes} {entries : List (Value × Value)}

theorem ofValue_mapping (path : Text) (entries : List (Value × Value)) :
    ofValue path (.mapping entries) = (Options.ofMapping entries).mapError .ofMapping := by
  cases entries with
  | nil => rfl
  | cons e entries => rfl

theorem read_of_content (h : tree.content? (Path.normalize path) = some content) :
    read yaml tree path = ofContent yaml (Path.normalize path) content := by
  unfold FileTree.content? FileTree.place? at h
  unfold read
  cases hfind : tree.find (Path.normalize path) with
  | error e =>
    rw [hfind] at h
    cases h
  | ok place =>
    rw [hfind] at h
    have hcontent : tree.contentAt? place = some content := h
    simp only [hfind, hcontent]

/-- A file with a mapping gives what the rules for mappings say of its entries. -/
theorem load_outcome (hcontent : tree.content? (Path.normalize path) = some content)
    (ht : Utf8.decode content = .ok t)
    (hv : Yaml.load t.unifyNewlines = .ok (.mapping entries)) :
    ∃ r, Options.Outcome {e | e ∈ entries} r ∧ load tree path = r.mapError .ofMapping := by
  refine ⟨Options.ofMapping entries, (Yaml.distinctKeys_of_load hv).outcome, ?_⟩
  rw [load, read_of_content hcontent, ofContent, ht, ← ofValue_mapping (Path.normalize path)]
  show ((Yaml.load t.unifyNewlines).mapError _ >>= _) = _
  rw [hv]
  rfl

end Configuration

end ClassFormat
