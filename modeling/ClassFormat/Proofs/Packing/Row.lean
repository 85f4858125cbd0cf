import Mathlib.Data.List.Pairwise
import ClassFormat.Proofs.Packing
import ClassFormat.Proofs.Packing.Division

namespace ClassFormat

open Text Token

namespace Packing

variable {options : Options} {indent value line : Text} {c : Category} {row : List (List Token)}

def linesOf (options : Options) (indent value : Text) (c : Category) : List Text :=
  categoryLines options.maxLineWidth (classIndent indent) (wrapIndent options.wrapStyle indent)
    ((clusters (ofCategory c value.words)).map clusterText)

/-- The indentation of the lines of a category behind its first one. -/
def furtherIndent (options : Options) (indent : Text) : Text :=
  if options.maxLineWidth = 0 then classIndent indent else wrapIndent options.wrapStyle indent

def rowText (indent : Text) (row : List (List Token)) : Text :=
  lineText indent (row.map clusterText)

def leader (line : Text) : Token := line.words.headD []

/-- A row of clusters that a value has in a category. -/
structure IsRow (value : Text) (c : Category) (row : List (List Token)) : Prop where
  ne_nil : row ≠ []
  mem_clusters : ∀ cluster ∈ row, cluster ∈ clusters (ofCategory c value.words)

theorem exists_flatten_eq_of_flatten_eq_map {α β : Type} {f : α → β} {division : List (List β)}
    {l : List α} (h : division.flatten = l.map f) :
    ∃ rows : List (List α), rows.flatten = l ∧ rows.map (List.map f) = division := by
  induction division generalizing l with
  | nil => exact ⟨[], (List.map_eq_nil_iff.1 h.symm).symm, rfl⟩
  | cons line division ih =>
    obtain ⟨l₁, l₂, rfl, rfl, h₂⟩ := List.map_eq_append_iff.1 h.symm
    obtain ⟨rows, rfl, rfl⟩ := ih h₂.symm
    exact ⟨l₁ :: rows, rfl, rfl⟩

theorem exists_rows_linesOf (options : Options) (indent value : Text) (c : Category) :
    ∃ rows : List (List (List Token)), rows.flatten = clusters (ofCategory c value.words) ∧
      (∀ row ∈ rows, IsRow value c row) ∧
      linesOf options indent value c =
        written (classIndent indent) (furtherIndent options indent)
          (rows.map (List.map clusterText)) := by
  obtain ⟨division, hf, hne, he⟩ := exists_division_categoryLines options.maxLineWidth
    (classIndent indent) (wrapIndent options.wrapStyle indent)
    ((clusters (ofCategory c value.words)).map clusterText)
  obtain ⟨rows, hrows, rfl⟩ := exists_flatten_eq_of_flatten_eq_map hf
  refine ⟨rows, hrows, fun row hr => ⟨fun hnil => ?_, fun cluster hc => ?_⟩, he⟩
  · exact hne _ (List.mem_map_of_mem hr) (List.map_eq_nil_iff.2 hnil)
  · exact hrows ▸ List.mem_flatten_of_mem hr hc

theorem isRow_singleton {p : Text} (hp : p ∈ properties (ofCategory c value.words)) :
    IsRow value c [sortByRank ((ofCategory c value.words).filter fun t => t.property = p)] where
  ne_nil := List.cons_ne_nil _ _
  mem_clusters := by
    intro cluster hc
    rw [List.mem_singleton.1 hc, clusters]
    exact List.mem_map_of_mem hp

theorem IsRow.isWord (h : IsRow value c row) : ∀ cluster ∈ row, ∀ t ∈ cluster, IsWord t :=
  fun cluster hc => isWord_of_mem_cluster (h.mem_clusters cluster hc)

theorem IsRow.category_eq (h : IsRow value c row) {t : Token} (ht : t ∈ row.flatten) :
    Category.ofToken t = c := by
  obtain ⟨cluster, hc, ht⟩ := List.mem_flatten.1 ht
  exact category_of_mem_ofCategory (mem_of_mem_clusters (h.mem_clusters cluster hc) ht)

theorem IsRow.flatten_ne_nil (h : IsRow value c row) : row.flatten ≠ [] := by
  obtain ⟨cluster, rest, rfl⟩ := List.exists_cons_of_ne_nil h.ne_nil
  have hne := ne_nil_of_mem_clusters (h.mem_clusters cluster List.mem_cons_self)
  exact List.append_ne_nil_of_left_ne_nil hne rest.flatten

theorem IsRow.words_rowText (h : IsRow value c row) {i : Text} (hi : Blanks i) :
    (rowText i row).words = row.flatten := by
  rw [rowText, lineText, hi.words_append, words_intercalate (by decide), List.flatMap_map]
  calc
    row.flatMap (fun cluster => words (clusterText cluster)) = row.flatMap id :=
      List.flatMap_congr fun cluster hc => words_clusterText (h.isWord cluster hc)
    _ = row.flatten := List.flatMap_id

theorem IsRow.leader_mem_words (h : IsRow value c row) {i : Text} (hi : Blanks i) :
    leader (rowText i row) ∈ (rowText i row).words := by
  obtain ⟨t, ts, hts⟩ := List.exists_cons_of_ne_nil h.flatten_ne_nil
  rw [leader, h.words_rowText hi, hts]
  exact List.mem_cons_self

theorem IsRow.takeWhile_rowText (h : IsRow value c row) {i : Text} (hi : Blanks i) :
    (rowText i row).takeWhile isBlank = i := by
  obtain ⟨cluster, rest, rfl⟩ := List.exists_cons_of_ne_nil h.ne_nil
  have hc := h.mem_clusters cluster List.mem_cons_self
  obtain ⟨d, ds, hd, hb⟩ :=
    clusterText_eq_cons (ne_nil_of_mem_clusters hc) (isWord_of_mem_cluster hc)
  rw [rowText, List.map_cons, lineText_cons, hd, List.append_assoc, List.cons_append,
    takeWhile_append_cons_of_neg hb, List.takeWhile_eq_self_iff.2 hi]

theorem IsRow.newline_not_mem (h : IsRow value c row) {i : Text} (hi : Indentation i) :
    '\n' ∉ rowText i row := by
  rw [rowText, lineText, List.mem_append, not_or]
  refine ⟨hi.not_mem (by decide), not_mem_intercalate (by decide) ?_⟩
  intro k hk
  obtain ⟨cluster, hc, rfl⟩ := List.mem_map.1 hk
  apply not_mem_intercalate (by decide)
  intro t ht hm
  exact absurd ((h.isWord cluster hc t ht).not_blank _ hm) (by decide)

theorem lines_eq_flatMap_linesOf (options : Options) (indent value : Text) :
    lines options indent value = Category.emitOrder.flatMap (linesOf options indent value) :=
  lines_eq options indent value

theorem exists_linesOf_of_mem_lines (hl : line ∈ lines options indent value) :
    ∃ c, line ∈ linesOf options indent value c := by
  rw [lines_eq_flatMap_linesOf] at hl
  obtain ⟨c, -, hl⟩ := List.mem_flatMap.1 hl
  exact ⟨c, hl⟩

theorem indentation_furtherIndent (h : Indentation indent) (options : Options) :
    Indentation (furtherIndent options indent) := by
  unfold furtherIndent
  split
  · exact indentation_classIndent h
  · exact indentation_wrapIndent h _

theorem indentation_of_eq_or_eq (h : Indentation indent) {i : Text}
    (hi : i = classIndent indent ∨ i = furtherIndent options indent) : Indentation i := by
  rcases hi with rfl | rfl
  · exact indentation_classIndent h
  · exact indentation_furtherIndent h options

theorem exists_row_of_mem_linesOf (h : Indentation indent)
    (hl : line ∈ linesOf options indent value c) :
    ∃ i row, Indentation i ∧ IsRow value c row ∧ line = rowText i row := by
  obtain ⟨rows, -, hrows, he⟩ := exists_rows_linesOf options indent value c
  rw [he] at hl
  obtain ⟨i, l, hi, hm, rfl⟩ := exists_of_mem_written hl
  obtain ⟨row, hr, rfl⟩ := List.mem_map.1 hm
  exact ⟨i, row, indentation_of_eq_or_eq h hi, hrows row hr, rfl⟩

theorem wordLines_of_mem_linesOf (h : Indentation indent)
    (hl : line ∈ linesOf options indent value c) : line.wordLines = [line] := by
  obtain ⟨i, row, hi, hr, rfl⟩ := exists_row_of_mem_linesOf h hl
  have hw : (rowText i row).words ≠ [] := by
    rw [hr.words_rowText hi.blanks]
    exact hr.flatten_ne_nil
  rw [wordLines_of_not_mem (hr.newline_not_mem hi), if_neg hw]

theorem category_of_mem_words (h : Indentation indent)
    (hl : line ∈ linesOf options indent value c) {t : Token} (ht : t ∈ line.words) :
    Category.ofToken t = c := by
  obtain ⟨i, row, hi, hr, rfl⟩ := exists_row_of_mem_linesOf h hl
  rw [hr.words_rowText hi.blanks] at ht
  exact hr.category_eq ht

theorem leader_mem_words (h : Indentation indent) (hl : line ∈ linesOf options indent value c) :
    leader line ∈ line.words := by
  obtain ⟨i, row, hi, hr, rfl⟩ := exists_row_of_mem_linesOf h hl
  exact hr.leader_mem_words hi.blanks

theorem category_leader (h : Indentation indent) (hl : line ∈ linesOf options indent value c) :
    Category.ofToken (leader line) = c :=
  category_of_mem_words h hl (leader_mem_words h hl)

theorem exists_row_of_mem_clusters (h : Indentation indent) (options : Options)
    {cluster : List Token} (hc : cluster ∈ clusters (ofCategory c value.words)) :
    ∃ i row, Indentation i ∧ IsRow value c row ∧ cluster ∈ row ∧
      rowText i row ∈ linesOf options indent value c := by
  obtain ⟨rows, hf, hrows, he⟩ := exists_rows_linesOf options indent value c
  rw [← hf] at hc
  obtain ⟨row, hr, hc⟩ := List.mem_flatten.1 hc
  obtain ⟨i, hi, hl⟩ := exists_mem_written (classIndent indent) (furtherIndent options indent)
    (List.mem_map_of_mem hr)
  rw [← he] at hl
  exact ⟨i, row, indentation_of_eq_or_eq h hi, hrows row hr, hc, hl⟩

theorem flatMap_wordLines_lines (h : Indentation indent) (options : Options) (value : Text) :
    (lines options indent value).flatMap wordLines = lines options indent value := by
  calc
    (lines options indent value).flatMap wordLines =
        (lines options indent value).flatMap fun line => [line] := by
      apply List.flatMap_congr
      intro line hl
      obtain ⟨c, hl⟩ := exists_linesOf_of_mem_lines hl
      exact wordLines_of_mem_linesOf h hl
    _ = lines options indent value := List.flatMap_singleton' _

theorem wordLines_pack (h : Indentation indent) (options : Options) (value : Text) :
    (pack options indent value).wordLines = lines options indent value := by
  have hbody : wordLines ('\n' :: ['\n'].intercalate (lines options indent value)) =
      lines options indent value := by
    calc
      _ = wordLines [] ++ wordLines (['\n'].intercalate (lines options indent value)) :=
        wordLines_append_newline [] _
      _ = lines options indent value := by
        rw [wordLines_intercalate, flatMap_wordLines_lines h]
        rfl
  have hindent : indent.wordLines = [] := by
    rw [wordLines_of_not_mem (h.not_mem (by decide)), if_pos h.blanks.words]
  unfold pack
  split
  · rw [wordLines_append_newline, hbody, hindent, List.append_nil]
  · exact hbody

end Packing

end ClassFormat
