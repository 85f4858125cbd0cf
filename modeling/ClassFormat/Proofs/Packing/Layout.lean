import ClassFormat.Proofs.Packing.Row

namespace ClassFormat

open Text Token

namespace Packing

variable {options : Options} {indent value line : Text} {c : Category}

/-- What the lines of a packed value look like. -/
structure LaidOut (options : Options) (indent : Text) (ts : List Token) (lines : List Text) :
    Prop where
  /-- The lines hold the given classes, each one as often as it is given. -/
  perm : (lines.flatMap words).Perm ts
  /-- A line holds classes of one category. -/
  category_eq : ∀ line ∈ lines, ∀ t ∈ line.words,
    Category.ofToken t = Category.ofToken (leader line)
  /-- The classes of one category and property stand side by side on one line. -/
  together : ∀ t ∈ ts, ∃ line ∈ lines, ∃ before cluster after,
    line.words = before ++ cluster ++ after ∧
      cluster.Perm (ts.filter fun u => clusterKey u = clusterKey t)
  /-- The categories of the lines follow the order in which categories are written. -/
  in_order : lines.Pairwise fun l m =>
    Category.emitOrder.idxOf (Category.ofToken (leader l)) ≤
      Category.emitOrder.idxOf (Category.ofToken (leader m))
  /-- The first line of a category stands two spaces deeper than the attribute. -/
  first_indent : ∀ c, ∀ line ∈ (lines.filter fun l => Category.ofToken (leader l) = c).head?,
    line.takeWhile isBlank = indent ++ [' ', ' ']
  /-- The further lines of a category stand there as well, or two spaces deeper than the first. -/
  further_indent : options.maxLineWidth ≠ 0 →
    ∀ c, ∀ line ∈ (lines.filter fun l => Category.ofToken (leader l) = c).tail,
      line.takeWhile isBlank =
        if options.wrapStyle = .extra then indent ++ [' ', ' ', ' ', ' '] else indent ++ [' ', ' ']
  /-- Width 0 gives every cluster a line of its own. -/
  one_cluster : options.maxLineWidth = 0 →
    (lines.map fun l => clusterKey (leader l)).Perm (ts.map clusterKey).eraseDups ∧
      ∀ line ∈ lines, line.takeWhile isBlank = indent ++ [' ', ' '] ∧
        ∀ t ∈ line.words, clusterKey t = clusterKey (leader line)

theorem filter_category_lines (h : Indentation indent) (options : Options) (value : Text)
    (c : Category) :
    (lines options indent value).filter (fun line => Category.ofToken (leader line) = c) =
      linesOf options indent value c := by
  rw [lines_eq_flatMap_linesOf]
  exact filter_flatMap_of_key Category.nodup_emitOrder (fun d _ line hl => category_leader h hl)
    (Category.mem_emitOrder c)

theorem takeWhile_of_mem_head? (h : Indentation indent)
    (hl : line ∈ (linesOf options indent value c).head?) :
    line.takeWhile isBlank = classIndent indent := by
  obtain ⟨rows, -, hrows, he⟩ := exists_rows_linesOf options indent value c
  rw [he] at hl
  cases rows with
  | nil => cases hl
  | cons row rest =>
    cases hl
    exact (hrows row List.mem_cons_self).takeWhile_rowText (indentation_classIndent h).blanks

theorem takeWhile_of_mem_tail (h : Indentation indent)
    (hl : line ∈ (linesOf options indent value c).tail) :
    line.takeWhile isBlank = furtherIndent options indent := by
  obtain ⟨rows, -, hrows, he⟩ := exists_rows_linesOf options indent value c
  rw [he] at hl
  cases rows with
  | nil => cases hl
  | cons row rest =>
    rw [List.map_cons, written, List.tail_cons, List.map_map] at hl
    obtain ⟨r, hr, rfl⟩ := List.mem_map.1 hl
    exact (hrows r (List.mem_cons_of_mem row hr)).takeWhile_rowText
      (indentation_furtherIndent h options).blanks

/-- Clusters stay whole: the classes of one category and property stand side by side on a line. -/
theorem exists_line_of_mem (h : Indentation indent) (options : Options) {t : Token}
    (ht : t ∈ value.words) :
    ∃ line ∈ lines options indent value, ∃ before after, line.words =
      before ++ sortByRank (value.words.filter fun u => clusterKey u = clusterKey t) ++ after := by
  obtain ⟨i, row, hi, hr, hc, hl⟩ :=
    exists_row_of_mem_clusters h options (cluster_mem_clusters ht)
  refine ⟨rowText i row, ?_, ?_⟩
  · rw [lines_eq_flatMap_linesOf]
    exact List.mem_flatMap.2 ⟨_, Category.mem_emitOrder _, hl⟩
  · obtain ⟨front, back, he⟩ := List.append_of_mem hc
    refine ⟨front.flatten, back.flatten, ?_⟩
    rw [hr.words_rowText hi.blanks, he, List.flatten_append, List.flatten_cons, List.append_assoc]

theorem pairwise_category_lines (h : Indentation indent) (options : Options) (value : Text) :
    (lines options indent value).Pairwise fun l m =>
      Category.emitOrder.idxOf (Category.ofToken (leader l)) ≤
        Category.emitOrder.idxOf (Category.ofToken (leader m)) := by
  have hplaces : Category.emitOrder.Pairwise fun c d =>
      Category.emitOrder.idxOf c < Category.emitOrder.idxOf d := by decide
  rw [lines_eq_flatMap_linesOf, List.pairwise_flatMap]
  constructor
  · intro c _
    apply List.pairwise_of_forall_mem_list
    intro l hl m hm
    rw [category_leader h hl, category_leader h hm]
  · apply hplaces.imp
    intro c d hcd l hl m hm
    rw [category_leader h hl, category_leader h hm]
    exact Nat.le_of_lt hcd

theorem linesOf_of_width_zero (hw : options.maxLineWidth = 0) (indent value : Text)
    (c : Category) :
    linesOf options indent value c =
      (clusters (ofCategory c value.words)).map fun cluster =>
        rowText (classIndent indent) [cluster] := by
  rw [linesOf]
  cases clusters (ofCategory c value.words) with
  | nil => rfl
  | cons cluster rest =>
    rw [List.map_cons, categoryLines, if_pos hw, ← List.map_cons, List.map_map]
    apply List.map_congr_left
    intro k _
    exact (lineText_singleton _ _).symm

theorem clusterKey_of_width_zero (h : Indentation indent) {p : Text}
    (hp : p ∈ properties (ofCategory c value.words)) {t : Token}
    (ht : t ∈ (rowText (classIndent indent)
      [sortByRank ((ofCategory c value.words).filter fun u => u.property = p)]).words) :
    clusterKey t = (c, p) := by
  rw [(isRow_singleton hp).words_rowText (indentation_classIndent h).blanks,
    List.flatten_singleton] at ht
  exact clusterKey_of_mem_cluster ht

theorem map_clusterKey_lines (h : Indentation indent) (hw : options.maxLineWidth = 0)
    (value : Text) :
    (lines options indent value).map (fun l => clusterKey (leader l)) =
      clusterKeys value.words := by
  rw [lines_eq_flatMap_linesOf, List.map_flatMap, clusterKeys]
  apply List.flatMap_congr
  intro c _
  rw [linesOf_of_width_zero hw, clusters, ← properties, List.map_map, List.map_map]
  apply List.map_congr_left
  intro p hp
  exact clusterKey_of_width_zero h hp
    ((isRow_singleton hp).leader_mem_words (indentation_classIndent h).blanks)

theorem exists_cluster_of_width_zero (hw : options.maxLineWidth = 0)
    (hl : line ∈ lines options indent value) :
    ∃ c p, p ∈ properties (ofCategory c value.words) ∧ line = rowText (classIndent indent)
      [sortByRank ((ofCategory c value.words).filter fun u => u.property = p)] := by
  obtain ⟨c, hl⟩ := exists_linesOf_of_mem_lines hl
  rw [linesOf_of_width_zero hw, clusters, ← properties, List.map_map] at hl
  obtain ⟨p, hp, rfl⟩ := List.mem_map.1 hl
  exact ⟨c, p, hp, rfl⟩

theorem furtherIndent_eq (hw : options.maxLineWidth ≠ 0) (indent : Text) :
    furtherIndent options indent =
      if options.wrapStyle = .extra then indent ++ [' ', ' ', ' ', ' ']
      else indent ++ [' ', ' '] := by
  rw [furtherIndent, if_neg hw, wrapIndent, classIndent, List.append_assoc]
  rfl

/-- The lines of a packed value hold whole clusters, category by category, and their indentation
shows where a category starts. -/
theorem laidOut_wordLines_pack (options : Options) {indent : Text} (h : Indentation indent)
    (value : Text) :
    LaidOut options indent value.words (pack options indent value).wordLines := by
  rw [wordLines_pack h]
  constructor
  case perm =>
    rw [flatMap_words_lines options h.blanks]
    exact arranged_perm _
  case category_eq =>
    intro line hl t ht
    obtain ⟨c, hl⟩ := exists_linesOf_of_mem_lines hl
    rw [category_of_mem_words h hl ht, category_leader h hl]
  case together =>
    intro t ht
    obtain ⟨line, hl, before, after, he⟩ := exists_line_of_mem h options ht
    exact ⟨line, hl, before, _, after, he, sortByRank_perm _⟩
  case in_order => exact pairwise_category_lines h options value
  case first_indent =>
    intro c line hl
    rw [filter_category_lines h] at hl
    exact takeWhile_of_mem_head? h hl
  case further_indent =>
    intro hw c line hl
    rw [filter_category_lines h] at hl
    rw [takeWhile_of_mem_tail h hl, furtherIndent_eq hw]
  case one_cluster =>
    intro hw
    rw [map_clusterKey_lines h hw]
    refine ⟨clusterKeys_perm _, fun line hl => ?_⟩
    obtain ⟨c, p, hp, rfl⟩ := exists_cluster_of_width_zero hw hl
    have hi := (indentation_classIndent h).blanks
    refine ⟨(isRow_singleton hp).takeWhile_rowText hi, fun t ht => ?_⟩
    rw [clusterKey_of_width_zero h hp ht,
      clusterKey_of_width_zero h hp ((isRow_singleton hp).leader_mem_words hi)]

/-- The clusters of the second category do not fit on one line. -/
theorem laidOut_wordLines_pack_of_wrapped :
    Indentation "\t".toList ∧
      (pack ⟨true, 14, .extra⟩ "\t".toList "md:p-4 flex m-2\np-2 mx-1 grid".toList).wordLines =
        ["\t  flex grid", "\t  p-2 md:p-4", "\t    m-2 mx-1"].map String.toList ∧
      LaidOut ⟨true, 14, .extra⟩ "\t".toList (words "md:p-4 flex m-2\np-2 mx-1 grid".toList)
        (["\t  flex grid", "\t  p-2 md:p-4", "\t    m-2 mx-1"].map String.toList) := by
  have h : Indentation "\t".toList := by decide
  have hl : (pack ⟨true, 14, .extra⟩ "\t".toList
      "md:p-4 flex m-2\np-2 mx-1 grid".toList).wordLines =
        ["\t  flex grid", "\t  p-2 md:p-4", "\t    m-2 mx-1"].map String.toList := by
    decide +kernel
  exact ⟨h, hl, hl ▸ laidOut_wordLines_pack ⟨true, 14, .extra⟩ h _⟩

end Packing

end ClassFormat
