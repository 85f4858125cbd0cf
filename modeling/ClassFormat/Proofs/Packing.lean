import Mathlib.Data.List.Basic
import ClassFormat.Packing
import ClassFormat.Proofs.Text.Line
import ClassFormat.Proofs.Token.Order

namespace ClassFormat

open Text

namespace Token

theorem mem_of_mem_clusters {ts cluster : List Token} {t : Token} (hc : cluster ∈ clusters ts)
    (ht : t ∈ cluster) : t ∈ ts :=
  mem_flatten_clusters.1 (List.mem_flatten_of_mem hc ht)

theorem ne_nil_of_mem_clusters {ts cluster : List Token} (h : cluster ∈ clusters ts) :
    cluster ≠ [] := by
  obtain ⟨p, hp, rfl⟩ := List.mem_map.1 h
  exact sortByRank_ne_nil hp

end Token

namespace Packing

theorem words_clusterText {cluster : List Token} (h : ∀ t ∈ cluster, IsWord t) :
    (clusterText cluster).words = cluster := by
  rw [clusterText, words_intercalate (by decide)]
  calc
    cluster.flatMap words = cluster.flatMap fun t => [t] :=
      List.flatMap_congr fun t ht => (h t ht).words
    _ = cluster := List.flatMap_singleton' cluster

theorem flatMap_words_fill {width : Int} {wrapIndent : Text} (hw : Blanks wrapIndent) (line : Text)
    (cs : List Text) :
    (fill width wrapIndent line cs).flatMap words = line.words ++ cs.flatMap words := by
  induction cs generalizing line with
  | nil => rw [fill, List.flatMap_singleton, List.flatMap_nil, List.append_nil]
  | cons c cs ih =>
    rw [fill]
    split
    · rw [ih, words_append_cons (by decide), List.flatMap_cons, List.append_assoc]
    · rw [List.flatMap_cons, ih, hw.words_append, List.flatMap_cons]

theorem flatMap_words_categoryLines {width : Int} {classIndent wrapIndent : Text}
    (hc : Blanks classIndent) (hw : Blanks wrapIndent) (cs : List Text) :
    (categoryLines width classIndent wrapIndent cs).flatMap words = cs.flatMap words := by
  cases cs with
  | nil => rfl
  | cons c cs =>
    rw [categoryLines]
    split
    · rw [List.flatMap_map]
      exact List.flatMap_congr fun t _ => hc.words_append t
    · rw [flatMap_words_fill hw, hc.words_append, List.flatMap_cons]

theorem blanks_classIndent {indent : Text} (h : Blanks indent) :
    Blanks (classIndent indent) :=
  h.append (by decide)

theorem blanks_wrapIndent {indent : Text} (h : Blanks indent) (style : WrapStyle) :
    Blanks (wrapIndent style indent) := by
  unfold wrapIndent
  split
  · exact (blanks_classIndent h).append (by decide)
  · exact blanks_classIndent h

theorem lines_eq (options : Options) (indent value : Text) :
    lines options indent value = Category.emitOrder.flatMap fun c =>
      categoryLines options.maxLineWidth (classIndent indent)
        (wrapIndent options.wrapStyle indent)
        ((Token.clusters (Token.ofCategory c value.words)).map clusterText) :=
  Token.flatMap_buckets (fun _ => rfl) value.words

theorem isWord_of_mem_cluster {value : Text} {c : Category} {cluster : List Token}
    (h : cluster ∈ Token.clusters (Token.ofCategory c value.words)) : ∀ t ∈ cluster, IsWord t := by
  intro t ht
  exact isWord_of_mem_words (List.mem_filter.1 (Token.mem_of_mem_clusters h ht)).1

theorem flatMap_words_lines (options : Options) {indent : Text} (h : Blanks indent) (value : Text) :
    (lines options indent value).flatMap words = Token.arranged value.words := by
  rw [lines_eq, List.flatMap_assoc, Token.arranged]
  apply List.flatMap_congr
  intro c _
  rw [flatMap_words_categoryLines (blanks_classIndent h) (blanks_wrapIndent h _), List.flatMap_map]
  calc
    _ = (Token.clusters (Token.ofCategory c value.words)).flatMap id :=
      List.flatMap_congr fun cluster hc => words_clusterText (isWord_of_mem_cluster hc)
    _ = _ := List.flatMap_id

/-- The first line of a category starts with the class indentation and its first cluster. -/
theorem head?_categoryLines {width : Int} {classIndent wrapIndent line : Text} {cs : List Text}
    (h : (categoryLines width classIndent wrapIndent cs).head? = some line) :
    ∃ c ∈ cs, ∃ s, line = classIndent ++ (c ++ s) := by
  have hfill : ∀ (line : Text) (cs : List Text), ∃ s ls, fill width wrapIndent line cs =
      (line ++ s) :: ls := by
    intro line cs
    induction cs generalizing line with
    | nil => exact ⟨[], [], by rw [fill, List.append_nil]⟩
    | cons c cs ih =>
      rw [fill]
      split
      · obtain ⟨s, ls, hs⟩ := ih (line ++ ' ' :: c)
        exact ⟨' ' :: c ++ s, ls, by rw [hs, List.append_assoc]⟩
      · exact ⟨[], _, by rw [List.append_nil]⟩
  cases cs with
  | nil => cases h
  | cons c cs =>
    refine ⟨c, List.mem_cons_self, ?_⟩
    rw [categoryLines] at h
    split at h
    · exact ⟨[], by rw [List.append_nil]; exact (Option.some.inj h).symm⟩
    · obtain ⟨s, ls, hs⟩ := hfill (classIndent ++ c) cs
      rw [hs, List.head?_cons, Option.some.injEq] at h
      exact ⟨s, by rw [← h, List.append_assoc]⟩

theorem clusterText_eq_cons {cluster : List Token} (hne : cluster ≠ [])
    (h : ∀ t ∈ cluster, IsWord t) : ∃ c cs, clusterText cluster = c :: cs ∧ isBlank c = false := by
  obtain ⟨t, ts, rfl⟩ := List.exists_cons_of_ne_nil hne
  have ht := h t List.mem_cons_self
  obtain ⟨c, cs, rfl⟩ := List.exists_cons_of_ne_nil ht.ne_nil
  have hc := ht.not_blank c List.mem_cons_self
  cases ts with
  | nil => exact ⟨c, cs, List.intercalate_singleton, hc⟩
  | cons u us => exact ⟨c, _, List.intercalate_cons_cons, hc⟩

theorem head?_lines {options : Options} {indent value line : Text}
    (h : (lines options indent value).head? = some line) :
    ∃ c cs, line = classIndent indent ++ c :: cs ∧ isBlank c = false := by
  rw [lines_eq, List.head?_flatMap] at h
  obtain ⟨k, _, hk⟩ := List.exists_of_findSome?_eq_some h
  obtain ⟨t, ht, s, rfl⟩ := head?_categoryLines hk
  obtain ⟨cluster, hc, rfl⟩ := List.mem_map.1 ht
  obtain ⟨c, cs, he, hb⟩ :=
    clusterText_eq_cons (Token.ne_nil_of_mem_clusters hc) (isWord_of_mem_cluster hc)
  exact ⟨c, cs ++ s, by rw [he, List.cons_append], hb⟩

theorem lines_eq_nil_iff {options : Options} {indent : Text} (h : Blanks indent) {value : Text} :
    lines options indent value = [] ↔ value.words = [] := by
  constructor
  · intro hl
    have hw := flatMap_words_lines options h value
    rw [hl, List.flatMap_nil, eq_comm] at hw
    rw [List.eq_nil_iff_forall_not_mem] at hw ⊢
    exact fun t ht => hw t (Token.mem_arranged.2 ht)
  · intro hw
    rw [lines, hw]
    rfl

theorem tidy_fill {width : Int} {wrapIndent line : Text} {cs : List Text} (hw : Tidy wrapIndent)
    (hl : Tidy line) (hc : ∀ c ∈ cs, Tidy c) : ∀ l ∈ fill width wrapIndent line cs, Tidy l := by
  induction cs generalizing line with
  | nil =>
    intro l h
    rw [fill, List.mem_singleton] at h
    exact h ▸ hl
  | cons c cs ih =>
    obtain ⟨hc, hcs⟩ := List.forall_mem_cons.1 hc
    rw [fill]
    split
    · exact ih (hl.append (tidy_cons (by decide) hc)) hcs
    · exact List.forall_mem_cons.2 ⟨hl, ih (hw.append hc) hcs⟩

theorem tidy_categoryLines {width : Int} {classIndent wrapIndent : Text} {cs : List Text}
    (hi : Tidy classIndent) (hw : Tidy wrapIndent) (hc : ∀ c ∈ cs, Tidy c) :
    ∀ l ∈ categoryLines width classIndent wrapIndent cs, Tidy l := by
  cases cs with
  | nil => exact List.forall_mem_nil _
  | cons c cs =>
    rw [categoryLines]
    split
    · intro l h
      obtain ⟨d, hd, rfl⟩ := List.mem_map.1 h
      exact hi.append (hc d hd)
    · obtain ⟨hc, hcs⟩ := List.forall_mem_cons.1 hc
      exact tidy_fill hw (hi.append hc) hcs

theorem indentation_classIndent {indent : Text} (h : Indentation indent) :
    Indentation (classIndent indent) :=
  h.append (by decide)

theorem indentation_wrapIndent {indent : Text} (h : Indentation indent) (style : WrapStyle) :
    Indentation (wrapIndent style indent) := by
  unfold wrapIndent
  split
  · exact (indentation_classIndent h).append (by decide)
  · exact indentation_classIndent h

theorem tidy_lines {indent : Text} (h : Indentation indent) (options : Options) (value : Text) :
    ∀ l ∈ lines options indent value, Tidy l := by
  intro l hl
  rw [lines_eq] at hl
  obtain ⟨k, _, hk⟩ := List.mem_flatMap.1 hl
  apply tidy_categoryLines (indentation_classIndent h).tidy (indentation_wrapIndent h _).tidy _ l hk
  intro c hc
  obtain ⟨cluster, hm, rfl⟩ := List.mem_map.1 hc
  apply tidy_intercalate (by decide)
  intro t ht
  exact (isWord_of_mem_cluster hm t ht).tidy

end Packing

open Packing

theorem tidy_pack {indent : Text} (h : Indentation indent) (options : Options) (value : Text) :
    Tidy (pack options indent value) := by
  have hbody : Tidy ('\n' :: ['\n'].intercalate (lines options indent value)) :=
    tidy_cons (by decide) (tidy_intercalate (by decide) (tidy_lines h options value))
  unfold pack
  split
  · exact hbody.append (tidy_cons (by decide) h.tidy)
  · exact hbody

/-- Packing keeps the words of a value and puts them in order. -/
theorem words_pack (options : Options) {indent : Text} (h : Blanks indent) (value : Text) :
    (pack options indent value).words = Token.arranged value.words := by
  have hbody : words ('\n' :: ['\n'].intercalate (lines options indent value)) =
      Token.arranged value.words := by
    rw [words_cons_blank (by decide), words_intercalate (by decide), flatMap_words_lines options h]
  unfold pack
  split
  · rw [words_append_cons (c := '\n') (by decide), hbody, h.words, List.append_nil]
  · exact hbody

/-- The packed form depends on the order of the words only as far as packing keeps it. -/
theorem pack_of_words_eq_arranged {value value' : Text}
    (h : value'.words = Token.arranged value.words) (options : Options) (indent : Text) :
    pack options indent value' = pack options indent value := by
  have hl : lines options indent value' = lines options indent value := by
    rw [lines_eq, lines_eq, h]
    apply List.flatMap_congr
    intro c _
    rw [Token.clusters_ofCategory_arranged]
  rw [pack, pack, hl]

theorem takeWhile_isIndent_intercalate (options : Options) {indent value : Text}
    (h : Indentation indent) (hw : value.words ≠ []) :
    (['\n'].intercalate (lines options indent value)).takeWhile isIndent = classIndent indent := by
  have hci := indentation_classIndent h
  obtain ⟨line, ls, hl⟩ := List.exists_cons_of_ne_nil ((lines_eq_nil_iff h.blanks).not.2 hw)
  obtain ⟨c, cs, rfl, hc⟩ := head?_lines (congrArg List.head? hl)
  have hi : isIndent c = false := by
    cases hi : isIndent c with
    | false => rfl
    | true => rw [isBlank_of_isIndent hi] at hc; cases hc
  obtain ⟨r, hr⟩ : ∃ r, ['\n'].intercalate (lines options indent value) =
      classIndent indent ++ c :: r := by
    rw [hl]
    cases ls with
    | nil => exact ⟨cs, List.intercalate_singleton⟩
    | cons l ls =>
      refine ⟨cs ++ ['\n'] ++ ['\n'].intercalate (l :: ls), ?_⟩
      rw [List.intercalate_cons_cons, List.append_assoc, List.append_assoc]
      simp
  rw [hr, takeWhile_append_cons_of_neg hi, List.takeWhile_eq_self_iff.2 hci]

/-- A packed value shows its indentation, unless it has neither a class nor a line for the closing
quote. -/
theorem pack_eq_iff {options : Options} {indent indent' value : Text} (h : Indentation indent)
    (h' : Indentation indent') : pack options indent value = pack options indent' value ↔
      indent = indent' ∨ options.closeQuoteOnNewLine = false ∧ value.words = [] := by
  constructor
  · intro he
    cases hq : options.closeQuoteOnNewLine with
    | true =>
      have hlast {i : Text} (hi : Indentation i) : (pack options i value).lastIndent = i := by
        rw [pack, hq, if_pos rfl, lastIndent_append_newline (hi.not_mem (by decide)),
          List.takeWhile_eq_self_iff.2 hi]
      exact .inl (by rw [← hlast h, he, hlast h'])
    | false =>
      by_cases hw : value.words = []
      · exact .inr ⟨rfl, hw⟩
      · have hl : ['\n'].intercalate (lines options indent value) =
            ['\n'].intercalate (lines options indent' value) := by
          simpa [pack, hq] using he
        have hci := takeWhile_isIndent_intercalate options h hw
        rw [hl, takeWhile_isIndent_intercalate options h' hw] at hci
        exact .inl (List.append_cancel_right hci).symm
  · rintro (rfl | ⟨hq, hw⟩)
    · rfl
    · rw [pack, pack, hq, (lines_eq_nil_iff h.blanks).2 hw, (lines_eq_nil_iff h'.blanks).2 hw]
      rfl

end ClassFormat
