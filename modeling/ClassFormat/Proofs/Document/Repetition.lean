import Mathlib.Data.List.Nodup
import ClassFormat.Proofs.Document.Structure

namespace ClassFormat

open Text Tag Document

namespace Document

variable {options : Options} {t : Text} {tag tag' : LocatedTag}

/-- One of the edits of a document covers the tag. -/
def IsEdited (options : Options) (t : Text) (tag : LocatedTag) : Prop :=
  ∃ edit ∈ edits options t, edit.start = tag.start ∧ edit.stop = tag.stop

theorem pairwise_scan (t : Text) : (scan t).Pairwise (fun a b => a.start < b.start) := by
  obtain ⟨rest, ss, hs, rfl⟩ := Segment.exists_scanned t
  rw [hs.scan_join]
  exact (Segment.pairwise_locate 0 ss).1

theorem eq_of_start_eq (h : tag ∈ scan t) (h' : tag' ∈ scan t) (he : tag.start = tag'.start) :
    tag = tag' := by
  have hp : ((scan t).map LocatedTag.start).Nodup :=
    List.pairwise_map.2 ((pairwise_scan t).imp Nat.ne_of_lt)
  exact List.inj_on_of_nodup_map hp h h' he

theorem mem_edits_iff {edit : Edit} : edit ∈ edits options t ↔ ∃ tag ∈ scan t, ∃ r,
    replacement? options t.dominantNewline t tag = some r ∧ r.edit = edit := by
  simp only [edits, replacements, List.mem_map, List.mem_filterMap]
  constructor
  · rintro ⟨r, ⟨tag, ht, hr⟩, he⟩
    exact ⟨tag, ht, r, hr, he⟩
  · rintro ⟨tag, ht, r, hr, he⟩
    exact ⟨r, ⟨tag, ht, hr⟩, he⟩

theorem isEdited_iff (h : tag ∈ scan t) : IsEdited options t tag ↔
    packedValue options t.dominantNewline (t.lineIndent tag.start) tag.value ≠ tag.value := by
  constructor
  · rintro ⟨edit, hm, hstart, _⟩
    obtain ⟨tag', ht', r, hr, rfl⟩ := mem_edits_iff.1 hm
    obtain ⟨rfl, hv⟩ := replacement?_eq_some hr
    rw [eq_of_start_eq h ht' (Int.ofNat_inj.1 hstart.symm)]
    exact hv
  · intro hv
    exact ⟨_, mem_edits_iff.2 ⟨tag, h, _, if_neg hv, rfl⟩, rfl, rfl⟩

theorem edits_eq_nil_iff : edits options t = [] ↔ ∀ tag ∈ scan t, ¬ IsEdited options t tag := by
  constructor
  · rintro h tag - ⟨edit, hm, -⟩
    rw [h] at hm
    cases hm
  · intro h
    rw [List.eq_nil_iff_forall_not_mem]
    intro edit hm
    obtain ⟨tag, ht, r, hr, rfl⟩ := mem_edits_iff.1 hm
    obtain ⟨rfl, _⟩ := replacement?_eq_some hr
    exact h r.tag ht ⟨r.edit, hm, rfl, rfl⟩

theorem format_eq_self_iff : format options t = t ↔ edits options t = [] := by
  constructor
  · intro h
    have hr := forall₂_scan_format options t
    rw [h, List.forall₂_same] at hr
    rw [edits_eq_nil_iff]
    intro tag ht
    rw [isEdited_iff ht, not_not]
    exact (hr tag ht).value.symm
  · intro h
    rw [format, h]
    rfl

/-- A tag has the same indentation in two texts, or it has nothing to indent. -/
def SameIndent (options : Options) (t u : Text) (tag tag' : LocatedTag) : Prop :=
  u.lineIndent tag'.start = t.lineIndent tag.start ∨
    options.closeQuoteOnNewLine = false ∧ tag.value.words = []

/-- The second pass leaves a tag whose indentation and line ending it sees unchanged. -/
theorem Reformatted.not_isEdited_iff (h : Reformatted options t tag tag')
    (h' : tag' ∈ scan (format options t)) : ¬ IsEdited options (format options t) tag' ↔
      (format options t).dominantNewline = t.dominantNewline ∧
        SameIndent options t (format options t) tag tag' := by
  have hi := indentation_lineIndent t tag.start
  have hi' := indentation_lineIndent (format options t) tag'.start
  rw [isEdited_iff h', not_not, h.value, packedValue_packedValue hi, packedValue_eq_iff hi' hi]
  rfl

theorem forall₂_not_isEdited_format_iff (options : Options) (t : Text) :
    List.Forall₂ (fun tag tag' => ¬ IsEdited options (format options t) tag' ↔
      (format options t).dominantNewline = t.dominantNewline ∧
        SameIndent options t (format options t) tag tag')
      (scan t) (scan (format options t)) := by
  obtain ⟨hl, hr⟩ := List.forall₂_iff_zip.1 (forall₂_scan_format options t)
  refine List.forall₂_iff_zip.2 ⟨hl, ?_⟩
  intro tag tag' hm
  exact (hr hm).not_isEdited_iff (List.of_mem_zip hm).2

/-- The tags that a second pass edits, tag by tag. -/
theorem forall₂_isEdited_format_iff (options : Options) (t : Text) :
    List.Forall₂ (fun tag tag' => IsEdited options (format options t) tag' ↔
      (format options t).dominantNewline ≠ t.dominantNewline ∨
        (format options t).lineIndent tag'.start ≠ t.lineIndent tag.start ∧
          (options.closeQuoteOnNewLine = true ∨ tag.value.words ≠ []))
      (scan t) (scan (format options t)) := by
  refine (forall₂_not_isEdited_format_iff options t).imp ?_
  intro tag tag' h
  rw [← not_iff_not, h, SameIndent, not_or, not_and_or, not_or, not_not, not_not,
    Bool.not_eq_true, not_not]

/-- A tag on the last line of an edited tag keeps its indentation: it had the indentation of the
edited tag before, or there is nothing to indent. -/
def KeepsIndent (options : Options) (t : Text) (tag next : LocatedTag) : Prop :=
  IsEdited options t tag → '\n' ∉ (t.take next.start).drop tag.stop →
    t.lineIndent next.start = t.lineIndent tag.start ∨
      options.closeQuoteOnNewLine = false ∧ next.value.words = []

/-- One pass does all there is to do: no tag sees another line ending or, behind an edited tag,
another indentation. -/
def Settled (options : Options) (t : Text) : Prop :=
  (format options t).dominantNewline = t.dominantNewline ∧
    (scan t).IsChain (KeepsIndent options t)

end Document

namespace Segment

variable {options : Options} {newline : Newline} {indent rest : Text} {s : Segment}
  {ss : List Segment}

theorem rebuilt_text_eq_append (options : Options) (newline : Newline) (indent : Text)
    (s : Segment) :
    ∃ r, (s.rebuilt options newline indent).text = r ++ '\n' :: (indent ++ ['>']) := by
  obtain ⟨r, hr⟩ := newline.exists_text_eq
  refine ⟨s.gap ++ '<' :: (s.tag.name ++ (s.rebuilt options newline indent).tag.before ++
    s.tag.attributeName ++ '=' :: (s.tag.quote ++ packedValue options newline indent s.tag.value ++
      s.tag.quote ++ attributeLine newline.text (attributeIndent indent) s.tag.after ++ r)), ?_⟩
  simp [text, source, rebuilt, Tag.source, Tag.rebuilt, attributeSource, hr]

theorem newline_mem_text (h : packedValue options newline indent s.tag.value = s.tag.value) :
    '\n' ∈ s.text := by
  have hm : '\n' ∈ s.tag.value := h ▸ newline_mem_packedValue
  simp [text, source, Tag.source, attributeSource, hm]

/-- Behind a formatted tag the indentation changes only if the tag was edited and no line ends in
between, and then it is that of the tag. -/
theorem lastIndent_format_text_append (h : Indentation indent) (done done' g : Text) :
    (done' ++ (s.format options newline indent).text ++ g).lastIndent =
      if packedValue options newline indent s.tag.value = s.tag.value ∨ '\n' ∈ g then
        (done ++ s.text ++ g).lastIndent
      else indent := by
  by_cases hg : '\n' ∈ g
  · rw [if_pos (.inr hg), lastIndent_append hg, lastIndent_append hg]
  by_cases hv : packedValue options newline indent s.tag.value = s.tag.value
  · have hm : '\n' ∈ s.text ++ g := List.mem_append_left g (newline_mem_text hv)
    rw [if_pos (.inl hv), format, if_pos hv, List.append_assoc, List.append_assoc,
      lastIndent_append hm, lastIndent_append hm]
  · obtain ⟨r, hr⟩ := rebuilt_text_eq_append options newline indent s
    rw [if_neg (not_or_intro hv hg), format, if_neg hv, hr, List.append_assoc, List.append_assoc,
      List.cons_append, List.append_assoc, ← List.append_assoc]
    exact h.lastIndent_append_newline (by decide) (by decide) hg _

theorem keepsIndent_iff (options : Options) {s' : Segment} {done t : Text}
    (h : s.tag.WellFormed s.close)
    (ht : t = done ++ join rest (s :: s' :: ss))
    (hm : ⟨s.tag, done.length + s.gap.length⟩ ∈ scan t) (done' : Text) :
    KeepsIndent options t ⟨s.tag, done.length + s.gap.length⟩
        ⟨s'.tag, (done ++ s.text).length + s'.gap.length⟩ ↔
      (done' ++ (s.format options t.dominantNewline (done ++ s.gap).lastIndent).text ++
          s'.gap).lastIndent = (done ++ s.text ++ s'.gap).lastIndent ∨
        options.closeQuoteOnNewLine = false ∧ s'.tag.value.words = [] := by
  have ht' : t = (done ++ s.text) ++ join rest (s' :: ss) := by rw [ht, join, List.append_assoc]
  have hi := lineIndent_join done rest s (s' :: ss)
  have hi' := lineIndent_join (done ++ s.text) rest s' ss
  have hgap := take_drop_join (done ++ s.text) rest s' ss
  rw [← ht] at hi
  rw [← ht'] at hi' hgap
  rw [KeepsIndent, isEdited_iff hm, LocatedTag.stop, stop_eq_length h, hgap, hi, hi',
    lastIndent_format_text_append (indentation_lastIndent _) done]
  split
  · rename_i hk
    simp only [true_or, iff_true]
    intro hv hg
    exact absurd hk (not_or_intro hv hg)
  · rename_i hk
    rw [not_or] at hk
    rw [eq_comm]
    exact ⟨fun hc => hc hk.1 hk.2, fun hc _ _ => hc⟩

/-- Whether the tags behind the first one keep their indentation is decided by each two neighbours
of the unformatted text. -/
theorem Scanned.forall₂_lineIndent_tail_iff (h : Scanned rest (s :: ss)) {t u : Text}
    (done done' : Text) (ht : t = done ++ join rest (s :: ss))
    (hu : u = done' ++ join rest (formatAll options t.dominantNewline done (s :: ss)))
    (hm : ∀ tag ∈ locate done.length (s :: ss), tag ∈ scan t) :
    List.Forall₂ (SameIndent options t u) (locate (done ++ s.text).length ss)
      (locate (done' ++ (s.format options t.dominantNewline (done ++ s.gap).lastIndent).text).length
        (formatAll options t.dominantNewline (done ++ s.text) ss)) ↔
      (locate done.length (s :: ss)).IsChain (KeepsIndent options t) := by
  -- Of the text in front of a tag only the last line counts, so any `done'` will do.
  induction ss generalizing s done done' with
  | nil => simp [locate, formatAll]
  | cons s' ss ih =>
    cases h with
    | cons _ hr hs =>
      rw [locate_length_cons] at hm
      obtain ⟨hhead, hm⟩ := List.forall_mem_cons.1 hm
      have hk := keepsIndent_iff options hr.toWellFormed ht hhead done'
      rw [join, ← List.append_assoc] at ht
      rw [formatAll, join, ← List.append_assoc] at hu
      have ih := ih hs _ _ ht hu hm
      have hi := lineIndent_join (done ++ s.text) rest s' ss
      have hi' := lineIndent_join
        (done' ++ (s.format options t.dominantNewline (done ++ s.gap).lastIndent).text) rest
        (s'.format options t.dominantNewline (done ++ s.text ++ s'.gap).lastIndent)
        (formatAll options t.dominantNewline (done ++ s.text ++ s'.text) ss)
      rw [← ht] at hi
      rw [formatAll] at hu
      rw [← hu] at hi'
      rw [locate_length_cons] at ih
      rw [formatAll, locate_length_cons, locate_length_cons, locate_length_cons,
        locate_length_cons, List.isChain_cons_cons, ← ih, hk, List.forall₂_cons, SameIndent, hi,
        hi', format_gap]

theorem Scanned.forall₂_lineIndent_iff (h : Scanned rest ss) {t u : Text} (ht : t = join rest ss)
    (hu : u = join rest (formatAll options t.dominantNewline [] ss)) :
    List.Forall₂ (SameIndent options t u) (scan t) (scan u) ↔
      (scan t).IsChain (KeepsIndent options t) := by
  have hst : scan t = locate ([] : Text).length ss := by rw [ht, h.scan_join, List.length_nil]
  have hsu : scan u = locate ([] : Text).length (formatAll options t.dominantNewline [] ss) := by
    rw [hu, (scanned_formatAll h []).scan_join, List.length_nil]
  cases ss with
  | nil => simp [hst, hsu, locate, formatAll]
  | cons s ss =>
    have htail := h.forall₂_lineIndent_tail_iff [] [] ht hu (fun _ hm => hst ▸ hm)
    have hi := lineIndent_join [] rest s ss
    have hi' := lineIndent_join [] rest
      (s.format options t.dominantNewline ([] ++ s.gap : Text).lastIndent)
      (formatAll options t.dominantNewline ([] ++ s.text) ss)
    rw [List.nil_append, ← ht] at hi
    rw [formatAll] at hu hsu
    rw [List.nil_append, ← hu] at hi'
    rw [hst, hsu, ← htail, locate_length_cons, locate_length_cons, List.forall₂_cons, SameIndent,
      hi, hi', format_gap]
    exact and_iff_right (.inl rfl)

end Segment

open Segment

namespace Document

theorem forall₂_lineIndent_format_iff (options : Options) (t : Text) :
    List.Forall₂ (SameIndent options t (format options t)) (scan t) (scan (format options t)) ↔
      (scan t).IsChain (KeepsIndent options t) := by
  obtain ⟨rest, ss, hs, rfl⟩ := exists_scanned t
  exact hs.forall₂_lineIndent_iff rfl (hs.format_join options)

theorem forall_mem_iff_forall₂ {α β : Type} {p : β → Prop} {r : α → β → Prop} {l : List α}
    {l' : List β} (h : List.Forall₂ (fun a b => p b ↔ r a b) l l') :
    (∀ b ∈ l', p b) ↔ List.Forall₂ r l l' := by
  induction h with
  | nil => simp
  | cons hab _ ih => rw [List.forall_mem_cons, List.forall₂_cons, hab, ih]

theorem edits_format_eq_nil_iff (options : Options) (t : Text) :
    edits options (format options t) = [] ↔ Settled options t := by
  have hn : (∀ tag ∈ scan t, (format options t).dominantNewline = t.dominantNewline) ↔
      (format options t).dominantNewline = t.dominantNewline := by
    constructor
    · intro h
      cases hl : scan t with
      | nil =>
        have he : edits options t = [] := edits_eq_nil_iff.2 (by simp [hl])
        rw [format_eq_self_iff.2 he]
      | cons tag tags => exact h tag (hl ▸ List.mem_cons_self)
    · exact fun h _ _ => h
  rw [edits_eq_nil_iff, forall_mem_iff_forall₂ (forall₂_not_isEdited_format_iff options t),
    List.forall₂_and_left, hn, forall₂_lineIndent_format_iff, Settled]

/-- Formatting twice is formatting once if and only if the document is settled. -/
theorem format_format_iff_settled (options : Options) (t : Text) :
    (edits options (format options t) = [] ↔ Settled options t) ∧
      (format options (format options t) = format options t ↔ Settled options t) :=
  ⟨edits_format_eq_nil_iff options t, format_eq_self_iff.trans (edits_format_eq_nil_iff options t)⟩

/-- The first pass ends the list tag on a line with another indentation, so the second pass edits
the item behind it again. -/
theorem format_format_ne_of_shared_line :
    edits {} (format {} "<ul\n class=\"p-4\"><li class=\"m-2\">".toList) ≠ [] ∧
      format {} (format {} "<ul\n class=\"p-4\"><li class=\"m-2\">".toList) ≠
        format {} "<ul\n class=\"p-4\"><li class=\"m-2\">".toList := by
  have he : edits {} (format {} "<ul\n class=\"p-4\"><li class=\"m-2\">".toList) ≠ [] := by
    decide +kernel
  exact ⟨he, fun h => he (format_eq_self_iff.1 h)⟩

end Document

end ClassFormat
