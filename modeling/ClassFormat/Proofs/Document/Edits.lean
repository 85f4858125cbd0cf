import ClassFormat.Proofs.Document.Header
import ClassFormat.Proofs.Document.Repetition

namespace ClassFormat

open Text Tag

namespace Edit

def replaced (edit : Edit) (t : Text) : Text :=
  (t.take (t.position edit.stop)).drop (t.position edit.start)

/-- An edit that changes a part of a text; the part is not empty. -/
structure Changes (edit : Edit) (t : Text) : Prop where
  start_nonneg : 0 ≤ edit.start
  start_lt_stop : edit.start < edit.stop
  stop_le_length : edit.stop ≤ t.length
  newText_ne : edit.newText ≠ edit.replaced t

end Edit

namespace Tag

theorem start_lt_stop (tag : LocatedTag) : tag.start < tag.stop := by
  rw [LocatedTag.stop, Tag.length]
  omega

theorem stop_le_length_of_mem_scan {t : Text} {tag : LocatedTag} (h : tag ∈ scan t) :
    tag.stop ≤ t.length := by
  obtain ⟨close, rest, hr, he⟩ := exists_reads_of_mem_scan h
  have hlt := start_lt_stop tag
  have hl := congrArg List.length he
  rw [List.length_drop, List.length_append, hr.length_source] at hl
  rw [LocatedTag.stop] at hlt ⊢
  omega

theorem Reads.rebuild_ne_source {tag : Tag} {close rest value baseIndent attributeIndent : Text}
    (h : tag.Reads close rest) (hb : Indentation baseIndent) (ha : Indentation attributeIndent)
    (hne : value ≠ []) (hv : ∀ c ∈ value, isQuote c = false) (hvalue : value ≠ tag.value)
    (newline : Newline) :
    tag.rebuild value baseIndent attributeIndent newline.text ≠ tag.source close := by
  intro he
  have hnew : read? (tag.source close ++ rest) =
      some (tag.rebuilt value baseIndent attributeIndent newline.text) := by
    rw [← he, rebuild_eq_source]
    exact (h.rebuilt hb ha hne hv rest).read?_append
  rw [h.read?_append, Option.some.injEq] at hnew
  exact hvalue (congrArg Tag.value hnew).symm

end Tag

namespace Document

variable {options : Options} {t : Text}

theorem replaced_of_mem_scan {tag : LocatedTag} (h : tag ∈ scan t) (newText : Text) :
    (⟨tag.start, tag.stop, newText⟩ : Edit).replaced t = (t.take tag.stop).drop tag.start := by
  have hstop := stop_le_length_of_mem_scan h
  have hstart : tag.start ≤ t.length := (start_lt_stop tag).le.trans hstop
  rw [Edit.replaced, position_natCast hstop, position_natCast hstart]

theorem newText_ne_replaced {r : Replacement} (h : r ∈ replacements options t) :
    r.newText ≠ r.edit.replaced t := by
  obtain ⟨hm, hvalue, hn⟩ := mem_replacements_iff.1 h
  obtain ⟨close, rest, hr, he⟩ := exists_reads_of_mem_scan hm
  have hb := indentation_lineIndent t r.tag.start
  rw [Replacement.edit, replaced_of_mem_scan hm, hr.take_drop_stop he, hn]
  exact hr.rebuild_ne_source hb (indentation_attributeIndent hb) packedValue_ne_nil
    (packedValue_plain hb hr.value_plain) hvalue t.dominantNewline

theorem changes_of_mem_edits {edit : Edit} (h : edit ∈ edits options t) : edit.Changes t := by
  obtain ⟨r, hr, rfl⟩ := List.mem_map.1 h
  have hm := (mem_replacements_iff.1 hr).1
  exact ⟨Int.natCast_nonneg _, Int.ofNat_lt.2 (start_lt_stop r.tag),
    Int.ofNat_le.2 (stop_le_length_of_mem_scan hm), newText_ne_replaced hr⟩

theorem pairwise_stop_le_edits (options : Options) (t : Text) :
    (edits options t).Pairwise fun a b => a.start < b.start ∧ a.stop ≤ b.start := by
  rw [edits, replacements, List.pairwise_map, List.pairwise_filterMap]
  refine (pairwise_stop_le_scan t).imp ?_
  intro tag tag' hle r hr r' hr'
  obtain ⟨rfl, _⟩ := replacement?_eq_some hr
  obtain ⟨rfl, _⟩ := replacement?_eq_some hr'
  exact ⟨Int.ofNat_lt.2 ((start_lt_stop r.tag).trans_le hle), Int.ofNat_le.2 hle⟩

/-- The edits of a document stand apart from left to right, each changes the part that it replaces,
and formatting changes the document if and only if there is an edit. -/
theorem edits_apart_and_changing (options : Options) (t : Text) :
    (edits options t).Pairwise (fun a b => a.start < b.start ∧ a.stop ≤ b.start) ∧
      (∀ edit ∈ edits options t, edit.Changes t) ∧
      (format options t = t ↔ edits options t = []) :=
  ⟨pairwise_stop_le_edits options t, fun _ h => changes_of_mem_edits h, format_eq_self_iff⟩

end Document

end ClassFormat
