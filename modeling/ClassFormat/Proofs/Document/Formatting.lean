import ClassFormat.Proofs.Document.Value
import ClassFormat.Proofs.Edit
import ClassFormat.Proofs.Segment
import ClassFormat.Proofs.Tag.Rebuilding

namespace ClassFormat

open Text Tag

namespace Document

theorem replacement?_eq_some {options : Options} {newline : Newline} {t : Text} {tag : LocatedTag}
    {r : Replacement} (h : replacement? options newline t tag = some r) :
    r.tag = tag ∧ packedValue options newline (t.lineIndent tag.start) tag.value ≠ tag.value := by
  rw [replacement?] at h
  split at h
  · cases h
  · rename_i hv
    cases h
    exact ⟨rfl, hv⟩

end Document

open Document

namespace Segment

variable {options : Options} {newline : Newline} {indent rest : Text} {s : Segment}
  {ss : List Segment}

def rebuilt (options : Options) (newline : Newline) (indent : Text) (s : Segment) : Segment :=
  { s with
    tag := s.tag.rebuilt (packedValue options newline indent s.tag.value) indent
      (attributeIndent indent) newline.text
    close := s.tag.quote }

/-- The segment with its tag written anew unless the value is right. -/
def format (options : Options) (newline : Newline) (indent : Text) (s : Segment) : Segment :=
  if packedValue options newline indent s.tag.value = s.tag.value then s
  else s.rebuilt options newline indent

/-- The formatted segments of a text in front of which `done` stands. -/
def formatAll (options : Options) (newline : Newline) (done : Text) : List Segment → List Segment
  | [] => []
  | s :: ss =>
    s.format options newline (done ++ s.gap).lastIndent ::
      formatAll options newline (done ++ s.text) ss

@[simp]
theorem format_gap : (s.format options newline indent).gap = s.gap := by
  unfold format
  split <;> rfl

theorem map_gap_formatAll (newline : Newline) (done : Text) (ss : List Segment) :
    (formatAll options newline done ss).map gap = ss.map gap := by
  induction ss generalizing done with
  | nil => rfl
  | cons s ss ih => rw [formatAll, List.map_cons, format_gap, ih, List.map_cons]

@[simp]
theorem format_value : (s.format options newline indent).tag.value =
    packedValue options newline indent s.tag.value := by
  unfold format
  split
  · rename_i h
    exact h.symm
  · rfl

theorem alike_format (h : Indentation indent) :
    s.tag.Alike (s.format options newline indent).tag := by
  unfold format
  split
  · exact .refl s.tag
  · exact alike_rebuilt (spacing_newline newline).blanks h.blanks
      (indentation_attributeIndent h).blanks

theorem reads_format {rest' : Text} (h : s.tag.Reads s.close rest) (hi : Indentation indent)
    (hc : Closes rest' → Closes rest) :
    (s.format options newline indent).tag.Reads (s.format options newline indent).close rest' := by
  unfold format
  split
  · exact h.replace hc
  · exact h.rebuilt hi (indentation_attributeIndent hi) packedValue_ne_nil
      (packedValue_plain hi h.value_plain) rest'

theorem closes_join (h : s.tag.WellFormed s.close) : Closes (join rest (s :: ss)) := by
  rw [join, text_append, source, source_append, ← List.append_assoc, ← List.append_assoc]
  exact h.attributeSource_closes _ _

theorem scanned_formatAll (h : Scanned rest ss) (done : Text) :
    Scanned rest (formatAll options newline done ss) := by
  induction h generalizing done with
  | nil ht => exact .nil ht
  | @cons s ss hg hr hs ih =>
    refine .cons (format_gap.symm ▸ hg) ?_ (ih (done ++ s.text))
    apply reads_format hr (indentation_lastIndent _)
    intro hc
    cases hs with
    | nil => exact hc
    | cons _ hr' _ => exact closes_join hr'.toWellFormed

theorem lineIndent_join (done rest : Text) (s : Segment) (ss : List Segment) :
    (done ++ join rest (s :: ss) : Text).lineIndent ((done.length + s.gap.length : Nat) : Int) =
      (done ++ s.gap).lastIndent := by
  have he : done ++ join rest (s :: ss) = done ++ s.gap ++ '<' :: (s.tag.name ++ s.tag.before ++
      s.tag.attributeSource s.close ++ ['>'] ++ join rest ss) := by
    simp [join, text, source, Tag.source]
  rw [he, ← List.length_append, lineIndent_append_cons (by decide)]

theorem rebuilt_text (s : Segment) : (s.rebuilt options newline indent).text = s.gap ++
    s.tag.rebuild (packedValue options newline indent s.tag.value) indent (attributeIndent indent)
      newline.text := by
  rw [rebuild_eq_source]
  rfl

theorem Scanned.foldr_apply (h : Scanned rest ss) (options : Options) (newline : Newline)
    {done t : Text} (ht : t = done ++ join rest ss) :
    ((((locate done.length ss).filterMap (replacement? options newline t)).map
      Replacement.edit).foldr (fun edit t => edit.apply t) t) =
      done ++ join rest (formatAll options newline done ss) := by
  induction h generalizing done with
  | nil => exact ht
  | @cons s ss hg hr hs ih =>
    have ht' : t = (done ++ s.text) ++ join rest ss := by rw [ht, join, List.append_assoc]
    have ih := ih ht'
    have hi := lineIndent_join done rest s ss
    rw [← ht] at hi
    rw [locate_length_cons, List.filterMap_cons, replacement?, formatAll, format]
    simp only [hi]
    by_cases hv : packedValue options newline (done ++ s.gap).lastIndent s.tag.value = s.tag.value
    · rw [if_pos hv, if_pos hv, join, ← List.append_assoc]
      exact ih
    · rw [if_neg hv, if_neg hv]
      simp only [List.map_cons, List.foldr_cons]
      rw [ih, Replacement.edit, Edit.apply, LocatedTag.stop, ← hr.length_source, text,
        ← List.append_assoc, ← List.length_append, source, splice_append, join, rebuilt_text]
      simp only [List.append_assoc]

theorem pairwise_edits {t : Text} (offset : Nat) : (((locate offset ss).filterMap
    (replacement? options newline t)).map Replacement.edit).Pairwise
      fun a b => a.start < b.start := by
  rw [List.pairwise_map, List.pairwise_filterMap]
  refine (pairwise_locate offset ss).1.imp ?_
  intro a b hab r hr r' hr'
  rw [Replacement.edit, Replacement.edit, (replacement?_eq_some hr).1, (replacement?_eq_some hr').1]
  exact Int.ofNat_lt.2 hab

/-- Formatting a document formats its segments. -/
theorem Scanned.format_join (h : Scanned rest ss) (options : Options) :
    Document.format options (join rest ss) =
      join rest (formatAll options (join rest ss).dominantNewline [] ss) := by
  have ht : join rest ss = [] ++ join rest ss := rfl
  rw [Document.format, edits, replacements, h.scan_join,
    Edit.applyAll_of_pairwise (pairwise_edits 0)]
  exact h.foldr_apply options _ ht

end Segment

end ClassFormat
