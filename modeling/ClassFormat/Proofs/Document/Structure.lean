import Mathlib.Data.List.Forall2
import ClassFormat.Proofs.Document.Formatting

namespace ClassFormat

open Text Tag Document

namespace Document

/-- The texts between tags, from an offset to the end of the text. -/
def gapsFrom (t : Text) (offset : Nat) : List LocatedTag → List Text
  | [] => [t.drop offset]
  | tag :: tags => (t.take tag.start).drop offset :: gapsFrom t tag.stop tags

/-- The texts before the first tag, between two tags and behind the last tag. -/
def gaps (t : Text) : List Text := gapsFrom t 0 (Tag.scan t)

/-- A tag of a document and what formatting makes of it. -/
structure Reformatted (options : Options) (t : Text) (tag tag' : LocatedTag) : Prop extends
    Tag.Alike tag.toTag tag'.toTag where
  value : tag'.value = packedValue options t.dominantNewline (t.lineIndent tag.start) tag.value

end Document

namespace Segment

variable {options : Options} {rest : Text} {s : Segment} {ss : List Segment}

theorem take_drop_join (done rest : Text) (s : Segment) (ss : List Segment) :
    ((done ++ join rest (s :: ss)).take (done.length + s.gap.length)).drop done.length = s.gap := by
  rw [join, text_append, ← List.append_assoc, ← List.length_append, List.take_left, List.drop_left]

theorem stop_eq_length (h : s.tag.WellFormed s.close) (done : Text) :
    done.length + s.gap.length + s.tag.length = (done ++ s.text).length := by
  rw [← h.length_source, text, List.length_append, List.length_append, Nat.add_assoc]
  rfl

theorem Scanned.gapsFrom_join (h : Scanned rest ss) {done t : Text}
    (ht : t = done ++ join rest ss) :
    gapsFrom t done.length (locate done.length ss) = ss.map gap ++ [rest] := by
  induction h generalizing done with
  | nil =>
    rw [locate, gapsFrom, ht, List.drop_left]
    rfl
  | @cons s ss hg hr hs ih =>
    have ht' : t = (done ++ s.text) ++ join rest ss := by rw [ht, join, List.append_assoc]
    have hgap := take_drop_join done rest s ss
    rw [← ht] at hgap
    rw [locate_length_cons, gapsFrom, LocatedTag.stop, hgap, stop_eq_length hr.toWellFormed, ih ht']
    rfl

theorem Scanned.gaps_join (h : Scanned rest ss) : gaps (join rest ss) = ss.map gap ++ [rest] := by
  have ht : join rest ss = [] ++ join rest ss := rfl
  rw [gaps, h.scan_join]
  exact h.gapsFrom_join ht

theorem forall₂_locate_formatAll {done t : Text} (ht : t = done ++ join rest ss) (offset : Nat) :
    List.Forall₂ (Reformatted options t) (locate done.length ss)
      (locate offset (formatAll options t.dominantNewline done ss)) := by
  induction ss generalizing done offset with
  | nil => exact .nil
  | cons s ss ih =>
    have hi := lineIndent_join done rest s ss
    have ht' : t = (done ++ s.text) ++ join rest ss := by rw [ht, join, List.append_assoc]
    rw [← ht] at hi
    rw [locate_length_cons]
    refine .cons ⟨alike_format (indentation_lastIndent _), ?_⟩ (ih ht' _)
    rw [format_value, hi]

end Segment

open Segment

namespace Document

theorem forall₂_scan_format (options : Options) (t : Text) :
    List.Forall₂ (Reformatted options t) (scan t) (scan (format options t)) := by
  obtain ⟨rest, ss, hs, rfl⟩ := exists_scanned t
  have ht : join rest ss = [] ++ join rest ss := rfl
  rw [hs.format_join, hs.scan_join, (scanned_formatAll hs []).scan_join]
  exact forall₂_locate_formatAll ht 0

theorem gaps_format (options : Options) (t : Text) : gaps (format options t) = gaps t := by
  obtain ⟨rest, ss, hs, rfl⟩ := exists_scanned t
  rw [hs.format_join, hs.gaps_join, (scanned_formatAll hs []).gaps_join, map_gap_formatAll]

/-- Formatting keeps the tags of a document, their values apart, and the text around them. -/
theorem format_keeps_tags_and_gaps (options : Options) (t : Text) :
    List.Forall₂ (Reformatted options t) (scan t) (scan (format options t)) ∧
      gaps (format options t) = gaps t :=
  ⟨forall₂_scan_format options t, gaps_format options t⟩

end Document

end ClassFormat
