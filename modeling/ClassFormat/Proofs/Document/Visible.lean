import Mathlib.Algebra.Order.Group.Multiset
import Mathlib.Tactic.Abel
import ClassFormat.Proofs.Document.Formatting
import ClassFormat.Proofs.Tag.Scanning

namespace ClassFormat

namespace Text

/-- The visible characters of a text, each as often as it occurs. -/
def visible (t : Text) : Multiset Char := (t.filter (!isBlank ·) : List Char)

theorem visible_append (s t : Text) : visible (s ++ t) = visible s + visible t := by
  rw [visible, List.filter_append, ← Multiset.coe_add]
  rfl

theorem visible_cons (c : Char) (t : Text) : visible (c :: t) = visible [c] + visible t :=
  visible_append [c] t

theorem Blanks.visible {t : Text} (h : Blanks t) : t.visible = 0 := by
  have he : t.filter (!isBlank ·) = [] := List.filter_eq_nil_iff.2 fun c hc => by simp [h c hc]
  rw [Text.visible, he]
  rfl

theorem visible_trim (t : Text) : t.trim.visible = t.visible := by
  obtain ⟨a, b, ha, hb, he⟩ := exists_eq_trim t
  calc
    t.trim.visible = visible (a ++ t.trim ++ b) := by
      rw [visible_append, visible_append, ha.visible, hb.visible, zero_add, add_zero]
    _ = t.visible := by rw [← he]

theorem visible_of_words_perm {s t : Text} (h : s.words.Perm t.words) : s.visible = t.visible := by
  rw [visible, visible, ← flatten_words, ← flatten_words, Multiset.coe_eq_coe]
  exact h.flatten

end Text

open Text

namespace Document

theorem visible_packedValue (options : Options) (newline : Newline) {indent : Text}
    (h : Indentation indent) (value : Text) :
    (packedValue options newline indent value).visible = value.visible := by
  apply visible_of_words_perm
  rw [words_packedValue h]
  exact Token.arranged_perm value.words

end Document

namespace Tag

theorem IsQuoteText.visible {q : Text} (h : IsQuoteText q) : q.visible = (q : Multiset Char) := by
  obtain ⟨c, hc, rfl⟩ := h
  rw [isQuote, Bool.or_eq_true, beq_iff_eq, beq_iff_eq] at hc
  rcases hc with rfl | rfl <;> rfl

theorem visible_attributeLine {newline indent s : Text} (hn : Blanks newline) (hi : Blanks indent)
    (hs : Blanks s) (t : Text) : visible (attributeLine newline indent t ++ s) = t.visible := by
  rw [visible_append, hs.visible, add_zero, ← visible_trim t, attributeLine]
  split
  · rename_i ht
    rw [ht]
  · rw [visible_append, (hn.append hi).visible, zero_add]

theorem visible_source (tag : Tag) (close : Text) : (tag.source close).visible =
    visible ['<'] + (tag.name.visible + tag.before.visible + (tag.attributeName.visible +
      (visible ['='] + (tag.quote.visible + tag.value.visible + close.visible +
        tag.after.visible))) + visible ['>']) := by
  rw [source, attributeSource, visible_cons '<', visible_append, visible_append, visible_append,
    visible_append, visible_cons '=', visible_append, visible_append, visible_append]

/-- A tag that is written anew shows what the old one shows, but for its closing quote. -/
theorem visible_source_rebuilt {tag : Tag} {value baseIndent attributeIndent newline : Text}
    (hn : Blanks newline) (hb : Blanks baseIndent) (ha : Blanks attributeIndent)
    (hv : value.visible = tag.value.visible) (close : Text) :
    ((tag.rebuilt value baseIndent attributeIndent newline).source tag.quote).visible +
      close.visible = (tag.source close).visible + tag.quote.visible := by
  have hbefore : (tag.rebuilt value baseIndent attributeIndent newline).before.visible =
      tag.before.visible := visible_attributeLine hn ha (hn.append ha) tag.before
  have hafter : (tag.rebuilt value baseIndent attributeIndent newline).after.visible =
      tag.after.visible := visible_attributeLine hn ha (hn.append hb) tag.after
  rw [visible_source, visible_source, hbefore, hafter]
  simp only [rebuilt, hv]
  abel

end Tag

open Tag

/-- The quote that closes the value of a tag of a text. -/
def LocatedTag.closingQuote (t : Text) (tag : LocatedTag) : Text :=
  (t.drop (tag.stop - tag.after.length - 2)).take 1

theorem LocatedTag.closingQuote_eq {t : Text} {tag : LocatedTag} {close rest : Text}
    (h : tag.WellFormed close) (ht : t.drop tag.start = tag.source close ++ rest) :
    tag.closingQuote t = close := by
  obtain ⟨q, hq, rfl⟩ := h.closing
  have he : tag.source [q] ++ rest = ('<' :: (tag.name ++ tag.before ++ tag.attributeName ++
      '=' :: (tag.quote ++ tag.value))) ++ q :: (tag.after ++ '>' :: rest) := by
    simp [Tag.source, attributeSource]
  have hl : tag.stop - tag.after.length - 2 = tag.start + ('<' :: (tag.name ++ tag.before ++
      tag.attributeName ++ '=' :: (tag.quote ++ tag.value))).length := by
    simp only [LocatedTag.stop, Tag.length, List.length_cons, List.length_append]
    omega
  rw [closingQuote, hl, ← List.drop_drop, ht, he, List.drop_left]
  rfl

namespace Document

/-- The quotes that open the values of the edited tags. -/
def openingQuotes (options : Options) (t : Text) : Multiset Char :=
  ((replacements options t).flatMap fun r => r.tag.quote : List Char)

/-- The quotes that close the values of the edited tags. -/
def closingQuotes (options : Options) (t : Text) : Multiset Char :=
  ((replacements options t).flatMap fun r => r.tag.closingQuote t : List Char)

end Document

open Document

namespace Segment

variable {indent rest : Text} {s : Segment} {ss : List Segment}

theorem visible_rebuilt (options : Options) (newline : Newline) (h : s.tag.WellFormed s.close)
    (hi : Indentation indent) :
    (s.rebuilt options newline indent).text.visible + (s.close : Multiset Char) =
      s.text.visible + (s.tag.quote : Multiset Char) := by
  have hv := visible_packedValue options newline hi s.tag.value
  have hs := visible_source_rebuilt (spacing_newline newline).blanks hi.blanks
    (indentation_attributeIndent hi).blanks hv s.close
  rw [h.closing.visible, h.opening.visible] at hs
  rw [text, text, visible_append, visible_append, add_assoc, add_assoc]
  exact congrArg (s.gap.visible + ·) hs

theorem Scanned.visible_formatAll (h : Scanned rest ss) (options : Options) (newline : Newline)
    {done t : Text} (ht : t = done ++ join rest ss) :
    (join rest (formatAll options newline done ss)).visible +
        (((locate done.length ss).filterMap (replacement? options newline t)).flatMap
          fun r => r.tag.closingQuote t : List Char) =
      (join rest ss).visible +
        (((locate done.length ss).filterMap (replacement? options newline t)).flatMap
          fun r => r.tag.quote : List Char) := by
  -- Offsets are those of the whole text `t`, of which `done` has been passed.
  induction h generalizing done with
  | nil => rfl
  | @cons s ss hg hr hs ih =>
    have ht' : t = (done ++ s.text) ++ join rest ss := by rw [ht, join, List.append_assoc]
    have ih := ih ht'
    have hi := lineIndent_join done rest s ss
    have hdrop := drop_join done rest s ss
    rw [← ht] at hi hdrop
    have hclose : LocatedTag.closingQuote t ⟨s.tag, done.length + s.gap.length⟩ = s.close :=
      LocatedTag.closingQuote_eq hr.toWellFormed hdrop
    rw [locate_length_cons, List.filterMap_cons, replacement?, formatAll, format]
    simp only [hi]
    by_cases hv : packedValue options newline (done ++ s.gap).lastIndent s.tag.value = s.tag.value
    · rw [if_pos hv, if_pos hv, join, join, visible_append, visible_append, add_assoc, add_assoc]
      exact congrArg (s.text.visible + ·) ih
    · have hseg := visible_rebuilt options newline hr.toWellFormed
        (indentation_lastIndent (done ++ s.gap))
      rw [if_neg hv, if_neg hv, join, join, visible_append, visible_append]
      simp only [List.flatMap_cons, hclose, ← Multiset.coe_add]
      rw [add_add_add_comm, hseg, ih, add_add_add_comm]

end Segment

open Segment

namespace Document

theorem visible_format_add (options : Options) (t : Text) :
    (format options t).visible + closingQuotes options t =
      t.visible + openingQuotes options t := by
  obtain ⟨rest, ss, hs, rfl⟩ := exists_scanned t
  have ht : join rest ss = [] ++ join rest ss := rfl
  rw [hs.format_join, closingQuotes, openingQuotes, replacements, hs.scan_join]
  exact hs.visible_formatAll options _ ht

/-- Formatting replaces the closing quote of every edited tag by its opening quote and keeps all
other visible characters, so it keeps them all if and only if these quotes are the same. -/
theorem visible_format_balance (options : Options) (t : Text) :
    (format options t).visible + closingQuotes options t = t.visible + openingQuotes options t ∧
      ((format options t).visible = t.visible ↔
        closingQuotes options t = openingQuotes options t) := by
  have h := visible_format_add options t
  refine ⟨h, fun he => ?_, fun he => ?_⟩
  · rw [he] at h
    exact add_left_cancel h
  · rw [he] at h
    exact add_right_cancel h

/-- A quote inside a class closes the value, and the edit writes the opening quote in its place. -/
theorem visible_format_ne_of_inner_quote :
    (format {} "<p class=\"before:content-['x']\">".toList).visible ≠
      visible "<p class=\"before:content-['x']\">".toList := by
  decide +kernel

end Document

end ClassFormat
