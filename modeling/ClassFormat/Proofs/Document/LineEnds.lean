import ClassFormat.Proofs.Document.Formatting
import ClassFormat.Proofs.Text.Balance

namespace ClassFormat

open Text Document

namespace Tag

variable {tag tag' : Tag} {close : Text}

/-- The balance of the line ends of a tag that formatting keeps. -/
def core (tag : Tag) : Int :=
  tag.name.balance + tag.before.trim.balance + tag.attributeName.balance + tag.after.trim.balance

theorem Alike.core (h : tag.Alike tag') : tag'.core = tag.core := by
  rw [Tag.core, h.name, h.before, h.attributeName, h.after, Tag.core]

theorem ne_of_isQuote {q : Char} (h : isQuote q = true) : q ≠ '\r' ∧ q ≠ '\n' := by
  constructor <;> rintro rfl <;> exact absurd h (by decide)

theorem WellFormed.balance_source (h : tag.WellFormed close) : (tag.source close).balance =
    tag.name.balance + tag.before.balance + tag.attributeName.balance + tag.value.balance +
      tag.after.balance := by
  obtain ⟨q, hq, hqt⟩ := h.opening
  obtain ⟨d, hd, rfl⟩ := h.closing
  have he : tag.source [d] = '<' :: (tag.name ++ (tag.before ++ (tag.attributeName ++
      '=' :: q :: (tag.value ++ d :: (tag.after ++ '>' :: []))))) := by
    simp [source, attributeSource, hqt]
  -- Neither a name nor a quote is part of a line ending, so none is torn apart.
  have hname : '\r' ∉ tag.name := fun hm => absurd (h.name_word _ hm) (by decide)
  have hattr : (tag.attributeName ++ '=' :: q :: (tag.value ++ d :: (tag.after ++ ['>']))).head? ≠
      some '\n' := by
    rcases List.mem_cons.1 h.attribute_mem with hn | hn
    · rw [hn]
      simp
    · rw [List.mem_singleton.1 hn]
      simp
  rw [he, balance_cons (by decide) (by decide), balance_append_of_not_mem hname,
    balance_append fun _ => hattr, balance_append_cons (by decide) (by decide),
    balance_cons (ne_of_isQuote hq).1 (ne_of_isQuote hq).2,
    balance_append_cons (ne_of_isQuote hd).1 (ne_of_isQuote hd).2,
    balance_append_cons (by decide) (by decide), balance_nil]
  omega

theorem favors_attributeLine {indent indent' : Text} (h : Indentation indent)
    (h' : Indentation indent') (newline : Newline) (t : Text) : newline.Favors t.trim.balance
      (attributeLine newline.text indent t ++ (newline.text ++ indent')).balance := by
  have hn := newline.favors_balance_text
  have hb : (newline.text ++ indent').balance = newline.text.balance := by
    rw [newline.balance_text_append, balance_of_not_mem (h'.not_mem (by decide)), Int.add_zero]
  unfold attributeLine
  split
  · rename_i ht
    rw [ht, List.nil_append, hb]
    exact hn
  · have hl : t.trim.getLast? ≠ some '\r' := by
      intro hl
      exact absurd (not_blank_of_getLast?_trim hl) (by decide)
    rw [List.append_assoc, List.append_assoc, newline.balance_text_append,
      balance_append_of_not_mem (h.not_mem (by decide)),
      balance_of_not_mem (h.not_mem (by decide)), balance_append (absurd · hl), hb, Int.zero_add]
    have hadd := (hn.add (.refl newline t.trim.balance)).add hn
    rwa [Int.zero_add, Int.add_zero, Int.add_assoc] at hadd

end Tag

open Tag

namespace Segment

variable {options : Options} {newline newline' : Newline} {indent rest : Text} {s : Segment}
  {ss : List Segment}

/-- The balance of the line ends that formatting keeps. -/
def core (s : Segment) : Int := s.gap.balance + s.tag.core

/-- A segment whose other line ends favor the given line ending. -/
def Leans (newline : Newline) (s : Segment) : Prop := newline.Favors s.core s.text.balance

theorem core_format (h : Indentation indent) :
    (s.format options newline indent).core = s.core := by
  rw [core, format_gap, (alike_format h).core, core]

theorem balance_text (s : Segment) : s.text.balance = s.gap.balance + s.source.balance := by
  apply balance_append
  intro _ hh
  cases hh

theorem leans_rebuilt (h : s.tag.WellFormed s.close) (hi : Indentation indent) :
    (s.rebuilt options newline indent).Leans newline := by
  have ha := indentation_attributeIndent hi
  have hw : (s.rebuilt options newline indent).tag.WellFormed s.tag.quote :=
    h.rebuilt hi ha packedValue_ne_nil (packedValue_plain hi h.value_plain)
  have hr : '\r' ∉ pack options (attributeIndent indent) s.tag.value :=
    (tidy_pack ha options s.tag.value).not_mem (by decide) (by decide) (by decide)
  have hbefore : newline.Favors s.tag.before.trim.balance
      (s.rebuilt options newline indent).tag.before.balance :=
    favors_attributeLine ha ha newline s.tag.before
  have hvalue : newline.Favors 0 (packedValue options newline indent s.tag.value).balance :=
    Newline.favors_balance_withNewline hr newline
  have hafter : newline.Favors s.tag.after.trim.balance
      (s.rebuilt options newline indent).tag.after.balance :=
    favors_attributeLine ha hi newline s.tag.after
  have hcore : (s.rebuilt options newline indent).core = s.core :=
    congrArg (s.gap.balance + ·)
      (alike_rebuilt (spacing_newline newline).blanks hi.blanks ha.blanks).core
  have htext : (s.rebuilt options newline indent).text.balance = s.gap.balance +
      (s.tag.name.balance + (s.rebuilt options newline indent).tag.before.balance +
        s.tag.attributeName.balance + (packedValue options newline indent s.tag.value).balance +
          (s.rebuilt options newline indent).tag.after.balance) := by
    rw [balance_text]
    exact congrArg (s.gap.balance + ·) hw.balance_source
  have hadd := (Newline.Favors.refl newline (s.gap.balance + s.tag.name.balance)).add
    ((hbefore.add (.refl newline s.tag.attributeName.balance)).add (hvalue.add hafter))
  rw [Leans, hcore, htext, core, Tag.core]
  simpa only [Int.zero_add, Int.add_assoc] using hadd

theorem leans_format (h : s.tag.WellFormed s.close) (hi : Indentation indent)
    (hl : packedValue options newline indent s.tag.value = s.tag.value → s.Leans newline) :
    (s.format options newline indent).Leans newline := by
  unfold format
  split
  · rename_i hv
    exact hl hv
  · exact leans_rebuilt h hi

theorem mem_formatAll {s' : Segment} {done : Text} (h : s' ∈ formatAll options newline done ss) :
    ∃ s ∈ ss, ∃ indent, Indentation indent ∧ s' = s.format options newline indent := by
  induction ss generalizing done with
  | nil => cases h
  | cons s ss ih =>
    rcases List.mem_cons.1 h with rfl | h
    · exact ⟨s, List.mem_cons_self, _, indentation_lastIndent _, rfl⟩
    · obtain ⟨s, hs, hi⟩ := ih h
      exact ⟨s, List.mem_cons_of_mem _ hs, hi⟩

theorem Scanned.wellFormed (h : Scanned rest ss) (hs : s ∈ ss) : s.tag.WellFormed s.close := by
  induction h with
  | nil => cases hs
  | cons _ hr _ ih =>
    rcases List.mem_cons.1 hs with rfl | hs
    · exact hr.toWellFormed
    · exact ih hs

theorem Scanned.leans_formatAll (h : Scanned rest ss) (hl : ∀ s ∈ ss, s.Leans newline)
    (done : Text) : ∀ s ∈ formatAll options newline done ss, s.Leans newline := by
  intro s' hs'
  obtain ⟨s, hs, indent, hi, rfl⟩ := mem_formatAll hs'
  exact leans_format (h.wellFormed hs) hi fun _ => hl s hs

/-- After a change of the line ending every tag is written anew and leans to the new one. -/
theorem Scanned.leans_formatAll_of_ne (h : Scanned rest ss) (hne : newline ≠ newline')
    (done done' : Text) : ∀ s ∈ formatAll options newline done
      (formatAll options newline' done' ss), s.Leans newline := by
  intro s' hs'
  obtain ⟨s, hs, indent, hi, rfl⟩ := mem_formatAll hs'
  apply leans_format ((scanned_formatAll h done').wellFormed hs) hi
  intro hv
  obtain ⟨s₀, _, indent', hi', rfl⟩ := mem_formatAll hs
  rw [format_value, packedValue_packedValue hi', packedValue_eq_iff hi hi'] at hv
  exact absurd hv.1 hne

theorem balance_text_append (s : Segment) (t : Text) :
    balance (s.text ++ t) = s.text.balance + t.balance := by
  have hl : s.text.getLast? = some '>' := by
    rw [text, source, Tag.source, ← List.cons_append, ← List.append_assoc, List.getLast?_concat]
  apply balance_append
  rw [hl]
  intro h
  cases h

/-- The balance of all line ends that formatting keeps. -/
def kept (rest : Text) : List Segment → Int
  | [] => rest.balance
  | s :: ss => s.core + kept rest ss

theorem kept_formatAll (newline : Newline) (done : Text) (ss : List Segment) :
    kept rest (formatAll options newline done ss) = kept rest ss := by
  induction ss generalizing done with
  | nil => rfl
  | cons s ss ih => rw [formatAll, kept, core_format (indentation_lastIndent _), ih, kept]

theorem favors_join (h : ∀ s ∈ ss, s.Leans newline) (rest : Text) :
    newline.Favors (kept rest ss) (join rest ss).balance := by
  induction ss with
  | nil => exact .refl newline rest.balance
  | cons s ss ih =>
    obtain ⟨hs, hss⟩ := List.forall_mem_cons.1 h
    rw [kept, join, balance_text_append]
    exact hs.add (ih hss)

/-- The line ending that prevails once all segments lean to it. -/
def favored (rest : Text) (ss : List Segment) : Newline :=
  if 0 < kept rest ss then .crlf else .lf

theorem dominantNewline_eq_favored (h : ∀ s ∈ ss, s.Leans (favored rest ss)) :
    (join rest ss).dominantNewline = favored rest ss := by
  have hf := favors_join h rest
  rw [dominantNewline_eq]
  unfold favored at hf ⊢
  split at hf
  · rename_i hc
    rw [if_pos hc, if_pos (Int.lt_of_lt_of_le hc hf)]
  · rename_i hc
    rw [if_neg hc, if_neg (fun hb => hc (Int.lt_of_lt_of_le hb hf))]

end Segment

end ClassFormat
