import ClassFormat.Proofs.Document.LineEnds

namespace ClassFormat

namespace Text

/-- How many line feeds of a text are not part of the given line ending. -/
def strays : Newline → Text → Int
  | .lf, t => t.countCrlf
  | .crlf, t => t.count '\n' - t.countCrlf

/-- A text whose line feeds are all part of one line ending. -/
def Uniform : Newline → Text → Prop
  | .lf, t => ¬ ['\r', '\n'] <:+: t
  | .crlf, t => ∀ s r, t = s ++ '\n' :: r → s.getLast? = some '\r'

theorem countCrlf_le_count (t : Text) : t.countCrlf ≤ t.count '\n' := by
  fun_induction countCrlf t with
  | case1 cs ih =>
    rw [List.count_cons_of_ne (by decide), List.count_cons_self]
    exact Nat.succ_le_succ ih
  | case2 c cs _ ih => exact ih.trans List.count_le_count_cons
  | case3 => exact Nat.le_refl 0

theorem strays_nonneg (newline : Newline) (t : Text) : 0 ≤ t.strays newline := by
  cases newline with
  | lf => exact Int.natCast_nonneg _
  | crlf => exact Int.sub_nonneg_of_le (Int.ofNat_le.2 (countCrlf_le_count t))

/-- Where the balance adds up, so do the strays: no line ending is torn apart. -/
theorem strays_append {s t : Text} (h : balance (s ++ t) = balance s + balance t)
    (newline : Newline) : strays newline (s ++ t) = s.strays newline + t.strays newline := by
  have hc : (s ++ t : Text).count '\n' = s.count '\n' + t.count '\n' := List.count_append
  unfold balance at h
  cases newline <;> simp only [strays] <;> omega

theorem strays_of_not_mem {t : Text} (h : '\n' ∉ t) (newline : Newline) :
    t.strays newline = 0 := by
  have hn : t.count '\n' = 0 := List.count_eq_zero_of_not_mem h
  have hc := countCrlf_le_count t
  cases newline <;> simp only [strays] <;> omega

theorem strays_append_cons {c : Char} (hr : c ≠ '\r') (hn : c ≠ '\n') (newline : Newline)
    (s t : Text) : strays newline (s ++ c :: t) = s.strays newline + t.strays newline := by
  have hb : balance (s ++ [c]) = balance s + balance [c] := by
    rw [balance_append_cons hr hn, balance_cons hr hn]
  have hb' : balance (s ++ [c] ++ t) = balance (s ++ [c]) + balance t := by
    rw [List.append_assoc, List.singleton_append, balance_append_cons hr hn,
      balance_append_cons hr hn, balance_nil, Int.add_zero]
  have hc : '\n' ∉ [c] := fun h => hn (List.mem_singleton.1 h).symm
  have h := strays_append hb' newline
  rwa [strays_append hb, strays_of_not_mem hc, Int.add_zero, List.append_assoc] at h

theorem strays_newline_append (newline : Newline) (t : Text) :
    strays newline (newline.text ++ t) = t.strays newline := by
  have h := strays_append (newline.balance_text_append t) newline
  cases newline with
  | lf => exact h.trans (Int.zero_add _)
  | crlf => exact h.trans (Int.zero_add _)

theorem strays_withNewline {t : Text} (h : '\r' ∉ t) (newline : Newline) :
    (t.withNewline newline).strays newline = 0 := by
  induction t with
  | nil => exact strays_of_not_mem List.not_mem_nil newline
  | cons c cs ih =>
    rw [List.mem_cons, not_or] at h
    by_cases hc : c = '\n'
    · rw [hc, withNewline_cons_newline, strays_newline_append, ih h.2]
    · have hs := strays_append_cons (Ne.symm h.1) hc newline [] (withNewline cs newline)
      rw [withNewline_cons hc]
      rwa [strays_of_not_mem List.not_mem_nil, ih h.2] at hs

theorem strays_trim_le (newline : Newline) (t : Text) :
    t.trim.strays newline ≤ t.strays newline := by
  by_cases hne : t.trim = []
  · rw [hne, strays_of_not_mem List.not_mem_nil]
    exact strays_nonneg newline t
  · obtain ⟨a, b, _, _, he⟩ := exists_eq_trim t
    -- What is trimmed off meets characters that are not blank, so it tears no line ending apart.
    have ha : balance (a ++ t.trim) = balance a + balance t.trim := by
      apply balance_append
      intro _ hn
      exact absurd (not_blank_of_head?_trim hn) (by decide)
    have hb : balance (a ++ t.trim ++ b) = balance (a ++ t.trim) + balance b := by
      apply balance_append
      intro hr
      rw [List.getLast?_append_of_ne_nil a hne] at hr
      exact absurd (not_blank_of_getLast?_trim hr) (by decide)
    have hs : t.strays newline =
        a.strays newline + t.trim.strays newline + b.strays newline := by
      rw [← strays_append ha, ← strays_append hb, ← he]
    have h₁ := strays_nonneg newline a
    have h₂ := strays_nonneg newline b
    omega

theorem strays_lf_eq_zero_iff {t : Text} : t.strays .lf = 0 ↔ t.Uniform .lf := by
  constructor
  · rintro h ⟨s, r, rfl⟩
    have hs : balance (s ++ ['\r', '\n']) = balance s + balance ['\r', '\n'] :=
      balance_append fun _ hn => by cases hn
    have hr : balance (s ++ ['\r', '\n'] ++ r) = balance (s ++ ['\r', '\n']) + balance r :=
      balance_append fun hl => by simp at hl
    have hc : strays .lf ['\r', '\n'] = 1 := rfl
    have h₁ := strays_nonneg .lf s
    have h₂ := strays_nonneg .lf r
    rw [strays_append hr, strays_append hs, hc] at h
    omega
  · intro h
    show (t.countCrlf : Int) = 0
    fun_induction countCrlf t with
    | case1 cs ih => exact absurd ⟨[], cs, rfl⟩ h
    | case2 c cs _ ih => exact ih fun hcs => h (hcs.trans (List.suffix_cons c cs).isInfix)
    | case3 => rfl

theorem Uniform.of_append {a t : Text} (h : Uniform .crlf (a ++ t))
    (ha : a.getLast? = some '\r' → t.head? ≠ some '\n') : Uniform .crlf t := by
  intro s r he
  have hl := h (a ++ s) r (by rw [he, List.append_assoc])
  cases s with
  | nil =>
    rw [List.append_nil] at hl
    exact absurd (congrArg List.head? he) (ha hl)
  | cons d s => rwa [List.getLast?_append_of_ne_nil a (List.cons_ne_nil d s)] at hl

theorem strays_crlf_eq_zero_iff {t : Text} : t.strays .crlf = 0 ↔ t.Uniform .crlf := by
  constructor
  · rintro h s r rfl
    by_contra hs
    have hb : balance (s ++ '\n' :: r) = balance s + balance ('\n' :: r) :=
      balance_append (absurd · hs)
    have hb' : balance (['\n'] ++ r) = balance ['\n'] + balance r :=
      balance_append fun hl => by cases hl
    have hc : strays .crlf ['\n'] = 1 := rfl
    have h₁ := strays_nonneg .crlf s
    have h₂ := strays_nonneg .crlf r
    have h₃ := strays_append hb' .crlf
    rw [List.singleton_append, hc] at h₃
    rw [strays_append hb] at h
    omega
  · intro h
    have hc : t.count '\n' = t.countCrlf := by
      fun_induction countCrlf t with
      | case1 cs ih =>
        have hcs : Uniform .crlf cs := Uniform.of_append (a := ['\r', '\n']) h (by simp)
        rw [List.count_cons_of_ne (by decide), List.count_cons_self, ih hcs]
      | case2 c cs hne ih =>
        have hn : c ≠ '\n' := by
          rintro rfl
          exact absurd (h [] cs rfl) (by simp)
        have hcs : Uniform .crlf cs := by
          apply Uniform.of_append (a := [c]) h
          intro hc hd
          obtain ⟨ds, rfl⟩ := List.head?_eq_some_iff.1 hd
          exact hne ds (Option.some.inj hc) rfl
        rw [List.count_cons_of_ne hn, ih hcs]
      | case3 => rfl
    show (t.count '\n' : Int) - t.countCrlf = 0
    rw [hc, Int.sub_self]

theorem strays_eq_zero_iff {newline : Newline} {t : Text} :
    t.strays newline = 0 ↔ t.Uniform newline := by
  cases newline with
  | lf => exact strays_lf_eq_zero_iff
  | crlf => exact strays_crlf_eq_zero_iff

instance (newline : Newline) (t : Text) : Decidable (Uniform newline t) :=
  decidable_of_iff (t.strays newline = 0) strays_eq_zero_iff

/-- The line ending that formatting writes is that of all line ends, if they are of one kind. -/
theorem Uniform.dominantNewline {newline : Newline} {t : Text} (h : t.Uniform newline)
    (hn : newline = .crlf → '\n' ∈ t) : t.dominantNewline = newline := by
  have hs := strays_eq_zero_iff.2 h
  have hc := countCrlf_le_count t
  rw [dominantNewline_eq, balance]
  cases newline with
  | lf =>
    simp only [strays] at hs
    rw [if_neg (by omega)]
  | crlf =>
    have hpos : 0 < t.count '\n' := List.count_pos_iff.2 (hn rfl)
    simp only [strays] at hs
    rw [if_pos (by omega)]

end Text

open Text

namespace Tag

variable {tag : Tag} {close : Text}

theorem WellFormed.strays_source (h : tag.WellFormed close) (newline : Newline) :
    (tag.source close).strays newline =
      tag.name.strays newline + tag.before.strays newline + tag.attributeName.strays newline +
        tag.value.strays newline + tag.after.strays newline := by
  have hb := h.balance_source
  obtain ⟨q, hq, hqt⟩ := h.opening
  obtain ⟨d, hd, rfl⟩ := h.closing
  have hc : (tag.source [d]).count '\n' = tag.name.count '\n' + tag.before.count '\n' +
      tag.attributeName.count '\n' + tag.value.count '\n' + tag.after.count '\n' := by
    have hqn := (ne_of_isQuote hq).2
    have hdn := (ne_of_isQuote hd).2
    simp [source, attributeSource, hqt, hqn, hdn]
    omega
  unfold balance at hb
  cases newline <;> simp only [strays] <;> omega

theorem strays_attributeLine {indent indent' : Text} (h : Indentation indent)
    (h' : Indentation indent') (newline : Newline) (t : Text) :
    strays newline (attributeLine newline.text indent t ++ (newline.text ++ indent')) =
      t.trim.strays newline := by
  have hi : strays newline indent = 0 := strays_of_not_mem (h.not_mem (by decide)) newline
  have hend : strays newline (newline.text ++ indent') = 0 := by
    rw [strays_newline_append, strays_of_not_mem (h'.not_mem (by decide))]
  unfold attributeLine
  split
  · rename_i ht
    rw [ht, List.nil_append, hend, strays_of_not_mem List.not_mem_nil]
  · have hl : t.trim.getLast? ≠ some '\r' := by
      intro hl
      exact absurd (not_blank_of_getLast?_trim hl) (by decide)
    have hb : balance (t.trim ++ (newline.text ++ indent')) =
        balance t.trim + balance (newline.text ++ indent') := balance_append (absurd · hl)
    have hb' := balance_append_of_not_mem (h.not_mem (by decide) : '\r' ∉ indent)
      (t.trim ++ (newline.text ++ indent'))
    rw [List.append_assoc, List.append_assoc, strays_newline_append, strays_append hb', hi,
      strays_append hb, hend, Int.zero_add, Int.add_zero]

end Tag

open Tag Document

namespace Segment

variable {options : Options} {newline : Newline} {indent rest : Text} {s : Segment}
  {ss : List Segment}

theorem strays_text (newline : Newline) (s : Segment) :
    s.text.strays newline = s.gap.strays newline + s.source.strays newline :=
  strays_append s.balance_text newline

theorem strays_rebuilt_le (h : s.tag.WellFormed s.close) (hi : Indentation indent) :
    (s.rebuilt options newline indent).text.strays newline ≤ s.text.strays newline := by
  have ha := indentation_attributeIndent hi
  have hw : (s.rebuilt options newline indent).tag.WellFormed s.tag.quote :=
    h.rebuilt hi ha packedValue_ne_nil (packedValue_plain hi h.value_plain)
  have hr : '\r' ∉ pack options (attributeIndent indent) s.tag.value :=
    (tidy_pack ha options s.tag.value).not_mem (by decide) (by decide) (by decide)
  have hvalue : (packedValue options newline indent s.tag.value).strays newline = 0 :=
    strays_withNewline hr newline
  have hbefore : (s.rebuilt options newline indent).tag.before.strays newline =
      s.tag.before.trim.strays newline := strays_attributeLine ha ha newline s.tag.before
  have hafter : (s.rebuilt options newline indent).tag.after.strays newline =
      s.tag.after.trim.strays newline := strays_attributeLine ha hi newline s.tag.after
  have hnew : (s.rebuilt options newline indent).source.strays newline =
      s.tag.name.strays newline + s.tag.before.trim.strays newline +
        s.tag.attributeName.strays newline + 0 + s.tag.after.trim.strays newline := by
    rw [← hbefore, ← hafter, ← hvalue]
    exact hw.strays_source newline
  have hold : s.source.strays newline = s.tag.name.strays newline + s.tag.before.strays newline +
      s.tag.attributeName.strays newline + s.tag.value.strays newline +
        s.tag.after.strays newline := h.strays_source newline
  have h₁ := strays_trim_le newline s.tag.before
  have h₂ := strays_trim_le newline s.tag.after
  have h₃ := strays_nonneg newline s.tag.value
  rw [strays_text, strays_text, hnew, hold]
  simp only [rebuilt]
  omega

theorem strays_format_text_le (h : s.tag.WellFormed s.close) (hi : Indentation indent) :
    (s.format options newline indent).text.strays newline ≤ s.text.strays newline := by
  unfold format
  split
  · exact Int.le_refl _
  · exact strays_rebuilt_le h hi

theorem Scanned.strays_formatAll_le (h : Scanned rest ss) (done : Text) :
    (join rest (formatAll options newline done ss)).strays newline ≤
      (join rest ss).strays newline := by
  induction h generalizing done with
  | nil => exact Int.le_refl _
  | @cons s ss hg hr hs ih =>
    have hseg : (s.format options newline (done ++ s.gap).lastIndent).text.strays newline ≤
        s.text.strays newline :=
      strays_format_text_le hr.toWellFormed (indentation_lastIndent (done ++ s.gap))
    have htail := ih (done ++ s.text)
    rw [formatAll, join, join, strays_append (balance_text_append _ _),
      strays_append (balance_text_append _ _)]
    exact Int.add_le_add hseg htail

end Segment

open Segment

namespace Document

theorem strays_format_le (options : Options) (t : Text) :
    (format options t).strays t.dominantNewline ≤ t.strays t.dominantNewline := by
  obtain ⟨rest, ss, hs, rfl⟩ := exists_scanned t
  rw [hs.format_join]
  exact hs.strays_formatAll_le []

theorem uniform_format {newline : Newline} {t : Text} (h : t.Uniform newline)
    (hn : newline = .crlf → '\n' ∈ t) (options : Options) :
    (format options t).Uniform newline := by
  have hle := strays_format_le options t
  rw [h.dominantNewline hn, strays_eq_zero_iff.2 h] at hle
  exact strays_eq_zero_iff.1 (Int.le_antisymm hle (strays_nonneg newline _))

/-- Formatting keeps line ends of one kind: if every line feed of a document follows a carriage
return, and there is one, the same holds of the result, and if none does, none does in the result.
-/
theorem format_keeps_uniform_line_ends (options : Options) (t : Text) :
    ('\n' ∈ t → t.Uniform .crlf → (format options t).Uniform .crlf) ∧
      (t.Uniform .lf → (format options t).Uniform .lf) :=
  ⟨fun hn h => uniform_format h (fun _ => hn) options, fun h => uniform_format h nofun options⟩

theorem format_keeps_pairs_and_lone_returns :
    ('\n' ∈ "<a\r\n x\r\n class='p-4 flex' \ry>".toList ∧
        Uniform .crlf "<a\r\n x\r\n class='p-4 flex' \ry>".toList ∧
        Uniform .crlf (format {} "<a\r\n x\r\n class='p-4 flex' \ry>".toList)) ∧
      Uniform .lf "\r<a x\r class='p-4\rflex' \r>\n".toList ∧
        Uniform .lf (format {} "\r<a x\r class='p-4\rflex' \r>\n".toList) := by
  have hn : '\n' ∈ "<a\r\n x\r\n class='p-4 flex' \ry>".toList := by decide
  have hcrlf : Uniform .crlf "<a\r\n x\r\n class='p-4 flex' \ry>".toList := by decide
  have hlf : Uniform .lf "\r<a x\r class='p-4\rflex' \r>\n".toList := by decide
  exact ⟨⟨hn, hcrlf, (format_keeps_uniform_line_ends {} _).1 hn hcrlf⟩, hlf,
    (format_keeps_uniform_line_ends {} _).2 hlf⟩

end Document

end ClassFormat
