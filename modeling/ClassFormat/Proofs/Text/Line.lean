import ClassFormat.Proofs.Text.Blank
import ClassFormat.Text.Line

namespace ClassFormat.Text

def Indentation (t : Text) : Prop := ∀ c ∈ t, isIndent c = true

instance (t : Text) : Decidable (Indentation t) := List.decidableBAll _ t

/-- The indentation of the line that a text ends on. -/
def lastIndent (t : Text) : Text := (t.drop t.lastLineStart).takeWhile isIndent

/-- A text whose only blanks are line feeds, spaces and tabs. -/
def Tidy (t : Text) : Prop := ∀ c ∈ t, isBlank c = true → c = '\n' ∨ isIndent c = true

theorem isBlank_of_isIndent {c : Char} (h : isIndent c = true) : isBlank c = true := by
  rw [isIndent, Bool.or_eq_true, beq_iff_eq, beq_iff_eq] at h
  rcases h with rfl | rfl <;> decide

theorem Indentation.blanks {t : Text} (h : Indentation t) : Blanks t :=
  fun c hc => isBlank_of_isIndent (h c hc)

theorem Indentation.append {s t : Text} (hs : Indentation s) (ht : Indentation t) :
    Indentation (s ++ t) := by
  intro c hc
  rcases List.mem_append.1 hc with h | h
  · exact hs c h
  · exact ht c h

theorem Indentation.not_mem {t : Text} {c : Char} (h : Indentation t) (hc : isIndent c = false) :
    c ∉ t := by
  intro hm
  exact absurd (h c hm) (by simp [hc])

theorem Tidy.append {s t : Text} (hs : Tidy s) (ht : Tidy t) : Tidy (s ++ t) := by
  intro c hc
  rcases List.mem_append.1 hc with h | h
  · exact hs c h
  · exact ht c h

theorem tidy_cons {c : Char} {t : Text} (hc : isBlank c = true → c = '\n' ∨ isIndent c = true)
    (ht : Tidy t) : Tidy (c :: t) :=
  List.forall_mem_cons.2 ⟨hc, ht⟩

theorem Tidy.not_mem {t : Text} {c : Char} (h : Tidy t) (hb : isBlank c = true) (hn : c ≠ '\n')
    (hi : isIndent c = false) : c ∉ t := by
  intro hc
  rcases h c hc hb with he | he
  · exact hn he
  · rw [hi] at he
    cases he

theorem Indentation.tidy {t : Text} (h : Indentation t) : Tidy t :=
  fun c hc _ => .inr (h c hc)

theorem IsWord.tidy {t : Text} (h : IsWord t) : Tidy t := by
  intro c hc hb
  rw [h.not_blank c hc] at hb
  cases hb

theorem tidy_intercalate {c : Char} (hc : isBlank c = true → c = '\n' ∨ isIndent c = true)
    {ts : List Text} (h : ∀ t ∈ ts, Tidy t) : Tidy ([c].intercalate ts) := by
  induction ts with
  | nil => exact List.forall_mem_nil _
  | cons t ts ih =>
    obtain ⟨ht, hts⟩ := List.forall_mem_cons.1 h
    cases ts with
    | nil =>
      rw [List.intercalate_singleton]
      exact ht
    | cons u us =>
      rw [List.intercalate_cons_cons, List.append_assoc]
      exact ht.append (tidy_cons hc (ih hts))

theorem not_mem_intercalate {c d : Char} (hcd : c ≠ d) {ts : List Text} (h : ∀ t ∈ ts, c ∉ t) :
    c ∉ [d].intercalate ts := by
  induction ts with
  | nil => exact List.not_mem_nil
  | cons t ts ih =>
    obtain ⟨ht, hts⟩ := List.forall_mem_cons.1 h
    cases ts with
    | nil =>
      rw [List.intercalate_singleton]
      exact ht
    | cons u us =>
      rw [List.intercalate_cons_cons, List.mem_append, List.mem_append, List.mem_singleton, not_or,
        not_or]
      exact ⟨⟨ht, hcd⟩, ih hts⟩

theorem indentation_lastIndent (t : Text) : Indentation t.lastIndent :=
  fun _ hc => List.mem_takeWhile_imp hc

theorem indentation_lineIndent (t : Text) (offset : Int) : Indentation (t.lineIndent offset) :=
  fun _ hc => List.mem_takeWhile_imp hc

theorem lastLineStart_le_length (t : Text) : t.lastLineStart ≤ t.length := by
  have h := (List.dropWhile_sublist (· ≠ '\n') (l := t.reverse)).length_le
  rwa [List.length_reverse] at h

theorem takeWhile_append_cons_of_neg {p : Char → Bool} {c : Char} (hc : p c = false)
    (s t : Text) : (s ++ c :: t).takeWhile p = s.takeWhile p := by
  induction s with
  | nil => simp [hc]
  | cons d ds ih =>
    rw [List.cons_append, List.takeWhile_cons, List.takeWhile_cons, ih]

/-- The indentation at a place without space or tab depends on the text before it only. -/
theorem lineIndent_append_cons {c : Char} (hc : isIndent c = false) (s t : Text) :
    (s ++ c :: t).lineIndent s.length = s.lastIndent := by
  have hp : (s ++ c :: t).position s.length = s.length :=
    position_natCast (by rw [List.length_append]; exact Nat.le_add_right _ _)
  rw [lineIndent, hp, List.take_left, List.drop_append_of_le_length (lastLineStart_le_length s),
    takeWhile_append_cons_of_neg hc, lastIndent]

theorem lastLineStart_append {t : Text} (ht : '\n' ∈ t) (s : Text) :
    (s ++ t).lastLineStart = s.length + t.lastLineStart := by
  have hne : t.reverse.dropWhile (· ≠ '\n') ≠ [] := by
    intro he
    have h := List.dropWhile_eq_nil_iff.1 he '\n' (List.mem_reverse.2 ht)
    simp at h
  rw [lastLineStart, lastLineStart, List.reverse_append, List.dropWhile_append, if_neg,
    List.length_append, List.length_reverse, Nat.add_comm]
  rwa [List.isEmpty_iff]

theorem lastIndent_append {t : Text} (ht : '\n' ∈ t) (s : Text) :
    (s ++ t).lastIndent = t.lastIndent := by
  rw [lastIndent, lastLineStart_append ht, List.drop_append, List.drop_of_length_le (by omega),
    List.nil_append, Nat.add_sub_cancel_left, lastIndent]

theorem lastIndent_append_newline {t : Text} (ht : '\n' ∉ t) (s : Text) :
    (s ++ '\n' :: t).lastIndent = t.takeWhile isIndent := by
  have hs : lastLineStart ('\n' :: t) = 1 := by
    have hr : ∀ c ∈ t.reverse, (decide (c ≠ '\n')) = true := by
      intro c hc
      rw [decide_eq_true_eq]
      rintro rfl
      exact ht (List.mem_reverse.1 hc)
    rw [lastLineStart, List.reverse_cons, List.dropWhile_append_of_pos hr]
    rfl
  rw [lastIndent_append List.mem_cons_self, lastIndent, hs]
  rfl

/-- A text that puts an indentation and a mark on its last line has that indentation. -/
theorem Indentation.lastIndent_append_newline {indent t : Text} (h : Indentation indent) {c : Char}
    (hc : isIndent c = false) (hn : c ≠ '\n') (ht : '\n' ∉ t) (s : Text) :
    (s ++ '\n' :: (indent ++ c :: t)).lastIndent = indent := by
  have hm : '\n' ∉ indent ++ c :: t := by
    rw [List.mem_append, List.mem_cons, not_or, not_or]
    exact ⟨h.not_mem (by decide), hn.symm, ht⟩
  rw [Text.lastIndent_append_newline hm, takeWhile_append_cons_of_neg hc,
    List.takeWhile_eq_self_iff.2 h]

def wordLines (t : Text) : List Text := (t.cut (· = '\n')).filter fun line => !line.words.isEmpty

theorem wordLines_append_newline (s t : Text) :
    wordLines (s ++ '\n' :: t) = s.wordLines ++ t.wordLines := by
  rw [wordLines, cut_append_cons (by decide), List.filter_append]
  rfl

theorem wordLines_of_not_mem {t : Text} (h : '\n' ∉ t) :
    t.wordLines = if t.words = [] then [] else [t] := by
  have hc : ∀ c ∈ t, decide (c = '\n') = false := by
    intro c hc
    rw [decide_eq_false_iff_not]
    rintro rfl
    exact h hc
  rw [wordLines, cut_of_not_separates hc, List.filter_singleton]
  cases hw : t.words <;> rfl

theorem wordLines_intercalate (ts : List Text) :
    wordLines (['\n'].intercalate ts) = ts.flatMap wordLines := by
  induction ts with
  | nil => rfl
  | cons t ts ih =>
    cases ts with
    | nil => rw [List.intercalate_singleton, List.flatMap_singleton]
    | cons u us =>
      rw [List.intercalate_cons_cons, List.append_assoc, List.singleton_append,
        wordLines_append_newline, ih]
      rfl

end ClassFormat.Text
