import ClassFormat.Proofs.Tag.Context
import ClassFormat.Proofs.Text.Line

namespace ClassFormat

namespace Text

/-- A text of line ends, spaces and tabs. -/
def Spacing (t : Text) : Prop := ∀ c ∈ t, c = '\n' ∨ c = '\r' ∨ isIndent c = true

theorem Spacing.append {s t : Text} (hs : Spacing s) (ht : Spacing t) : Spacing (s ++ t) := by
  intro c hc
  rcases List.mem_append.1 hc with h | h
  · exact hs c h
  · exact ht c h

theorem Indentation.spacing {t : Text} (h : Indentation t) : Spacing t :=
  fun c hc => .inr (.inr (h c hc))

theorem spacing_newline (newline : Newline) : Spacing newline.text := by
  cases newline <;> simp [Spacing, Newline.text]

theorem Spacing.blanks {t : Text} (h : Spacing t) : Blanks t := by
  intro c hc
  rcases h c hc with rfl | rfl | hi
  · decide
  · decide
  · exact isBlank_of_isIndent hi

theorem Blanks.not_mem {t : Text} (h : Blanks t) : '>' ∉ t := by
  intro hm
  exact absurd (h '>' hm) (by decide)

theorem Spacing.not_mem {t : Text} (h : Spacing t) : '>' ∉ t := h.blanks.not_mem

end Text

namespace Tag

open Text

/-- A line for the other attributes on one side of the class attribute, if there are any. -/
def attributeLine (newline indent t : Text) : Text :=
  match t.trim with
  | [] => []
  | t => newline ++ indent ++ t

/-- The tag that is written around a new value, one attribute a line. -/
def rebuilt (tag : Tag) (value baseIndent attributeIndent newline : Text) : Tag :=
  { tag with
    before := attributeLine newline attributeIndent tag.before ++ (newline ++ attributeIndent)
    value := value
    after := attributeLine newline attributeIndent tag.after ++ (newline ++ baseIndent) }

theorem rebuild_eq_source (tag : Tag) (value baseIndent attributeIndent newline : Text) :
    tag.rebuild value baseIndent attributeIndent newline =
      (tag.rebuilt value baseIndent attributeIndent newline).source tag.quote := by
  unfold rebuild rebuilt source attributeSource attributeLine
  cases hb : tag.before.trim <;> cases ha : tag.after.trim <;> simp [List.intercalate, hb, ha]

theorem trim_attributeLine {newline indent t s : Text} (hn : Blanks newline) (hi : Blanks indent)
    (hs : Blanks s) : (attributeLine newline indent t ++ s).trim = t.trim := by
  unfold attributeLine
  split
  · rename_i ht
    rw [ht]
    exact hs.trim
  · rw [trim_append_blanks (hn.append hi) hs, trim_trim]

theorem attributeLine_append (newline indent t s : Text) :
    ∃ r, attributeLine newline indent t ++ (newline ++ s) = newline ++ r := by
  unfold attributeLine
  split
  · exact ⟨s, rfl⟩
  · exact ⟨_, by rw [List.append_assoc, List.append_assoc]⟩

theorem readName?_newline_append (newline : Newline) (t : Text) :
    readName? (newline.text ++ t) = none := by
  cases newline
  · exact if_neg (by decide)
  · exact if_neg (by decide)

/-- Two tags that differ only by their values and by blanks around the other attributes. -/
structure Alike (tag tag' : Tag) : Prop where
  name : tag'.name = tag.name
  attributeName : tag'.attributeName = tag.attributeName
  quote : tag'.quote = tag.quote
  before : tag'.before.trim = tag.before.trim
  after : tag'.after.trim = tag.after.trim

theorem Alike.refl (tag : Tag) : tag.Alike tag := ⟨rfl, rfl, rfl, rfl, rfl⟩

theorem alike_rebuilt {tag : Tag} {value baseIndent attributeIndent newline : Text}
    (hn : Blanks newline) (hb : Blanks baseIndent) (ha : Blanks attributeIndent) :
    tag.Alike (tag.rebuilt value baseIndent attributeIndent newline) :=
  ⟨rfl, rfl, rfl, trim_attributeLine hn ha (hn.append ha), trim_attributeLine hn ha (hn.append hb)⟩

theorem isNeutral_of_isBlank {c : Char} (h : isBlank c = true) : isNeutral c = true := by
  have hvisible : ('"' :: '\'' :: '=' :: classAttributes.flatten).all (!isBlank ·) = true := by
    decide
  have hc : c ∉ '"' :: '\'' :: '=' :: classAttributes.flatten := by
    intro hm
    have hb := List.all_eq_true.1 hvisible c hm
    rw [h] at hb
    cases hb
  simp only [List.mem_cons, not_or, List.mem_flatten, not_exists, not_and] at hc
  obtain ⟨hdouble, hsingle, heq, hname⟩ := hc
  simp only [isNeutral, isQuote, Bool.and_eq_true, Bool.not_eq_true', Bool.or_eq_false_iff,
    beq_eq_false_iff_ne, bne_iff_ne, List.all_eq_true, List.contains_eq_mem,
    decide_eq_false_iff_not]
  exact ⟨⟨⟨hdouble, hsingle⟩, heq⟩, hname⟩

theorem skips_of_blanks {s : Text} (hs : Blanks s) (rest : Text) : Skips rest s := by
  induction s with
  | nil => trivial
  | cons c cs ih =>
    have hc := hs c List.mem_cons_self
    refine ⟨?_, readAttribute?_cons_eq_none (isNeutral_of_isBlank hc) _, ih hs.tail⟩
    rintro rfl
    exact hs.not_mem List.mem_cons_self

theorem WellFormed.not_isQuote_head {tag : Tag} {close s : Text} (h : tag.WellFormed close)
    (hs : Blanks s) (rest : Text) :
    ∃ c cs, s ++ (tag.attributeSource close ++ '>' :: rest) = c :: cs ∧ isQuote c = false := by
  cases s with
  | nil =>
    rcases List.mem_cons.1 h.attribute_mem with hn | hn
    · exact ⟨'c', _, by rw [attributeSource, hn]; rfl, by decide⟩
    · rw [List.mem_singleton] at hn
      exact ⟨'c', _, by rw [attributeSource, hn]; rfl, by decide⟩
  | cons c cs =>
    refine ⟨c, _, rfl, ?_⟩
    rw [isQuote, Bool.or_eq_false_iff, beq_eq_false_iff_ne, beq_eq_false_iff_ne]
    have hc := hs c List.mem_cons_self
    constructor <;> rintro rfl <;> exact absurd hc (by decide)

section

variable {tag : Tag} {close value baseIndent attributeIndent : Text} {newline : Newline}

theorem WellFormed.rebuilt (h : tag.WellFormed close) (hb : Indentation baseIndent)
    (ha : Indentation attributeIndent) (hne : value ≠ []) (hv : ∀ c ∈ value, isQuote c = false) :
    (tag.rebuilt value baseIndent attributeIndent newline.text).WellFormed tag.quote := by
  have hn := spacing_newline newline
  have hline {s t : Text} (hs : Spacing s) (ht : '>' ∉ t) :
      '>' ∉ attributeLine newline.text attributeIndent t ++ s := by
    rw [List.mem_append, not_or]
    refine ⟨?_, hs.not_mem⟩
    unfold attributeLine
    split
    · exact List.not_mem_nil
    · rw [List.mem_append, not_or]
      exact ⟨(hn.append ha.spacing).not_mem, fun hm => ht (mem_of_mem_trim hm)⟩
  exact ⟨⟨h.opening, hne, hv, h.opening, hline (hn.append hb.spacing) h.after_open⟩, h.name_ne_nil,
    h.name_word, hline (hn.append ha.spacing) h.before_open, h.attribute_mem⟩

theorem Reads.skips_attributeLine {rest rest' : Text} (h : tag.Reads close rest)
    (ha : Indentation attributeIndent) :
    Skips (newline.text ++ rest') (attributeLine newline.text attributeIndent tag.before) := by
  obtain ⟨a, b, _, hb, he⟩ := exists_eq_trim tag.before
  unfold attributeLine
  split
  · trivial
  · rename_i ht
    rw [skips_append]
    refine ⟨skips_of_blanks ((spacing_newline newline).append ha.spacing).blanks _, ?_⟩
    have hs := h.skips
    rw [he, skips_append, skips_append] at hs
    have hc : Completes (newline.text ++ rest')
        (b ++ (tag.attributeSource close ++ '>' :: rest)) := by
      refine ⟨?_, h.not_isQuote_head hb rest, fun _ => h.attributeSource_closes b rest,
        fun _ => (h.attributeSource_closes b rest).mem⟩
      cases newline
      · exact ⟨'\n', rest', rfl, by decide⟩
      · exact ⟨'\r', '\n' :: rest', rfl, by decide⟩
    exact hc.skips (x := []) hs.1.2

/-- A tag that was read is read again after it has been written anew, whatever follows. -/
theorem Reads.rebuilt {rest : Text} (h : tag.Reads close rest) (hb : Indentation baseIndent)
    (ha : Indentation attributeIndent) (hne : value ≠ []) (hv : ∀ c ∈ value, isQuote c = false)
    (rest' : Text) :
    (tag.rebuilt value baseIndent attributeIndent newline.text).Reads tag.quote rest' := by
  refine ⟨h.toWellFormed.rebuilt hb ha hne hv, ?_, ?_⟩
  · obtain ⟨r, hr⟩ := attributeLine_append newline.text attributeIndent tag.before attributeIndent
    rw [Tag.rebuilt, hr, List.append_assoc, List.append_assoc]
    exact readName?_newline_append newline _
  · rw [Tag.rebuilt, skips_append, List.append_assoc]
    exact ⟨h.skips_attributeLine ha,
      skips_of_blanks ((spacing_newline newline).append ha.spacing).blanks _⟩

end

end Tag

end ClassFormat
