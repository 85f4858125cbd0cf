import ClassFormat.Proofs.Document.Formatting

namespace ClassFormat

namespace Text

/-- The texts occur in another one, each behind the end of the one before. -/
def InOrder : List Text → Text → Prop
  | [], _ => True
  | p :: ps, t => ∃ a b, t = a ++ (p ++ b) ∧ InOrder ps b

/-- A text that neither starts nor ends with a blank. -/
structure IsSolid (t : Text) : Prop where
  head : ∃ c cs, t = c :: cs ∧ isBlank c = false
  last : ∃ cs c, t = cs ++ [c] ∧ isBlank c = false

theorem InOrder.append_left {ps : List Text} {t : Text} (h : InOrder ps t) (s : Text) :
    InOrder ps (s ++ t) := by
  cases ps with
  | nil => trivial
  | cons p ps =>
    obtain ⟨a, b, rfl, hb⟩ := h
    exact ⟨s ++ a, b, (List.append_assoc ..).symm, hb⟩

theorem InOrder.append_right {ps : List Text} {t : Text} (h : InOrder ps t) (s : Text) :
    InOrder ps (t ++ s) := by
  induction ps generalizing t with
  | nil => trivial
  | cons p ps ih =>
    obtain ⟨a, b, rfl, hb⟩ := h
    exact ⟨a, b ++ s, by rw [List.append_assoc, List.append_assoc], ih hb⟩

theorem InOrder.of_blanks_append {ps : List Text} {s t : Text} (hs : Blanks s)
    (hp : ∀ p ∈ ps, IsSolid p) (h : InOrder ps (s ++ t)) : InOrder ps t := by
  cases ps with
  | nil => trivial
  | cons p ps =>
    obtain ⟨a, b, he, hb⟩ := h
    rcases List.append_eq_append_iff.1 he with ⟨m, _, hm⟩ | ⟨m, ha, hm⟩
    · exact ⟨m, b, hm, hb⟩
    · cases m with
      | nil => exact ⟨[], b, hm.symm, hb⟩
      | cons c cs =>
        obtain ⟨d, ds, rfl, hd⟩ := (hp p List.mem_cons_self).head
        rw [List.cons_append, List.cons_append, List.cons.injEq] at hm
        have hc := hs c (ha ▸ List.mem_append_right a List.mem_cons_self)
        rw [← hm.1, hd] at hc
        cases hc

theorem InOrder.of_append_blanks {ps : List Text} {s t : Text} (hs : Blanks s)
    (hp : ∀ p ∈ ps, IsSolid p) (h : InOrder ps (t ++ s)) : InOrder ps t := by
  induction ps generalizing t with
  | nil => trivial
  | cons p ps ih =>
    obtain ⟨hsolid, hps⟩ := List.forall_mem_cons.1 hp
    obtain ⟨a, b, he, hb⟩ := h
    rw [← List.append_assoc] at he
    rcases List.append_eq_append_iff.1 he with ⟨m, ha, hm⟩ | ⟨m, ht, hm⟩
    · obtain ⟨ds, d, rfl, hd⟩ := hsolid.last
      rcases List.eq_nil_or_concat' m with rfl | ⟨cs, c, rfl⟩
      · rw [List.nil_append] at hm
        rw [List.append_nil] at ha
        exact ⟨a, [], by rw [List.append_nil, ha], ih hps (hm ▸ hb)⟩
      · -- The last character of the text would be one of the blanks.
        rw [← List.append_assoc, ← List.append_assoc] at ha
        have hdc := List.append_inj_right' ha rfl
        have hc := hs c (by rw [hm]; simp)
        rw [← List.singleton_inj.1 hdc, hd] at hc
        cases hc
    · exact ⟨a, m, by rw [ht, List.append_assoc], ih hps (hm ▸ hb)⟩

theorem inOrder_trim_iff {ps : List Text} {t : Text} (hp : ∀ p ∈ ps, IsSolid p) :
    InOrder ps t.trim ↔ InOrder ps t := by
  obtain ⟨a, b, ha, hb, he⟩ := exists_eq_trim t
  constructor
  · intro h
    rw [he]
    exact (h.append_left a).append_right b
  · intro h
    rw [he] at h
    exact (h.of_append_blanks hb hp).of_blanks_append ha hp

theorem blanks_of_trim_eq_nil {t : Text} (h : t.trim = []) : Blanks t := by
  obtain ⟨a, b, ha, hb, he⟩ := exists_eq_trim t
  rw [h, List.append_nil] at he
  rw [he]
  exact ha.append hb

end Text

open Text Tag

/-- The characters of the names of the other attributes. -/
def isAttributeChar (c : Char) : Bool := c.isAlpha || c == '-'

/-- An attribute with its value in double quotes, and the blanks in front of it. -/
structure Attribute where
  blanks : Text
  name : Text
  value : Text
  blanks_ne_nil : blanks ≠ []
  blanks_blank : Blanks blanks
  name_plain : name.all isAttributeChar = true
  value_plain : '"' ∉ value

namespace Attribute

def source (a : Attribute) : Text := a.name ++ '=' :: '"' :: a.value ++ ['"']

/-- The text of an attribute and the blanks in front of it. -/
def text (a : Attribute) : Text := a.blanks ++ a.source

theorem isSolid_source (a : Attribute) : IsSolid a.source := by
  refine ⟨?_, ⟨_, '"', rfl, by decide⟩⟩
  cases hn : a.name with
  | nil => exact ⟨'=', _, by rw [source, hn]; rfl, by decide⟩
  | cons c cs =>
    refine ⟨c, _, by rw [source, hn]; rfl, ?_⟩
    by_contra hb
    rw [Bool.not_eq_false] at hb
    have hw := isWordChar_of_isBlank hb
    have hc := List.all_eq_true.1 a.name_plain c (hn ▸ List.mem_cons_self)
    rw [isAttributeChar, Bool.or_eq_true, beq_iff_eq] at hc
    rcases hc with hc | rfl
    · simp [isWordChar, Char.isAlphanum, hc] at hw
    · exact absurd hb (by decide)

theorem not_mem_text {a : Attribute} (h : '>' ∉ a.value) : '>' ∉ a.text := by
  have hb := a.blanks_blank.not_mem
  have hn : '>' ∉ a.name := by
    intro hm
    exact absurd (List.all_eq_true.1 a.name_plain '>' hm) (by decide)
  simp [text, source, hb, hn, h]

end Attribute

/-- A start tag whose first attribute is a class attribute, with the others behind it. -/
structure StartTag where
  name : Text
  blanks : Text
  value : Text
  attributes : List Attribute
  name_ne_nil : name ≠ []
  name_letters : name.all Char.isAlpha = true
  blanks_ne_nil : blanks ≠ []
  blanks_blank : Blanks blanks
  value_ne_nil : value ≠ []
  value_plain : value.any isQuote = false

namespace StartTag

def text (s : StartTag) : Text :=
  '<' :: s.name ++ s.blanks ++ "class=\"".toList ++ s.value ++
    '"' :: (s.attributes.flatMap Attribute.text ++ ['>'])

/-- The attributes in front of the first one with a `>` in its value. -/
def openAttributes (s : StartTag) : List Attribute :=
  s.attributes.takeWhile fun a => '>' ∉ a.value

def tag (s : StartTag) : Tag where
  name := s.name
  before := s.blanks
  attributeName := "class".toList
  quote := ['"']
  value := s.value
  after := (s.attributes.flatMap Attribute.text ++ ['>']).takeWhile (· ≠ '>')

theorem exists_text_eq (s : StartTag) : ∃ rest, s.text = s.tag.source ['"'] ++ rest := by
  have hm : '>' ∈ s.attributes.flatMap Attribute.text ++ ['>'] := by simp
  obtain ⟨rest, hr⟩ := eq_takeWhile_append_of_mem hm
  refine ⟨rest, ?_⟩
  rw [text, hr]
  simp [Tag.source, attributeSource, tag]

theorem wellFormed_tag (s : StartTag) : s.tag.WellFormed ['"'] := by
  have hquote : IsQuoteText ['"'] := ⟨'"', rfl, rfl⟩
  have hvalue : ∀ c ∈ s.value, isQuote c = false := by
    intro c hc
    exact Bool.eq_false_iff.2 (List.any_eq_false.1 s.value_plain c hc)
  refine ⟨⟨hquote, s.value_ne_nil, hvalue, hquote, ?_⟩, s.name_ne_nil, ?_,
    s.blanks_blank.not_mem, (by decide : "class".toList ∈ classAttributes)⟩
  · intro hm
    simpa using List.mem_takeWhile_imp hm
  · intro c hc
    simp [isWordChar, Char.isAlphanum, List.all_eq_true.1 s.name_letters c hc]

theorem reads_tag (s : StartTag) (rest : Text) : s.tag.Reads ['"'] rest := by
  refine ⟨s.wellFormed_tag, ?_, skips_of_blanks s.blanks_blank _⟩
  obtain ⟨c, cs, hc⟩ := List.exists_cons_of_ne_nil s.blanks_ne_nil
  have hb := isWordChar_of_isBlank (s.blanks_blank c (hc ▸ List.mem_cons_self))
  have he : s.tag.before = c :: cs := hc
  rw [he, List.cons_append, List.cons_append, readName?, hb]
  rfl

theorem inOrder_after (s : StartTag) :
    InOrder (s.openAttributes.map Attribute.source) s.tag.after := by
  rw [openAttributes, tag]
  simp only
  induction s.attributes with
  | nil => trivial
  | cons a as ih =>
    by_cases ha : '>' ∈ a.value
    · rw [List.takeWhile_cons_of_neg (by simpa using ha)]
      trivial
    · have hopen : ∀ c ∈ a.text, decide (c ≠ '>') = true := by
        intro c hc
        rw [decide_eq_true_eq]
        rintro rfl
        exact Attribute.not_mem_text ha hc
      rw [List.takeWhile_cons_of_pos (by simpa using ha), List.map_cons, List.flatMap_cons,
        List.append_assoc, List.takeWhile_append_of_pos hopen]
      exact ⟨a.blanks, _, List.append_assoc .., ih⟩

end StartTag

open Document Segment

theorem Segment.format_close {options : Options} {newline : Newline} {indent : Text} {s : Segment}
    (h : s.close = s.tag.quote) : (s.format options newline indent).close = s.tag.quote := by
  unfold format
  split
  · exact h
  · rfl

namespace StartTag

def segment (s : StartTag) : Segment := ⟨[], s.tag, ['"']⟩

theorem exists_format_eq (options : Options) (s : StartTag) :
    ∃ (new : Tag) (tail : Text), s.tag.Alike new ∧
      new.value = packedValue options s.text.dominantNewline [] s.value ∧
      Document.format options s.text = new.source ['"'] ++ tail := by
  obtain ⟨rest, ht⟩ := s.exists_text_eq
  obtain ⟨last, ss, hs, rfl⟩ := exists_scanned rest
  have hscan : Scanned last (s.segment :: ss) := .cons trivial (s.reads_tag _) hs
  have hjoin : s.text = join last (s.segment :: ss) := ht
  have hindent : lastIndent ([] ++ s.segment.gap) = [] := rfl
  have hf := hscan.format_join options
  rw [← hjoin, formatAll, join, Segment.text, format_gap, hindent, Segment.source,
    format_close rfl] at hf
  refine ⟨_, _, ?_, ?_, hf⟩
  · exact alike_format (s := s.segment) (List.forall_mem_nil _)
  · exact format_value (s := s.segment)

end StartTag

namespace Document

/-- The attributes behind the class attribute come out as they went in, in their order, up to the
first one with a `>` in its value. -/
theorem format_keeps_attributes (options : Options) (s : StartTag) :
    ∃ before rest, Blanks before ∧ format options s.text = '<' :: s.name ++ before ++
        "class=\"".toList ++ packedValue options s.text.dominantNewline [] s.value ++ '"' :: rest ∧
      InOrder (s.openAttributes.map Attribute.source) rest := by
  obtain ⟨new, tail, ha, hv, hf⟩ := s.exists_format_eq options
  refine ⟨new.before, new.after ++ '>' :: tail,
    blanks_of_trim_eq_nil (ha.before.trans s.blanks_blank.trim), ?_, ?_⟩
  · rw [hf, Tag.source, attributeSource, ha.name, ha.attributeName, ha.quote, hv]
    simp [StartTag.tag]
  · have hp : ∀ p ∈ s.openAttributes.map Attribute.source, IsSolid p := by
      intro p hp
      obtain ⟨a, _, rfl⟩ := List.mem_map.1 hp
      exact a.isSolid_source
    -- The new text behind the value differs from the old one by blanks at its ends only.
    have hafter := (inOrder_trim_iff hp).2 s.inOrder_after
    rw [← ha.after, inOrder_trim_iff hp] at hafter
    exact hafter.append_right _

/-- An edit breaks the line in front of the first `>`, also inside the value of an attribute. -/
theorem not_infix_format_of_inner_end :
    ∃ s : StartTag, s.text = "<a class=\"p-4\" data-x=\"a>b\">".toList ∧
      ∃ a ∈ s.attributes, ¬ a.source <:+: format {} s.text := by
  let a : Attribute := ⟨[' '], "data-x".toList, "a>b".toList, by decide, by decide, by decide,
    by decide⟩
  refine ⟨⟨['a'], [' '], "p-4".toList, [a], by decide, by decide, by decide, by decide, by decide,
    by decide⟩, by decide +kernel, a, List.mem_singleton_self a, ?_⟩
  decide +kernel

end Document

end ClassFormat
