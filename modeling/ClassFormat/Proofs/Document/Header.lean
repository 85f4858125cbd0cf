import ClassFormat.Proofs.Document.Formatting
import ClassFormat.Proofs.Tag.Scanning

namespace ClassFormat

open Text

namespace Tag

variable {tag : Tag} {close value baseIndent attributeIndent : Text} {newline : Newline}

/-- What stands in front of the value of a tag. -/
def header (tag : Tag) : Text :=
  '<' :: tag.name ++ (tag.before ++ (tag.attributeName ++ '=' :: tag.quote))

/-- Blanks stand between the name and the class attribute, behind the name as well as in front of
the attribute. -/
def IsSetOff (tag : Tag) : Prop :=
  tag.before.head?.any isBlank = true ∧ tag.before.getLast?.any isBlank = true

theorem source_eq_header_append (tag : Tag) (close : Text) :
    tag.source close = tag.header ++ tag.value ++ (close ++ tag.after ++ ['>']) := by
  simp [source, attributeSource, header]

theorem WellFormed.getLast?_name (h : tag.WellFormed close) :
    ('<' :: tag.name).getLast?.all isBlank = false := by
  rcases List.eq_nil_or_concat' tag.name with hn | ⟨s, c, hn⟩
  · exact absurd hn h.name_ne_nil
  · have hc := h.name_word c (by rw [hn]; simp)
    have hb : isBlank c = false := by
      by_contra hb
      rw [isWordChar_of_isBlank (Bool.not_eq_false _ ▸ hb)] at hc
      cases hc
    rw [hn, ← List.cons_append, List.getLast?_append]
    simpa using hb

theorem WellFormed.head?_attribute (h : tag.WellFormed close) :
    (tag.attributeName ++ '=' :: tag.quote).head? = some 'c' := by
  rcases List.mem_cons.1 h.attribute_mem with hn | hn
  · rw [hn]
    rfl
  · rw [List.mem_singleton.1 hn]
    rfl

theorem WellFormed.words_header_iff (h : tag.WellFormed close) :
    tag.header.words = words ('<' :: tag.name) ++
      (tag.before.words ++ words (tag.attributeName ++ '=' :: tag.quote)) ↔ tag.IsSetOff := by
  have hn := h.getLast?_name
  have ha := h.head?_attribute
  rw [header, words_append_append_iff, Apart, Apart, hn, ha, IsSetOff]
  cases hb : tag.before with
  | nil => simp [ha, isBlank]
  | cons c cs =>
    have hl : (c :: cs).getLast? = some ((c :: cs).getLast (List.cons_ne_nil c cs)) :=
      List.getLast?_eq_some_getLast _
    rw [hl]
    simp [show isBlank 'c' = false by decide]

theorem isSetOff_rebuilt (ha : Blanks attributeIndent) :
    (tag.rebuilt value baseIndent attributeIndent newline.text).IsSetOff := by
  have hn := (spacing_newline newline).blanks
  constructor
  · obtain ⟨r, hr⟩ := attributeLine_append newline.text attributeIndent tag.before attributeIndent
    rw [rebuilt, hr]
    cases newline <;> rfl
  · have hne : newline.text ++ attributeIndent ≠ [] := by
      cases newline <;> simp [Newline.text]
    rw [rebuilt, List.getLast?_append, List.getLast?_eq_some_getLast hne]
    exact (hn.append ha) _ (List.getLast_mem hne)

theorem words_attributeLine {newline indent s : Text} (hn : Blanks newline) (hi : Blanks indent)
    (hs : Blanks s) (t : Text) : words (attributeLine newline indent t ++ s) = t.words := by
  rw [← words_trim, trim_attributeLine hn hi hs, words_trim]

/-- The words in front of the value of a tag that is written anew are kept if and only if blanks
stood between its parts before. -/
theorem WellFormed.words_header_rebuilt_iff (h : tag.WellFormed close)
    (hb : Indentation baseIndent) (ha : Indentation attributeIndent) (hne : value ≠ [])
    (hv : ∀ c ∈ value, isQuote c = false) :
    (tag.rebuilt value baseIndent attributeIndent newline.text).header.words = tag.header.words ↔
      tag.IsSetOff := by
  have hn := (spacing_newline newline).blanks
  have hwf : (tag.rebuilt value baseIndent attributeIndent newline.text).WellFormed tag.quote :=
    h.rebuilt hb ha hne hv
  have hw := hwf.words_header_iff.2 (isSetOff_rebuilt ha.blanks)
  have hbefore : (tag.rebuilt value baseIndent attributeIndent newline.text).before.words =
      tag.before.words := words_attributeLine hn ha.blanks (hn.append ha.blanks) tag.before
  -- The new header has the words of its parts, so the old one has to have them too.
  rw [hbefore] at hw
  rw [hw, eq_comm]
  exact h.words_header_iff

theorem Reads.read?_rebuild {rest : Text} (h : tag.Reads close rest) (hb : Indentation baseIndent)
    (ha : Indentation attributeIndent) (hne : value ≠ []) (hv : ∀ c ∈ value, isQuote c = false)
    (newline : Newline) : read? (tag.rebuild value baseIndent attributeIndent newline.text) =
      some (tag.rebuilt value baseIndent attributeIndent newline.text) := by
  have hr : (tag.rebuilt value baseIndent attributeIndent newline.text).Reads tag.quote [] :=
    h.rebuilt hb ha hne hv []
  rw [rebuild_eq_source, ← hr.read?_append, List.append_nil]

end Tag

open Tag

namespace Document

variable {options : Options} {t : Text} {r : Replacement}

theorem mem_replacements_iff : r ∈ replacements options t ↔ r.tag ∈ scan t ∧
    packedValue options t.dominantNewline (t.lineIndent r.tag.start) r.tag.value ≠ r.tag.value ∧
    r.newText = r.tag.rebuild
      (packedValue options t.dominantNewline (t.lineIndent r.tag.start) r.tag.value)
      (t.lineIndent r.tag.start) (attributeIndent (t.lineIndent r.tag.start))
      t.dominantNewline.text := by
  rw [replacements, List.mem_filterMap]
  constructor
  · rintro ⟨tag, ht, hr⟩
    obtain ⟨rfl, hv⟩ := replacement?_eq_some hr
    rw [replacement?, if_neg hv, Option.some.injEq] at hr
    exact ⟨ht, hv, congrArg Replacement.newText hr.symm⟩
  · rintro ⟨ht, hv, hn⟩
    refine ⟨r.tag, ht, ?_⟩
    rw [replacement?, if_neg hv, ← hn]

/-- An edit keeps the words in front of the value if and only if blanks stood between the name, the
other attributes and the class attribute. -/
theorem words_header_newText_iff (h : r ∈ replacements options t) :
    ∃ new : Tag, read? r.newText = some new ∧
      new.value = packedValue options t.dominantNewline (t.lineIndent r.tag.start) r.tag.value ∧
      (∃ tail, r.newText = new.header ++ new.value ++ tail) ∧
      (new.header.words = r.tag.header.words ↔ r.tag.IsSetOff) := by
  obtain ⟨hm, _, hn⟩ := mem_replacements_iff.1 h
  obtain ⟨close, rest, hr, _⟩ := exists_reads_of_mem_scan hm
  have hb := indentation_lineIndent t r.tag.start
  have ha := indentation_attributeIndent hb
  have hv : ∀ c ∈ packedValue options t.dominantNewline (t.lineIndent r.tag.start) r.tag.value,
      isQuote c = false := packedValue_plain hb hr.value_plain
  rw [hn]
  refine ⟨_, hr.read?_rebuild hb ha packedValue_ne_nil hv _, rfl, ?_,
    hr.toWellFormed.words_header_rebuilt_iff hb ha packedValue_ne_nil hv⟩
  rw [rebuild_eq_source]
  exact ⟨_, source_eq_header_append ..⟩

theorem words_header_newText_of_blanks :
    ∃ r ∈ replacements {} "<div id=\"main\" class=\"p-4 flex\">".toList, ∃ new : Tag,
      read? r.newText = some new ∧ new.header.words = r.tag.header.words := by
  have h : (⟨⟨⟨"div".toList, " id=\"main\" ".toList, "class".toList, ['"'], "p-4 flex".toList, []⟩,
      0⟩, "<div\n  id=\"main\"\n  class=\"\n    flex\n    p-4\n  \"\n>".toList⟩ : Replacement) ∈
        replacements {} "<div id=\"main\" class=\"p-4 flex\">".toList := by
    decide +kernel
  obtain ⟨new, hread, _, _, hw⟩ := words_header_newText_iff h
  exact ⟨_, h, new, hread, hw.2 ⟨by decide, by decide⟩⟩

/-- A longer attribute name that ends in `class` is taken apart. -/
theorem words_header_newText_ne_of_longer_name :
    ∃ r ∈ replacements {} "<div data-class=\"p-4\">".toList, ∃ new : Tag,
      read? r.newText = some new ∧ new.header.words ≠ r.tag.header.words :=
  ⟨⟨⟨⟨"div".toList, " data-".toList, "class".toList, ['"'], "p-4".toList, []⟩, 0⟩,
      "<div\n  data-\n  class=\"\n    p-4\n  \"\n>".toList⟩, by decide +kernel,
    ⟨"div".toList, "\n  data-\n  ".toList, "class".toList, ['"'], "\n    p-4\n  ".toList, ['\n']⟩,
    by decide +kernel, by decide +kernel⟩

end Document

end ClassFormat
