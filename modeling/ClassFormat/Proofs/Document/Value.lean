import ClassFormat.Document
import ClassFormat.Proofs.Packing
import ClassFormat.Proofs.Text.Newline

namespace ClassFormat.Document

open Text

variable {options : Options} {newline newline' : Newline} {indent indent' value : Text}

theorem indentation_attributeIndent (h : Indentation indent) :
    Indentation (attributeIndent indent) :=
  h.append (by decide)

theorem words_packedValue (h : Indentation indent) :
    (packedValue options newline indent value).words = Token.arranged value.words := by
  rw [packedValue, words_withNewline, words_pack options (indentation_attributeIndent h).blanks]

theorem packedValue_packedValue (h : Indentation indent) :
    packedValue options newline' indent' (packedValue options newline indent value) =
      packedValue options newline' indent' value :=
  congrArg (withNewline · newline') (pack_of_words_eq_arranged (words_packedValue h) options _)

theorem packedValue_eq_append (options : Options) (newline : Newline) (indent value : Text) :
    ∃ t, packedValue options newline indent value = newline.text ++ t := by
  unfold packedValue pack
  split
  · exact ⟨_, withNewline_cons_newline _ newline⟩
  · exact ⟨_, withNewline_cons_newline _ newline⟩

theorem packedValue_ne_nil : packedValue options newline indent value ≠ [] := by
  obtain ⟨t, ht⟩ := packedValue_eq_append options newline indent value
  rw [ht]
  cases newline <;> nofun

theorem newline_mem_packedValue : '\n' ∈ packedValue options newline indent value := by
  obtain ⟨t, ht⟩ := packedValue_eq_append options newline indent value
  rw [ht]
  cases newline <;> simp [Newline.text]

theorem mem_of_mem_packedValue (h : Indentation indent) {c : Char}
    (hc : c ∈ packedValue options newline indent value) (hb : isBlank c = false) : c ∈ value := by
  have hm := mem_flatten_words.2 ⟨hc, hb⟩
  rw [words_packedValue h] at hm
  obtain ⟨w, hw, hcw⟩ := List.mem_flatten.1 hm
  exact (mem_flatten_words.1 (List.mem_flatten_of_mem (Token.mem_arranged.1 hw) hcw)).1

theorem packedValue_plain (h : Indentation indent) (hv : ∀ c ∈ value, Tag.isQuote c = false) :
    ∀ c ∈ packedValue options newline indent value, Tag.isQuote c = false := by
  intro c hc
  cases hb : isBlank c with
  | false => exact hv c (mem_of_mem_packedValue h hc hb)
  | true =>
    rw [Tag.isQuote, Bool.or_eq_false_iff, beq_eq_false_iff_ne, beq_eq_false_iff_ne]
    constructor <;> rintro rfl <;> exact absurd hb (by decide)

/-- A packed value shows its line ending and, unless there is nothing to indent, its indentation. -/
theorem packedValue_eq_iff (h : Indentation indent) (h' : Indentation indent') :
    packedValue options newline indent value = packedValue options newline' indent' value ↔
      newline = newline' ∧
        (indent = indent' ∨ options.closeQuoteOnNewLine = false ∧ value.words = []) := by
  have ha : attributeIndent indent = attributeIndent indent' ↔ indent = indent' :=
    List.append_left_inj _
  constructor
  · intro he
    have hn : newline = newline' := by
      obtain ⟨t, ht⟩ := packedValue_eq_append options newline indent value
      obtain ⟨t', ht'⟩ := packedValue_eq_append options newline' indent' value
      rw [ht, ht'] at he
      cases newline <;> cases newline' <;> first | rfl | cases he
    subst hn
    refine ⟨rfl, ?_⟩
    rw [← ha, ← pack_eq_iff (indentation_attributeIndent h) (indentation_attributeIndent h')]
    exact withNewline_injective he
  · rintro ⟨rfl, hi⟩
    rw [← ha, ← pack_eq_iff (indentation_attributeIndent h) (indentation_attributeIndent h')] at hi
    rw [packedValue, hi, packedValue]

end ClassFormat.Document
