import ClassFormat.Proofs.Packing
import ClassFormat.Proofs.Text.Newline
import ClassFormat.Proofs.Token.WritingKey

namespace ClassFormat

open Text Token

/-- The words of a packed value are the words of the value, in a stable sort by the writing key. -/
theorem words_pack_eq_sortBy (options : Options) {indent : Text} (h : Blanks indent)
    (value : Text) :
    (pack options indent value).words =
        sortBy (fun t u => writingKey value.words t ≤ writingKey value.words u) value.words ∧
      (pack options indent value).words.Perm value.words := by
  rw [words_pack options h]
  exact ⟨arranged_eq_sortBy value.words, arranged_perm value.words⟩

theorem words_pack_of_variants_and_duplicates :
    Blanks "\t".toList ∧
      (pack ⟨false, -3, .extra⟩ "\t".toList
        "md:pt-8 flex p-2 sm:pt-6\npt-4 flex md:pt-2".toList).words =
          ["flex", "flex", "pt-4", "sm:pt-6", "md:pt-8", "md:pt-2", "p-2"].map String.toList := by
  refine ⟨by decide, ?_⟩
  rw [(words_pack_eq_sortBy _ (by decide) _).1]
  decide +kernel

/-- Packing forgets an earlier packing, whatever its options, its indentation and its line ending
were. -/
theorem pack_absorbs_pack (options options' : Options) {indent : Text} (h : Blanks indent)
    (indent' value : Text) :
    pack options' indent' (pack options indent value) = pack options' indent' value ∧
      pack options' indent' ((pack options indent value).withNewline .crlf) =
        pack options' indent' value := by
  have hw : (pack options indent value).words = arranged value.words := words_pack options h value
  have hcrlf : ((pack options indent value).withNewline .crlf).words = arranged value.words := by
    rw [words_withNewline, hw]
  exact ⟨pack_of_words_eq_arranged hw options' indent',
    pack_of_words_eq_arranged hcrlf options' indent'⟩

theorem pack_absorbs_pack_of_other_width :
    Blanks "  ".toList ∧
      pack {} "\t".toList
        ((pack ⟨false, 0, .extra⟩ "  ".toList "md:p-4 flex p-2".toList).withNewline .crlf) =
          "\n\t  flex\n\t  p-2 md:p-4\n\t".toList := by
  refine ⟨by decide, ?_⟩
  rw [(pack_absorbs_pack _ _ (by decide) _ _).2]
  decide +kernel

theorem pack_eq_pack_iff_arranged_eq (options : Options) {indent : Text} (h : Blanks indent)
    {value value' : Text} : pack options indent value = pack options indent value' ↔
      arranged value.words = arranged value'.words := by
  constructor
  · intro he
    rw [← words_pack options h value, he, words_pack options h value']
  · intro he
    have hw : (pack options indent value).words = arranged value'.words := by
      rw [words_pack options h, he]
    calc
      pack options indent value = pack options indent (pack options indent value) :=
        (pack_of_words_eq_arranged (words_pack options h value) options indent).symm
      _ = pack options indent value' := pack_of_words_eq_arranged hw options indent

/-- Two values have one packed form if and only if the properties of each category first appear in
one order, and so do the classes of each category, property and rank. -/
theorem pack_eq_pack_iff (options : Options) {indent : Text} (h : Blanks indent)
    (value value' : Text) : pack options indent value = pack options indent value' ↔
      (∀ c, properties (ofCategory c value.words) = properties (ofCategory c value'.words)) ∧
        ∀ c p r, ofKind c p r value.words = ofKind c p r value'.words := by
  rw [pack_eq_pack_iff_arranged_eq options h, arranged_eq_arranged_iff]

/-- The order of categories and breakpoints is lost, that of the properties of a category is not. -/
theorem pack_eq_pack_iff_of_reordered :
    Blanks "  ".toList ∧
      (∀ c p r, ofKind c p r (words "md:p-4 flex p-2".toList) =
        ofKind c p r (words "flex p-2 md:p-4".toList)) ∧
      pack {} "  ".toList "p-2 m-1".toList ≠ pack {} "  ".toList "m-1 p-2".toList := by
  have h : Blanks "  ".toList := by decide
  have hiff := pack_eq_pack_iff {} h
  refine ⟨h, ((hiff _ _).1 ?_).2, fun he => ?_⟩
  · decide +kernel
  · exact absurd (((hiff _ _).1 he).1 .spacing) (by decide +kernel)

end ClassFormat
