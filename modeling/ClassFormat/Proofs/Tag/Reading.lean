import Mathlib.Data.List.TakeWhile
import ClassFormat.Tag

namespace ClassFormat.Tag

/-- What stands between the text before the attribute and the end of the tag. -/
def attributeSource (tag : Tag) (close : Text) : Text :=
  tag.attributeName ++ '=' :: (tag.quote ++ tag.value ++ close ++ tag.after)

/-- The text of a tag whose value ends with the given quote. -/
def source (tag : Tag) (close : Text) : Text :=
  '<' :: (tag.name ++ tag.before ++ tag.attributeSource close ++ ['>'])

def IsQuoteText (t : Text) : Prop := ∃ q, isQuote q = true ∧ t = [q]

/-- A value that is not empty stands between two quotes, and the tag does not end before its end. -/
structure Quoted (tag : Tag) (close : Text) : Prop where
  opening : IsQuoteText tag.quote
  value_ne_nil : tag.value ≠ []
  value_plain : ∀ c ∈ tag.value, isQuote c = false
  closing : IsQuoteText close
  after_open : '>' ∉ tag.after

/-- The form of a tag. -/
structure WellFormed (tag : Tag) (close : Text) : Prop extends Quoted tag close where
  name_ne_nil : tag.name ≠ []
  name_word : ∀ c ∈ tag.name, isWordChar c = true
  before_open : '>' ∉ tag.before
  attribute_mem : tag.attributeName ∈ classAttributes

theorem dropWord?_eq_some_iff {word t r : Text} : dropWord? word t = some r ↔ t = word ++ r := by
  unfold dropWord?
  split
  · rename_i h
    obtain ⟨s, rfl⟩ := List.isPrefixOf_iff_prefix.1 h
    simp
  · rename_i h
    constructor
    · intro he
      cases he
    · rintro rfl
      exact absurd (List.isPrefixOf_iff_prefix.2 (List.prefix_append word r)) h

theorem takeWhile_append_cons {p : Char → Bool} {s t : Text} {c : Char} (hs : ∀ d ∈ s, p d = true)
    (hc : p c = false) : (s ++ c :: t).takeWhile p = s := by
  rw [List.takeWhile_append_of_pos hs, List.takeWhile_cons_of_neg (by simp [hc]), List.append_nil]

theorem dropWhile_append_cons {p : Char → Bool} {s t : Text} {c : Char} (hs : ∀ d ∈ s, p d = true)
    (hc : p c = false) : (s ++ c :: t).dropWhile p = c :: t := by
  rw [List.dropWhile_append_of_pos hs, List.dropWhile_cons_of_neg (by simp [hc])]

theorem eq_takeWhile_append_of_mem {d : Char} {t : Text} (h : d ∈ t) :
    ∃ rest, t = t.takeWhile (· ≠ d) ++ d :: rest := by
  induction t with
  | nil => cases h
  | cons c cs ih =>
    by_cases hc : c = d
    · subst hc
      exact ⟨cs, by simp⟩
    · obtain ⟨rest, hr⟩ := ih (List.mem_of_ne_of_mem (Ne.symm hc) h)
      refine ⟨rest, ?_⟩
      rw [List.takeWhile_cons_of_pos (by simpa using hc), List.cons_append, ← hr]

theorem readValue?_of_split {n cs vs rest : Text} {q v d : Char} (hq : isQuote q = true)
    (hv : cs.takeWhile (!isQuote ·) = v :: vs) (hr : cs.dropWhile (!isQuote ·) = d :: rest)
    (hgt : '>' ∈ rest) :
    readValue? n (q :: cs) = some ⟨[], [], n, [q], v :: vs, rest.takeWhile (· ≠ '>')⟩ := by
  rw [readValue?, if_pos hq]
  simp only [hv, hr]
  rw [if_pos (by simpa using hgt)]

theorem Quoted.readValue?_append {tag : Tag} {close : Text} (h : tag.Quoted close) (rest : Text) :
    readValue? tag.attributeName (tag.quote ++ tag.value ++ close ++ tag.after ++ '>' :: rest) =
      some { tag with name := [], before := [] } := by
  obtain ⟨q, hq, hqt⟩ := h.opening
  obtain ⟨d, hd, rfl⟩ := h.closing
  obtain ⟨v, vs, hv⟩ := List.exists_cons_of_ne_nil h.value_ne_nil
  have hplain : ∀ c ∈ tag.value, (!isQuote c) = true := by
    intro c hc
    rw [h.value_plain c hc]
    rfl
  have hend : ∀ c ∈ tag.after, decide (c ≠ '>') = true := by
    intro c hc
    rw [decide_eq_true_eq]
    rintro rfl
    exact h.after_open hc
  have hd' : (!isQuote d) = false := by rw [hd]; rfl
  have he : tag.quote ++ tag.value ++ [d] ++ tag.after ++ '>' :: rest =
      q :: (tag.value ++ d :: (tag.after ++ '>' :: rest)) := by
    rw [hqt]
    simp
  rw [he, readValue?_of_split hq ((takeWhile_append_cons hplain hd').trans hv)
    (dropWhile_append_cons hplain hd') (by simp), takeWhile_append_cons hend (by decide), ← hv,
    ← hqt]

theorem readValue?_eq_some {n t : Text} {tag : Tag} (h : readValue? n t = some tag) :
    tag.name = [] ∧ tag.before = [] ∧ tag.attributeName = n ∧ ∃ close rest, tag.Quoted close ∧
      t = tag.quote ++ tag.value ++ close ++ tag.after ++ '>' :: rest := by
  unfold readValue? at h
  split at h
  · cases h
  · rename_i q cs
    split at h
    · rename_i hq
      split at h
      · rename_i v vs d r hv hr
        split at h
        · rename_i hgt
          cases h
          have hd : isQuote d = true := by
            have hh := List.head?_dropWhile_not (!isQuote ·) cs
            rw [hr] at hh
            simpa using hh
          have hplain : ∀ c ∈ v :: vs, isQuote c = false := by
            intro c hc
            rw [← hv] at hc
            simpa using List.mem_takeWhile_imp hc
          have hcs : cs = v :: vs ++ d :: r := by
            rw [← hv, ← hr, List.takeWhile_append_dropWhile]
          obtain ⟨rest, hrest⟩ := eq_takeWhile_append_of_mem (List.contains_iff_mem.1 hgt)
          refine ⟨rfl, rfl, rfl, [d], rest, ⟨⟨q, hq, rfl⟩, by simp, hplain, ⟨d, hd, rfl⟩, ?_⟩, ?_⟩
          · intro hm
            simpa using List.mem_takeWhile_imp hm
          · rw [hcs]
            simpa using hrest
        · cases h
      · cases h
    · cases h

theorem readAttribute?_eq_some {t : Text} {tag : Tag} (h : readAttribute? t = some tag) :
    tag.name = [] ∧ tag.before = [] ∧ tag.attributeName ∈ classAttributes ∧
      ∃ close rest, tag.Quoted close ∧ t = tag.attributeSource close ++ '>' :: rest := by
  obtain ⟨n, hn, hr⟩ := List.exists_of_findSome?_eq_some h
  split at hr
  · rename_i cs hw
    obtain ⟨h₁, h₂, h₃, close, rest, hq, ht⟩ := readValue?_eq_some hr
    refine ⟨h₁, h₂, h₃ ▸ hn, close, rest, hq, ?_⟩
    rw [dropWord?_eq_some_iff.1 hw, ht, attributeSource, h₃]
    simp
  · cases hr

theorem dropWord?_className_class (r : Text) :
    dropWord? "className".toList ("class".toList ++ '=' :: r) = none := by
  unfold dropWord?
  rw [if_neg]
  simp [List.isPrefixOf]

theorem Quoted.readAttribute?_append {tag : Tag} {close : Text} (h : tag.Quoted close)
    (hn : tag.attributeName ∈ classAttributes) (rest : Text) :
    readAttribute? (tag.attributeSource close ++ '>' :: rest) =
      some { tag with name := [], before := [] } := by
  have he : tag.attributeSource close ++ '>' :: rest = tag.attributeName ++
      '=' :: (tag.quote ++ tag.value ++ close ++ tag.after ++ '>' :: rest) := by
    simp [attributeSource]
  have hw := dropWord?_eq_some_iff.2 he
  rw [readAttribute?, classAttributes, List.findSome?_cons, List.findSome?_cons,
    List.findSome?_nil]
  rw [classAttributes, List.mem_cons, List.mem_singleton] at hn
  rcases hn with hn | hn
  · rw [← hn, hw]
    simp only [h.readValue?_append rest]
  · rw [he, hn, dropWord?_className_class, ← hn, ← he, hw]
    simp only [h.readValue?_append rest]

/-- No character of the text ends the tag, and none starts a class attribute when `rest` follows. -/
def Skips (rest : Text) : Text → Prop
  | [] => True
  | c :: cs => c ≠ '>' ∧ readAttribute? (c :: cs ++ rest) = none ∧ Skips rest cs

theorem Skips.not_mem {rest s : Text} (h : Skips rest s) : '>' ∉ s := by
  induction s with
  | nil => exact List.not_mem_nil
  | cons c cs ih =>
    rw [List.mem_cons, not_or]
    exact ⟨h.1.symm, ih h.2.2⟩

theorem skips_append {rest s t : Text} :
    Skips rest (s ++ t) ↔ Skips (t ++ rest) s ∧ Skips rest t := by
  induction s with
  | nil => simp [Skips]
  | cons c cs ih => simp only [Skips, List.cons_append, ih, List.append_assoc, and_assoc]

theorem Skips.readBefore?_append {rest before : Text} {tag : Tag} (h : Skips rest before)
    (hr : readAttribute? rest = some tag) :
    readBefore? (before ++ rest) = some { tag with before := before } := by
  induction before with
  | nil =>
    have hb := (readAttribute?_eq_some hr).2.1
    cases rest with
    | nil => cases hr
    | cons c cs => rw [List.nil_append, readBefore?, hr, ← hb]
  | cons c cs ih =>
    rw [List.cons_append, readBefore?, ← List.cons_append, h.2.1]
    simp only [if_neg h.1, ih h.2.2, Option.map_some]

theorem readBefore?_eq_some {t : Text} {tag : Tag} (h : readBefore? t = some tag) :
    ∃ rest, t = tag.before ++ rest ∧ Skips rest tag.before ∧
      readAttribute? rest = some { tag with before := [] } := by
  induction t generalizing tag with
  | nil => cases h
  | cons c cs ih =>
    unfold readBefore? at h
    split at h
    · rename_i tag' hr
      cases h
      have hb := (readAttribute?_eq_some hr).2.1
      rw [hb]
      exact ⟨c :: cs, rfl, trivial, by rw [hr, ← hb]⟩
    · rename_i hr
      split at h
      · cases h
      · rename_i hc
        obtain ⟨tag', ht, rfl⟩ := Option.map_eq_some_iff.1 h
        obtain ⟨rest, rfl, hs, hr'⟩ := ih ht
        exact ⟨rest, rfl, ⟨hc, hr, hs⟩, hr'⟩

theorem readBefore?_name {t : Text} {tag : Tag} (h : readBefore? t = some tag) : tag.name = [] := by
  obtain ⟨rest, _, _, hr⟩ := readBefore?_eq_some h
  exact (readAttribute?_eq_some hr).1

theorem readName?_append {name rest : Text} {tag : Tag} (hne : name ≠ [])
    (hw : ∀ c ∈ name, isWordChar c = true) (hn : readName? rest = none)
    (hb : readBefore? rest = some tag) :
    readName? (name ++ rest) = some { tag with name := name } := by
  induction name with
  | nil => exact absurd rfl hne
  | cons c cs ih =>
    rw [List.cons_append, readName?, if_pos (hw c List.mem_cons_self)]
    cases cs with
    | nil =>
      rw [List.nil_append, hn, hb, Option.none_or, Option.map_some, readBefore?_name hb]
    | cons d ds =>
      rw [ih (by simp) fun e he => hw e (List.mem_cons_of_mem c he)]
      rfl

theorem readName?_eq_some {t : Text} {tag : Tag} (h : readName? t = some tag) :
    tag.name ≠ [] ∧ (∀ c ∈ tag.name, isWordChar c = true) ∧ ∃ rest, t = tag.name ++ rest ∧
      readName? rest = none ∧ readBefore? rest = some { tag with name := [] } := by
  induction t generalizing tag with
  | nil => cases h
  | cons c cs ih =>
    unfold readName? at h
    split at h
    · rename_i hc
      obtain ⟨tag', ht, rfl⟩ := Option.map_eq_some_iff.1 h
      refine ⟨by simp, ?_⟩
      rcases Option.or_eq_some_iff.1 ht with hn | ⟨hn, hb⟩
      · obtain ⟨_, hw, rest, rfl, hr, hb⟩ := ih hn
        refine ⟨?_, rest, rfl, hr, hb⟩
        intro d hd
        rcases List.mem_cons.1 hd with rfl | hd
        · exact hc
        · exact hw d hd
      · have he := readBefore?_name hb
        refine ⟨?_, cs, by rw [he]; rfl, hn, by rw [hb, ← he]⟩
        intro d hd
        rw [he, List.mem_singleton] at hd
        exact hd ▸ hc
    · cases h

/-- The parts of a text that starts with a tag: no longer name would do, and no class attribute can
be read before the one that is taken. -/
structure Reads (tag : Tag) (close rest : Text) : Prop extends WellFormed tag close where
  name_longest : readName? (tag.before ++ tag.attributeSource close ++ '>' :: rest) = none
  skips : Skips (tag.attributeSource close ++ '>' :: rest) tag.before

theorem Reads.read?_append {tag : Tag} {close rest : Text} (h : tag.Reads close rest) :
    read? (tag.source close ++ rest) = some tag := by
  have he : tag.source close ++ rest =
      '<' :: (tag.name ++ (tag.before ++ tag.attributeSource close ++ '>' :: rest)) := by
    simp [source]
  have hb := h.skips.readBefore?_append (h.toQuoted.readAttribute?_append h.attribute_mem rest)
  rw [← List.append_assoc] at hb
  rw [he, read?, readName?_append h.name_ne_nil h.name_word h.name_longest hb]

theorem read?_eq_some {t : Text} {tag : Tag} (h : read? t = some tag) :
    ∃ close rest, t = tag.source close ++ rest ∧ tag.Reads close rest := by
  unfold read? at h
  split at h
  · rename_i cs
    obtain ⟨hne, hw, r, rfl, hn, hb⟩ := readName?_eq_some h
    obtain ⟨r', hr, hs, ha⟩ := readBefore?_eq_some hb
    obtain ⟨_, _, hm, close, rest, hq, hr'⟩ := readAttribute?_eq_some ha
    subst hr hr'
    refine ⟨close, rest, by simp [source, attributeSource], ?_⟩
    rw [← List.append_assoc] at hn
    exact ⟨⟨⟨hq.opening, hq.value_ne_nil, hq.value_plain, hq.closing, hq.after_open⟩, hne, hw,
      hs.not_mem, hm⟩, hn, hs⟩
  · cases h

end ClassFormat.Tag
