import ClassFormat.Proofs.Tag.Reading

namespace ClassFormat.Tag

/-- The text has a quote, and the tag ends behind the first one. -/
def Closes : Text → Prop
  | [] => False
  | c :: cs => if isQuote c then '>' ∈ cs else Closes cs

/-- Neither a quote nor a part of the name and the equals sign of a class attribute. -/
def isNeutral (c : Char) : Bool :=
  !isQuote c && c != '=' && classAttributes.all fun n => !n.contains c

theorem Closes.mem {t : Text} (h : Closes t) : '>' ∈ t := by
  induction t with
  | nil => cases h
  | cons c cs ih =>
    rw [Closes] at h
    split at h
    · exact List.mem_cons_of_mem c h
    · exact List.mem_cons_of_mem c (ih h)

theorem closes_append_cons {q : Char} (hq : isQuote q = true) {t : Text} (ht : '>' ∈ t) (s : Text) :
    Closes (s ++ q :: t) := by
  induction s with
  | nil => rwa [List.nil_append, Closes, if_pos hq]
  | cons c cs ih =>
    rw [List.cons_append, Closes]
    split
    · simp [ht]
    · exact ih

theorem Closes.exists_eq {t : Text} (h : Closes t) :
    ∃ s q r, t = s ++ q :: r ∧ (∀ c ∈ s, isQuote c = false) ∧ isQuote q = true ∧ '>' ∈ r := by
  induction t with
  | nil => cases h
  | cons c cs ih =>
    rw [Closes] at h
    split at h
    · rename_i hc
      exact ⟨[], c, cs, rfl, by simp, hc, h⟩
    · rename_i hc
      obtain ⟨s, q, r, rfl, hs, hq, hr⟩ := ih h
      refine ⟨c :: s, q, r, rfl, ?_, hq, hr⟩
      intro d hd
      rcases List.mem_cons.1 hd with rfl | hd
      · exact Bool.eq_false_iff.2 hc
      · exact hs d hd

theorem Closes.replace {s y z : Text} (h : Closes (s ++ y)) (hc : Closes y → Closes z)
    (hgt : '>' ∈ y → '>' ∈ z) : Closes (s ++ z) := by
  induction s with
  | nil => exact hc h
  | cons c cs ih =>
    rw [List.cons_append, Closes] at h ⊢
    by_cases hq : isQuote c = true
    · rw [if_pos hq] at h ⊢
      rcases List.mem_append.1 h with h | h
      · exact List.mem_append_left z h
      · exact List.mem_append_right cs (hgt h)
    · rw [if_neg hq] at h ⊢
      exact ih h

/-- A class attribute can be read where its name, an equals sign and a quote are followed by a
value that is not empty and closes. -/
theorem readAttribute?_isSome_iff {t : Text} :
    (readAttribute? t).isSome = true ↔ ∃ n ∈ classAttributes, ∃ q c cs, isQuote q = true ∧
      isQuote c = false ∧ Closes (c :: cs) ∧ t = n ++ '=' :: q :: c :: cs := by
  constructor
  · intro h
    obtain ⟨tag, ht⟩ := Option.isSome_iff_exists.1 h
    obtain ⟨_, _, hn, close, rest, hq, rfl⟩ := readAttribute?_eq_some ht
    obtain ⟨q, hq', hqt⟩ := hq.opening
    obtain ⟨d, hd, rfl⟩ := hq.closing
    obtain ⟨v, vs, hv⟩ := List.exists_cons_of_ne_nil hq.value_ne_nil
    refine ⟨tag.attributeName, hn, q, v, vs ++ d :: (tag.after ++ '>' :: rest), hq', ?_, ?_, ?_⟩
    · exact hq.value_plain v (hv ▸ List.mem_cons_self)
    · exact closes_append_cons hd (by simp) (v :: vs)
    · simp [attributeSource, hqt, hv]
  · rintro ⟨n, hn, q, c, cs, hq, hc, hcl, rfl⟩
    obtain ⟨s, d, r, hs, hplain, hd, hr⟩ := hcl.exists_eq
    obtain ⟨a, rest, rfl, ha⟩ := List.eq_append_cons_of_mem hr
    have hne : s ≠ [] := by
      rintro rfl
      rw [List.nil_append, List.cons.injEq] at hs
      rw [hs.1, hd] at hc
      cases hc
    have hq' : Quoted ⟨[], [], n, [q], s, a⟩ [d] :=
      ⟨⟨q, hq, rfl⟩, hne, hplain, ⟨d, hd, rfl⟩, ha⟩
    have he : n ++ '=' :: q :: c :: cs =
        attributeSource ⟨[], [], n, [q], s, a⟩ [d] ++ '>' :: rest := by
      rw [hs]
      simp [attributeSource]
    rw [he, hq'.readAttribute?_append hn]
    rfl

theorem not_mem_of_isNeutral {c q : Char} {n : Text} (hc : isNeutral c = true)
    (hn : n ∈ classAttributes) (hq : isQuote q = true) : c ∉ n ++ ['=', q] := by
  simp only [isNeutral, Bool.and_eq_true, List.all_eq_true] at hc
  have hcn := hc.2 n hn
  intro hm
  rw [List.mem_append, List.mem_cons, List.mem_singleton] at hm
  rcases hm with hm | rfl | rfl
  · simp [hm] at hcn
  · simp at hc
  · simp [hq] at hc

theorem readAttribute?_cons_eq_none {c : Char} (hc : isNeutral c = true) (t : Text) :
    readAttribute? (c :: t) = none := by
  rw [← Option.not_isSome_iff_eq_none, readAttribute?_isSome_iff]
  rintro ⟨n, hn, q, d, ds, hq, _, _, he⟩
  have hm := not_mem_of_isNeutral hc hn hq
  cases n with
  | nil => simp [classAttributes] at hn
  | cons e es =>
    rw [List.cons_append, List.cons.injEq] at he
    simp [he.1] at hm

/-- What `z` gives to the text before it includes what `y` gives. -/
structure Completes (y z : Text) : Prop where
  neutral : ∃ c cs, y = c :: cs ∧ isNeutral c = true
  head : ∃ c cs, z = c :: cs ∧ isQuote c = false
  closes : Closes y → Closes z
  mem : '>' ∈ y → '>' ∈ z

theorem Completes.readAttribute?_isSome {y z s : Text} (h : Completes y z)
    (hr : (readAttribute? (s ++ y)).isSome = true) :
    (readAttribute? (s ++ z)).isSome = true := by
  obtain ⟨n, hn, q, c, cs, hq, hc, hcl, he⟩ := readAttribute?_isSome_iff.1 hr
  obtain ⟨d, ds, rfl, hd⟩ := h.neutral
  have he' : s ++ d :: ds = n ++ ['=', q] ++ c :: cs := by simpa using he
  -- The text `y` starts behind the opening quote, since no part of what precedes it is neutral.
  obtain ⟨r, hsr, hcs⟩ : ∃ r, s = n ++ ['=', q] ++ r ∧ c :: cs = r ++ d :: ds := by
    rcases List.append_eq_append_iff.1 he' with ⟨a, ha, hb⟩ | ⟨a, ha, hb⟩
    · cases a with
      | nil => exact ⟨[], by simpa using ha.symm, by simpa using hb.symm⟩
      | cons e es =>
        rw [List.cons_append, List.cons.injEq] at hb
        exact absurd (ha ▸ List.mem_append_right s (hb.1 ▸ List.mem_cons_self))
          (not_mem_of_isNeutral hd hn hq)
    · exact ⟨a, ha, hb⟩
  rw [hcs] at hcl
  have hz := hcl.replace h.closes h.mem
  obtain ⟨e, es, hez, heq⟩ := h.head
  refine readAttribute?_isSome_iff.2 ⟨n, hn, q, ?_⟩
  cases r with
  | nil =>
    subst hez
    exact ⟨e, es, hq, heq, hz, by rw [hsr]; simp⟩
  | cons f fs =>
    rw [List.cons_append, List.cons.injEq] at hcs
    exact ⟨f, fs ++ z, hq, hcs.1 ▸ hc, hz, by rw [hsr]; simp⟩

theorem Completes.skips {x y z s : Text} (h : Completes y z) (hs : Skips (x ++ z) s) :
    Skips (x ++ y) s := by
  induction s with
  | nil => trivial
  | cons c cs ih =>
    refine ⟨hs.1, ?_, ih hs.2.2⟩
    rw [← Option.not_isSome_iff_eq_none, ← List.append_assoc]
    intro hr
    have hz := h.readAttribute?_isSome hr
    rw [List.append_assoc, hs.2.1] at hz
    cases hz

theorem readBefore?_cons_isSome_iff {c : Char} {cs : Text} :
    (readBefore? (c :: cs)).isSome = true ↔
      (readAttribute? (c :: cs)).isSome = true ∨ c ≠ '>' ∧ (readBefore? cs).isSome = true := by
  rw [readBefore?]
  split
  · rename_i hr
    simp [hr]
  · rename_i hr
    split
    · rename_i hc
      subst hc
      simp [hr]
    · rename_i hc
      simp [hr, hc]

theorem readName?_cons_isSome_iff {c : Char} {cs : Text} :
    (readName? (c :: cs)).isSome = true ↔
      isWordChar c = true ∧ ((readName? cs).isSome = true ∨ (readBefore? cs).isSome = true) := by
  rw [readName?]
  split
  · rename_i hc
    simp [hc]
  · rename_i hc
    simp [hc]

theorem Completes.readBefore?_isSome {y z s : Text} (h : Completes y z)
    (hb : (readBefore? y).isSome = true → (readBefore? z).isSome = true)
    (hr : (readBefore? (s ++ y)).isSome = true) :
    (readBefore? (s ++ z)).isSome = true := by
  induction s with
  | nil => exact hb hr
  | cons c cs ih =>
    rw [List.cons_append, readBefore?_cons_isSome_iff] at hr ⊢
    rcases hr with hr | ⟨hc, hr⟩
    · exact .inl (h.readAttribute?_isSome (s := c :: cs) hr)
    · exact .inr ⟨hc, ih hr⟩

theorem Completes.readName?_isSome {y z s : Text} (h : Completes y z)
    (hb : (readBefore? y).isSome = true → (readBefore? z).isSome = true)
    (hn : readName? y = none) (hr : (readName? (s ++ y)).isSome = true) :
    (readName? (s ++ z)).isSome = true := by
  induction s with
  | nil =>
    rw [List.nil_append, hn] at hr
    cases hr
  | cons c cs ih =>
    rw [List.cons_append, readName?_cons_isSome_iff] at hr ⊢
    rcases hr with ⟨hc, hr | hr⟩
    · exact ⟨hc, .inl (ih hr)⟩
    · exact ⟨hc, .inr (h.readBefore?_isSome hb hr)⟩

theorem WellFormed.attributeSource_closes {tag : Tag} {close : Text} (h : tag.WellFormed close)
    (s rest : Text) : Closes (s ++ (tag.attributeSource close ++ '>' :: rest)) := by
  obtain ⟨q, hq, hqt⟩ := h.opening
  have he : s ++ (tag.attributeSource close ++ '>' :: rest) = s ++ tag.attributeName ++ ['='] ++
      q :: (tag.value ++ close ++ tag.after ++ '>' :: rest) := by
    simp [attributeSource, hqt]
  rw [he]
  exact closes_append_cons hq (by simp) _

theorem source_append (tag : Tag) (close rest : Text) : tag.source close ++ rest =
    '<' :: tag.name ++ (tag.before ++ (tag.attributeSource close ++ '>' :: rest)) := by
  simp [source]

theorem WellFormed.source_closes {tag : Tag} {close : Text} (h : tag.WellFormed close)
    (rest : Text) : Closes (tag.source close ++ rest) := by
  rw [source_append, ← List.append_assoc]
  exact h.attributeSource_closes _ rest

theorem readBefore?_append_isSome {s t : Text} (hs : '>' ∉ s)
    (ht : (readBefore? t).isSome = true) : (readBefore? (s ++ t)).isSome = true := by
  induction s with
  | nil => exact ht
  | cons c cs ih =>
    rw [List.mem_cons, not_or] at hs
    rw [List.cons_append, readBefore?_cons_isSome_iff]
    exact .inr ⟨hs.1 ∘ Eq.symm, ih hs.2⟩

theorem Reads.readBefore?_source {tag : Tag} {close rest : Text} (h : tag.Reads close rest) :
    (readBefore? (tag.source close ++ rest)).isSome = true := by
  rw [source_append]
  apply readBefore?_append_isSome
  · rw [List.mem_cons, not_or]
    refine ⟨by decide, fun hm => ?_⟩
    exact absurd (h.name_word '>' hm) (by decide)
  · rw [h.skips.readBefore?_append (h.toQuoted.readAttribute?_append h.attribute_mem rest)]
    rfl

/-- Where no tag is read in front of another tag, none is read in front of any `<`. -/
theorem Reads.read?_eq_none {tag : Tag} {close rest s : Text} (h : tag.Reads close rest)
    (hs : s ≠ []) (hr : read? (s ++ (tag.source close ++ rest)) = none) (w : Text) :
    read? (s ++ '<' :: w) = none := by
  have hc : Completes ('<' :: w) (tag.source close ++ rest) :=
    ⟨⟨'<', w, rfl, by decide⟩, ⟨'<', _, rfl, by decide⟩, fun _ => h.source_closes rest,
      fun _ => (h.source_closes rest).mem⟩
  have hn : readName? ('<' :: w) = none := by
    rw [readName?, if_neg (by decide)]
  cases s with
  | nil => exact absurd rfl hs
  | cons c cs =>
    by_cases hlt : c = '<'
    · subst hlt
      rw [List.cons_append, read?, ← Option.not_isSome_iff_eq_none] at hr ⊢
      intro hn'
      exact hr (hc.readName?_isSome (fun _ => h.readBefore?_source) hn hn')
    · rw [List.cons_append, read?]
      intro _ he
      exact hlt (List.cons.inj he).1

/-- A tag is still read when the text behind it changes, unless that text newly closes an
attribute. -/
theorem Reads.replace {tag : Tag} {close rest rest' : Text} (h : tag.Reads close rest)
    (hc : Closes rest' → Closes rest) : tag.Reads close rest' := by
  have hcomp : Completes ('>' :: rest') ('>' :: rest) :=
    ⟨⟨'>', rest', rfl, by decide⟩, ⟨'>', rest, rfl, by decide⟩, hc, fun _ => List.mem_cons_self⟩
  have hb : readBefore? ('>' :: rest') = none := by
    rw [readBefore?, readAttribute?_cons_eq_none (by decide)]
    rfl
  have hn : readName? ('>' :: rest') = none := by
    rw [readName?, if_neg (by decide)]
  refine ⟨h.toWellFormed, ?_, hcomp.skips h.skips⟩
  rw [← Option.not_isSome_iff_eq_none]
  intro hs
  have hz := hcomp.readName?_isSome (fun hz => by rw [hb] at hz; cases hz) hn hs
  rw [h.name_longest] at hz
  cases hz

end ClassFormat.Tag
