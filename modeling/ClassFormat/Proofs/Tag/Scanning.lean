import ClassFormat.Proofs.Segment

namespace ClassFormat

namespace Tag

variable {tag other : Tag} {close close' rest rest' : Text}

/-- A tag of the right form can be read at a place of a text. -/
def OccursAt (tag : Tag) (t : Text) (place : Nat) : Prop :=
  ∃ close rest, tag.WellFormed close ∧ t.drop place = tag.source close ++ rest

/-- The order among readings at one place: a longer name comes first, then a shorter text before the
attribute, then a shorter text behind it. -/
def Precedes (tag other : Tag) : Prop :=
  other.name.length < tag.name.length ∨ other.name.length = tag.name.length ∧
    (tag.before.length < other.before.length ∨ tag.before.length = other.before.length ∧
      tag.after.length ≤ other.after.length)

theorem WellFormed.readBefore?_isSome (h : tag.WellFormed close) (rest : Text) :
    (readBefore? (tag.before ++ tag.attributeSource close ++ '>' :: rest)).isSome = true := by
  rw [List.append_assoc]
  apply readBefore?_append_isSome h.before_open
  have hs : Skips (tag.attributeSource close ++ '>' :: rest) [] := trivial
  have hr := hs.readBefore?_append (h.toQuoted.readAttribute?_append h.attribute_mem rest)
  rw [List.nil_append] at hr
  rw [hr]
  rfl

theorem readName?_append_isSome {name : Text} (hne : name ≠ [])
    (hw : ∀ c ∈ name, isWordChar c = true) (hb : (readBefore? rest).isSome = true) :
    (readName? (name ++ rest)).isSome = true := by
  induction name with
  | nil => exact absurd rfl hne
  | cons c cs ih =>
    obtain ⟨hc, hcs⟩ := List.forall_mem_cons.1 hw
    rw [List.cons_append, readName?_cons_isSome_iff]
    refine ⟨hc, ?_⟩
    cases cs with
    | nil => exact .inr hb
    | cons d ds => exact .inl (ih (List.cons_ne_nil d ds) hcs)

theorem WellFormed.read?_isSome (h : tag.WellFormed close) (rest : Text) :
    (read? (tag.source close ++ rest)).isSome = true := by
  rw [source_append, List.cons_append, read?, ← List.append_assoc tag.before]
  exact readName?_append_isSome h.name_ne_nil h.name_word (h.readBefore?_isSome rest)

theorem WellFormed.after_eq (h : tag.WellFormed close) (h' : other.WellFormed close')
    (he : tag.attributeSource close ++ '>' :: rest = other.attributeSource close' ++ '>' :: rest') :
    tag.after = other.after := by
  have hr := h.toQuoted.readAttribute?_append h.attribute_mem rest
  rw [he, h'.toQuoted.readAttribute?_append h'.attribute_mem rest', Option.some.injEq,
    Tag.mk.injEq] at hr
  exact hr.2.2.2.2.2.symm

theorem Reads.precedes_of_name_eq (h : tag.Reads close rest) (h' : other.WellFormed close')
    (hn : other.name = tag.name) (he : tag.before ++ (tag.attributeSource close ++ '>' :: rest) =
      other.before ++ (other.attributeSource close' ++ '>' :: rest')) : tag.Precedes other := by
  refine .inr ⟨congrArg List.length hn, ?_⟩
  rcases List.append_eq_append_iff.1 he with ⟨b, hb, hp⟩ | ⟨b, hb, hp⟩
  · cases b with
    | nil =>
      rw [List.append_nil] at hb
      have ha := h.toWellFormed.after_eq h' hp
      exact .inr ⟨congrArg List.length hb.symm, Nat.le_of_eq (congrArg List.length ha)⟩
    | cons c cs =>
      refine .inl ?_
      rw [hb, List.length_append, List.length_cons]
      omega
  · cases b with
    | nil =>
      rw [List.append_nil] at hb
      have ha := h.toWellFormed.after_eq h' hp.symm
      exact .inr ⟨congrArg List.length hb, Nat.le_of_eq (congrArg List.length ha)⟩
    | cons c cs =>
      -- A class attribute would start inside the text before the one that was taken.
      have hr := h'.toQuoted.readAttribute?_append h'.attribute_mem rest'
      have hs := h.skips
      rw [hb, skips_append] at hs
      rw [hp, hs.2.2.1] at hr
      cases hr

theorem Reads.precedes (h : tag.Reads close rest) (h' : other.WellFormed close')
    (he : tag.source close ++ rest = other.source close' ++ rest') : tag.Precedes other := by
  rw [source_append, source_append, List.cons_append, List.cons_append, List.cons.injEq] at he
  rcases List.append_eq_append_iff.1 he.2 with ⟨a, ha, hp⟩ | ⟨a, ha, hp⟩
  · cases a with
    | nil =>
      rw [List.append_nil] at ha
      exact h.precedes_of_name_eq h' ha hp
    | cons c cs =>
      -- The rest of the longer name would start another name where none can be read.
      have hw : ∀ d ∈ c :: cs, isWordChar d = true :=
        fun d hd => h'.name_word d (ha ▸ List.mem_append_right tag.name hd)
      have hr := readName?_append_isSome (List.cons_ne_nil c cs) hw (h'.readBefore?_isSome rest')
      rw [List.append_assoc, ← hp, ← List.append_assoc, h.name_longest] at hr
      cases hr
  · cases a with
    | nil =>
      rw [List.append_nil] at ha
      exact h.precedes_of_name_eq h' ha.symm hp.symm
    | cons c cs =>
      refine .inl ?_
      rw [ha, List.length_append, List.length_cons]
      omega

end Tag

open Tag

namespace Segment

variable {rest : Text} {ss : List Segment}

theorem Silent.read?_drop {gap : Text} (h : Silent gap) {place : Nat} (hp : place < gap.length)
    (w : Text) : read? (gap.drop place ++ '<' :: w) = none := by
  induction gap generalizing place with
  | nil => cases hp
  | cons c cs ih =>
    cases place with
    | zero => exact h.1 w
    | succ n => exact ih h.2 (Nat.lt_of_succ_lt_succ hp)

theorem Tagless.read?_drop {t : Text} (h : Tagless t) (place : Nat) :
    read? (t.drop place) = none := by
  induction t generalizing place with
  | nil =>
    rw [List.drop_nil]
    rfl
  | cons c cs ih =>
    cases place with
    | zero => exact h.1
    | succ n => exact ih h.2 n

theorem Scanned.exists_reads (h : Scanned rest ss) {done t : Text} (ht : t = done ++ join rest ss) :
    ∀ tag ∈ locate done.length ss, ∃ close rest', tag.Reads close rest' ∧
      t.drop tag.start = tag.source close ++ rest' := by
  induction h generalizing done with
  | nil => exact List.forall_mem_nil _
  | @cons s ss hg hr hs ih =>
    rw [locate_length_cons]
    refine List.forall_mem_cons.2 ⟨⟨s.close, join rest ss, hr, ?_⟩, ih ?_⟩
    · rw [ht]
      exact drop_join done rest s ss
    · rw [ht, join, List.append_assoc]

theorem Scanned.pairwise_stop_le (h : Scanned rest ss) (offset : Nat) :
    (locate offset ss).Pairwise fun a b => a.stop ≤ b.start := by
  induction h generalizing offset with
  | nil => exact .nil
  | @cons s ss hg hr hs ih =>
    refine .cons (fun tag ht => ?_) (ih _)
    have hle := (pairwise_locate (offset + s.text.length) ss).2 tag ht
    rw [text, List.length_append, source, hr.length_source] at hle
    rw [LocatedTag.stop, Nat.add_assoc]
    exact hle

theorem Scanned.exists_mem_locate (h : Scanned rest ss) {place : Nat} {other : Tag}
    (ho : other.OccursAt (join rest ss) place) (offset : Nat) :
    ∃ tag ∈ locate offset ss, tag.start ≤ offset + place ∧ offset + place < tag.stop := by
  obtain ⟨close, rest', hw, he⟩ := ho
  have hsome := hw.read?_isSome rest'
  rw [← he] at hsome
  clear he
  -- Only the place moves on from segment to segment, what is read there stays the same.
  induction h generalizing offset place with
  | nil ht =>
    rw [join, ht.read?_drop] at hsome
    cases hsome
  | @cons s ss hg hr hs ih =>
    have hlen : s.text.length = s.gap.length + s.tag.length := by
      rw [text, List.length_append, source, hr.length_source]
    rcases Nat.lt_or_ge place s.gap.length with hp | hp
    · obtain ⟨cs, hcs⟩ := source_eq_cons s
      rw [join, text_append, hcs, List.drop_append_of_le_length (Nat.le_of_lt hp),
        List.cons_append, hg.read?_drop hp] at hsome
      cases hsome
    rcases Nat.lt_or_ge place s.text.length with hq | hq
    · refine ⟨_, List.mem_cons_self, Nat.add_le_add_left hp offset, ?_⟩
      rw [LocatedTag.stop]
      simp only
      omega
    · rw [join, List.drop_append, List.drop_of_length_le hq, List.nil_append] at hsome
      obtain ⟨tag, ht, hle, hlt⟩ := ih (offset + s.text.length) hsome
      have hplace : offset + s.text.length + (place - s.text.length) = offset + place := by omega
      rw [hplace] at hle hlt
      exact ⟨tag, List.mem_cons_of_mem _ ht, hle, hlt⟩

end Segment

open Segment

namespace Tag

variable {t : Text}

theorem exists_reads_of_mem_scan {tag : LocatedTag} (h : tag ∈ scan t) :
    ∃ close rest, tag.Reads close rest ∧ t.drop tag.start = tag.source close ++ rest := by
  obtain ⟨rest, ss, hs, rfl⟩ := exists_scanned t
  have ht : join rest ss = [] ++ join rest ss := rfl
  rw [hs.scan_join] at h
  exact hs.exists_reads ht tag h

theorem Reads.take_drop_stop {tag : LocatedTag} {close rest : Text} (h : tag.Reads close rest)
    (he : t.drop tag.start = tag.source close ++ rest) :
    (t.take tag.stop).drop tag.start = tag.source close := by
  rw [List.drop_take, he, LocatedTag.stop, Nat.add_sub_cancel_left, ← h.length_source,
    List.take_left]

theorem pairwise_stop_le_scan (t : Text) : (scan t).Pairwise fun a b => a.stop ≤ b.start := by
  obtain ⟨rest, ss, hs, rfl⟩ := exists_scanned t
  rw [hs.scan_join]
  exact hs.pairwise_stop_le 0

theorem OccursAt.exists_mem_scan {place : Nat} {other : Tag} (h : other.OccursAt t place) :
    ∃ tag ∈ scan t, tag.start ≤ place ∧ place < tag.stop := by
  obtain ⟨rest, ss, hs, rfl⟩ := exists_scanned t
  have hm := hs.exists_mem_locate h 0
  rwa [Nat.zero_add, ← hs.scan_join] at hm

/-- A scan finds tags of the right form that do not overlap, leaves none out, and reads each in the
way that comes first. -/
theorem scan_finds_first_readings (t : Text) :
    (∀ tag ∈ scan t, ∃ close, tag.WellFormed close ∧
      (t.take tag.stop).drop tag.start = tag.source close) ∧
    (scan t).Pairwise (fun a b => a.start < b.start ∧ a.stop ≤ b.start) ∧
    (∀ (other : Tag) (place : Nat), other.OccursAt t place →
      ∃ tag ∈ scan t, tag.start ≤ place ∧ place < tag.stop) ∧
    ∀ tag ∈ scan t, ∀ other : Tag, other.OccursAt t tag.start → tag.toTag.Precedes other := by
  refine ⟨fun tag h => ?_, ?_, fun other place h => h.exists_mem_scan, ?_⟩
  · obtain ⟨close, rest, hr, he⟩ := exists_reads_of_mem_scan h
    exact ⟨close, hr.toWellFormed, hr.take_drop_stop he⟩
  · refine (pairwise_stop_le_scan t).imp fun {a b} hab => ⟨?_, hab⟩
    rw [LocatedTag.stop, Tag.length] at hab
    omega
  · rintro tag h other ⟨close', rest', hw, he'⟩
    obtain ⟨close, rest, hr, he⟩ := exists_reads_of_mem_scan h
    exact hr.precedes hw (he ▸ he')

end Tag

end ClassFormat
