import ClassFormat.Proofs.Tag.Context

namespace ClassFormat

namespace Tag

theorem WellFormed.length_source {tag : Tag} {close : Text} (h : tag.WellFormed close) :
    (tag.source close).length = tag.length := by
  obtain ⟨d, _, rfl⟩ := h.closing
  simp only [source, attributeSource, length, List.length_cons, List.length_append,
    List.length_nil]
  omega

theorem scanFrom_append (offset : Nat) (s t : Text) :
    scanFrom offset s.length (s ++ t) = scanFrom (offset + s.length) 0 t := by
  induction s generalizing offset with
  | nil => rfl
  | cons c cs ih =>
    rw [List.cons_append, List.length_cons, scanFrom, ih, Nat.add_assoc, Nat.add_comm 1]

theorem Reads.scanFrom_source {tag : Tag} {close rest : Text} (h : tag.Reads close rest)
    (offset : Nat) : scanFrom offset 0 (tag.source close ++ rest) =
      { tag with start := offset } :: scanFrom (offset + (tag.source close).length) 0 rest := by
  have hr := h.read?_append
  have hl := h.length_source
  obtain ⟨cs, hcs⟩ : ∃ cs, tag.source close = '<' :: cs := ⟨_, rfl⟩
  rw [hcs] at hr hl ⊢
  rw [List.cons_append] at hr ⊢
  rw [scanFrom, hr]
  simp only [← hl, List.length_cons, Nat.add_sub_cancel, scanFrom_append, Nat.add_assoc,
    Nat.add_comm 1]

end Tag

open Tag

/-- A tag, its closing quote and the text between the tag before and this one. -/
structure Segment where
  gap : Text
  tag : Tag
  close : Text

namespace Segment

def source (s : Segment) : Text := s.tag.source s.close

def text (s : Segment) : Text := s.gap ++ s.source

/-- The text of all segments and the rest behind the last tag. -/
def join (rest : Text) : List Segment → Text
  | [] => rest
  | s :: ss => s.text ++ join rest ss

/-- The tags of segments whose text starts at an offset. -/
def locate (offset : Nat) : List Segment → List LocatedTag
  | [] => []
  | s :: ss => ⟨s.tag, offset + s.gap.length⟩ :: locate (offset + s.text.length) ss

/-- No tag starts in the text if a `<` follows it. -/
def Silent : Text → Prop
  | [] => True
  | c :: cs => (∀ w, read? (c :: cs ++ '<' :: w) = none) ∧ Silent cs

/-- No tag starts in the text if nothing follows it. -/
def Tagless : Text → Prop
  | [] => True
  | c :: cs => read? (c :: cs) = none ∧ Tagless cs

/-- The segments into which a scan cuts their text. -/
inductive Scanned (rest : Text) : List Segment → Prop where
  | nil : Tagless rest → Scanned rest []
  | cons {s : Segment} {ss : List Segment} : Silent s.gap →
      s.tag.Reads s.close (join rest ss) → Scanned rest ss → Scanned rest (s :: ss)

theorem source_eq_cons (s : Segment) : ∃ cs, s.source = '<' :: cs := ⟨_, rfl⟩

theorem text_append (s : Segment) (t : Text) : s.text ++ t = s.gap ++ (s.source ++ t) :=
  List.append_assoc ..

theorem drop_join (done rest : Text) (s : Segment) (ss : List Segment) :
    (done ++ join rest (s :: ss)).drop (done.length + s.gap.length) = s.source ++ join rest ss := by
  rw [join, text_append, ← List.append_assoc, ← List.length_append, List.drop_left]

theorem locate_length_cons (done : Text) (s : Segment) (ss : List Segment) :
    locate done.length (s :: ss) =
      ⟨s.tag, done.length + s.gap.length⟩ :: locate (done ++ s.text).length ss := by
  rw [locate, List.length_append]

theorem length_locate (offset : Nat) (ss : List Segment) :
    (locate offset ss).length = ss.length := by
  induction ss generalizing offset with
  | nil => rfl
  | cons s ss ih => rw [locate, List.length_cons, ih, List.length_cons]

theorem pairwise_locate (offset : Nat) (ss : List Segment) :
    (locate offset ss).Pairwise (fun a b => a.start < b.start) ∧
      ∀ tag ∈ locate offset ss, offset ≤ tag.start := by
  induction ss generalizing offset with
  | nil => exact ⟨.nil, by nofun⟩
  | cons s ss ih =>
    obtain ⟨hp, hle⟩ := ih (offset + s.text.length)
    have hlen : s.gap.length < s.text.length := by
      rw [text, List.length_append, source, Tag.source, List.length_cons]
      omega
    refine ⟨.cons (fun tag ht => ?_) hp, fun tag ht => ?_⟩
    · have h := hle tag ht
      simp only
      omega
    · rcases List.mem_cons.1 ht with rfl | ht
      · exact Nat.le_add_right _ _
      · have h := hle tag ht
        omega

/-- Every text is made of segments. -/
theorem exists_scanned (t : Text) : ∃ rest ss, Scanned rest ss ∧ join rest ss = t := by
  induction h : t.length using Nat.strong_induction_on generalizing t with
  | _ n ih =>
    cases t with
    | nil => exact ⟨[], [], .nil trivial, rfl⟩
    | cons c cs =>
      cases hr : read? (c :: cs) with
      | some tag =>
        obtain ⟨close, r, he, hreads⟩ := read?_eq_some hr
        have hlt : r.length < n := by
          rw [← h, he, List.length_append, Tag.source, List.length_cons]
          omega
        obtain ⟨rest, ss, hs, rfl⟩ := ih r.length hlt r rfl
        exact ⟨rest, ⟨[], tag, close⟩ :: ss, .cons trivial hreads hs, he.symm⟩
      | none =>
        obtain ⟨rest, ss, hs, rfl⟩ := ih cs.length (by rw [← h]; exact Nat.lt_succ_self _) cs rfl
        cases hs with
        | nil ht => exact ⟨c :: rest, [], .nil ⟨hr, ht⟩, rfl⟩
        | @cons s ss hg hreads hs =>
          refine ⟨rest, { s with gap := c :: s.gap } :: ss, .cons ⟨?_, hg⟩ hreads hs, rfl⟩
          intro w
          apply hreads.read?_eq_none (List.cons_ne_nil c s.gap)
          rw [← hr, join, text_append]
          rfl

theorem Silent.scanFrom_append {gap : Text} (h : Silent gap) (offset : Nat) (w : Text) :
    scanFrom offset 0 (gap ++ '<' :: w) = scanFrom (offset + gap.length) 0 ('<' :: w) := by
  induction gap generalizing offset with
  | nil => rfl
  | cons c cs ih =>
    have hr := h.1 w
    rw [List.cons_append] at hr
    rw [List.cons_append, Tag.scanFrom, hr]
    simp only [ih h.2, List.length_cons, Nat.add_assoc, Nat.add_comm 1]

theorem Tagless.scanFrom_eq_nil {t : Text} (h : Tagless t) (offset : Nat) :
    scanFrom offset 0 t = [] := by
  induction t generalizing offset with
  | nil => rfl
  | cons c cs ih =>
    rw [Tag.scanFrom, h.1]
    exact ih h.2 _

theorem Scanned.scanFrom_join {rest : Text} {ss : List Segment} (h : Scanned rest ss)
    (offset : Nat) : scanFrom offset 0 (join rest ss) = locate offset ss := by
  induction h generalizing offset with
  | nil ht => exact ht.scanFrom_eq_nil offset
  | @cons s ss hg hr hs ih =>
    obtain ⟨cs, hcs⟩ := source_eq_cons s
    rw [join, text_append, hcs, List.cons_append, hg.scanFrom_append, ← List.cons_append, ← hcs,
      source, hr.scanFrom_source, ih, locate, text, List.length_append, source, Nat.add_assoc]

theorem Scanned.scan_join {rest : Text} {ss : List Segment} (h : Scanned rest ss) :
    scan (join rest ss) = locate 0 ss :=
  h.scanFrom_join 0

end Segment

end ClassFormat
