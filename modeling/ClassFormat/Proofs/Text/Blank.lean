import Mathlib.Data.List.Basic
import Mathlib.Data.List.TakeWhile
import ClassFormat.Basic
import ClassFormat.Text.Word

namespace ClassFormat

def blankCodes : List Nat :=
  List.range' 9 5 ++ List.range' 28 5 ++ [0x85, 0xa0, 0x1680] ++ List.range' 0x2000 11 ++
    [0x2028, 0x2029, 0x202f, 0x205f, 0x3000]

theorem isWordChar_of_isBlank {c : Char} (h : isBlank c = true) : isWordChar c = false := by
  have hm : c.toNat ∈ blankCodes := by
    simp only [isBlank, Bool.or_eq_true, Bool.and_eq_true, decide_eq_true_eq, beq_iff_eq] at h
    simp only [blankCodes, List.mem_append, List.mem_range'_1, List.mem_cons, List.not_mem_nil]
    omega
  have hall : ∀ n ∈ blankCodes, isWordChar (Char.ofNat n) = false := by decide +kernel
  rw [← Char.ofNat_toNat c]
  exact hall c.toNat hm

namespace Text

def Blanks (t : Text) : Prop := ∀ c ∈ t, isBlank c = true

instance (t : Text) : Decidable (Blanks t) := List.decidableBAll _ t

/-- A text with no blank that is not empty. -/
structure IsWord (t : Text) : Prop where
  ne_nil : t ≠ []
  not_blank : ∀ c ∈ t, isBlank c = false

@[simp]
theorem blanks_nil : Blanks [] := by
  intro c hc
  cases hc

theorem Blanks.append {s t : Text} (hs : Blanks s) (ht : Blanks t) : Blanks (s ++ t) := by
  intro c hc
  rcases List.mem_append.1 hc with h | h
  · exact hs c h
  · exact ht c h

theorem Blanks.tail {c : Char} {t : Text} (h : Blanks (c :: t)) : Blanks t :=
  fun d hd => h d (List.mem_cons_of_mem c hd)

@[simp]
theorem words_nil : words [] = [] := rfl

theorem words_cons_blank {c : Char} (hc : isBlank c = true) (t : Text) :
    words (c :: t) = words t :=
  words_append_cons hc [] t

theorem Blanks.words_append {s : Text} (hs : Blanks s) (t : Text) :
    words (s ++ t) = words t := by
  induction s with
  | nil => rfl
  | cons c cs ih =>
    rw [List.cons_append, words_cons_blank (hs c List.mem_cons_self), ih hs.tail]

theorem Blanks.words {s : Text} (hs : Blanks s) : s.words = [] := by
  simpa using hs.words_append []

theorem words_intercalate {c : Char} (hc : isBlank c = true) (ts : List Text) :
    words ([c].intercalate ts) = ts.flatMap words := by
  induction ts with
  | nil => rfl
  | cons t ts ih =>
    cases ts with
    | nil => rw [List.intercalate_singleton, List.flatMap_singleton]
    | cons u us =>
      rw [List.intercalate_cons_cons, List.append_assoc, List.singleton_append,
        words_append_cons hc, ih]
      rfl

theorem cut_of_not_separates {separates : Char → Bool} {t : Text}
    (h : ∀ c ∈ t, separates c = false) : t.cut separates = [t] := by
  induction t with
  | nil => rfl
  | cons c cs ih =>
    have hc := h c List.mem_cons_self
    have hcs := ih fun d hd => h d (List.mem_cons_of_mem c hd)
    simp [cut, hc, hcs]

theorem IsWord.words {t : Text} (h : t.IsWord) : t.words = [t] := by
  rw [Text.words, cut_of_not_separates h.not_blank]
  simp [h.ne_nil]

theorem flatten_cut (t : Text) (separates : Char → Bool) :
    (t.cut separates).flatten = t.filter (!separates ·) := by
  induction t with
  | nil => rfl
  | cons c cs ih =>
    cases hc : separates c with
    | true => simp [cut, hc, ih]
    | false =>
      cases hp : cut cs separates with
      | nil => exact absurd hp (cut_ne_nil cs separates)
      | cons p ps =>
        rw [hp, List.flatten_cons] at ih
        simp [cut, hc, hp, ih]

theorem flatten_words (t : Text) : t.words.flatten = t.filter (!isBlank ·) := by
  rw [words, List.flatten_filter_not_isEmpty, flatten_cut]

theorem mem_flatten_words {t : Text} {c : Char} :
    c ∈ t.words.flatten ↔ c ∈ t ∧ isBlank c = false := by
  rw [flatten_words, List.mem_filter, Bool.not_eq_true']

theorem isWord_of_mem_words {t w : Text} (h : w ∈ t.words) : w.IsWord := by
  refine ⟨?_, fun c hc => (mem_flatten_words.1 (List.mem_flatten_of_mem h hc)).2⟩
  simpa using (List.mem_filter.1 h).2

theorem Blanks.reverse {s : Text} (hs : Blanks s) : Blanks s.reverse :=
  fun c hc => hs c (List.mem_reverse.1 hc)

theorem blanks_takeWhile (t : Text) : Blanks (t.takeWhile isBlank) :=
  fun _ hc => List.mem_takeWhile_imp hc

theorem exists_eq_trim (t : Text) :
    ∃ a b, Blanks a ∧ Blanks b ∧ t = a ++ t.trim ++ b := by
  refine ⟨t.takeWhile isBlank, ((t.dropWhile isBlank).reverse.takeWhile isBlank).reverse,
    blanks_takeWhile t, (blanks_takeWhile _).reverse, ?_⟩
  rw [trim, List.append_assoc, ← List.reverse_append, List.takeWhile_append_dropWhile,
    List.reverse_reverse, List.takeWhile_append_dropWhile]

theorem trim_append_blanks {a b : Text} (ha : Blanks a) (hb : Blanks b) (t : Text) :
    trim (a ++ t ++ b) = t.trim := by
  unfold trim
  rw [List.append_assoc, List.dropWhile_append_of_pos ha, List.dropWhile_append]
  split
  · rename_i he
    have hb' : b.dropWhile isBlank = [] := List.dropWhile_eq_nil_iff.2 hb
    rw [List.isEmpty_iff.1 he, hb']
  · rw [List.reverse_append, List.dropWhile_append_of_pos hb.reverse]

theorem Blanks.trim {t : Text} (h : Blanks t) : t.trim = [] := by
  have ht := trim_append_blanks h blanks_nil []
  rwa [List.append_nil, List.append_nil] at ht

@[simp]
theorem trim_trim (t : Text) : t.trim.trim = t.trim := by
  obtain ⟨a, b, ha, hb, he⟩ := exists_eq_trim t
  have ht := trim_append_blanks ha hb t.trim
  rwa [← he, eq_comm] at ht

theorem mem_of_mem_trim {t : Text} {c : Char} (h : c ∈ t.trim) : c ∈ t := by
  obtain ⟨a, b, _, _, he⟩ := exists_eq_trim t
  rw [he]
  exact List.mem_append_left b (List.mem_append_right a h)

theorem not_blank_of_getLast?_trim {t : Text} {c : Char} (h : t.trim.getLast? = some c) :
    isBlank c = false := by
  have hd := List.head?_dropWhile_not isBlank (t.dropWhile isBlank).reverse
  rw [trim, List.getLast?_reverse] at h
  rw [h] at hd
  simpa using hd

theorem not_blank_of_head?_trim {t : Text} {c : Char} (h : t.trim.head? = some c) :
    isBlank c = false := by
  obtain ⟨r, hr⟩ := List.dropWhile_suffix isBlank (l := (t.dropWhile isBlank).reverse)
  have he : t.dropWhile isBlank = t.trim ++ r.reverse := by
    rw [trim, ← List.reverse_append, hr, List.reverse_reverse]
  have hd := List.head?_dropWhile_not isBlank t
  rw [he, List.head?_append, h] at hd
  simpa using hd

/-- No word runs from one text into the next. -/
def Apart (s t : Text) : Prop := s.getLast?.all isBlank = true ∨ t.head?.all isBlank = true

theorem words_append_of_head {s t : Text} (h : t.head?.all isBlank = true) :
    words (s ++ t) = s.words ++ t.words := by
  cases t with
  | nil => rw [List.append_nil, words_nil, List.append_nil]
  | cons d ds => rw [words_append_cons h, words_cons_blank h]

theorem words_append_of_getLast {s t : Text} (h : s.getLast?.all isBlank = true) :
    words (s ++ t) = s.words ++ t.words := by
  rcases List.eq_nil_or_concat' s with rfl | ⟨s, c, rfl⟩
  · rfl
  · have hc : isBlank c = true := by simpa using h
    rw [List.append_assoc, List.singleton_append, words_append_cons hc, words_append_cons hc,
      words_nil, List.append_nil]

theorem Apart.words_append {s t : Text} (h : Apart s t) :
    words (s ++ t) = s.words ++ t.words := by
  rcases h with h | h
  · exact words_append_of_getLast h
  · exact words_append_of_head h

theorem length_words_cons {c : Char} (hc : isBlank c = false) (t : Text) :
    (words (c :: t)).length = t.words.length + if t.head?.all isBlank then 1 else 0 := by
  cases t with
  | nil => simp [words, cut, hc]
  | cons d ds =>
    cases hd : isBlank d with
    | true =>
      have hw := words_append_cons hd [c] ds
      rw [List.singleton_append] at hw
      rw [hw, words_cons_blank hd]
      simp [words, cut, hc, hd, Nat.add_comm]
    | false =>
      cases hp : cut ds isBlank with
      | nil => exact absurd hp (cut_ne_nil ds isBlank)
      | cons p ps => simp [words, cut, hc, hd, hp]

theorem length_words_append_cons_cons {c d : Char} (hc : isBlank c = false)
    (hd : isBlank d = false) (s t : Text) :
    (words (s ++ c :: d :: t)).length + 1 =
      (words (s ++ [c])).length + (words (d :: t)).length := by
  induction s with
  | nil =>
    rw [List.nil_append, List.nil_append, length_words_cons hc, length_words_cons hc]
    simp [hd, Nat.add_comm]
  | cons e es ih =>
    cases he : isBlank e with
    | true => rw [List.cons_append, List.cons_append, words_cons_blank he, words_cons_blank he, ih]
    | false =>
      -- Whether a word starts here depends on the next character only, which is the same.
      have hh : (es ++ c :: d :: t).head? = (es ++ [c]).head? := by cases es <;> rfl
      rw [List.cons_append, List.cons_append, length_words_cons he, length_words_cons he, hh]
      omega

theorem length_words_append_lt {s t : Text} (h : ¬ Apart s t) :
    (words (s ++ t)).length < s.words.length + t.words.length := by
  obtain ⟨hs, ht⟩ := not_or.1 h
  rcases List.eq_nil_or_concat' s with rfl | ⟨s, c, rfl⟩
  · exact absurd rfl hs
  cases t with
  | nil => exact absurd rfl ht
  | cons d ds =>
    have hl := length_words_append_cons_cons (c := c) (d := d) (by simpa using hs)
      (by simpa using ht) s ds
    rw [List.append_assoc, List.singleton_append]
    omega

theorem length_words_append_le (s t : Text) :
    (words (s ++ t)).length ≤ s.words.length + t.words.length := by
  by_cases h : Apart s t
  · rw [h.words_append, List.length_append]
  · exact Nat.le_of_lt (length_words_append_lt h)

theorem words_append_iff {s t : Text} : words (s ++ t) = s.words ++ t.words ↔ Apart s t := by
  refine ⟨fun he => ?_, Apart.words_append⟩
  by_contra h
  have hl := length_words_append_lt h
  rw [he, List.length_append] at hl
  exact Nat.lt_irrefl _ hl

theorem words_append_append_iff {s t u : Text} :
    words (s ++ (t ++ u)) = s.words ++ (t.words ++ u.words) ↔ Apart s (t ++ u) ∧ Apart t u := by
  constructor
  · intro he
    have hs : Apart s (t ++ u) := by
      by_contra h
      have hlt := length_words_append_lt h
      have hle := length_words_append_le t u
      rw [he, List.length_append, List.length_append] at hlt
      omega
    rw [hs.words_append] at he
    exact ⟨hs, words_append_iff.1 (List.append_cancel_left he)⟩
  · rintro ⟨hs, ht⟩
    rw [hs.words_append, ht.words_append]

theorem words_trim (t : Text) : t.trim.words = t.words := by
  obtain ⟨a, b, ha, hb, he⟩ := exists_eq_trim t
  have hl : b.head?.all isBlank = true := by
    cases b with
    | nil => rfl
    | cons c cs => exact hb c List.mem_cons_self
  calc
    t.trim.words = words (a ++ t.trim ++ b) := by
      rw [List.append_assoc, ha.words_append, words_append_of_head hl, hb.words, List.append_nil]
    _ = t.words := by rw [← he]

end Text

end ClassFormat
