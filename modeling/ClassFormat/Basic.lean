namespace ClassFormat

/-- A text as the list of its code points. -/
abbrev Text := List Char

namespace Text

/-- The place an offset means: a negative one counts from the end, and one outside the text means
the nearer end. -/
def position (t : Text) (offset : Int) : Nat :=
  if offset < 0 then (t.length + offset).toNat else min offset.toNat t.length

theorem position_natCast {t : Text} {n : Nat} (h : n ≤ t.length) : t.position n = n := by
  unfold position
  split <;> omega

/-- Writes `t` in place of what stands between two offsets of `whole`. -/
def splice (whole : Text) (start stop : Int) (t : Text) : Text :=
  whole.take (whole.position start) ++ t ++ whole.drop (whole.position stop)

/-- Writes `new` in place of every `c`. -/
def replaceChar (t : Text) (c : Char) (new : Text) : Text :=
  t.flatMap fun d => if d = c then new else [d]

/-- Cuts a text at every separator; two neighbouring separators leave an empty piece between them.
-/
def cut (t : Text) (separates : Char → Bool) : List Text :=
  match t with
  | [] => [[]]
  | c :: cs =>
    if separates c then [] :: cut cs separates
    else match cut cs separates with
      | [] => [[c]]
      | p :: ps => (c :: p) :: ps

theorem cut_ne_nil (t : Text) (separates : Char → Bool) : t.cut separates ≠ [] := by
  cases t with
  | nil => simp [cut]
  | cons c cs =>
    unfold cut
    split
    · simp
    · split <;> simp

theorem cut_append_cons {separates : Char → Bool} {c : Char} (hc : separates c = true)
    (s t : Text) : cut (s ++ c :: t) separates = s.cut separates ++ t.cut separates := by
  induction s with
  | nil => simp [cut, hc]
  | cons d ds ih =>
    cases hd : separates d with
    | true => simp [cut, hd, ih]
    | false =>
      cases hp : cut ds separates with
      | nil => exact absurd hp (cut_ne_nil ds separates)
      | cons p ps => simp [cut, hd, ih, hp]

end Text

/-- Blanks are the white space characters and the four information separators. -/
def isBlank (c : Char) : Bool :=
  let n := c.toNat
  (9 ≤ n && n ≤ 13) || (28 ≤ n && n ≤ 32) || n == 0x85 || n == 0xa0 || n == 0x1680 ||
    (0x2000 ≤ n && n ≤ 0x200a) || n == 0x2028 || n == 0x2029 || n == 0x202f || n == 0x205f ||
    n == 0x3000

namespace Text

/-- The words of a text: its maximal runs of characters that are not blank, in order. -/
def words (t : Text) : List Text :=
  (t.cut isBlank).filter fun p => !p.isEmpty

def trim (t : Text) : Text :=
  ((t.dropWhile isBlank).reverse.dropWhile isBlank).reverse

theorem words_append_cons {c : Char} (hc : isBlank c = true) (s t : Text) :
    (s ++ c :: t).words = s.words ++ t.words := by
  simp [words, cut_append_cons hc]

end Text

/-- Puts an element before the first one that it may precede. -/
def insertBy {α : Type} (le : α → α → Bool) (a : α) : List α → List α
  | [] => [a]
  | b :: bs => if le a b then a :: b :: bs else b :: insertBy le a bs

def sortBy {α : Type} (le : α → α → Bool) (l : List α) : List α := l.foldr (insertBy le) []

theorem insertBy_perm {α : Type} (le : α → α → Bool) (a : α) (l : List α) :
    (insertBy le a l).Perm (a :: l) := by
  induction l with
  | nil => exact .refl _
  | cons b bs ih =>
    unfold insertBy
    split
    · exact .refl _
    · exact (ih.cons b).trans (.swap a b bs)

theorem sortBy_perm {α : Type} (le : α → α → Bool) (l : List α) : (sortBy le l).Perm l := by
  induction l with
  | nil => exact .refl _
  | cons a as ih => exact (insertBy_perm le a _).trans (ih.cons a)

end ClassFormat
