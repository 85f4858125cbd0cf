import Mathlib.Data.List.Basic
import ClassFormat.Packing

namespace ClassFormat

namespace Packing

variable {width : Int} {indent first later : Text} {c : Text} {line cs : List Text}
  {division : List (List Text)}

/-- The clusters of a line as they are written behind its indentation. -/
def lineText (indent : Text) (line : List Text) : Text := indent ++ [' '].intercalate line

/-- The lines of a division as they are written: the first one has an indentation of its own. -/
def written (first later : Text) : List (List Text) → List Text
  | [] => []
  | line :: rest => lineText first line :: rest.map (lineText later)

/-- A line that holds one cluster or is not longer than the width. -/
def Fits (width : Int) (indent : Text) (line : List Text) : Prop :=
  line.length = 1 ∨ ((lineText indent line).length : Int) ≤ width

/-- A division of clusters into consecutive lines that fit. -/
structure Admissible (width : Int) (first later : Text) (clusters : List Text)
    (division : List (List Text)) : Prop where
  flatten_eq : division.flatten = clusters
  ne_nil : ∀ line ∈ division, line ≠ []
  first_fits : ∀ line ∈ division.head?, Fits width first line
  later_fits : ∀ line ∈ division.tail, Fits width later line

theorem lineText_cons (indent c : Text) (cs : List Text) :
    lineText indent (c :: cs) = indent ++ c ++ cs.flatMap (' ' :: ·) := by
  rw [lineText, List.append_assoc, List.append_cancel_left_eq]
  induction cs generalizing c with
  | nil => rw [List.intercalate_singleton, List.flatMap_nil, List.append_nil]
  | cons d ds ih =>
    rw [List.intercalate_cons_cons, ih, List.flatMap_cons, List.append_assoc]
    rfl

theorem lineText_append_singleton (indent : Text) (h : line ≠ []) (c : Text) :
    lineText indent (line ++ [c]) = lineText indent line ++ ' ' :: c := by
  obtain ⟨d, ds, rfl⟩ := List.exists_cons_of_ne_nil h
  rw [List.cons_append, lineText_cons, lineText_cons, List.flatMap_append,
    List.flatMap_singleton, List.append_assoc _ _ (' ' :: c)]

theorem lineText_singleton (indent c : Text) : lineText indent [c] = indent ++ c := by
  rw [lineText, List.intercalate_singleton]

theorem written_self (indent : Text) (division : List (List Text)) :
    written indent indent division = division.map (lineText indent) := by
  cases division <;> rfl

theorem exists_of_mem_written {text : Text} (h : text ∈ written first later division) :
    ∃ i line, (i = first ∨ i = later) ∧ line ∈ division ∧ text = lineText i line := by
  cases division with
  | nil => cases h
  | cons line rest =>
    rcases List.mem_cons.1 h with rfl | h
    · exact ⟨first, line, .inl rfl, List.mem_cons_self, rfl⟩
    · obtain ⟨l, hl, rfl⟩ := List.mem_map.1 h
      exact ⟨later, l, .inr rfl, List.mem_cons_of_mem line hl, rfl⟩

theorem exists_mem_written (first later : Text) (h : line ∈ division) :
    ∃ i, (i = first ∨ i = later) ∧ lineText i line ∈ written first later division := by
  cases h with
  | head => exact ⟨first, .inl rfl, List.mem_cons_self⟩
  | tail l h => exact ⟨later, .inr rfl, List.mem_cons_of_mem _ (List.mem_map_of_mem h)⟩

theorem fits_singleton (width : Int) (indent c : Text) : Fits width indent [c] := .inl rfl

theorem Fits.eq_nil_or_le (h : Fits width indent (c :: cs)) :
    cs = [] ∨ ((indent ++ c ++ cs.flatMap (' ' :: ·)).length : Int) ≤ width := by
  rcases h with h | h
  · exact .inl (List.eq_nil_of_length_eq_zero (Nat.succ.inj h))
  · rw [lineText_cons] at h
    exact .inr h

theorem Fits.tail (h : Fits width indent (c :: cs)) (hne : cs ≠ []) : Fits width indent cs := by
  obtain ⟨d, ds, rfl⟩ := List.exists_cons_of_ne_nil hne
  have hle := h.eq_nil_or_le.resolve_left hne
  right
  rw [List.flatMap_cons] at hle
  rw [lineText_cons]
  simp only [List.length_append, List.length_cons] at hle ⊢
  omega

theorem admissible_nil (width : Int) (first later : Text) : Admissible width first later [] [] where
  flatten_eq := rfl
  ne_nil := List.forall_mem_nil _
  first_fits := nofun
  later_fits := List.forall_mem_nil _

theorem Admissible.fits (h : Admissible width indent indent cs division) :
    ∀ line ∈ division, Fits width indent line := by
  cases division with
  | nil => exact List.forall_mem_nil _
  | cons line rest => exact List.forall_mem_cons.2 ⟨h.first_fits line rfl, h.later_fits⟩

theorem Admissible.cons (h : Admissible width later later cs division) (hne : line ≠ [])
    (hfit : Fits width first line) :
    Admissible width first later (line ++ cs) (line :: division) where
  flatten_eq := by rw [List.flatten_cons, h.flatten_eq]
  ne_nil := List.forall_mem_cons.2 ⟨hne, h.ne_nil⟩
  first_fits := fun _ hl => Option.some.inj hl ▸ hfit
  later_fits := h.fits

theorem exists_admissible_fill (hne : line ≠ []) (hfit : Fits width first line) (cs : List Text) :
    ∃ division, Admissible width first later (line ++ cs) division ∧
      fill width later (lineText first line) cs = written first later division := by
  induction cs generalizing first line with
  | nil => exact ⟨[line], (admissible_nil width later later).cons hne hfit, rfl⟩
  | cons c cs ih =>
    rw [fill, ← lineText_append_singleton first hne]
    split
    · rename_i hle
      obtain ⟨division, hd, he⟩ := ih (List.append_ne_nil_of_left_ne_nil hne [c]) (.inr hle)
      rw [List.append_assoc, List.singleton_append] at hd
      exact ⟨division, hd, he⟩
    · obtain ⟨division, hd, he⟩ := ih (List.cons_ne_nil c []) (fits_singleton width later c)
      rw [lineText_singleton, written_self] at he
      refine ⟨line :: division, hd.cons hne hfit, ?_⟩
      rw [he, written]

/-- Filling stays ahead of every division: if the current line has room for `rest` and the clusters
behind it can be divided into lines that fit, filling needs no more lines. -/
theorem length_fill_le {line : Text} (rest : List Text) (further : List (List Text))
    (hrest : rest = [] ∨ ((line ++ rest.flatMap (' ' :: ·)).length : Int) ≤ width)
    (hne : ∀ l ∈ further, l ≠ []) (hfit : ∀ l ∈ further, Fits width later l) :
    (fill width later line (rest ++ further.flatten)).length ≤ further.length + 1 := by
  induction hcs : rest ++ further.flatten generalizing line rest further with
  | nil => exact Nat.succ_le_succ (Nat.zero_le _)
  | cons c cs ih =>
    rw [fill]
    cases rest with
    | cons d rest =>
      obtain ⟨rfl, hrest'⟩ := List.cons.inj hcs
      have hle := hrest.resolve_left (List.cons_ne_nil d rest)
      rw [List.flatMap_cons, ← List.append_assoc] at hle
      have hd : ((line ++ ' ' :: d).length : Int) ≤ width := by
        rw [List.length_append] at hle
        omega
      rw [if_pos hd]
      exact ih rest further (.inr hle) hne hfit hrest'
    | nil =>
      cases further with
      | nil => cases hcs
      | cons l further =>
        obtain ⟨hl, hne'⟩ := List.forall_mem_cons.1 hne
        obtain ⟨hlfit, hfit'⟩ := List.forall_mem_cons.1 hfit
        cases l with
        | nil => exact absurd rfl hl
        | cons d rest =>
          obtain ⟨rfl, hrest'⟩ := List.cons.inj hcs
          split
          · -- The current line takes the first cluster of the next one. The others of that line
            -- still fit on a line, which stands in its place.
            by_cases hr : rest = []
            · rw [hr] at hrest'
              exact Nat.le_succ_of_le (ih [] further (.inl rfl) hne' hfit' hrest')
            · exact ih [] (rest :: further) (.inl rfl) (List.forall_mem_cons.2 ⟨hr, hne'⟩)
                (List.forall_mem_cons.2 ⟨hlfit.tail hr, hfit'⟩) hrest'
          · exact Nat.succ_le_succ (ih rest further hlfit.eq_nil_or_le hne' hfit' hrest')

theorem exists_admissible_categoryLines (hw : width ≠ 0) (first later : Text) (cs : List Text) :
    ∃ division, Admissible width first later cs division ∧
      categoryLines width first later cs = written first later division := by
  cases cs with
  | nil => exact ⟨[], admissible_nil width first later, rfl⟩
  | cons c cs =>
    obtain ⟨division, hd, he⟩ :=
      exists_admissible_fill (List.cons_ne_nil c []) (fits_singleton width first c) cs
    rw [lineText_singleton] at he
    exact ⟨division, hd, by rw [categoryLines, if_neg hw, he]⟩

theorem exists_division_categoryLines (width : Int) (first later : Text) (cs : List Text) :
    ∃ division : List (List Text), division.flatten = cs ∧ (∀ line ∈ division, line ≠ []) ∧
      categoryLines width first later cs =
        written first (if width = 0 then first else later) division := by
  by_cases hw : width = 0
  · refine ⟨cs.map fun c => [c], ?_, ?_, ?_⟩
    · rw [← List.flatMap_def, List.flatMap_singleton']
    · exact List.forall_mem_map.2 fun c _ => List.cons_ne_nil c []
    · rw [if_pos hw, written_self, List.map_map]
      cases cs with
      | nil => rfl
      | cons c cs =>
        rw [categoryLines, if_pos hw]
        exact List.map_congr_left fun d _ => (lineText_singleton first d).symm
  · obtain ⟨division, hd, he⟩ := exists_admissible_categoryLines hw first later cs
    exact ⟨division, hd.flatten_eq, hd.ne_nil, by rw [if_neg hw, he]⟩

theorem Admissible.length_categoryLines_le (h : Admissible width first later cs division)
    (hw : width ≠ 0) : (categoryLines width first later cs).length ≤ division.length := by
  obtain ⟨hf, hne, hfirst, hlater⟩ := h
  subst hf
  cases division with
  | nil => exact Nat.zero_le _
  | cons line further =>
    obtain ⟨hl, hne'⟩ := List.forall_mem_cons.1 hne
    obtain ⟨c, rest, rfl⟩ := List.exists_cons_of_ne_nil hl
    rw [List.flatten_cons, List.cons_append, categoryLines, if_neg hw]
    exact length_fill_le rest further (hfirst _ rfl).eq_nil_or_le hne' hlater

/-- Filling gives a division of the clusters into lines that fit, and no other one has fewer
lines. -/
theorem categoryLines_fewest (hw : width ≠ 0) (classIndent wrapIndent : Text)
    (clusters : List Text) :
    (∃ division, Admissible width classIndent wrapIndent clusters division ∧
      categoryLines width classIndent wrapIndent clusters =
        written classIndent wrapIndent division) ∧
      ∀ other, Admissible width classIndent wrapIndent clusters other →
        (categoryLines width classIndent wrapIndent clusters).length ≤ other.length :=
  ⟨exists_admissible_categoryLines hw classIndent wrapIndent clusters,
    fun _ h => h.length_categoryLines_le hw⟩

/-- The second cluster just fits, and the third one is too long for any line. -/
theorem categoryLines_fewest_at_limit :
    (8 : Int) ≠ 0 ∧
      categoryLines 8 "  ".toList "    ".toList
          (["p", "mx-2", "bg-white", "w"].map String.toList) =
        ["  p mx-2", "    bg-white", "    w"].map String.toList ∧
      ∀ other, Admissible 8 "  ".toList "    ".toList
        (["p", "mx-2", "bg-white", "w"].map String.toList) other → 3 ≤ other.length :=
  ⟨by decide, by decide, (categoryLines_fewest (by decide) _ _ _).2⟩

end Packing

end ClassFormat
