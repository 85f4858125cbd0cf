import ClassFormat.Proofs.Text.Line
import ClassFormat.Proofs.Text.Newline

namespace ClassFormat

namespace Text

/-- How many line feeds behind a carriage return there are more than other line feeds. -/
def balance (t : Text) : Int := 2 * t.countCrlf - t.count '\n'

theorem balance_nil : balance [] = 0 := rfl

theorem dominantNewline_eq (t : Text) :
    t.dominantNewline = if 0 < t.balance then .crlf else .lf := by
  unfold dominantNewline balance
  split <;> split <;> first | rfl | omega

theorem countCrlf_cons {c : Char} {t : Text} (h : c = '\r' → t.head? ≠ some '\n') :
    countCrlf (c :: t) = countCrlf t := by
  rw [countCrlf.eq_2]
  rintro cs rfl rfl
  exact h rfl rfl

theorem countCrlf_append {s t : Text} (h : s.getLast? = some '\r' → t.head? ≠ some '\n') :
    countCrlf (s ++ t) = countCrlf s + countCrlf t := by
  fun_induction countCrlf s with
  | case1 cs ih =>
    have ih := ih fun hl => h (by rw [List.getLast?_cons, List.getLast?_cons]; simp [hl])
    rw [List.cons_append, List.cons_append, countCrlf, ih]
    omega
  | case2 c cs hne ih =>
    have ih := ih fun hl => h (by rw [List.getLast?_cons]; simp [hl])
    rw [List.cons_append, countCrlf_cons, ih]
    intro hc
    cases cs with
    | nil => exact h (congrArg some hc)
    | cons d ds =>
      intro hd
      exact hne ds hc (congrArg (· :: ds) (Option.some.inj hd))
  | case3 => rw [List.nil_append, Nat.zero_add]

theorem balance_append {s t : Text} (h : s.getLast? = some '\r' → t.head? ≠ some '\n') :
    balance (s ++ t) = balance s + balance t := by
  rw [balance, balance, balance, countCrlf_append h, List.count_append]
  omega

theorem balance_of_not_mem {t : Text} (h : '\n' ∉ t) : balance t = 0 := by
  have hc : t.countCrlf = 0 := by
    induction t with
    | nil => rfl
    | cons c cs ih =>
      rw [List.mem_cons, not_or] at h
      rw [countCrlf_cons, ih h.2]
      intro _ hd
      exact h.2 (List.mem_of_mem_head? hd)
  rw [balance, hc, List.count_eq_zero_of_not_mem h]
  rfl

theorem balance_cons {c : Char} (hr : c ≠ '\r') (hn : c ≠ '\n') (t : Text) :
    balance (c :: t) = balance t := by
  rw [balance, countCrlf_cons (absurd · hr), List.count_cons_of_ne hn, balance]

/-- A character that is part of no line ending separates the line ends on its two sides. -/
theorem balance_append_cons {c : Char} (hr : c ≠ '\r') (hn : c ≠ '\n') (s t : Text) :
    balance (s ++ c :: t) = balance s + balance t := by
  have hh : (c :: t).head? ≠ some '\n' := fun he => hn (Option.some.inj he)
  rw [balance_append fun _ => hh, balance_cons hr hn]

theorem balance_append_of_not_mem {s : Text} (h : '\r' ∉ s) (t : Text) :
    balance (s ++ t) = balance s + balance t :=
  balance_append fun hl => absurd (List.mem_of_mem_getLast? hl) h

end Text

open Text

/-- The balance moves towards a line ending. -/
def Newline.Favors : Newline → Int → Int → Prop
  | .lf, a, b => b ≤ a
  | .crlf, a, b => a ≤ b

namespace Newline

variable {newline : Newline}

theorem Favors.refl (newline : Newline) (a : Int) : newline.Favors a a := by
  cases newline <;> exact Int.le_refl a

theorem Favors.add {a b c d : Int} (h : newline.Favors a b) (h' : newline.Favors c d) :
    newline.Favors (a + c) (b + d) := by
  cases newline
  · exact Int.add_le_add h h'
  · exact Int.add_le_add h h'

theorem favors_balance_text (newline : Newline) : newline.Favors 0 newline.text.balance := by
  cases newline <;> simp [Favors, text, balance, countCrlf]

theorem balance_text_append (newline : Newline) (t : Text) :
    balance (newline.text ++ t) = newline.text.balance + t.balance := by
  apply balance_append
  intro h
  cases newline <;> cases h

theorem favors_balance_withNewline {t : Text} (h : '\r' ∉ t) (newline : Newline) :
    newline.Favors 0 (t.withNewline newline).balance := by
  induction t with
  | nil => exact Favors.refl newline 0
  | cons c cs ih =>
    rw [List.mem_cons, not_or] at h
    by_cases hc : c = '\n'
    · rw [hc, withNewline_cons_newline, balance_text_append]
      exact (favors_balance_text newline).add (ih h.2)
    · rw [withNewline_cons hc, balance_cons (Ne.symm h.1) hc]
      exact ih h.2

end Newline

end ClassFormat
