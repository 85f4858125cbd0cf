import ClassFormat.Proofs.Text.Blank
import ClassFormat.Text.Line

namespace ClassFormat

namespace Newline

theorem exists_text_eq (newline : Newline) : ∃ r, newline.text = r ++ ['\n'] := by
  cases newline with
  | lf => exact ⟨[], rfl⟩
  | crlf => exact ⟨['\r'], rfl⟩

theorem eq_of_ne_of_ne {a b c : Newline} (hab : a ≠ b) (hbc : b ≠ c) : a = c := by
  cases a <;> cases b <;> cases c <;> first | rfl | contradiction

end Newline

namespace Text

theorem withNewline_append (s t : Text) (newline : Newline) :
    (s ++ t : Text).withNewline newline = s.withNewline newline ++ t.withNewline newline :=
  List.flatMap_append

theorem withNewline_cons_newline (t : Text) (newline : Newline) :
    withNewline ('\n' :: t) newline = newline.text ++ t.withNewline newline := by
  rw [withNewline, replaceChar, List.flatMap_cons, if_pos rfl]
  rfl

theorem withNewline_cons {c : Char} (hc : c ≠ '\n') (t : Text) (newline : Newline) :
    withNewline (c :: t) newline = c :: t.withNewline newline := by
  rw [withNewline, replaceChar, List.flatMap_cons, if_neg hc]
  rfl

theorem withNewline_of_not_mem {t : Text} (h : '\n' ∉ t) (newline : Newline) :
    t.withNewline newline = t := by
  induction t with
  | nil => rfl
  | cons c cs ih =>
    rw [List.mem_cons, not_or] at h
    rw [withNewline_cons (Ne.symm h.1), ih h.2]

theorem withNewline_lf (t : Text) : t.withNewline .lf = t := by
  induction t with
  | nil => rfl
  | cons c cs ih =>
    by_cases hc : c = '\n'
    · rw [hc, withNewline_cons_newline, ih]
      rfl
    · rw [withNewline_cons hc, ih]

theorem withNewline_eq_nil {t : Text} {newline : Newline} (h : t.withNewline newline = []) :
    t = [] := by
  cases t with
  | nil => rfl
  | cons c cs =>
    by_cases hc : c = '\n'
    · rw [hc, withNewline_cons_newline] at h
      cases newline <;> cases h
    · rw [withNewline_cons hc] at h
      cases h

theorem withNewline_crlf_ne_cons (s t : Text) : s.withNewline .crlf ≠ '\n' :: t := by
  cases s with
  | nil => nofun
  | cons c cs =>
    by_cases hc : c = '\n'
    · rw [hc, withNewline_cons_newline]
      simp [Newline.text]
    · rw [withNewline_cons hc]
      simp [hc]

theorem withNewline_crlf_injective {s t : Text} (h : s.withNewline .crlf = t.withNewline .crlf) :
    s = t := by
  induction s generalizing t with
  | nil => exact (withNewline_eq_nil h.symm).symm
  | cons c cs ih =>
    cases t with
    | nil => exact withNewline_eq_nil h
    | cons d ds =>
      by_cases hc : c = '\n' <;> by_cases hd : d = '\n'
      · rw [hc, hd, withNewline_cons_newline, withNewline_cons_newline] at h
        rw [hc, hd, ih (List.append_cancel_left h)]
      · rw [hc, withNewline_cons_newline, withNewline_cons hd] at h
        exact absurd (List.cons.inj h).2.symm (withNewline_crlf_ne_cons ds _)
      · rw [hd, withNewline_cons_newline, withNewline_cons hc] at h
        exact absurd (List.cons.inj h).2 (withNewline_crlf_ne_cons cs _)
      · rw [withNewline_cons hc, withNewline_cons hd, List.cons.injEq] at h
        rw [h.1, ih h.2]

theorem withNewline_injective {s t : Text} {newline : Newline}
    (h : s.withNewline newline = t.withNewline newline) : s = t := by
  cases newline with
  | lf => rwa [withNewline_lf, withNewline_lf] at h
  | crlf => exact withNewline_crlf_injective h

theorem words_append_newline (s t : Text) (newline : Newline) :
    words (s ++ (newline.text ++ t)) = s.words ++ t.words := by
  cases newline with
  | lf => exact words_append_cons (by decide) s t
  | crlf =>
    rw [Newline.text, List.cons_append, List.cons_append, List.nil_append,
      words_append_cons (by decide), words_cons_blank (by decide)]

theorem words_withNewline (t : Text) (newline : Newline) :
    (t.withNewline newline).words = t.words := by
  induction h : t.length using Nat.strongRecOn generalizing t with
  | _ n ih =>
    by_cases hm : '\n' ∈ t
    · obtain ⟨a, b, rfl, ha⟩ := List.eq_append_cons_of_mem hm
      have hb := ih b.length (by rw [← h, List.length_append, List.length_cons]; omega) b rfl
      rw [withNewline_append, withNewline_of_not_mem ha, withNewline_cons_newline,
        words_append_newline, hb, words_append_cons (by decide)]
    · rw [withNewline_of_not_mem hm]

end Text

end ClassFormat
