import ClassFormat.Text.Utf8

namespace ClassFormat.Utf8

theorem toNat_char_cases (c : Char) :
    c.toNat < 0xd800 ∨ 0xdfff < c.toNat ∧ c.toNat < 0x110000 :=
  c.valid

theorem toNat_ofNat_of_isValidChar {n : Nat} (h : n < 0xd800 ∨ 0xdfff < n ∧ n < 0x110000) :
    (Char.ofNat n).toNat = n := by
  have hv : n.isValidChar := h
  rw [Char.ofNat, dif_pos hv]
  rfl

section

variable {position : Nat} {b : UInt8} {p : Partial}

theorem decodeFrom_ascii (h : b.toNat < 0x80) (bs : Bytes) :
    decodeFrom position none (b :: bs) =
      (decodeFrom (position + 1) none bs).map (Char.ofNat b.toNat :: ·) := by
  rw [decodeFrom, if_pos h]

theorem decodeFrom_lead (h : lead? b = some p) (hb : ¬ b.toNat < 0x80) (bs : Bytes) :
    decodeFrom position none (b :: bs) = decodeFrom (position + 1) (some p) bs := by
  rw [decodeFrom, if_neg hb, h]

theorem decodeFrom_last (hm : p.missing ≤ 1) (hl : p.low ≤ b.toNat) (hh : b.toNat ≤ p.high)
    (bs : Bytes) : decodeFrom position (some p) (b :: bs) =
      (decodeFrom (position + 1) none bs).map
        (Char.ofNat (64 * p.code + (b.toNat - 0x80)) :: ·) := by
  rw [decodeFrom, if_pos (by simp [hl, hh])]
  exact if_pos hm

theorem decodeFrom_next (hm : ¬ p.missing ≤ 1) (hl : p.low ≤ b.toNat) (hh : b.toNat ≤ p.high)
    (bs : Bytes) : decodeFrom position (some p) (b :: bs) =
      decodeFrom (position + 1) (some { first := p.first, length := p.length + 1
                                        code := 64 * p.code + (b.toNat - 0x80)
                                        missing := p.missing - 1 }) bs := by
  rw [decodeFrom, if_pos (by simp [hl, hh])]
  exact if_neg hm

end

theorem lead?_two {b : UInt8} (h : 0xc2 ≤ b.toNat) (h' : b.toNat ≤ 0xdf) :
    lead? b = some { first := b, length := 1, code := b.toNat - 0xc0, missing := 1 } := by
  unfold lead?
  rw [if_pos (by simp [h, h'])]

theorem lead?_three {b : UInt8} (h : 0xe0 ≤ b.toNat) (h' : b.toNat ≤ 0xef) :
    lead? b = some { first := b, length := 1, code := b.toNat - 0xe0, missing := 2
                     low := if b.toNat = 0xe0 then 0xa0 else 0x80
                     high := if b.toNat = 0xed then 0x9f else 0xbf } := by
  unfold lead?
  rw [if_neg (by simp; omega), if_pos (by simp [h, h'])]

theorem lead?_four {b : UInt8} (h : 0xf0 ≤ b.toNat) (h' : b.toNat ≤ 0xf4) :
    lead? b = some { first := b, length := 1, code := b.toNat - 0xf0, missing := 3
                     low := if b.toNat = 0xf0 then 0x90 else 0x80
                     high := if b.toNat = 0xf4 then 0x8f else 0xbf } := by
  unfold lead?
  rw [if_neg (by simp; omega), if_neg (by simp; omega), if_pos (by simp [h, h'])]

/-- A byte that can stand inside a character. -/
def Continues (b : UInt8) : Prop := 0x80 ≤ b.toNat ∧ b.toNat ≤ 0xbf

/-- A byte that can stand behind the first one of a character. The bounds leave out what a shorter
form encodes, the surrogates, and what lies behind the last character. -/
def Follows (b b₁ : UInt8) : Prop :=
  Continues b₁ ∧ (b.toNat = 0xe0 → 0xa0 ≤ b₁.toNat) ∧ (b.toNat = 0xed → b₁.toNat ≤ 0x9f) ∧
    (b.toNat = 0xf0 → 0x90 ≤ b₁.toNat) ∧ (b.toNat = 0xf4 → b₁.toNat ≤ 0x8f)

theorem lead?_cases {b : UInt8} {p : Partial} (h : lead? b = some p) :
    0xc2 ≤ b.toNat ∧ b.toNat ≤ 0xf4 := by
  unfold lead? at h
  simp only [Bool.and_eq_true, decide_eq_true_eq] at h
  split at h
  · omega
  split at h
  · omega
  split at h
  · omega
  · cases h

theorem bounds_iff_follows {b : UInt8} {p : Partial} (h : lead? b = some p) (b₁ : UInt8) :
    p.low ≤ b₁.toNat ∧ b₁.toNat ≤ p.high ↔ Follows b b₁ := by
  unfold lead? at h
  simp only [Bool.and_eq_true, decide_eq_true_eq] at h
  unfold Follows Continues
  split at h
  · cases h
    dsimp only
    omega
  split at h
  · cases h
    dsimp only
    split <;> split <;> omega
  split at h
  · cases h
    dsimp only
    split <;> split <;> omega
  · cases h

section

variable {position : Nat} {b b₁ b₂ b₃ : UInt8}

theorem decodeFrom_two (h : 0xc2 ≤ b.toNat) (h' : b.toNat ≤ 0xdf) (h₁ : Follows b b₁) (bs : Bytes) :
    decodeFrom position none (b :: b₁ :: bs) = (decodeFrom (position + 2) none bs).map
      (Char.ofNat (64 * (b.toNat - 0xc0) + (b₁.toNat - 0x80)) :: ·) := by
  have hlead := lead?_two h h'
  obtain ⟨hl, hh⟩ := (bounds_iff_follows hlead b₁).2 h₁
  rw [decodeFrom_lead hlead (by omega), decodeFrom_last (by simp) hl hh]

theorem decodeFrom_three (h : 0xe0 ≤ b.toNat) (h' : b.toNat ≤ 0xef) (h₁ : Follows b b₁)
    (h₂ : Continues b₂) (bs : Bytes) :
    decodeFrom position none (b :: b₁ :: b₂ :: bs) = (decodeFrom (position + 3) none bs).map
      (Char.ofNat (64 * (64 * (b.toNat - 0xe0) + (b₁.toNat - 0x80)) + (b₂.toNat - 0x80)) :: ·) := by
  have hlead := lead?_three h h'
  obtain ⟨hl, hh⟩ := (bounds_iff_follows hlead b₁).2 h₁
  rw [decodeFrom_lead hlead (by omega), decodeFrom_next (by simp) hl hh,
    decodeFrom_last (by simp) h₂.1 h₂.2]

theorem decodeFrom_four (h : 0xf0 ≤ b.toNat) (h' : b.toNat ≤ 0xf4) (h₁ : Follows b b₁)
    (h₂ : Continues b₂) (h₃ : Continues b₃) (bs : Bytes) :
    decodeFrom position none (b :: b₁ :: b₂ :: b₃ :: bs) = (decodeFrom (position + 4) none bs).map
      (Char.ofNat (64 * (64 * (64 * (b.toNat - 0xf0) + (b₁.toNat - 0x80)) + (b₂.toNat - 0x80)) +
        (b₃.toNat - 0x80)) :: ·) := by
  have hlead := lead?_four h h'
  obtain ⟨hl, hh⟩ := (bounds_iff_follows hlead b₁).2 h₁
  rw [decodeFrom_lead hlead (by omega), decodeFrom_next (by simp) hl hh,
    decodeFrom_next (by simp) h₂.1 h₂.2, decodeFrom_last (by simp) h₃.1 h₃.2]

end

-- The bound is spelled out: `omega` does not see through `UInt8.size`.
theorem toNat_ofNat_byte {n : Nat} (h : n < 256) : (UInt8.ofNat n).toNat = n :=
  UInt8.toNat_ofNat_of_lt' h

theorem decodeFrom_encodeChar_append (position : Nat) (c : Char) (bs : Bytes) :
    decodeFrom position none (encodeChar c ++ bs) =
      (decodeFrom (position + (encodeChar c).length) none bs).map (c :: ·) := by
  have hc := toNat_char_cases c
  unfold encodeChar
  dsimp only
  split
  · have hb := toNat_ofNat_byte (n := c.toNat) (by omega)
    refine (decodeFrom_ascii (by omega) bs).trans ?_
    rw [hb, Char.ofNat_toNat]
    rfl
  split
  · have hb := toNat_ofNat_byte (n := 0xc0 + c.toNat / 64) (by omega)
    have hb₁ := toNat_ofNat_byte (n := 0x80 + c.toNat % 64) (by omega)
    have hn : 64 * (0xc0 + c.toNat / 64 - 0xc0) + (0x80 + c.toNat % 64 - 0x80) = c.toNat := by omega
    refine (decodeFrom_two (by omega) (by omega) ?_ bs).trans ?_
    · unfold Follows Continues
      omega
    · rw [hb, hb₁, hn, Char.ofNat_toNat]
      rfl
  split
  · have hb := toNat_ofNat_byte (n := 0xe0 + c.toNat / 4096) (by omega)
    have hb₁ := toNat_ofNat_byte (n := 0x80 + c.toNat / 64 % 64) (by omega)
    have hb₂ := toNat_ofNat_byte (n := 0x80 + c.toNat % 64) (by omega)
    have hn : 64 * (64 * (0xe0 + c.toNat / 4096 - 0xe0) + (0x80 + c.toNat / 64 % 64 - 0x80)) +
        (0x80 + c.toNat % 64 - 0x80) = c.toNat := by omega
    refine (decodeFrom_three (by omega) (by omega) ?_ ⟨by omega, by omega⟩ bs).trans ?_
    · unfold Follows Continues
      omega
    · rw [hb, hb₁, hb₂, hn, Char.ofNat_toNat]
      rfl
  · have hb := toNat_ofNat_byte (n := 0xf0 + c.toNat / 262144) (by omega)
    have hb₁ := toNat_ofNat_byte (n := 0x80 + c.toNat / 4096 % 64) (by omega)
    have hb₂ := toNat_ofNat_byte (n := 0x80 + c.toNat / 64 % 64) (by omega)
    have hb₃ := toNat_ofNat_byte (n := 0x80 + c.toNat % 64) (by omega)
    have hn : 64 * (64 * (64 * (0xf0 + c.toNat / 262144 - 0xf0) +
        (0x80 + c.toNat / 4096 % 64 - 0x80)) + (0x80 + c.toNat / 64 % 64 - 0x80)) +
        (0x80 + c.toNat % 64 - 0x80) = c.toNat := by omega
    refine (decodeFrom_four (by omega) (by omega) ?_ ⟨by omega, by omega⟩ ⟨by omega, by omega⟩
      bs).trans ?_
    · unfold Follows Continues
      omega
    · rw [hb, hb₁, hb₂, hb₃, hn, Char.ofNat_toNat]
      rfl

theorem decodeFrom_encode (position : Nat) (t : Text) :
    decodeFrom position none (encode t) = .ok t := by
  induction t generalizing position with
  | nil => rfl
  | cons c t ih =>
    have he : encode (c :: t) = encodeChar c ++ encode t := rfl
    rw [he, decodeFrom_encodeChar_append, ih]
    rfl

section

variable {position : Nat} {b b₁ b₂ b₃ : UInt8} {bs : Bytes} {t : Text}

theorem ofNat_eq_byte {n : Nat} (h : n = b.toNat) : UInt8.ofNat n = b := by
  rw [h, UInt8.ofNat_toNat]

theorem encodeChar_ascii (h : b.toNat < 0x80) : encodeChar (Char.ofNat b.toNat) = [b] := by
  unfold encodeChar
  rw [toNat_ofNat_of_isValidChar (.inl (by omega))]
  simp only [if_pos h, UInt8.ofNat_toNat]

theorem encodeChar_two (h : 0xc2 ≤ b.toNat) (h' : b.toNat ≤ 0xdf) (h₁ : Follows b b₁) :
    encodeChar (Char.ofNat (64 * (b.toNat - 0xc0) + (b₁.toNat - 0x80))) = [b, b₁] := by
  unfold Follows Continues at h₁
  unfold encodeChar
  rw [toNat_ofNat_of_isValidChar (.inl (by omega))]
  dsimp only
  rw [if_neg (by omega), if_pos (by omega), ofNat_eq_byte (b := b) (by omega),
    ofNat_eq_byte (b := b₁) (by omega)]

theorem encodeChar_three (h : 0xe0 ≤ b.toNat) (h' : b.toNat ≤ 0xef) (h₁ : Follows b b₁)
    (h₂ : Continues b₂) : encodeChar (Char.ofNat (64 * (64 * (b.toNat - 0xe0) +
      (b₁.toNat - 0x80)) + (b₂.toNat - 0x80))) = [b, b₁, b₂] := by
  unfold Follows Continues at h₁
  obtain ⟨hl₂, hh₂⟩ := h₂
  unfold encodeChar
  rw [toNat_ofNat_of_isValidChar (by omega)]
  dsimp only
  rw [if_neg (by omega), if_neg (by omega), if_pos (by omega), ofNat_eq_byte (b := b) (by omega),
    ofNat_eq_byte (b := b₁) (by omega), ofNat_eq_byte (b := b₂) (by omega)]

theorem encodeChar_four (h : 0xf0 ≤ b.toNat) (h' : b.toNat ≤ 0xf4) (h₁ : Follows b b₁)
    (h₂ : Continues b₂) (h₃ : Continues b₃) :
    encodeChar (Char.ofNat (64 * (64 * (64 * (b.toNat - 0xf0) + (b₁.toNat - 0x80)) +
      (b₂.toNat - 0x80)) + (b₃.toNat - 0x80))) = [b, b₁, b₂, b₃] := by
  unfold Follows Continues at h₁
  obtain ⟨hl₂, hh₂⟩ := h₂
  obtain ⟨hl₃, hh₃⟩ := h₃
  unfold encodeChar
  rw [toNat_ofNat_of_isValidChar (by omega)]
  dsimp only
  rw [if_neg (by omega), if_neg (by omega), if_neg (by omega), ofNat_eq_byte (b := b) (by omega),
    ofNat_eq_byte (b := b₁) (by omega), ofNat_eq_byte (b := b₂) (by omega),
    ofNat_eq_byte (b := b₃) (by omega)]

theorem exists_of_decodeFrom_some {p : Partial} (h : decodeFrom position (some p) bs = .ok t) :
    ∃ b bs', bs = b :: bs' ∧ p.low ≤ b.toNat ∧ b.toNat ≤ p.high := by
  cases bs with
  | nil => cases h
  | cons b bs =>
    rw [decodeFrom] at h
    split at h
    · rename_i hb
      rw [Bool.and_eq_true, decide_eq_true_eq, decide_eq_true_eq] at hb
      exact ⟨b, bs, rfl, hb⟩
    · cases h

theorem exists_of_map_eq_ok {ε α β : Type} {x : Except ε α} {f : α → β} {y : β}
    (h : x.map f = .ok y) : ∃ a, x = .ok a ∧ f a = y := by
  cases x with
  | error e => cases h
  | ok a => exact ⟨a, rfl, Except.ok.inj h⟩

/-- What is read starts with a character, and the bytes with those of the character. -/
theorem exists_char_of_decodeFrom (h : decodeFrom position none (b :: bs) = .ok t) :
    ∃ c t' bs' position', b :: bs = encodeChar c ++ bs' ∧ c :: t' = t ∧
      decodeFrom position' none bs' = .ok t' := by
  by_cases hascii : b.toNat < 0x80
  · rw [decodeFrom_ascii hascii] at h
    obtain ⟨t', ht', he⟩ := exists_of_map_eq_ok h
    exact ⟨_, t', bs, _, by rw [encodeChar_ascii hascii]; rfl, he, ht'⟩
  rcases hlead : lead? b with _ | p
  · rw [decodeFrom, if_neg hascii, hlead] at h
    cases h
  have hb := lead?_cases hlead
  have hd := h
  rw [decodeFrom_lead hlead hascii] at hd
  obtain ⟨b₁, bs, rfl, hbounds⟩ := exists_of_decodeFrom_some hd
  have h₁ := (bounds_iff_follows hlead b₁).1 hbounds
  by_cases htwo : b.toNat ≤ 0xdf
  · rw [decodeFrom_two hb.1 htwo h₁] at h
    obtain ⟨t', ht', he⟩ := exists_of_map_eq_ok h
    exact ⟨_, t', bs, _, by rw [encodeChar_two hb.1 htwo h₁]; rfl, he, ht'⟩
  by_cases hthree : b.toNat ≤ 0xef
  · cases hlead.symm.trans (lead?_three (by omega) hthree)
    rw [decodeFrom_next (by simp) hbounds.1 hbounds.2] at hd
    obtain ⟨b₂, bs, rfl, h₂⟩ := exists_of_decodeFrom_some hd
    rw [decodeFrom_three (by omega) hthree h₁ h₂] at h
    obtain ⟨t', ht', he⟩ := exists_of_map_eq_ok h
    exact ⟨_, t', bs, _, by rw [encodeChar_three (by omega) hthree h₁ h₂]; rfl, he, ht'⟩
  · cases hlead.symm.trans (lead?_four (by omega) hb.2)
    rw [decodeFrom_next (by simp) hbounds.1 hbounds.2] at hd
    obtain ⟨b₂, bs, rfl, h₂⟩ := exists_of_decodeFrom_some hd
    rw [decodeFrom_next (by simp) h₂.1 h₂.2] at hd
    obtain ⟨b₃, bs, rfl, h₃⟩ := exists_of_decodeFrom_some hd
    rw [decodeFrom_four (by omega) hb.2 h₁ h₂ h₃] at h
    obtain ⟨t', ht', he⟩ := exists_of_map_eq_ok h
    exact ⟨_, t', bs, _, by rw [encodeChar_four (by omega) hb.2 h₁ h₂ h₃]; rfl, he, ht'⟩

end

theorem length_encodeChar_pos (c : Char) : 0 < (encodeChar c).length := by
  unfold encodeChar
  dsimp only
  split
  · exact Nat.succ_pos _
  split
  · exact Nat.succ_pos _
  split <;> exact Nat.succ_pos _

theorem eq_encode_of_decodeFrom {position : Nat} {bs : Bytes} {t : Text}
    (h : decodeFrom position none bs = .ok t) : bs = encode t := by
  -- A character takes more than one byte, so the induction is on the number of bytes.
  generalize hn : bs.length = n
  induction n using Nat.strongRecOn generalizing position bs t with
  | ind n ih =>
    cases bs with
    | nil =>
      cases h
      rfl
    | cons b bs =>
      obtain ⟨c, t', bs', position', he, rfl, h'⟩ := exists_char_of_decodeFrom h
      have hlen : bs'.length < n := by
        rw [← hn, he, List.length_append]
        have hc := length_encodeChar_pos c
        omega
      rw [he, ih bs'.length hlen h' rfl]
      rfl

/-- Bytes are read as a text if and only if they are the bytes of the text. -/
theorem decode_eq_ok_iff {bs : Bytes} {t : Text} : decode bs = .ok t ↔ bs = encode t := by
  constructor
  · exact eq_encode_of_decodeFrom
  · rintro rfl
    exact decodeFrom_encode 0 t

theorem encode_injective {t u : Text} (h : encode t = encode u) : t = u := by
  have ht := decode_eq_ok_iff.2 (rfl : encode t = encode t)
  rw [h, decode_eq_ok_iff.2 rfl] at ht
  exact (Except.ok.inj ht).symm

end ClassFormat.Utf8
