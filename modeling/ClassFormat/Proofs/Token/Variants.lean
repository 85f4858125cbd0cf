import ClassFormat.Proofs.Text.Line
import ClassFormat.Token

namespace ClassFormat

namespace Token

open Text

variable {t u v w rest rest' : Text} {variants variants' : List Text}

/-- A name of lower case letters and digits with a colon behind it. -/
def IsVariant (v : Text) : Prop :=
  ∃ name, name ≠ [] ∧ (∀ c ∈ name, isVariantChar c = true) ∧ v = name ++ [':']

/-- A token as variants, one after another, and a rest that starts with no variant. -/
structure SplitsInto (t : Token) (variants : List Text) (rest : Text) : Prop where
  eq_append : t = variants.flatten ++ rest
  isVariant : ∀ v ∈ variants, IsVariant v
  stops : ∀ v, IsVariant v → ¬ v <+: rest

theorem restsFrom_name_append {name : Text} (hn : ∀ c ∈ name, isVariantChar c = true)
    (named : Bool) (t : Text) :
    restsFrom named (name ++ t) = restsFrom (named || !name.isEmpty) t := by
  induction name generalizing named with
  | nil => simp
  | cons c cs ih =>
    have hc := hn c List.mem_cons_self
    rw [List.cons_append, restsFrom, if_pos hc, ih fun d hd => hn d (List.mem_cons_of_mem c hd)]
    simp

theorem IsVariant.variantRests_append (hv : IsVariant v) (t : Text) :
    variantRests (v ++ t) = t :: variantRests t := by
  obtain ⟨name, hne, hn, rfl⟩ := hv
  have hcolon : isVariantChar ':' = false := by decide
  rw [variantRests, List.append_assoc, restsFrom_name_append hn, List.singleton_append, restsFrom,
    hcolon]
  simp [hne, variantRests]

/-- Something follows a variant only where a name ends at a colon; `named` says that the name may
have begun before. -/
theorem exists_name_of_restsFrom_ne_nil {named : Bool} (h : restsFrom named t ≠ []) :
    ∃ name rest, t = name ++ ':' :: rest ∧ (∀ c ∈ name, isVariantChar c = true) ∧
      (named = false → name ≠ []) := by
  induction t generalizing named with
  | nil => exact absurd rfl h
  | cons c cs ih =>
    rw [restsFrom] at h
    split at h
    · rename_i hc
      obtain ⟨name, rest, rfl, hn, -⟩ := ih h
      refine ⟨c :: name, rest, rfl, ?_, fun _ => List.cons_ne_nil c name⟩
      intro d hd
      rcases List.mem_cons.1 hd with rfl | hd
      · exact hc
      · exact hn d hd
    · split at h
      · rename_i hc
        simp only [Bool.and_eq_true, beq_iff_eq] at hc
        obtain ⟨rfl, rfl⟩ := hc
        refine ⟨[], cs, rfl, ?_, ?_⟩
        · intro d hd
          cases hd
        · intro hf
          cases hf
      · exact absurd rfl h

theorem exists_variant_of_variantRests_ne_nil (h : variantRests t ≠ []) :
    ∃ v rest, IsVariant v ∧ t = v ++ rest := by
  obtain ⟨name, rest, rfl, hn, hne⟩ := exists_name_of_restsFrom_ne_nil h
  refine ⟨name ++ [':'], rest, ⟨name, hne rfl, hn, rfl⟩, ?_⟩
  rw [List.append_assoc, List.singleton_append]

theorem variantRests_eq_nil (h : ∀ v, IsVariant v → ¬ v <+: t) : variantRests t = [] := by
  by_contra hne
  obtain ⟨v, rest, hv, rfl⟩ := exists_variant_of_variantRests_ne_nil hne
  exact h v hv (List.prefix_append v rest)

theorem IsVariant.ne_nil (hv : IsVariant v) : v ≠ [] := by
  obtain ⟨name, -, -, rfl⟩ := hv
  exact List.append_ne_nil_of_right_ne_nil name (List.cons_ne_nil _ _)

/-- A variant ends at its only colon, so two texts that start alike start with one variant. -/
theorem IsVariant.append_inj (hv : IsVariant v) (hw : IsVariant w) (h : v ++ t = w ++ u) :
    v = w ∧ t = u := by
  obtain ⟨n, -, hn, rfl⟩ := hv
  obtain ⟨m, -, hm, rfl⟩ := hw
  have hcolon : isVariantChar ':' = false := by decide
  rw [List.append_assoc, List.append_assoc, List.singleton_append, List.singleton_append] at h
  have he := congrArg (List.takeWhile isVariantChar) h
  rw [takeWhile_append_cons_of_neg hcolon, takeWhile_append_cons_of_neg hcolon,
    List.takeWhile_eq_self_iff.2 hn, List.takeWhile_eq_self_iff.2 hm] at he
  subst he
  exact ⟨rfl, (List.cons.inj (List.append_cancel_left h)).2⟩

theorem SplitsInto.cons (hv : IsVariant v) (h : SplitsInto t variants rest) :
    SplitsInto (v ++ t) (v :: variants) rest where
  eq_append := by rw [h.eq_append, List.flatten_cons, List.append_assoc]
  isVariant := List.forall_mem_cons.2 ⟨hv, h.isVariant⟩
  stops := h.stops

theorem exists_splitsInto (t : Token) : ∃ variants rest, SplitsInto t variants rest := by
  by_cases h : ∃ v u, IsVariant v ∧ t = v ++ u
  · obtain ⟨v, u, hv, rfl⟩ := h
    have hlt : u.length < (v ++ u).length := by
      rw [List.length_append]
      exact Nat.lt_add_of_pos_left (List.length_pos_of_ne_nil hv.ne_nil)
    obtain ⟨variants, rest, hu⟩ := exists_splitsInto u
    exact ⟨v :: variants, rest, hu.cons hv⟩
  · refine ⟨[], t, rfl, ?_, ?_⟩
    · intro v hv
      cases hv
    · rintro v hv ⟨u, rfl⟩
      exact h ⟨v, u, hv, rfl⟩
termination_by t.length

theorem SplitsInto.of_cons (h : SplitsInto t (v :: variants) rest) :
    IsVariant v ∧ ∃ u, t = v ++ u ∧ SplitsInto u variants rest := by
  obtain ⟨hv, hvs⟩ := List.forall_mem_cons.1 h.isVariant
  refine ⟨hv, variants.flatten ++ rest, ?_, rfl, hvs, h.stops⟩
  rw [h.eq_append, List.flatten_cons, List.append_assoc]

theorem SplitsInto.not_variant (h : SplitsInto t [] rest) (hv : IsVariant v) : t ≠ v ++ u := by
  intro ht
  have hrest : t = rest := h.eq_append
  exact h.stops v hv ⟨u, ht.symm.trans hrest⟩

theorem SplitsInto.unique (h : SplitsInto t variants rest) (h' : SplitsInto t variants' rest') :
    variants = variants' ∧ rest = rest' := by
  induction variants generalizing t variants' with
  | nil =>
    cases variants' with
    | nil => exact ⟨rfl, h.eq_append.symm.trans h'.eq_append⟩
    | cons w ws =>
      obtain ⟨hw, u, ht, -⟩ := h'.of_cons
      exact absurd ht (h.not_variant hw)
  | cons v vs ih =>
    obtain ⟨hv, u, ht, hu⟩ := h.of_cons
    cases variants' with
    | nil => exact absurd ht (h'.not_variant hv)
    | cons w ws =>
      obtain ⟨hw, u', ht', hu'⟩ := h'.of_cons
      obtain ⟨rfl, rfl⟩ := hv.append_inj hw (ht.symm.trans ht')
      obtain ⟨rfl, hr⟩ := ih hu hu'
      exact ⟨rfl, hr⟩

/-- What follows the variants in front of a text comes before what follows its own variants. -/
theorem exists_variantRests_flatten_append (h : ∀ v ∈ variants, IsVariant v) (t : Text) :
    ∃ rests, variantRests (variants.flatten ++ t) = rests ++ variantRests t := by
  induction variants with
  | nil => exact ⟨[], rfl⟩
  | cons v vs ih =>
    obtain ⟨hv, hvs⟩ := List.forall_mem_cons.1 h
    obtain ⟨rests, hr⟩ := ih hvs
    refine ⟨(vs.flatten ++ t) :: rests, ?_⟩
    rw [List.flatten_cons, List.append_assoc, hv.variantRests_append, hr, List.cons_append]

theorem SplitsInto.exists_variantRests_eq (h : SplitsInto t (variants ++ variants') rest) :
    ∃ rests, variantRests t = rests ++ variantRests (variants'.flatten ++ rest) := by
  rw [h.eq_append, List.flatten_append, List.append_assoc]
  exact exists_variantRests_flatten_append (List.forall_mem_append.1 h.isVariant).1 _

theorem SplitsInto.variantRests_of_nil (h : SplitsInto t [] rest) : variantRests t = [] := by
  have ht : t = rest := h.eq_append
  rw [ht, variantRests_eq_nil h.stops]

theorem SplitsInto.exists_rests_of_one (h : SplitsInto t (variants ++ [v]) rest) :
    ∃ rests, variantRests t = rests ++ [rest] := by
  obtain ⟨rests, hr⟩ := h.exists_variantRests_eq
  have hv : IsVariant v := h.isVariant v (by simp)
  refine ⟨rests, ?_⟩
  rw [hr, List.flatten_singleton, hv.variantRests_append, variantRests_eq_nil h.stops]

theorem SplitsInto.exists_rests_of_two (h : SplitsInto t (variants ++ [w, v]) rest) :
    ∃ rests, variantRests t = rests ++ [v ++ rest, rest] := by
  obtain ⟨rests, hr⟩ := h.exists_variantRests_eq
  have hw : IsVariant w := h.isVariant w (by simp)
  have hv : IsVariant v := h.isVariant v (by simp)
  refine ⟨rests, ?_⟩
  rw [hr, List.flatten_cons, List.append_assoc, hw.variantRests_append, List.flatten_singleton,
    hv.variantRests_append, variantRests_eq_nil h.stops]

theorem SplitsInto.base_eq (h : SplitsInto t variants rest) : base t = rest := by
  rcases List.eq_nil_or_concat variants with rfl | ⟨vs, v, rfl⟩
  · rw [base, h.variantRests_of_nil]
    exact h.eq_append
  · rw [List.concat_eq_append] at h
    obtain ⟨rests, hr⟩ := h.exists_rests_of_one
    rw [base, hr, List.getLastD_concat]

theorem SplitsInto.base_rest (h : SplitsInto t variants rest) : base rest = rest :=
  SplitsInto.base_eq ⟨rfl, List.forall_mem_nil _, h.stops⟩

theorem line?_of_not_mem (h : '\n' ∉ t) : line? t = if t = [] then none else some t := by
  have hlast : t.getLast? ≠ some '\n' := fun he => h (List.mem_of_getLast? he)
  rw [line?, if_neg hlast]
  simp [h]

theorem SplitsInto.categoryBase_of_ne_nil (h : SplitsInto t variants rest) (ht : '\n' ∉ t)
    (hne : rest ≠ []) : categoryBase t = rest := by
  have hrest : '\n' ∉ rest := fun hm => ht (h.eq_append ▸ List.mem_append_right _ hm)
  rcases List.eq_nil_or_concat variants with rfl | ⟨vs, v, rfl⟩
  · rw [categoryBase, h.variantRests_of_nil]
    exact h.eq_append
  · rw [List.concat_eq_append] at h
    obtain ⟨rests, hr⟩ := h.exists_rests_of_one
    rw [categoryBase, hr, List.reverse_concat, List.findSome?_cons, line?_of_not_mem hrest,
      if_neg hne]
    rfl

theorem exists_eq_append_pair {α : Type} {l : List α} (h : 2 ≤ l.length) :
    ∃ front a b, l = front ++ [a, b] := by
  rw [← List.length_reverse] at h
  match hl : l.reverse, h with
  | b :: a :: back, _ =>
    refine ⟨back.reverse, a, b, ?_⟩
    rw [← List.reverse_reverse l, hl]
    simp

theorem SplitsInto.categoryBase_of_two_le (h : SplitsInto t variants []) (ht : '\n' ∉ t)
    (hl : 2 ≤ variants.length) : variants.getLast? = some (categoryBase t) := by
  obtain ⟨vs, w, v, rfl⟩ := exists_eq_append_pair hl
  have hv : IsVariant v := h.isVariant v (by simp)
  have hline : '\n' ∉ v := by
    intro hm
    apply ht
    rw [h.eq_append]
    simp [hm]
  obtain ⟨rests, hr⟩ := h.exists_rests_of_two
  rw [List.append_nil] at hr
  rw [categoryBase, hr]
  simp [line?_of_not_mem, hline, hv.ne_nil]

theorem SplitsInto.categoryBase_of_length_le (h : SplitsInto t variants [])
    (hl : variants.length ≤ 1) : categoryBase t = t := by
  match variants, hl with
  | [], _ =>
    rw [categoryBase, h.variantRests_of_nil]
    rfl
  | [v], _ =>
    have hv : IsVariant v := h.isVariant v List.mem_cons_self
    have hr : variantRests t = [[]] := by
      rw [h.eq_append, List.flatten_singleton, hv.variantRests_append, variantRests_eq_nil h.stops]
    rw [categoryBase, hr]
    rfl

theorem categoryBase_eq_base {t : Token} (ht : '\n' ∉ t) (hne : t.base ≠ []) :
    t.categoryBase = t.base := by
  obtain ⟨variants, rest, h⟩ := exists_splitsInto t
  rw [h.base_eq] at hne ⊢
  exact h.categoryBase_of_ne_nil ht hne

theorem newline_not_mem_of_mem_words {value : Text} (h : t ∈ value.words) : '\n' ∉ t := by
  intro hm
  exact absurd ((isWord_of_mem_words h).not_blank _ hm) (by decide)

/-- Both bases of a token, read off the one way in which it splits into variants and a rest. -/
theorem bases_of_split (t : Token) :
    ∃ variants rest, SplitsInto t variants rest ∧
      (∀ variants' rest', SplitsInto t variants' rest' → variants' = variants ∧ rest' = rest) ∧
      t.base = rest ∧ base t.base = t.base ∧
      (∀ value : Text, t ∈ value.words → '\n' ∉ t) ∧
      ('\n' ∉ t →
        (rest ≠ [] → t.categoryBase = rest) ∧
        (rest = [] → 2 ≤ variants.length → variants.getLast? = some t.categoryBase) ∧
        (rest = [] → variants.length ≤ 1 → t.categoryBase = t)) := by
  obtain ⟨variants, rest, h⟩ := exists_splitsInto t
  refine ⟨variants, rest, h, fun vs r h' => h'.unique h, h.base_eq, ?_,
    fun value => newline_not_mem_of_mem_words, fun ht => ⟨h.categoryBase_of_ne_nil ht, ?_, ?_⟩⟩
  · rw [h.base_eq, h.base_rest]
  · rintro rfl
    exact h.categoryBase_of_two_le ht
  · rintro rfl
    exact h.categoryBase_of_length_le

/-- Nothing remains behind the variants, and the second one is what decides the category. -/
theorem bases_of_split_of_bare_variants :
    '\n' ∉ "2xl:hover:".toList ∧ base "2xl:hover:".toList = [] ∧
      categoryBase "2xl:hover:".toList = "hover:".toList := by
  have hn : '\n' ∉ "2xl:hover:".toList := by decide
  have hsplit : SplitsInto "2xl:hover:".toList ["2xl:".toList, "hover:".toList] [] := by
    refine ⟨by decide, ?_, ?_⟩
    · intro v hv
      rcases List.mem_cons.1 hv with rfl | hv
      · exact ⟨"2xl".toList, by decide, List.all_eq_true.1 (by decide), by decide⟩
      · rw [List.mem_singleton.1 hv]
        exact ⟨"hover".toList, by decide, List.all_eq_true.1 (by decide), by decide⟩
    · intro v hv hp
      exact hv.ne_nil (List.prefix_nil.1 hp)
  obtain ⟨variants, rest, -, hunique, hbase, -, -, hcategory⟩ := bases_of_split "2xl:hover:".toList
  obtain ⟨rfl, rfl⟩ := hunique _ _ hsplit
  obtain ⟨-, hlast, -⟩ := hcategory hn
  exact ⟨hn, hbase, (Option.some.inj (hlast rfl (by decide))).symm⟩

end Token

end ClassFormat
