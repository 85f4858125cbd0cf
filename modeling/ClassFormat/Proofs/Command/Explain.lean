import ClassFormat.Proofs.Command.Platform
import ClassFormat.Proofs.Packing

namespace ClassFormat

open Text

namespace Token

theorem suffix_of_mem_restsFrom {named : Bool} {t r : Text} (h : r ∈ restsFrom named t) :
    r <:+ t := by
  induction t generalizing named with
  | nil => cases h
  | cons c cs ih =>
    rw [restsFrom] at h
    split at h
    · exact (ih h).trans (List.suffix_cons c cs)
    · split at h
      · rcases List.mem_cons.1 h with rfl | h
        · exact List.suffix_cons c r
        · exact (ih h).trans (List.suffix_cons c cs)
      · cases h

theorem base_suffix (t : Token) : t.base <:+ t := by
  rw [base, List.getLastD_eq_getLast?]
  cases h : t.variantRests.getLast? with
  | none => exact List.suffix_refl t
  | some r => exact suffix_of_mem_restsFrom (List.mem_of_getLast? h)

theorem mem_of_mem_property {t : Token} {c : Char} (h : c ∈ t.property) : c ∈ t := by
  apply t.base_suffix.subset
  unfold property at h
  split at h
  · exact h
  · exact (List.takeWhile_prefix isLower).subset h

theorem category_of_mem_buckets {ts : List Token} {b : Bucket} (h : b ∈ buckets ts) :
    b.tokens = ofCategory b.category ts := by
  obtain ⟨c, -, hc⟩ := List.mem_filterMap.1 h
  split at hc
  · cases hc
  · cases hc
    rfl

theorem map_category_buckets_sublist (ts : List Token) :
    ((buckets ts).map Bucket.category).Sublist Category.emitOrder := by
  rw [buckets]
  induction Category.emitOrder with
  | nil => exact .slnil
  | cons c cs ih =>
    rw [List.filterMap_cons]
    split
    · exact ih.cons c
    · rename_i b h
      split at h
      · cases h
      · cases h
        exact ih.cons_cons c

end Token

namespace Command

namespace Explain

/-- A heading and the tokens that stand below it. -/
structure Section where
  heading : Text
  tokens : List Token
  deriving DecidableEq, Repr

def shownToken (line : Text) : Token := line.words.headD []

/-- The tokens in front of the first heading, and the sections. -/
def readLines : List Text → List Token × List Section
  | [] => ([], [])
  | line :: lines =>
    let (tokens, sections) := readLines lines
    if line.head? = some ' ' then (shownToken line :: tokens, sections)
    else ([], ⟨line.takeWhile (· ≠ ':'), tokens⟩ :: sections)

def readSections (out : Text) : List Section := (readLines (out.cut (· = '\n')).dropLast).2

/-- No control sequence starts in a token; one that is open at its end would take the next word's
first letter for its final character. -/
def Legible (t : Token) : Prop := IsPlain (t ++ "  p".toList)

instance (t : Token) : Decidable (Legible t) := inferInstanceAs (Decidable (IsPlain _))

/-- The token that is read off the printed line of a token. -/
def shown (print : Text → Text) (t : Token) : Token := shownToken (print (tokenLine t))

theorem exists_tokenLine_eq (t : Token) :
    ∃ r, tokenLine t = ' ' :: ' ' :: (t ++ ' ' :: ' ' :: 'p' :: r) := by
  have hp : "  property=".toList = ' ' :: ' ' :: 'p' :: "roperty=".toList := rfl
  unfold tokenLine
  rw [hp, List.append_assoc, List.append_assoc, List.append_assoc]
  exact ⟨_, rfl⟩

theorem newline_not_mem_tokenLine {t : Token} (h : IsWord t) : '\n' ∉ tokenLine t := by
  have ht : '\n' ∉ t := fun hm => absurd (h.not_blank _ hm) (by decide)
  have hp : '\n' ∉ t.property := fun hm => ht (Token.mem_of_mem_property hm)
  have hb : ∀ b : Breakpoint, '\n' ∉ "  breakpoint=".toList ++ b.name.toList := by
    intro b
    cases b <;> decide
  unfold tokenLine
  simp only [List.mem_append, not_or]
  refine ⟨⟨⟨⟨by decide, ht⟩, by decide⟩, hp⟩, ?_⟩
  split
  · exact hb _
  · exact List.not_mem_nil

def sectionOf (print : Text → Text) (b : Bucket) : Section :=
  ⟨b.category.name.toList, (Token.clusters b.tokens).flatten.map (shown print)⟩

section

variable {print : Text → Text} (hp : PrintsPlain print)
include hp

theorem print_cons_space (t : Text) : print (' ' :: t) = ' ' :: print t :=
  hp.cons ' ' t fun h => absurd h.head_eq (by decide)

theorem head?_print_tokenLine (t : Token) : (print (tokenLine t)).head? = some ' ' := by
  obtain ⟨r, hr⟩ := exists_tokenLine_eq t
  rw [hr, print_cons_space hp]
  rfl

theorem Legible.shown_eq {t : Token} (h : Legible t) (hw : IsWord t) : shown print t = t := by
  obtain ⟨r, hr⟩ := exists_tokenLine_eq t
  have hl : IsPlain (t ++ [' ', ' '] ++ ['p']) := by
    rw [List.append_assoc]
    exact h
  have he : print (t ++ ' ' :: ' ' :: 'p' :: r) = t ++ ' ' :: ' ' :: 'p' :: print r := by
    have he := hp.append_cons hl (by decide) (by decide) r
    rwa [List.append_assoc, List.append_assoc] at he
  rw [shown, shownToken, hr, print_cons_space hp, print_cons_space hp, he,
    words_cons_blank (by decide), words_cons_blank (by decide), words_append_cons (by decide),
    hw.words]
  rfl

theorem cut_flatMap_printed {ls : List Text} (h : ∀ l ∈ ls, '\n' ∉ l) :
    cut (ls.flatMap fun l => print l ++ ['\n']) (· = '\n') = ls.map print ++ [[]] := by
  induction ls with
  | nil => rfl
  | cons l ls ih =>
    obtain ⟨hl, hls⟩ := List.forall_mem_cons.1 h
    have hsep : ∀ c ∈ print l, decide (c = '\n') = false := by
      intro c hc
      rw [decide_eq_false_iff_not]
      rintro rfl
      exact hl (hp.mem_of_mem hc)
    rw [List.flatMap_cons, List.append_assoc, List.singleton_append, cut_append_cons (by decide),
      cut_of_not_separates hsep, ih hls]
    rfl

theorem readLines_tokenLines (ts : List Token) (ls : List Text) :
    readLines (ts.map (fun t => print (tokenLine t)) ++ ls) =
      (ts.map (shown print) ++ (readLines ls).1, (readLines ls).2) := by
  induction ts with
  | nil => rfl
  | cons t ts ih =>
    rw [List.map_cons, List.cons_append, readLines, ih]
    exact if_pos (head?_print_tokenLine hp t)

theorem readLines_heading (c : Category) (ls : List Text) :
    readLines (print (c.name.toList ++ [':']) :: ls) =
      ([], ⟨c.name.toList, (readLines ls).1⟩ :: (readLines ls).2) := by
  have he : print (c.name.toList ++ [':']) = c.name.toList ++ [':'] :=
    hp.eq_of_isPlain (isPlain_of_not_mem (by cases c <;> decide))
  have hh : (c.name.toList ++ [':']).head? ≠ some ' ' := by cases c <;> decide
  have ht : (c.name.toList ++ [':']).takeWhile (· ≠ ':') = c.name.toList := by cases c <;> decide
  rw [readLines, he]
  refine (if_neg hh).trans ?_
  rw [ht]

theorem readLines_bucketLines (bs : List Bucket) :
    readLines ((bs.flatMap bucketLines).map print) = ([], bs.map (sectionOf print)) := by
  induction bs with
  | nil => rfl
  | cons b bs ih =>
    rw [List.flatMap_cons, List.map_append, bucketLines, List.map_cons, List.map_map,
      List.cons_append, readLines_heading hp]
    have h := readLines_tokenLines hp (Token.clusters b.tokens).flatten
      ((bs.flatMap bucketLines).map print)
    rw [ih, List.append_nil] at h
    rw [Function.comp_def, h]
    rfl

end

theorem newline_not_mem_lines {texts : List Text} {l : Text} (h : l ∈ lines texts) : '\n' ∉ l := by
  obtain ⟨b, hb, hl⟩ := List.mem_flatMap.1 h
  rcases List.mem_cons.1 hl with rfl | hl
  · cases b.category <;> decide
  · obtain ⟨t, ht, rfl⟩ := List.mem_map.1 hl
    have hm := Token.mem_flatten_clusters.1 ht
    rw [Token.category_of_mem_buckets hb] at hm
    obtain ⟨s, -, hs⟩ := List.mem_flatMap.1 (List.mem_filter.1 hm).1
    exact newline_not_mem_tokenLine (isWord_of_mem_words hs)

theorem readSections_lines {print : Text → Text} (hp : PrintsPlain print) (texts : List Text) :
    readSections ((lines texts).flatMap fun l => print l ++ ['\n']) =
      (Token.buckets (texts.flatMap words)).map (sectionOf print) := by
  rw [readSections, cut_flatMap_printed hp fun _ => newline_not_mem_lines, List.dropLast_concat,
    lines, readLines_bucketLines hp]

theorem nodup_heading_sections (print : Text → Text) (ts : List Token) :
    (((Token.buckets ts).map (sectionOf print)).map Section.heading).Nodup := by
  have hs := (Token.map_category_buckets_sublist ts).map fun c => c.name.toList
  have hn : (Category.emitOrder.map fun c => c.name.toList).Nodup := by decide
  rw [List.map_map] at hs ⊢
  exact hn.sublist hs

theorem flatMap_tokens_sections (print : Text → Text) (ts : List Token) :
    ((Token.buckets ts).map (sectionOf print)).flatMap Section.tokens =
      (Token.arranged ts).map (shown print) := by
  rw [List.flatMap_map, Token.flatMap_buckets (fun _ => rfl), Token.arranged, List.map_flatMap]
  rfl

theorem tokens_sectionOf (print : Text → Text) {ts : List Token} {b : Bucket}
    (h : b ∈ Token.buckets ts) : (sectionOf print b).tokens =
      ((Token.arranged ts).filter fun t => Category.ofToken t = b.category).map (shown print) := by
  have he : (Token.arranged ts).filter (fun t => Category.ofToken t = b.category) =
      (Token.clusters (Token.ofCategory b.category ts)).flatten :=
    Token.ofCategory_arranged b.category ts
  rw [he, ← Token.category_of_mem_buckets h]
  rfl

end Explain

open Explain

theorem stdout_run_explain {platform : Platform} (hp : platform.Lawful) {args texts : List Text}
    (h : platform.read Explain.rules true args = .ok { operands := texts }) (hne : texts ≠ [])
    (tree : FileTree) : (platform.run tree ("explain".toList :: args)).stdout =
      (Explain.lines texts).flatMap platform.printLine := by
  rw [hp.run_explain, Platform.explain, h]
  simp [hne]

/-- The tokens are shown in the order in which packing writes them. Each category has one heading,
and below it stand its tokens. They are shown as they are if no control sequence starts in a token.
-/
theorem explain_lists_packed_order {platform : Platform} (hp : platform.Lawful)
    {args texts : List Text}
    (h : platform.read Explain.rules true args = .ok { operands := texts }) (hne : texts ≠ [])
    (tree : FileTree) (options : Options) {indent : Text} (hi : Blanks indent) :
    let value : Text := [' '].intercalate texts
    let tokens := (pack options indent value).words
    let sections := readSections (platform.run tree ("explain".toList :: args)).stdout
    (sections.map Section.heading).Nodup ∧
      sections.flatMap Section.tokens = tokens.map (shown platform.print) ∧
      (∀ s ∈ sections, ∃ c : Category, s.heading = c.name.toList ∧
        s.tokens = (tokens.filter fun t => Category.ofToken t = c).map (shown platform.print)) ∧
      ((∀ t ∈ value.words, Legible t) →
        sections.flatMap Section.tokens = tokens ∧
          ∀ s ∈ sections, ∀ t ∈ s.tokens, s.heading = (Category.ofToken t).name.toList) := by
  intro value tokens sections
  have hv : value.words = texts.flatMap words := words_intercalate (by decide) texts
  have hw : tokens = Token.arranged value.words := words_pack options hi value
  have hs : sections = (Token.buckets value.words).map (sectionOf platform.print) := by
    rw [hv, ← readSections_lines hp.prints]
    exact congrArg readSections (stdout_run_explain hp h hne tree)
  have hn : (sections.map Section.heading).Nodup := by
    rw [hs]
    exact nodup_heading_sections platform.print value.words
  have ht : sections.flatMap Section.tokens = tokens.map (shown platform.print) := by
    rw [hs, flatMap_tokens_sections, hw]
  have hc : ∀ s ∈ sections, ∃ c : Category, s.heading = c.name.toList ∧
      s.tokens = (tokens.filter fun t => Category.ofToken t = c).map (shown platform.print) := by
    intro s hm
    rw [hs] at hm
    obtain ⟨b, hb, rfl⟩ := List.mem_map.1 hm
    refine ⟨b.category, rfl, ?_⟩
    rw [tokens_sectionOf platform.print hb, hw]
  refine ⟨hn, ht, hc, fun hl => ?_⟩
  have hshown : ∀ t ∈ tokens, shown platform.print t = t := by
    intro t hm
    rw [hw, Token.mem_arranged] at hm
    exact Legible.shown_eq hp.prints (hl t hm) (isWord_of_mem_words hm)
  constructor
  · rw [ht, List.map_congr_left hshown, List.map_id']
  · intro s hm t htoken
    obtain ⟨c, hheading, htokens⟩ := hc s hm
    rw [htokens] at htoken
    obtain ⟨u, hu, rfl⟩ := List.mem_map.1 htoken
    obtain ⟨hmem, hcategory⟩ := List.mem_filter.1 hu
    rw [hshown u hmem, hheading, of_decide_eq_true hcategory]

theorem explain_lists_packed_order_behind_dashes :
    Arguments.read Explain.rules true
        (["--", "md:pt-8 flex", " ", "-m-4\tpt-4"].map String.toList) =
        .ok { operands := ["md:pt-8 flex", " ", "-m-4\tpt-4"].map String.toList } ∧
      (∀ t ∈ words "md:pt-8 flex   -m-4\tpt-4".toList, Legible t) ∧
      (readSections (run ⟨[], [], []⟩ (["explain", "--", "md:pt-8 flex", " ", "-m-4\tpt-4"].map
        String.toList)).stdout).flatMap Section.tokens =
          ["flex", "pt-4", "md:pt-8", "-m-4"].map String.toList := by
  have hread : Arguments.read Explain.rules true
      (["--", "md:pt-8 flex", " ", "-m-4\tpt-4"].map String.toList) =
        .ok { operands := ["md:pt-8 flex", " ", "-m-4\tpt-4"].map String.toList } :=
    Arguments.read_dashes Explain.rules true _
  have hlegible : ∀ t ∈ words "md:pt-8 flex   -m-4\tpt-4".toList, Legible t := by decide +kernel
  have h := explain_lists_packed_order Platform.lawful_standard hread (by decide) ⟨[], [], []⟩ {}
    blanks_nil
  refine ⟨hread, hlegible, (h.2.2.2 hlegible).1.trans ?_⟩
  decide +kernel

/-- A control sequence in a token is not shown, so that another token than the packed one is read.
-/
theorem explain_hides_control_sequence :
    (run ⟨[], [], []⟩ ["explain".toList, "\x1b[1mflex".toList]).stdout =
        "other:\n  flex  property=flex\n".toList ∧
      (readSections (run ⟨[], [], []⟩ ["explain".toList, "\x1b[1mflex".toList]).stdout).flatMap
        Section.tokens ≠ (pack {} [] "\x1b[1mflex".toList).words := by
  decide +kernel

end Command

end ClassFormat
