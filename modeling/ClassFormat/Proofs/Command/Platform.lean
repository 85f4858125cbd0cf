import ClassFormat.Command.Run
import ClassFormat.Proofs.Command.Printing
import ClassFormat.Proofs.Overrides

namespace ClassFormat

namespace Command

namespace Arguments

variable {κ : Type} {rules : List (OptionRule κ)} {mixed : Bool} {args : List Text}
  {a : Arguments κ}

/-- An option with what was given for it, as one of the rules allows. -/
def Allowed (rules : List (OptionRule κ)) : κ × Given → Prop
  | (o, .switch on) => ∃ rule ∈ rules, rule.option = o ∧ rule.switch = some on
  | (o, .value _) => ∃ rule ∈ rules, rule.option = o ∧ rule.switch = none

theorem mem_of_longRule? {name : Text} {rule : OptionRule κ}
    (h : longRule? rules name = some rule) : rule ∈ rules :=
  List.mem_of_find?_eq_some h

theorem allowed_of_letter? {c : Char} {g : κ × Given} (h : letter? rules c = some g) :
    Allowed rules g := by
  obtain ⟨rule, hr, he⟩ := List.exists_of_findSome?_eq_some h
  split at he
  · rename_i on hon
    split at he
    · cases he
      exact ⟨rule, hr, rfl, hon⟩
    · cases he
  · cases he

theorem allowed_of_mem_letters {t : Text} {options : List (κ × Given)}
    (h : letters rules t = .ok options) : ∀ g ∈ options, Allowed rules g := by
  induction t generalizing options with
  | nil =>
    cases h
    exact List.forall_mem_nil _
  | cons c cs ih =>
    unfold letters at h
    split at h
    · rename_i o ho
      obtain ⟨os, hos, he⟩ := exists_of_bind_eq_ok h
      cases he
      exact List.forall_mem_cons.2 ⟨allowed_of_letter? ho, ih hos⟩
    · cases h

theorem allowed_withOptions {options : List (κ × Given)} (ho : ∀ g ∈ options, Allowed rules g)
    {x : Except UsageError (Arguments κ)} (hx : ∀ {b}, x = .ok b → ∀ g ∈ b.given, Allowed rules g)
    (h : (do return (← x).withOptions options) = Except.ok a) : ∀ g ∈ a.given, Allowed rules g := by
  obtain ⟨b, hb, he⟩ := exists_of_bind_eq_ok h
  cases he
  intro g hg
  rcases List.mem_append.1 hg with hg | hg
  · exact ho g hg
  · exact hx hb g hg

theorem allowed_of_mem_given (h : read rules mixed args = .ok a) :
    ∀ g ∈ a.given, Allowed rules g := by
  fun_induction read rules mixed args generalizing a with
  | case1 =>
    cases h
    exact List.forall_mem_nil _
  | case2 =>
    cases h
    exact List.forall_mem_nil _
  | case3 => cases h
  | case4 _ _ _ _ _ rule hr _ _ hs =>
    rename_i ih
    refine allowed_withOptions ?_ ih h
    exact List.forall_mem_singleton.2 ⟨rule, mem_of_longRule? hr, rfl, hs⟩
  | case5 _ _ _ _ _ rule hr _ _ hs =>
    rename_i ih
    refine allowed_withOptions ?_ ih h
    exact List.forall_mem_singleton.2 ⟨rule, mem_of_longRule? hr, rfl, hs⟩
  | case6 => cases h
  | case7 _ _ _ _ rule hr _ hs =>
    rename_i ih
    refine allowed_withOptions ?_ ih h
    exact List.forall_mem_singleton.2 ⟨rule, mem_of_longRule? hr, rfl, hs⟩
  | case8 => cases h
  | case9 =>
    rename_i ih
    obtain ⟨options, ho, h⟩ := exists_of_bind_eq_ok h
    exact allowed_withOptions (allowed_of_mem_letters ho) ih h
  | case10 _ _ _ _ _ ih =>
    obtain ⟨b, hb, he⟩ := exists_of_bind_eq_ok h
    cases he
    have hg : ∀ g ∈ b.given, Allowed rules g := ih hb
    exact hg
  | case11 =>
    cases h
    exact List.forall_mem_nil _

theorem mem_given_of_mem_lastGiven [BEq κ] {g : κ × Given} (h : g ∈ a.lastGiven) : g ∈ a.given := by
  obtain ⟨o, -, ho⟩ := List.mem_filterMap.1 h
  exact List.mem_reverse.1 (List.mem_of_find?_eq_some ho)

theorem exists_mem_lastGiven [BEq κ] [LawfulBEq κ] {o : κ} (h : o ∈ a.given.map Prod.fst) :
    ∃ g ∈ a.lastGiven, g.1 = o := by
  obtain ⟨g, hg, rfl⟩ := List.mem_map.1 h
  have hsome : (a.given.reverse.find? fun x => x.1 == g.1).isSome := by
    rw [List.find?_isSome]
    exact ⟨g, List.mem_reverse.2 hg, beq_self_eq_true g.1⟩
  obtain ⟨last, hlast⟩ := Option.isSome_iff_exists.1 hsome
  have hkey := List.find?_some (p := fun x : κ × Given => x.1 == g.1) hlast
  exact ⟨last, List.mem_filterMap.2 ⟨g.1, List.mem_eraseDups.2 h, hlast⟩, eq_of_beq hkey⟩

theorem read_of_operand (rules : List (OptionRule κ)) {name : Text} (h : name.head? ≠ some '-')
    (args : List Text) : read rules false (name :: args) = .ok { operands := name :: args } := by
  have hd : name ≠ ['-', '-'] := by
    rintro rfl
    exact h rfl
  rw [read, if_neg hd, if_neg (by simp [h])]
  rfl

theorem read_dashes (rules : List (OptionRule κ)) (mixed : Bool) (args : List Text) :
    read rules mixed (['-', '-'] :: args) = .ok { operands := args } := by
  rw [read, if_pos rfl]

end Arguments

namespace Platform

/-- What is relied on of a platform; nothing is relied on about its YAML. -/
structure Lawful (platform : Platform) : Prop where
  /-- What is read for an option is what one of the rules allows. -/
  allowed : ∀ {κ : Type} {rules : List (OptionRule κ)} {mixed : Bool} {args : List Text}
    {a : Arguments κ}, platform.read rules mixed args = .ok a →
      ∀ g ∈ a.given, Arguments.Allowed rules g
  /-- Where options and operands are not mixed, the first operand ends the options. -/
  operand : ∀ {κ : Type} (rules : List (OptionRule κ)) {name : Text}, name.head? ≠ some '-' →
    ∀ args, platform.read rules false (name :: args) = .ok { operands := name :: args }
  prints : PrintsPlain platform.print

theorem lawful_standard : standard.Lawful where
  allowed h := Arguments.allowed_of_mem_given h
  operand rules _ h args := Arguments.read_of_operand rules h args
  prints := prints_plain

variable {platform : Platform} (hp : platform.Lawful)
include hp

theorem Lawful.run_cons {name : Text} (h : name.head? ≠ some '-') (tree : FileTree)
    (args : List Text) :
    platform.run tree (name :: args) = platform.runCommand tree (name :: args) := by
  show platform.withProgramOptions tree (name :: args) (platform.runCommand tree) = _
  rw [withProgramOptions, hp.operand programRules h]

theorem Lawful.run_format (tree : FileTree) (args : List Text) :
    platform.run tree ("format".toList :: args) = platform.format tree args := by
  rw [hp.run_cons (by decide)]
  rfl

theorem Lawful.run_explain (tree : FileTree) (args : List Text) :
    platform.run tree ("explain".toList :: args) = platform.explain tree args := by
  rw [hp.run_cons (by decide)]
  rfl

end Platform

end Command

end ClassFormat
