import ClassFormat.Proofs.Command.Platform

namespace ClassFormat.Command

namespace Format

open Arguments

variable {platform : Platform} {tree : FileTree} {args : List Text} {a : Arguments Key}
  {r r' : Request}

def Gives (a : Arguments Key) (o : Key) : Prop := o ∈ a.given.map Prod.fst

instance (a : Arguments Key) (o : Key) : Decidable (Gives a o) :=
  inferInstanceAs (Decidable (o ∈ a.given.map Prod.fst))

def Asks (platform : Platform) (tree : FileTree) (args : List Text) (r : Request) : Prop :=
  ∃ a, platform.read rules true args = .ok a ∧ ¬ Gives a .help ∧ Request.ofArguments tree a = .ok r

theorem any_given_iff (o : Key) : (a.given.any fun g => g.1 = o) = true ↔ Gives a o := by
  rw [List.any_eq_true]
  constructor
  · rintro ⟨g, hg, hk⟩
    exact List.mem_map.2 ⟨g, hg, of_decide_eq_true hk⟩
  · intro h
    obtain ⟨g, hg, hk⟩ := List.mem_map.1 h
    exact ⟨g, hg, decide_eq_true hk⟩

section

variable (hp : platform.Lawful)
include hp

theorem run_of_help (hread : platform.read rules true args = .ok a) (h : Gives a .help) :
    platform.run tree ("format".toList :: args) = .help tree .format := by
  rw [hp.run_format, Platform.format, hread]
  exact if_pos ((any_given_iff .help).2 h)

theorem run_of_ofArguments (hread : platform.read rules true args = .ok a) (h : ¬ Gives a .help) :
    platform.run tree ("format".toList :: args) =
      match Request.ofArguments tree a with
      | .error (.usage e) => .usage tree .format e
      | .error .impossiblePath => .broken tree .impossiblePath
      | .ok r => r.run platform tree := by
  rw [hp.run_format, Platform.format, hread]
  exact if_neg fun hany => h ((any_given_iff .help).1 hany)

theorem run_of_asks (h : Asks platform tree args r) :
    platform.run tree ("format".toList :: args) = r.run platform tree := by
  obtain ⟨a, hread, hhelp, hr⟩ := h
  rw [run_of_ofArguments hp hread hhelp, hr]

/-- A run shows the help, or fails before it touches a file, or carries out the request. -/
theorem run_cases (tree : FileTree) (hread : platform.read rules true args = .ok a) :
    let outcome := platform.run tree ("format".toList :: args)
    (Gives a .help ∧ outcome.tree = tree) ∨ (outcome.tree = tree ∧ outcome.exitCode ≠ 0) ∨
      ∃ r, Request.ofArguments tree a = .ok r ∧ outcome = r.run platform tree := by
  dsimp only
  by_cases hhelp : Gives a .help
  · rw [run_of_help hp hread hhelp]
    exact .inl ⟨hhelp, rfl⟩
  · rw [run_of_ofArguments hp hread hhelp]
    cases hr : Request.ofArguments tree a with
    | ok r => exact .inr (.inr ⟨r, rfl, rfl⟩)
    | error e =>
      cases e with
      | usage e => exact .inr (.inl ⟨rfl, Nat.succ_ne_zero 1⟩)
      | impossiblePath => exact .inr (.inl ⟨rfl, Nat.succ_ne_zero 0⟩)

end

theorem switch_of_mem_rules {rule : OptionRule Key} (h : rule ∈ rules)
    (ho : rule.option = .check ∨ rule.option = .stdout) : rule.switch = some true := by
  have hall : ∀ rule ∈ rules, rule.option = .check ∨ rule.option = .stdout →
      rule.switch = some true := by
    decide
  exact hall rule h ho

theorem eq_switch_of_allowed {o : Key} {given : Given} (h : Allowed rules (o, given))
    (ho : o = .check ∨ o = .stdout) : given = .switch true := by
  cases given with
  | switch on =>
    obtain ⟨rule, hm, rfl, hs⟩ := h
    rw [switch_of_mem_rules hm ho] at hs
    cases hs
    rfl
  | value t =>
    obtain ⟨rule, hm, rfl, hs⟩ := h
    rw [switch_of_mem_rules hm ho] at hs
    cases hs

theorem set_of_ne {g : Key × Given} (hcheck : g.1 ≠ .check) (hstdout : g.1 ≠ .stdout)
    (h : r.set tree g = .ok r') : r'.check = r.check ∧ r'.stdout = r.stdout := by
  unfold Request.set at h
  split at h
  · obtain ⟨-, -, he⟩ := exists_of_bind_eq_ok h
    cases he
    exact ⟨rfl, rfl⟩
  · split at h
    · cases h
      exact ⟨rfl, rfl⟩
    · cases h
  · split at h
    · cases h
      exact ⟨rfl, rfl⟩
    · cases h
  · cases h
    exact ⟨rfl, rfl⟩
  · exact absurd rfl hcheck
  · exact absurd rfl hstdout
  · cases h
    exact ⟨rfl, rfl⟩
  · cases h
    exact ⟨rfl, rfl⟩

theorem set_flags {g : Key × Given} (hg : Allowed rules g) (h : r.set tree g = .ok r') :
    r'.check = (r.check || g.1 = .check) ∧ r'.stdout = (r.stdout || g.1 = .stdout) := by
  obtain ⟨o, given⟩ := g
  by_cases hcheck : o = .check
  · subst hcheck
    cases eq_switch_of_allowed hg (.inl rfl)
    cases h
    simp
  by_cases hstdout : o = .stdout
  · subst hstdout
    cases eq_switch_of_allowed hg (.inr rfl)
    cases h
    simp
  · simpa [hcheck, hstdout] using set_of_ne hcheck hstdout h

theorem foldlM_set_flags {gs : List (Key × Given)} (hgs : ∀ g ∈ gs, Allowed rules g)
    (h : gs.foldlM (Request.set tree) r = .ok r') :
    r'.check = (r.check || gs.any fun g => g.1 = .check) ∧
      r'.stdout = (r.stdout || gs.any fun g => g.1 = .stdout) := by
  induction gs generalizing r with
  | nil =>
    cases h
    simp
  | cons g gs ih =>
    rw [List.foldlM_cons] at h
    obtain ⟨r₁, hset, hrest⟩ := exists_of_bind_eq_ok h
    obtain ⟨hg, hgs⟩ := List.forall_mem_cons.1 hgs
    obtain ⟨hcheck, hstdout⟩ := set_flags hg hset
    obtain ⟨hcheck', hstdout'⟩ := ih hgs hrest
    rw [hcheck', hstdout', hcheck, hstdout, List.any_cons, List.any_cons, Bool.or_assoc,
      Bool.or_assoc]
    exact ⟨rfl, rfl⟩

theorem any_lastGiven_iff (o : Key) : (a.lastGiven.any fun g => g.1 = o) = true ↔ Gives a o := by
  rw [List.any_eq_true]
  constructor
  · rintro ⟨g, hg, hk⟩
    exact List.mem_map.2 ⟨g, mem_given_of_mem_lastGiven hg, of_decide_eq_true hk⟩
  · intro h
    obtain ⟨g, hg, hk⟩ := exists_mem_lastGiven h
    exact ⟨g, hg, decide_eq_true hk⟩

theorem exists_of_ofArguments (h : Request.ofArguments tree a = .ok r) :
    ∃ r₀, a.lastGiven.foldlM (Request.set tree) {} = .ok r₀ ∧ (r₀.check && r₀.stdout) = false ∧
      r = { r₀ with paths := a.operands.map Path.normalize } := by
  unfold Request.ofArguments at h
  obtain ⟨r₀, hr₀, h⟩ := exists_of_bind_eq_ok h
  dsimp only at h
  split at h
  · cases h
  · obtain ⟨-, -, h⟩ := exists_of_bind_eq_ok h
    split at h
    · cases h
    · rename_i hboth
      cases h
      exact ⟨r₀, hr₀, eq_false_of_ne_true hboth, rfl⟩

section

variable (hp : platform.Lawful) (hread : platform.read rules true args = .ok a)
  (h : Request.ofArguments tree a = .ok r)
include hp hread h

theorem flags_of_ofArguments :
    (r.check = true ↔ Gives a .check) ∧ (r.stdout = true ↔ Gives a .stdout) := by
  obtain ⟨r₀, hr₀, -, rfl⟩ := exists_of_ofArguments h
  have hallowed : ∀ g ∈ a.lastGiven, Allowed rules g := fun g hg =>
    hp.allowed hread g (mem_given_of_mem_lastGiven hg)
  obtain ⟨hcheck, hstdout⟩ := foldlM_set_flags hallowed hr₀
  dsimp only
  rw [hcheck, hstdout, Bool.false_or, Bool.false_or]
  exact ⟨any_lastGiven_iff .check, any_lastGiven_iff .stdout⟩

theorem not_both_of_ofArguments : ¬ (Gives a .check ∧ Gives a .stdout) := by
  rintro ⟨hcheck, hstdout⟩
  obtain ⟨hc, hs⟩ := flags_of_ofArguments hp hread h
  obtain ⟨r₀, -, hboth, rfl⟩ := exists_of_ofArguments h
  have hc : r₀.check = true := hc.2 hcheck
  have hs : r₀.stdout = true := hs.2 hstdout
  rw [hc, hs] at hboth
  cases hboth

end

theorem mode_eq_inPlace_iff : r.mode = .inPlace ↔ r.check = false ∧ r.stdout = false := by
  unfold Request.mode
  cases r.check <;> cases r.stdout <;> simp

end Format

end ClassFormat.Command
