import Mathlib.Data.List.Nodup
import ClassFormat.Proofs.Command.Progress
import ClassFormat.Proofs.Command.Request

namespace ClassFormat.Command

namespace Format

open FileTree

variable {platform : Platform} {tree : FileTree} {options : Options} {args : List Text}
  {a : Arguments Key} {r : Request} {sources : List Source} {path : Text} {rest : List Text}
  {e : ReadError}

/-- Of distinct files, the first one that cannot be read; those before it have the given texts. -/
structure StopsAt (tree : FileTree) (paths : List Text) (sources : List Source) (path : Text)
    (rest : List Text) (e : ReadError) : Prop where
  paths_eq : paths = sources.map Source.path ++ path :: rest
  distinct : (paths.map tree.place?).Nodup
  before : ∀ s ∈ sources, readText tree s.path = .ok s.text
  fails : readText tree path = .error e

theorem run_of_options_error {e : Configuration.Error} (h : r.options platform tree = .error e) :
    (r.run platform tree).tree = tree ∧ (r.run platform tree).exitCode = 1 := by
  rw [Request.run, h]
  dsimp only
  split
  · exact ⟨rfl, rfl⟩
  · exact ⟨rfl, rfl⟩

theorem tree_run_of_mode (h : r.mode ≠ .inPlace) : (r.run platform tree).tree = tree := by
  cases hoptions : r.options platform tree with
  | ok options =>
    rw [run_eq_formatAll hoptions]
    exact tree_formatAll h
  | error e => exact (run_of_options_error hoptions).1

section

variable (hp : platform.Lawful) (hread : platform.read rules true args = .ok a)
include hp hread

theorem tree_run_of_flag (h : Gives a .check ∨ Gives a .stdout) :
    (platform.run tree ("format".toList :: args)).tree = tree := by
  rcases run_cases hp tree hread with ⟨-, ht⟩ | ⟨ht, -⟩ | ⟨r, hr, he⟩
  · exact ht
  · exact ht
  · obtain ⟨hcheck, hstdout⟩ := flags_of_ofArguments hp hread hr
    rw [he]
    apply tree_run_of_mode
    intro hmode
    obtain ⟨hc, hs⟩ := mode_eq_inPlace_iff.1 hmode
    rcases h with h | h
    · rw [hcheck.2 h] at hc
      cases hc
    · rw [hstdout.2 h] at hs
      cases hs

theorem exitCode_run_of_flags (hcheck : Gives a .check) (hstdout : Gives a .stdout) :
    Gives a .help ∨ (platform.run tree ("format".toList :: args)).exitCode ≠ 0 := by
  rcases run_cases hp tree hread with ⟨hhelp, -⟩ | ⟨-, hexit⟩ | ⟨r, hr, -⟩
  · exact .inl hhelp
  · exact .inr hexit
  · exact absurd ⟨hcheck, hstdout⟩ (not_both_of_ofArguments hp hread hr)

end

theorem StopsAt.disjoint (h : StopsAt tree r.paths sources path rest e) {p : Text}
    (hp : p ∈ path :: rest) : tree.place? p ∉ sources.map fun s => tree.place? s.path := by
  intro hm
  have hd := h.distinct
  rw [h.paths_eq, List.map_append, List.map_map, List.nodup_append] at hd
  exact hd.2.2 _ hm _ (List.mem_map_of_mem hp) rfl

theorem StopsAt.readable (h : StopsAt tree r.paths sources path rest e) :
    Readable tree sources := by
  refine ⟨h.before, ?_⟩
  have hd := h.distinct
  rw [h.paths_eq, List.map_append, List.map_map] at hd
  exact hd.of_append_left

theorem run_of_stopsAt (hmode : r.mode = .inPlace)
    (hoptions : r.options platform tree = .ok options)
    (h : StopsAt tree r.paths sources path rest e) : r.run platform tree =
      r.finish platform
        ((r.start tree options).formatSources platform options .inPlace r.verbose sources,
          some (path, e)) := by
  rw [run_eq_formatAll hoptions,
    formatAll_of_unreadable h.readable h.paths_eq (h.disjoint List.mem_cons_self) h.fails, hmode]

end Format

open Format FileTree

/-- Checking and printing change no file, and giving both is an error; options at fault end the run
before it touches a file; a file that cannot be read ends a run in place behind the files that were
formatted. -/
theorem format_failure_keeps_files {platform : Platform} (hp : platform.Lawful) (tree : FileTree)
    (args : List Text) :
    let outcome := platform.run tree ("format".toList :: args)
    (∀ a, platform.read rules true args = .ok a → Gives a .check ∨ Gives a .stdout →
        outcome.tree = tree ∧
          (Gives a .check ∧ Gives a .stdout → Gives a .help ∨ outcome.exitCode ≠ 0)) ∧
      (∀ r e, Asks platform tree args r → r.options platform tree = .error e →
        outcome.tree = tree ∧ outcome.exitCode = 1) ∧
      ∀ r options sources path rest e, Asks platform tree args r → r.mode = .inPlace →
        r.options platform tree = .ok options → StopsAt tree r.paths sources path rest e →
          outcome.exitCode = 1 ∧
            (∀ s ∈ sources, outcome.tree.content? s.path =
              some (Utf8.encode (Document.format options s.text))) ∧
            (∀ p ∈ path :: rest, outcome.tree.content? p = tree.content? p) ∧
            SameOutside (sources.filterMap fun s => tree.place? s.path) tree outcome.tree := by
  refine ⟨?_, ?_, ?_⟩
  · intro a hread hflag
    refine ⟨tree_run_of_flag hp hread hflag, ?_⟩
    intro hboth
    exact exitCode_run_of_flags hp hread hboth.1 hboth.2
  · intro r e hasks he
    rw [run_of_asks hp hasks]
    exact run_of_options_error he
  · intro r options sources path rest e hasks hmode hoptions hstops
    rw [run_of_asks hp hasks, run_of_stopsAt hmode hoptions hstops]
    refine ⟨rfl, ?_, ?_, ?_⟩
    · intro s hs
      exact content?_formatSources hstops.readable hs
    · intro p hm
      exact content?_formatSources_of_not_mem (hstops.disjoint hm)
    · exact sameOutside_formatSources (p := r.start tree options)

theorem format_failure_keeps_files_behind_bad_byte :
    let tree : FileTree :=
      ⟨[], [(["a.html".toList], Utf8.encode "<p class=\"p-4 flex\">".toList),
        (["b.html".toList], [0xff]),
        (["c.html".toList], Utf8.encode "<p class=\"p-4\">".toList)], []⟩
    let configured : FileTree :=
      { tree with files :=
          ([".twformat.yaml".toList], Utf8.encode "max_line_width: wide\n".toList) :: tree.files }
    let outcome (options : List String) :=
      run tree ("format".toList :: (["a.html", "b.html", "c.html"] ++ options).map String.toList)
    (outcome []).exitCode = 1 ∧
      (outcome []).tree.content? "a.html".toList =
        some (Utf8.encode "<p\n  class=\"\n    flex\n    p-4\n  \"\n>".toList) ∧
      (outcome []).tree.content? "c.html".toList = tree.content? "c.html".toList ∧
      (outcome ["--stdout"]).tree = tree ∧ (outcome ["--check", "--stdout"]).exitCode ≠ 0 ∧
      (outcome ["--max-line-width", "-1"]).tree = tree ∧
      (outcome ["--max-line-width", "-1"]).exitCode = 1 ∧
      (run configured ["format".toList, "a.html".toList]).tree = configured ∧
      (run configured ["format".toList, "a.html".toList]).exitCode = 1 := by
  intro tree configured outcome
  have hp := Platform.lawful_standard
  let paths : List Text := ["a.html", "b.html", "c.html"].map String.toList
  let source : Source := ⟨"a.html".toList, "<p class=\"p-4 flex\">".toList⟩
  have hasks : Asks .standard tree (["a.html", "b.html", "c.html"].map String.toList) { paths } :=
    ⟨{ operands := ["a.html", "b.html", "c.html"].map String.toList }, by cbv, by decide, rfl⟩
  have hnarrow : Asks .standard tree
      (["a.html", "b.html", "c.html", "--max-line-width", "-1"].map String.toList)
      { paths, overrides := { maxLineWidth := .int (-1) } } :=
    ⟨{ given := [(.maxLineWidth, .value "-1".toList)]
       operands := ["a.html", "b.html", "c.html"].map String.toList }, by cbv, by decide, rfl⟩
  have hstdout : Arguments.read rules true
      (["a.html", "b.html", "c.html", "--stdout"].map String.toList) =
        .ok ⟨[(.stdout, .switch true)], ["a.html", "b.html", "c.html"].map String.toList⟩ := by
    cbv
  have hboth : Arguments.read rules true
      (["a.html", "b.html", "c.html", "--check", "--stdout"].map String.toList) =
        .ok ⟨[(.check, .switch true), (.stdout, .switch true)],
          ["a.html", "b.html", "c.html"].map String.toList⟩ := by
    cbv
  have hfile : Asks .standard configured ["a.html".toList] { paths := ["a.html".toList] } :=
    ⟨{ operands := ["a.html".toList] }, by cbv, by decide, rfl⟩
  have hok : (Request.options .standard configured { paths := ["a.html".toList] }).isOk =
      false := by
    decide +kernel
  obtain ⟨e, he⟩ := exists_error_of_isOk_eq_false hok
  have hstops : StopsAt tree paths [source] "b.html".toList ["c.html".toList]
      (.notText ⟨.start, 0xff, 0, 1⟩) := by
    refine ⟨rfl, by decide, ?_, rfl⟩
    simp only [readText_eq_ok_iff]
    decide
  obtain ⟨hexit, hbefore, hbehind, -⟩ :=
    (format_failure_keeps_files hp tree _).2.2 _ {} _ _ _ _ hasks rfl rfl hstops
  have hformat : Document.format {} source.text =
      "<p\n  class=\"\n    flex\n    p-4\n  \"\n>".toList := by
    decide +kernel
  obtain ⟨htree, hcode⟩ := (format_failure_keeps_files hp tree _).2.1 _ _ hnarrow rfl
  refine ⟨hexit, ?_, hbehind _ (by decide), ?_, ?_, htree, hcode, ?_⟩
  · rw [← hformat]
    exact hbefore source List.mem_cons_self
  · exact ((format_failure_keeps_files hp tree _).1 _ hstdout (.inr (by decide))).1
  · have h := ((format_failure_keeps_files hp tree _).1 _ hboth (.inl (by decide))).2 (by decide)
    exact h.resolve_left (by decide)
  · exact (format_failure_keeps_files hp configured _).2.1 _ _ hfile he

end ClassFormat.Command
