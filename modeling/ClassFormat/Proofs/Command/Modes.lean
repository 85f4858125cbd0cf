import Mathlib.Data.List.Basic
import ClassFormat.Proofs.Command.Progress
import ClassFormat.Proofs.Command.Request

namespace ClassFormat.Command

namespace Format

open FileTree

def reportLine (platform : Platform) (report : String) (path : Text) : Text :=
  report.toList ++ platform.print path ++ ['\n']

def countLine (changed total : Nat) (what : String) : Text :=
  Nat.toDigits 10 changed ++ " of ".toList ++ Nat.toDigits 10 total ++ what.toList ++ ['\n']

theorem escapeChar_not_mem_toDigits (n : Nat) : escapeChar ∉ Nat.toDigits 10 n := by
  intro h
  exact absurd (Nat.isDigit_of_mem_toDigits (by decide) (by decide) h) (by decide)

theorem flatMap_changing (options : Options) (sources : List Source) (line : Text → Text) :
    (sources.flatMap fun s => if Document.format options s.text = s.text then [] else line s.path) =
      ((changing options sources).map Source.path).flatMap line := by
  induction sources with
  | nil => rfl
  | cons s sources ih =>
    rw [List.flatMap_cons, ih, changing, changing, List.filter_cons]
    by_cases hs : Document.format options s.text = s.text
    · simp [hs]
    · simp [hs]

section

variable {platform : Platform} (hp : platform.Lawful)
include hp

theorem printLine_report {report : String} (h : escapeChar ∉ report.toList) :
    (fun path => platform.printLine (report.toList ++ path)) = reportLine platform report := by
  funext path
  rw [Platform.printLine, hp.prints.append_of_not_mem h]
  rfl

theorem printLine_counts {what : String} (h : escapeChar ∉ what.toList) (changed total : Nat) :
    platform.printLine
        (Nat.toDigits 10 changed ++ " of ".toList ++ Nat.toDigits 10 total ++ what.toList) =
      countLine changed total what := by
  rw [Platform.printLine, hp.prints.eq_of_isPlain (isPlain_of_not_mem _), countLine]
  simp only [List.mem_append, escapeChar_not_mem_toDigits, h, or_false, false_or]
  decide

theorem flatMap_fileOutput_inPlace (options : Options) (sources : List Source) :
    (sources.flatMap fun s => fileOutput platform options .inPlace s.path s.text) =
      ((changing options sources).map Source.path).flatMap
        (reportLine platform "Formatted: ") := by
  rw [← printLine_report hp (by decide), ← flatMap_changing]
  rfl

theorem flatMap_fileOutput_check (options : Options) (sources : List Source) :
    (sources.flatMap fun s => fileOutput platform options .check s.path s.text) =
      ((changing options sources).map Source.path).flatMap
        (reportLine platform "Would reformat: ") := by
  rw [← printLine_report hp (by decide), ← flatMap_changing]
  rfl

end

section

variable {platform : Platform} {tree : FileTree} {options : Options} {args : List Text}
  {r : Request} {mode : Mode} {sources : List Source}

theorem filter_content?_ne {tree' : FileTree} (h : Readable tree sources)
    (hw : ∀ s ∈ sources,
      tree'.content? s.path = some (Utf8.encode (Document.format options s.text))) :
    ((sources.map Source.path).filter fun path => tree'.content? path ≠ tree.content? path) =
      (changing options sources).map Source.path := by
  rw [List.filter_map]
  refine congrArg _ (List.filter_congr fun s hs => ?_)
  rw [Function.comp_apply, hw s hs, readText_eq_ok_iff.1 (h.readText s hs), decide_eq_decide,
    not_iff_not, Option.some.injEq]
  exact ⟨Utf8.encode_injective, congrArg _⟩

/-- The request that wants the results dealt with in the given way. -/
def Request.withMode (r : Request) (mode : Mode) : Request :=
  { r with check := mode = .check, stdout := mode = .stdout }

theorem mode_withMode (r : Request) (mode : Mode) : (r.withMode mode).mode = mode := by
  cases mode <;> rfl

variable (hp : platform.Lawful) (h : Asks platform tree args (r.withMode mode))
  (hoptions : r.options platform tree = .ok options) (hsources : Readable tree sources)
  (hpaths : r.paths = sources.map Source.path)

include hp h hoptions hsources hpaths

theorem run_of_readable : platform.run tree ("format".toList :: args) =
    (r.withMode mode).finish platform
      ((r.start tree options).formatSources platform options mode r.verbose sources, none) := by
  calc
    platform.run tree ("format".toList :: args) = (r.withMode mode).run platform tree :=
      run_of_asks hp h
    _ = formatAll platform tree options (r.withMode mode) := run_eq_formatAll hoptions
    _ = (r.withMode mode).finish platform _ := by
      rw [formatAll_of_readable (r := r.withMode mode) hsources hpaths, mode_withMode]
      rfl

theorem tree_run (hmode : mode ≠ .inPlace) :
    (platform.run tree ("format".toList :: args)).tree = tree := by
  rw [run_of_readable hp h hoptions hsources hpaths, tree_finish, tree_formatSources hmode]
  rfl

theorem sameOutside_run : SameOutside (r.paths.filterMap tree.place?) tree
    (platform.run tree ("format".toList :: args)).tree := by
  rw [run_of_readable hp h hoptions hsources hpaths, tree_finish, hpaths, List.filterMap_map]
  exact sameOutside_formatSources (p := r.start tree options)

theorem stdout_run : (platform.run tree ("format".toList :: args)).stdout =
    (sources.flatMap fun s => fileOutput platform options mode s.path s.text) ++
      summary platform mode ((changing options sources).map Source.path).length
        r.paths.length := by
  rw [run_of_readable hp h hoptions hsources hpaths, Request.finish, mode_withMode,
    changed_formatSources, stdout_formatSources]
  rfl

theorem exitCode_run : (platform.run tree ("format".toList :: args)).exitCode =
    if mode = .check ∧ (changing options sources).map Source.path ≠ [] then 1 else 0 := by
  rw [run_of_readable hp h hoptions hsources hpaths, Request.finish, mode_withMode,
    changed_formatSources, show (r.start tree options).changed = [] from rfl]
  simp

end

theorem content?_run_inPlace {platform : Platform} (hp : platform.Lawful) {tree : FileTree}
    {options : Options} {args : List Text} {r : Request} {sources : List Source}
    (h : Asks platform tree args (r.withMode .inPlace))
    (hoptions : r.options platform tree = .ok options) (hsources : Readable tree sources)
    (hpaths : r.paths = sources.map Source.path) {s : Source} (hs : s ∈ sources) :
    (platform.run tree ("format".toList :: args)).tree.content? s.path =
      some (Utf8.encode (Document.format options s.text)) := by
  rw [run_of_readable hp h hoptions hsources hpaths, tree_finish]
  exact content?_formatSources hsources hs

end Format

open Format FileTree

/-- In place, every file holds its formatted text afterwards and no other file has changed; a check
reports the files that change in place; printing shows the formatted texts, and nothing else if no
control sequence occurs in them. -/
theorem format_modes_agree {platform : Platform} (hp : platform.Lawful) {tree : FileTree}
    {r : Request} {options : Options} {sources : List Source} {args : Mode → List Text}
    (hasks : ∀ mode, Asks platform tree (args mode) (r.withMode mode))
    (hoptions : r.options platform tree = .ok options) (hsources : Readable tree sources)
    (hpaths : r.paths = sources.map Source.path) :
    let outcome (mode : Mode) := platform.run tree ("format".toList :: args mode)
    let changed := r.paths.filter fun path =>
      (outcome .inPlace).tree.content? path ≠ tree.content? path
    let results := sources.map fun s => Document.format options s.text
    (∀ s ∈ sources, (outcome .inPlace).tree.content? s.path =
        some (Utf8.encode (Document.format options s.text))) ∧
      SameOutside (r.paths.filterMap tree.place?) tree (outcome .inPlace).tree ∧
      (outcome .check).tree = tree ∧ (outcome .stdout).tree = tree ∧
      (outcome .inPlace).stdout = changed.flatMap (reportLine platform "Formatted: ") ++
        countLine changed.length r.paths.length " file(s) changed" ∧
      (outcome .check).stdout = changed.flatMap (reportLine platform "Would reformat: ") ++
        countLine changed.length r.paths.length " file(s) would change" ∧
      (outcome .stdout).stdout = results.flatMap platform.print ∧
      ((outcome .stdout).stdout = results.flatten ↔ ∀ t ∈ results, IsPlain t) ∧
      ∀ mode, (outcome mode).exitCode = if mode = .check ∧ changed ≠ [] then 1 else 0 := by
  intro outcome changed results
  have hcontent : ∀ s ∈ sources, (outcome .inPlace).tree.content? s.path =
      some (Utf8.encode (Document.format options s.text)) := fun s hs =>
    content?_run_inPlace hp (hasks .inPlace) hoptions hsources hpaths hs
  have hchanged : changed = (changing options sources).map Source.path := by
    rw [← filter_content?_ne hsources hcontent, ← hpaths]
  have hprinted : (outcome .stdout).stdout = results.flatMap platform.print := by
    refine (stdout_run hp (hasks .stdout) hoptions hsources hpaths).trans ?_
    rw [List.flatMap_map]
    exact List.append_nil _
  refine ⟨hcontent, sameOutside_run hp (hasks .inPlace) hoptions hsources hpaths,
    tree_run hp (hasks .check) hoptions hsources hpaths (by decide),
    tree_run hp (hasks .stdout) hoptions hsources hpaths (by decide), ?_, ?_, hprinted, ?_, ?_⟩
  · rw [hchanged, ← flatMap_fileOutput_inPlace hp, ← printLine_counts hp (by decide)]
    exact stdout_run hp (hasks .inPlace) hoptions hsources hpaths
  · rw [hchanged, ← flatMap_fileOutput_check hp, ← printLine_counts hp (by decide)]
    exact stdout_run hp (hasks .check) hoptions hsources hpaths
  · rw [hprinted]
    exact hp.prints.flatMap_eq_flatten_iff
  · intro mode
    rw [hchanged]
    exact exitCode_run hp (hasks mode) hoptions hsources hpaths

theorem format_modes_agree_on_two_files :
    let tree : FileTree :=
      ⟨[], [(["a.html".toList], Utf8.encode "<p class=\"p-4 flex\">".toList),
        (["b.html".toList], Utf8.encode "text".toList)], []⟩
    let formatted : Text := "<p\n  class=\"\n    flex\n    p-4\n  \"\n>".toList
    let written := run tree (["format", "a.html", "./b.html"].map String.toList)
    let checked := run tree (["format", "--check", "a.html", "./b.html"].map String.toList)
    let shown := run tree (["format", "a.html", "./b.html", "--stdout"].map String.toList)
    written.tree.content? "a.html".toList = some (Utf8.encode formatted) ∧
      checked.tree = tree ∧ checked.exitCode = 1 ∧ shown.stdout = formatted ++ "text".toList := by
  intro tree formatted written checked shown
  let sources : List Source :=
    [⟨"a.html".toList, "<p class=\"p-4 flex\">".toList⟩, ⟨"b.html".toList, "text".toList⟩]
  let r : Request := { paths := sources.map Source.path }
  let args : Mode → List Text
    | .check => ["--check", "a.html", "./b.html"].map String.toList
    | .stdout => ["a.html", "./b.html", "--stdout"].map String.toList
    | .inPlace => ["a.html", "./b.html"].map String.toList
  have hread (mode : Mode) : Arguments.read rules true (args mode) = .ok
      { given := match mode with
          | .check => [(.check, .switch true)]
          | .stdout => [(.stdout, .switch true)]
          | .inPlace => []
        operands := ["a.html", "./b.html"].map String.toList } := by
    subst args
    cases mode <;> cbv
  have hasks (mode : Mode) : Asks .standard tree (args mode) (r.withMode mode) := by
    refine ⟨_, hread mode, ?_, ?_⟩
    · cases mode <;> decide
    · cases mode <;> rfl
  have hsources : Readable tree sources := by
    refine ⟨?_, by decide⟩
    simp only [readText_eq_ok_iff]
    decide
  have hresults : (sources.map fun s => Document.format {} s.text) =
      [formatted, "text".toList] := by
    decide +kernel
  obtain ⟨hcontent, -, htree, -, -, -, -, hstdout, hexit⟩ :=
    format_modes_agree Platform.lawful_standard hasks (rfl : r.options .standard tree = .ok {})
      hsources rfl
  have hfirst : written.tree.content? "a.html".toList = some (Utf8.encode formatted) :=
    (hcontent _ List.mem_cons_self).trans
      (congrArg (fun t => some (Utf8.encode t)) (List.cons.inj hresults).1)
  have hchanged : written.tree.content? "a.html".toList ≠ tree.content? "a.html".toList := by
    rw [hfirst]
    decide
  refine ⟨hfirst, htree, ?_, ?_⟩
  · refine (hexit .check).trans (if_pos ⟨rfl, List.ne_nil_of_mem (a := "a.html".toList) ?_⟩)
    exact List.mem_filter.2 ⟨List.mem_cons_self, decide_eq_true hchanged⟩
  · rw [hresults] at hstdout
    exact hstdout.2 (by decide)

/-- A control sequence in a file is not printed, so that the output is not the text that the file
would hold. -/
theorem format_stdout_hides_control_sequence :
    let tree : FileTree := ⟨[], [(["a.html".toList], Utf8.encode "\x1b[31mred".toList)], []⟩
    (run tree (["format", "a.html"].map String.toList)).tree.content? "a.html".toList =
        some (Utf8.encode "\x1b[31mred".toList) ∧
      (run tree (["format", "--stdout", "a.html"].map String.toList)).stdout = "red".toList := by
  decide +kernel

end ClassFormat.Command
