import ClassFormat.Command.Format
import ClassFormat.Proofs.Files.Tree
import ClassFormat.Proofs.Text.Utf8

namespace ClassFormat.Command.Format

open FileTree

/-- A file by its path, with its text. -/
structure Source where
  path : Text
  text : Text

/-- The files can be read as these texts, and no two of the paths lead to one place. -/
structure Readable (tree : FileTree) (sources : List Source) : Prop where
  readText : ∀ s ∈ sources, readText tree s.path = .ok s.text
  distinct : (sources.map fun s => tree.place? s.path).Nodup

section

variable {tree tree' : FileTree} {path t : Text} {sources : List Source} {s : Source}
  {places : List Place}

theorem readText_eq_ok_iff :
    readText tree path = .ok t ↔ tree.content? path = some (Utf8.encode t) := by
  unfold readText
  cases tree.content? path with
  | none => simp
  | some content =>
    rw [Option.some.injEq, ← Utf8.decode_eq_ok_iff]
    dsimp only
    cases Utf8.decode content with
    | ok u =>
      constructor
      · intro h
        cases h
        rfl
      · intro h
        cases h
        rfl
    | error e =>
      constructor
      · intro h
        cases h
      · intro h
        cases h

theorem readText_congr (h : tree'.content? path = tree.content? path) :
    readText tree' path = readText tree path := by
  unfold readText
  rw [h]

theorem exists_place_of_readText (h : readText tree path = .ok t) :
    ∃ place, tree.place? path = some place := by
  obtain ⟨place, hp, -⟩ := Option.bind_eq_some_iff.1 (readText_eq_ok_iff.1 h)
  exact ⟨place, hp⟩

theorem not_mem_toList_place (h : tree.place? path ≠ tree.place? t) (place : Place)
    (hp : tree.place? t = some place) : place ∉ (tree.place? path).toList := by
  intro hm
  exact h ((Option.mem_toList.1 hm).trans hp.symm)

theorem Readable.of_sameOutside (h : Readable tree sources) (hs : SameOutside places tree tree')
    (hd : ∀ s ∈ sources, ∀ place, tree.place? s.path = some place → place ∉ places) :
    Readable tree' sources where
  readText s hm := (readText_congr (hs.content?_eq (hd s hm))).trans (h.readText s hm)
  distinct := by
    simp only [hs.place?_eq]
    exact h.distinct

end

section

variable {platform : Platform} {options : Options} {mode : Mode} {verbose : Bool} {p : Progress}
  {path text : Text} {sources : List Source}

def fileOutput (platform : Platform) (options : Options) (mode : Mode) (path text : Text) : Text :=
  let result := Document.format options text
  match mode with
  | .stdout => platform.print result
  | .check => if result = text then [] else platform.printLine ("Would reformat: ".toList ++ path)
  | .inPlace => if result = text then [] else platform.printLine ("Formatted: ".toList ++ path)

theorem tree_formatFile (hmode : mode ≠ .inPlace) :
    (p.formatFile platform options mode verbose path text).tree = p.tree := by
  unfold Progress.formatFile
  dsimp only
  split
  · rfl
  · cases mode with
    | inPlace => exact absurd rfl hmode
    | check => rfl
    | stdout => rfl

theorem tree_formatFile_inPlace : (p.formatFile platform options .inPlace verbose path text).tree =
    if Document.format options text = text then p.tree
    else p.tree.write path (Utf8.encode (Document.format options text)) := by
  unfold Progress.formatFile
  dsimp only
  split <;> rfl

theorem changed_formatFile : (p.formatFile platform options mode verbose path text).changed =
    p.changed ++ if Document.format options text = text then [] else [path] := by
  unfold Progress.formatFile
  dsimp only
  split
  · rw [List.append_nil]
  · cases mode <;> rfl

theorem stdout_formatFile : (p.formatFile platform options mode verbose path text).stdout =
    p.stdout ++ fileOutput platform options mode path text := by
  unfold Progress.formatFile fileOutput
  dsimp only
  cases mode <;> split <;> simp

theorem sameOutside_formatFile : SameOutside (p.tree.place? path).toList p.tree
    (p.formatFile platform options mode verbose path text).tree := by
  by_cases hmode : mode = .inPlace
  · subst hmode
    rw [tree_formatFile_inPlace]
    split
    · exact .refl _ _
    · exact sameOutside_write _ _ _
  · rw [tree_formatFile hmode]
    exact .refl _ _

theorem content?_formatFile (h : readText p.tree path = .ok text) :
    (p.formatFile platform options .inPlace verbose path text).tree.content? path =
      some (Utf8.encode (Document.format options text)) := by
  rw [tree_formatFile_inPlace]
  split
  · -- The file is not written, but only the bytes of its text are read as the text.
    rename_i he
    rw [he]
    exact readText_eq_ok_iff.1 h
  · obtain ⟨place, hp⟩ := exists_place_of_readText h
    exact content?_write hp _

def Progress.formatSources (platform : Platform) (options : Options) (mode : Mode) (verbose : Bool)
    (p : Progress) (sources : List Source) : Progress :=
  sources.foldl (fun p s => p.formatFile platform options mode verbose s.path s.text) p

theorem formatSources_cons (s : Source) (sources : List Source) :
    p.formatSources platform options mode verbose (s :: sources) =
      (p.formatFile platform options mode verbose s.path s.text).formatSources platform options mode
        verbose sources :=
  rfl

theorem Readable.formatFile {s : Source} (h : Readable p.tree (s :: sources)) :
    Readable (p.formatFile platform options mode verbose s.path s.text).tree sources := by
  obtain ⟨hs, hd⟩ := List.nodup_cons.1 h.distinct
  have hr : Readable p.tree sources := ⟨fun u hu => h.readText u (List.mem_cons_of_mem s hu), hd⟩
  refine hr.of_sameOutside sameOutside_formatFile fun u hu => not_mem_toList_place fun he => hs ?_
  exact List.mem_map.2 ⟨u, hu, he.symm⟩

theorem tree_formatFiles (hmode : mode ≠ .inPlace) (paths : List Text) :
    (p.formatFiles platform options mode verbose paths).1.tree = p.tree := by
  induction paths generalizing p with
  | nil => rfl
  | cons path paths ih =>
    rw [Progress.formatFiles]
    split
    · rfl
    · exact ih.trans (tree_formatFile hmode)

/-- Files that can be read are formatted in turn; the run goes on behind them. -/
theorem formatFiles_append (h : Readable p.tree sources) (paths : List Text) :
    p.formatFiles platform options mode verbose (sources.map Source.path ++ paths) =
      (p.formatSources platform options mode verbose sources).formatFiles platform options mode
        verbose paths := by
  induction sources generalizing p with
  | nil => rfl
  | cons s sources ih =>
    rw [List.map_cons, List.cons_append, Progress.formatFiles, h.readText s List.mem_cons_self]
    exact ih h.formatFile

theorem tree_formatSources (hmode : mode ≠ .inPlace) :
    (p.formatSources platform options mode verbose sources).tree = p.tree := by
  induction sources generalizing p with
  | nil => rfl
  | cons s sources ih => exact ih.trans (tree_formatFile hmode)

def changing (options : Options) (sources : List Source) : List Source :=
  sources.filter fun s => Document.format options s.text ≠ s.text

theorem changed_formatSources : (p.formatSources platform options mode verbose sources).changed =
    p.changed ++ (changing options sources).map Source.path := by
  induction sources generalizing p with
  | nil => exact (List.append_nil p.changed).symm
  | cons s sources ih =>
    rw [formatSources_cons, ih, changed_formatFile, List.append_assoc, changing, changing,
      List.filter_cons]
    by_cases hs : Document.format options s.text = s.text
    · simp [hs]
    · simp [hs]

theorem stdout_formatSources : (p.formatSources platform options mode verbose sources).stdout =
    p.stdout ++ sources.flatMap fun s => fileOutput platform options mode s.path s.text := by
  induction sources generalizing p with
  | nil => exact (List.append_nil p.stdout).symm
  | cons s sources ih =>
    rw [formatSources_cons, ih, stdout_formatFile, List.flatMap_cons, List.append_assoc]

theorem sameOutside_formatSources :
    SameOutside (sources.filterMap fun s => p.tree.place? s.path) p.tree
      (p.formatSources platform options mode verbose sources).tree := by
  induction sources generalizing p with
  | nil => exact .refl _ _
  | cons s sources ih =>
    have hstep : SameOutside (p.tree.place? s.path).toList p.tree
        (p.formatFile platform options mode verbose s.path s.text).tree := sameOutside_formatFile
    have hrun := ih (p := p.formatFile platform options mode verbose s.path s.text)
    simp only [hstep.place?_eq] at hrun
    refine (hstep.mono fun place hm => ?_).trans (hrun.mono fun place hm => ?_)
    · exact List.mem_filterMap.2 ⟨s, List.mem_cons_self, Option.mem_toList.1 hm⟩
    · obtain ⟨u, hu, he⟩ := List.mem_filterMap.1 hm
      exact List.mem_filterMap.2 ⟨u, List.mem_cons_of_mem s hu, he⟩

theorem content?_formatSources_of_not_mem
    (h : p.tree.place? path ∉ sources.map fun s => p.tree.place? s.path) :
    (p.formatSources platform options mode verbose sources).tree.content? path =
      p.tree.content? path := by
  refine sameOutside_formatSources.content?_eq fun place hp hm => h ?_
  obtain ⟨s, hs, he⟩ := List.mem_filterMap.1 hm
  exact List.mem_map.2 ⟨s, hs, he.trans hp.symm⟩

theorem content?_formatSources (h : Readable p.tree sources) {s : Source} (hs : s ∈ sources) :
    (p.formatSources platform options .inPlace verbose sources).tree.content? s.path =
      some (Utf8.encode (Document.format options s.text)) := by
  induction sources generalizing p with
  | nil => cases hs
  | cons u sources ih =>
    rw [formatSources_cons]
    rcases List.mem_cons.1 hs with rfl | hm
    · -- No later file stands at the same place.
      rw [content?_formatSources_of_not_mem, content?_formatFile (h.readText s hs)]
      simp only [sameOutside_formatFile.place?_eq]
      exact (List.nodup_cons.1 h.distinct).1
    · exact ih h.formatFile hm

end

section

variable {platform : Platform} {tree : FileTree} {options : Options} {r : Request}
  {sources : List Source}

def Request.start (tree : FileTree) (options : Options) (r : Request) : Progress :=
  { tree
    stderr :=
      if r.verbose then
        logLine "DEBUG" "twformat.cli.format" ("Using ".toList ++ showOptions options)
      else [] }

/-- The outcome of a run, after its last file or the first one that cannot be read. -/
def Request.finish (platform : Platform) (r : Request) :
    Progress × Option (Text × ReadError) → Outcome
  | (p, some (path, e)) =>
    { exitCode := 1, stdout := p.stdout, tree := p.tree
      stderr := p.stderr ++
        platform.printLine ("Cannot read ".toList ++ path ++ ": ".toList ++ e.message) }
  | (p, none) =>
    { exitCode := if r.mode = .check && !p.changed.isEmpty then 1 else 0
      stdout := p.stdout ++ summary platform r.mode p.changed.length r.paths.length
      stderr := p.stderr, tree := p.tree }

theorem run_eq_formatAll (h : r.options platform tree = .ok options) :
    r.run platform tree = formatAll platform tree options r := by
  rw [Request.run, h]

theorem formatAll_eq_finish : formatAll platform tree options r =
    r.finish platform
      ((r.start tree options).formatFiles platform options r.mode r.verbose r.paths) :=
  rfl

theorem tree_finish (x : Progress × Option (Text × ReadError)) :
    (r.finish platform x).tree = x.1.tree := by
  obtain ⟨p, _ | ⟨path, e⟩⟩ := x
  · rfl
  · rfl

theorem tree_formatAll (hmode : r.mode ≠ .inPlace) :
    (formatAll platform tree options r).tree = tree := by
  rw [formatAll_eq_finish, tree_finish, tree_formatFiles hmode]
  rfl

theorem formatAll_of_readable (h : Readable tree sources) (hp : r.paths = sources.map Source.path) :
    formatAll platform tree options r =
      r.finish platform
        ((r.start tree options).formatSources platform options r.mode r.verbose sources, none) := by
  rw [formatAll_eq_finish, hp, ← List.append_nil (sources.map Source.path), formatFiles_append h]
  rfl

theorem formatAll_of_unreadable {path : Text} {rest : List Text} {e : ReadError}
    (h : Readable tree sources) (hp : r.paths = sources.map Source.path ++ path :: rest)
    (hd : tree.place? path ∉ sources.map fun s => tree.place? s.path)
    (he : readText tree path = .error e) :
    formatAll platform tree options r = r.finish platform
      ((r.start tree options).formatSources platform options r.mode r.verbose sources,
        some (path, e)) := by
  have hread : readText ((r.start tree options).formatSources platform options r.mode r.verbose
      sources).tree path = .error e :=
    (readText_congr (content?_formatSources_of_not_mem hd)).trans he
  rw [formatAll_eq_finish, hp, formatFiles_append h, Progress.formatFiles, hread]

end

end ClassFormat.Command.Format
