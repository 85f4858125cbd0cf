import ClassFormat.Command.Platform
import ClassFormat.Document

namespace ClassFormat.Command

namespace Format

inductive Key where
  | config
  | maxLineWidth
  | wrapIndent
  | closeQuote
  | check
  | stdout
  | verbose
  | help
  deriving DecidableEq, Repr

def rules : List (OptionRule Key) :=
  [⟨"--config", .config, none⟩, ⟨"--max-line-width", .maxLineWidth, none⟩,
    ⟨"--wrap-indent", .wrapIndent, none⟩, ⟨"--close-quote-newline", .closeQuote, some true⟩,
    ⟨"--no-close-quote-newline", .closeQuote, some false⟩, ⟨"--check", .check, some true⟩,
    ⟨"--stdout", .stdout, some true⟩, ⟨"-v", .verbose, some true⟩,
    ⟨"--verbose", .verbose, some true⟩, ⟨"--help", .help, some true⟩]

/-- What the command is asked to do. -/
structure Request where
  paths : List Text := []
  config : Option Text := none
  /-- The options of the command line, which win over those of the file. -/
  overrides : Overrides := {}
  check : Bool := false
  stdout : Bool := false
  verbose : Bool := false

inductive RequestError where
  | usage (e : UsageError)
  | impossiblePath
  deriving Repr

def checkFile (tree : FileTree) (parameter path : Text) : Except RequestError Unit :=
  match tree.find path, tree.kind path with
  | .error .impossible, _ => .error .impossiblePath
  | _, .missing => .error (.usage (.missingFile parameter path))
  | _, .folder => .error (.usage (.notAFile parameter path))
  | _, .file => .ok ()

def Request.set (tree : FileTree) (r : Request) : Key × Given → Except RequestError Request
  | (.config, .value path) => do
    checkFile tree "--config".toList path
    return { r with config := some path }
  | (.maxLineWidth, .value t) =>
    match Numeral.integer? t with
    | some n => .ok { r with overrides := { r.overrides with maxLineWidth := .int n } }
    | none => .error (.usage (.notInteger "--max-line-width".toList t))
  | (.wrapIndent, .value t) =>
    match WrapStyle.ofName? t with
    | some s => .ok { r with overrides := { r.overrides with wrapStyle := .ofText s.name } }
    | none =>
      let choices := WrapStyle.choices.map WrapStyle.name
      .error (.usage (.notAChoice "--wrap-indent".toList t choices))
  | (.closeQuote, .switch on) =>
    .ok { r with overrides := { r.overrides with closeQuoteOnNewLine := .bool on } }
  | (.check, .switch on) => .ok { r with check := on }
  | (.stdout, .switch on) => .ok { r with stdout := on }
  | (.verbose, .switch on) => .ok { r with verbose := on }
  | _ => .ok r

def Request.ofArguments (tree : FileTree) (a : Arguments Key) : Except RequestError Request := do
  let r ← a.lastGiven.foldlM (Request.set tree) {}
  let operands := Scope.format.operands.toList
  if a.operands.isEmpty then throw (.usage (.missingOperands operands))
  a.operands.forM (checkFile tree operands)
  if r.check && r.stdout then throw (.usage .conflict)
  return { r with paths := a.operands.map Path.normalize }

/-- What becomes of a result. -/
inductive Mode where
  | inPlace
  | check
  | stdout
  deriving DecidableEq, Repr

def Request.mode (r : Request) : Mode :=
  if r.check then .check else if r.stdout then .stdout else .inPlace

/-- A run under way. -/
structure Progress where
  tree : FileTree
  /-- The paths of the files that change. -/
  changed : List Text := []
  stdout : Text := []
  stderr : Text := []

inductive ReadError where
  | missing (path : Text)
  | notText (fault : Utf8.Fault)
  deriving Repr

/-- Why a file cannot be read, in words. -/
def ReadError.message : ReadError → Text
  | missing path => "[Errno 2] No such file or directory: ".toList ++ path.quoted
  | notText fault => fault.message

def readText (tree : FileTree) (path : Text) : Except ReadError Text :=
  match tree.content? path with
  | none => .error (.missing path)
  | some content => (Utf8.decode content).mapError .notText

def logLine (level source : String) (message : Text) : Text :=
  (level ++ " " ++ source ++ ": ").toList ++ message ++ ['\n']

def showOptions (o : Options) : Text :=
  "FormatConfig(close_quote_on_new_line=".toList ++
    (Value.bool o.closeQuoteOnNewLine).render ++ ", max_line_width=".toList ++
    Value.intText o.maxLineWidth ++ ", wrap_indent_style=<WrapIndentStyle.".toList ++
    o.wrapStyle.name.map Char.toUpper ++ ": ".toList ++ o.wrapStyle.name.quoted ++ ">)".toList

def fileLog (options : Options) (path source : Text) : Text :=
  let replacements := Document.replacements options source
  logLine "INFO" "twformat.cli.format" ("Formatting ".toList ++ path) ++
    replacements.flatMap (fun r =>
      logLine "DEBUG" "twformat.document.rewriter"
        ("Rewriting <".toList ++ r.tag.name ++ "> at offset ".toList ++
          Nat.toDigits 10 r.tag.start)) ++
    logLine "INFO" "twformat.document.rewriter"
      ("Found ".toList ++ Nat.toDigits 10 replacements.length ++ " edit(s)".toList)

variable (platform : Platform)

def Progress.formatFile (options : Options) (mode : Mode) (verbose : Bool) (p : Progress)
    (path source : Text) : Progress :=
  let result := Document.format options source
  let p := { p with
    stdout := if mode = .stdout then p.stdout ++ platform.print result else p.stdout
    stderr := if verbose then p.stderr ++ fileLog options path source else p.stderr }
  if result = source then p
  else
    let p := { p with changed := p.changed ++ [path] }
    match mode with
    | .stdout => p
    | .check =>
      { p with stdout := p.stdout ++ platform.printLine ("Would reformat: ".toList ++ path) }
    | .inPlace =>
      { p with
        tree := p.tree.write path (Utf8.encode result)
        stdout := p.stdout ++ platform.printLine ("Formatted: ".toList ++ path) }

/-- Formats files one after another; the first one that cannot be read ends the run. -/
def Progress.formatFiles (options : Options) (mode : Mode) (verbose : Bool) (p : Progress) :
    List Text → Progress × Option (Text × ReadError)
  | [] => (p, none)
  | path :: paths =>
    match readText p.tree path with
    | .error e => (p, some (path, e))
    | .ok source =>
      (p.formatFile platform options mode verbose path source).formatFiles options mode verbose
        paths

def summary (mode : Mode) (changed total : Nat) : Text :=
  let counts := Nat.toDigits 10 changed ++ " of ".toList ++ Nat.toDigits 10 total
  match mode with
  | .stdout => []
  | .check => platform.printLine (counts ++ " file(s) would change".toList)
  | .inPlace => platform.printLine (counts ++ " file(s) changed".toList)

/-- Formats the files of a request with the given options. What was written before a file that
cannot be read stays written. -/
def formatAll (tree : FileTree) (options : Options) (r : Request) : Outcome :=
  let start : Progress :=
    { tree
      stderr :=
        if r.verbose then
          logLine "DEBUG" "twformat.cli.format" ("Using ".toList ++ showOptions options)
        else [] }
  match start.formatFiles platform options r.mode r.verbose r.paths with
  | (p, some (path, e)) =>
    { exitCode := 1, stdout := p.stdout, tree := p.tree
      stderr := p.stderr ++
        platform.printLine ("Cannot read ".toList ++ path ++ ": ".toList ++ e.message) }
  | (p, none) =>
    { exitCode := if r.mode = .check && !p.changed.isEmpty then 1 else 0
      stdout := p.stdout ++ summary platform r.mode p.changed.length r.paths.length
      stderr := p.stderr, tree := p.tree }

/-- The options of a request: those of the command line win over those of the file. -/
def Request.options (tree : FileTree) (r : Request) : Except Configuration.Error Options := do
  let options ← Configuration.read platform.yaml tree (r.config.getD Configuration.defaultFile)
  (r.overrides.apply options).mapError .options

def Request.run (tree : FileTree) (r : Request) : Outcome :=
  match r.options platform tree with
  | .ok options => formatAll platform tree options r
  | .error e =>
    match e.message? with
    | some message =>
      { exitCode := 1, stderr := platform.printLine ("Config error: ".toList ++ message), tree }
    | none => .broken tree (.configuration e)

end Format

def Platform.format (platform : Platform) (tree : FileTree) (args : List Text) : Outcome :=
  match platform.read Format.rules true args with
  | .error e => .usage tree .format e
  | .ok a =>
    if a.given.any fun g => g.1 = .help then .help tree .format
    else
      match Format.Request.ofArguments tree a with
      | .error (.usage e) => .usage tree .format e
      | .error .impossiblePath => .broken tree .impossiblePath
      | .ok r => r.run platform tree

end ClassFormat.Command
