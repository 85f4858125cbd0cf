import ClassFormat.Command.Format

namespace ClassFormat.Command

namespace Explain

def tokenLine (t : Token) : Text :=
  "  ".toList ++ t ++ "  property=".toList ++ t.property ++
    match t.breakpoint? with
    | some b => "  breakpoint=".toList ++ b.name.toList
    | none => []

def bucketLines (b : Bucket) : List Text :=
  (b.category.name.toList ++ [':']) :: (Token.clusters b.tokens).flatten.map tokenLine

def lines (texts : List Text) : List Text :=
  (Token.buckets (texts.flatMap Text.words)).flatMap bucketLines

def rules : List (OptionRule Unit) := [⟨"--help", (), some true⟩]

end Explain

def Platform.explain (platform : Platform) (tree : FileTree) (args : List Text) : Outcome :=
  match platform.read Explain.rules true args with
  | .error e => .usage tree .explain e
  | .ok a =>
    if !a.given.isEmpty then .help tree .explain
    else if a.operands.isEmpty then
      .usage tree .explain (.missingOperands Scope.explain.operands.toList)
    else { stdout := (Explain.lines a.operands).flatMap platform.printLine, tree }

inductive ProgramOption where
  | version
  | help
  deriving DecidableEq, Repr

def programRules : List (OptionRule ProgramOption) :=
  [⟨"--version", .version, some true⟩, ⟨"--help", .help, some true⟩]

/-- A run that only shows what an option of the program asks for. -/
def showOption (tree : FileTree) : ProgramOption → Outcome
  | .version => { stdout := (programName ++ ", version " ++ version ++ "\n").toList, tree }
  | .help => .help tree .program

namespace Platform

variable (platform : Platform)

/-- Reads options of the program; the first one decides, and without any the operands do. -/
def withProgramOptions (tree : FileTree) (args : List Text) (otherwise : List Text → Outcome) :
    Outcome :=
  match platform.read programRules false args with
  | .error e => .usage tree .program e
  | .ok a =>
    match a.given with
    | (o, _) :: _ => showOption tree o
    | [] => otherwise a.operands

/-- Runs the command that the first argument names. A name that looks like an option is taken for
one before it counts as unknown. -/
def runCommand (tree : FileTree) : List Text → Outcome
  | [] => .usage tree .program .missingCommand
  | name :: args =>
    if name = "format".toList then platform.format tree args
    else if name = "explain".toList then platform.explain tree args
    else
      platform.withProgramOptions tree (name :: args) fun _ =>
        .usage tree .program (.noSuchCommand name)

def run (tree : FileTree) (args : List Text) : Outcome :=
  match args with
  | [] => { exitCode := 2, stderr := Scope.program.help, tree }
  | args => platform.withProgramOptions tree args (platform.runCommand tree)

end Platform

/-- Runs the program on its arguments. -/
def run (tree : FileTree) (args : List Text) : Outcome := Platform.standard.run tree args

end ClassFormat.Command
