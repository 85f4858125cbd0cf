import ClassFormat.Command.Arguments
import ClassFormat.Configuration

namespace ClassFormat.Command

/-- A fault that breaks off a run without a message. -/
inductive Failure where
  | configuration (e : Configuration.Error)
  /-- A path is none that a file can have. -/
  | impossiblePath
  deriving Repr

/-- What a run of the program leaves. -/
structure Outcome where
  exitCode : Nat := 0
  stdout : Text := []
  stderr : Text := []
  tree : FileTree
  /-- What broke off the run, if it did not come to its end. -/
  failure : Option Failure := none

namespace Outcome

def help (tree : FileTree) (scope : Scope) : Outcome := { stdout := scope.help, tree }

def usage (tree : FileTree) (scope : Scope) (e : UsageError) : Outcome :=
  { exitCode := 2, stderr := e.report scope, tree }

/-- A run that breaks off. -/
def broken (tree : FileTree) (f : Failure) : Outcome := { exitCode := 1, tree, failure := some f }

end Outcome

/-- What the program is built on and does not decide itself: how a YAML text is read, how a command
line is cut into options and operands, and what of a text is printed where the output is no
terminal. -/
structure Platform where
  yaml : Text → Except Yaml.Error Value
  read : {κ : Type} → List (OptionRule κ) → Bool → List Text → Except UsageError (Arguments κ)
  print : Text → Text

def Platform.printLine (platform : Platform) (t : Text) : Text := platform.print t ++ ['\n']

def escapeChar : Char := Char.ofNat 27

/-- The characters that the parameters of a control sequence are written with. -/
def isParameter (c : Char) : Bool := '0' ≤ c && c ≤ '?'

/-- The characters that may stand between the parameters and the end of a control sequence. -/
def isIntermediate (c : Char) : Bool := ' ' ≤ c && c ≤ '/'

def isFinal (c : Char) : Bool := '@' ≤ c && c ≤ '~'

/-- How long the control sequence is that starts behind an escape character; zero if none does. -/
def sequenceLength : Text → Nat
  | '[' :: cs =>
    match (cs.dropWhile isParameter).dropWhile isIntermediate with
    | c :: after => if isFinal c then cs.length + 1 - after.length else 0
    | [] => 0
  | _ => 0

/-- Leaves out the next `skip` characters and all control sequences. -/
def plainFrom (skip : Nat) : Text → Text
  | [] => []
  | c :: cs =>
    match skip with
    | k + 1 => plainFrom k cs
    | 0 =>
      if c = escapeChar && sequenceLength cs > 0 then plainFrom (sequenceLength cs) cs
      else c :: plainFrom 0 cs

/-- A text without control sequences, as it is printed. -/
def plain (t : Text) : Text := plainFrom 0 t

def Platform.standard : Platform where
  yaml := Yaml.load
  read := Arguments.read
  print := plain

end ClassFormat.Command
