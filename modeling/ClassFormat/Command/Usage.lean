import ClassFormat.Text.Quoted

namespace ClassFormat.Command

def programName : String := "twformat"

def version : String := "0.1.0"

/-- The program itself and its commands. -/
inductive Scope where
  | program
  | format
  | explain
  deriving DecidableEq, Repr

namespace Scope

def callName : Scope → String
  | program => programName
  | format => programName ++ " format"
  | explain => programName ++ " explain"

def operands : Scope → String
  | program => "COMMAND [ARGS]..."
  | format => "PATHS..."
  | explain => "CLASSES..."

def usage (s : Scope) : String :=
  "Usage: " ++ s.callName ++ " [OPTIONS] " ++ s.operands

def helpLines : Scope → List String
  | program =>
    ["", "  twformat - group, order and wrap Tailwind classes in markup files.", "",
      "Options:",
      "  --version  Show the version and exit.",
      "  --help     Show this message and exit.", "",
      "Commands:",
      "  explain  Show category, property and breakpoint for each class.",
      "  format   Format the class attributes of each PATH."]
  | format =>
    ["", "  Format the class attributes of each PATH.", "",
      "  Files are rewritten in place unless --check or --stdout is given.", "",
      "Options:",
      "  --config FILE                   YAML config file (default: .twformat.yaml in",
      "                                  the current directory)",
      "  --max-line-width INTEGER        Line budget; 0 disables wrapping",
      "  --wrap-indent [same|extra]      Indentation of wrapped lines",
      "  --close-quote-newline / --no-close-quote-newline",
      "                                  Put the closing quote on its own line",
      "  --check                         Write nothing; exit 1 if a file would change",
      "  --stdout                        Print results instead of writing",
      "  -v, --verbose                   Log every rewritten tag",
      "  --help                          Show this message and exit."]
  | explain =>
    ["", "  Show category, property and breakpoint for each class.", "",
      "  Classes are listed in the order ``format`` would write them.", "",
      "Options:",
      "  --help  Show this message and exit."]

def help (s : Scope) : Text :=
  ((s.usage :: s.helpLines).flatMap fun line => line.toList ++ ['\n'])

end Scope

inductive UsageError where
  | noSuchOption (name : Text)
  | noArgument (option : Text)
  | unwantedValue (option : Text)
  | missingCommand
  | noSuchCommand (name : Text)
  | missingOperands (operands : Text)
  | missingFile (parameter path : Text)
  | notAFile (parameter path : Text)
  | notInteger (parameter value : Text)
  | notAChoice (parameter value : Text) (choices : List Text)
  | conflict
  deriving DecidableEq, Repr

namespace UsageError

def invalidValue (parameter reason : Text) : Text :=
  "Invalid value for '".toList ++ parameter ++ "': ".toList ++ reason

/-- What is wrong, in words. -/
def message : UsageError → Text
  | noSuchOption name => "No such option ".toList ++ name.quoted ++ ['.']
  | noArgument option => "Option ".toList ++ option.quoted ++ " requires an argument.".toList
  | unwantedValue option => "Option ".toList ++ option.quoted ++ " does not take a value.".toList
  | missingCommand => "Missing command.".toList
  | noSuchCommand name => "No such command ".toList ++ name.quoted ++ ['.']
  | missingOperands operands => "Missing argument '".toList ++ operands ++ "'.".toList
  | missingFile parameter path =>
    invalidValue parameter ("File ".toList ++ path.quoted ++ " does not exist.".toList)
  | notAFile parameter path =>
    invalidValue parameter ("File ".toList ++ path.quoted ++ " is a directory.".toList)
  | notInteger parameter value =>
    invalidValue parameter (value.quoted ++ " is not a valid integer.".toList)
  | notAChoice parameter value choices =>
    invalidValue parameter
      (value.quoted ++ " is not one of ".toList ++
        [',', ' '].intercalate (choices.map Text.quoted) ++ ['.'])
  | conflict => "--check and --stdout cannot be used together".toList

/-- Whether the usage is shown with the error; it is not for an option with a value too few or too
many. -/
def showsUsage : UsageError → Bool
  | noArgument _ => false
  | unwantedValue _ => false
  | _ => true

def report (scope : Scope) (e : UsageError) : Text :=
  (if e.showsUsage then
    (scope.usage ++ "\nTry '" ++ scope.callName ++ " --help' for help.\n\n").toList
  else []) ++ "Error: ".toList ++ e.message ++ ['\n']

end UsageError

end ClassFormat.Command
