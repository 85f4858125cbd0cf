import ClassFormat.Command.Usage

namespace ClassFormat.Command

/-- An option under one of its names. A switch gives a truth value, any other option takes a value.
-/
structure OptionRule (κ : Type) where
  name : String
  option : κ
  switch : Option Bool

inductive Given where
  | switch (on : Bool)
  | value (t : Text)
  deriving DecidableEq, Repr

/-- The options in the order in which they were given, and the operands. -/
structure Arguments (κ : Type) where
  given : List (κ × Given) := []
  operands : List Text := []

namespace Arguments

variable {κ : Type}

def withOptions (options : List (κ × Given)) (a : Arguments κ) : Arguments κ :=
  { a with given := options ++ a.given }

def withOperand (operand : Text) (a : Arguments κ) : Arguments κ :=
  { a with operands := operand :: a.operands }

def longRule? (rules : List (OptionRule κ)) (name : Text) : Option (OptionRule κ) :=
  rules.find? fun r => r.name.toList = name && name.take 2 = ['-', '-']

def letter? (rules : List (OptionRule κ)) (c : Char) : Option (κ × Given) :=
  rules.findSome? fun r =>
    match r.switch with
    | some on => if r.name.toList = ['-', c] then some (r.option, .switch on) else none
    | none => none

/-- The switches of bundled letters; the first unknown letter is an error. -/
def letters (rules : List (OptionRule κ)) : Text → Except UsageError (List (κ × Given))
  | [] => .ok []
  | c :: cs =>
    match letter? rules c with
    | some o => do return o :: (← letters rules cs)
    | none => .error (.noSuchOption ['-', c])

def attachedValue? (arg : Text) : Option Text :=
  match arg.dropWhile (· ≠ '=') with
  | [] => none
  | _ :: value => some value

/-- Cuts arguments into options and operands. A long option takes its value behind an equals sign or
as the next argument, and letters may be bundled behind one dash. A double dash ends the options; if
options and operands may not be mixed, the first operand does so too. -/
def read (rules : List (OptionRule κ)) (mixed : Bool) :
    List Text → Except UsageError (Arguments κ)
  | [] => .ok {}
  | arg :: args =>
    if arg = ['-', '-'] then .ok { operands := args }
    else if arg.head? = some '-' && arg.length > 1 then
      let name := arg.takeWhile (· ≠ '=')
      match longRule? rules name with
      | some r =>
        match r.switch, attachedValue? arg with
        | some _, some _ => .error (.unwantedValue name)
        | some on, none => do return (← read rules mixed args).withOptions [(r.option, .switch on)]
        | none, some v => do return (← read rules mixed args).withOptions [(r.option, .value v)]
        | none, none =>
          match args with
          | [] => .error (.noArgument name)
          | v :: args => do return (← read rules mixed args).withOptions [(r.option, .value v)]
      | none =>
        if arg.take 2 = ['-', '-'] then .error (.noSuchOption name)
        else do
          let options ← letters rules arg.tail
          return (← read rules mixed args).withOptions options
    else if mixed then do return (← read rules mixed args).withOperand arg
    else .ok { operands := arg :: args }

/-- Each option that was given, in the order of first appearance, with what was given last. -/
def lastGiven [BEq κ] (a : Arguments κ) : List (κ × Given) :=
  (a.given.map Prod.fst).eraseDups.filterMap fun o =>
    (a.given.reverse.find? fun g => g.1 == o)

end Arguments

end ClassFormat.Command
