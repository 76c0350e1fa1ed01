import ModelAssist.CommandLine.Shape
import ModelAssist.Text.Likeness
import ModelAssist.Text.Quoted

/-!
# Arguments

What the arguments of a command give: its options with their values, and its operands.  Options and
operands may be mixed, except that a group of commands takes no options behind the name of one of
them; two dashes end the options.
-/

namespace ModelAssist

/-- What is wrong with the arguments of a command. -/
inductive UsageFault where
  | nothingAsked
  /-- There is no such option, but perhaps ones like it. -/
  | unknownOption (name : String) (alike : List String)
  /-- An option needs a value. -/
  | valueMissing (name : String)
  /-- An option takes no value. -/
  | valueNotTaken (name : String)
  /-- There is no such command, but perhaps ones like it. -/
  | unknownCommand (name : String) (alike : List String)
  | commandMissing
  | operandMissing (name : String)
  /-- There are operands that nobody asked for. -/
  | operandsLeft (operands : List String)
  /-- A value is not admitted where it stands. -/
  | badValue (place reason : String)
deriving DecidableEq, Repr, Inhabited

namespace UsageFault

/-- A hint to names that may be meant. -/
def hint (alike : List String) (sort : String) : String :=
  match alike with
  | [] => ""
  | [name] => " Did you mean " ++ Text.quoted name ++ "?"
  | names => " (Possible " ++ sort ++ ": " ++ String.intercalate ", "
      ((names.mergeSort fun left right => !decide (right < left)).map Text.quoted) ++ ")"

/-- What is said about wrong arguments. -/
def message : UsageFault → String
  | .nothingAsked => ""
  | .unknownOption name alike =>
    "No such option " ++ Text.quoted name ++ "." ++ hint alike "options"
  | .valueMissing name => "Option " ++ Text.quoted name ++ " requires an argument."
  | .valueNotTaken name => "Option " ++ Text.quoted name ++ " does not take a value."
  | .unknownCommand name alike =>
    "No such command " ++ Text.quoted name ++ "." ++ hint alike "commands"
  | .commandMissing => "Missing command."
  | .operandMissing name => "Missing argument " ++ Text.quoted name ++ "."
  | .operandsLeft operands =>
    "Got unexpected extra argument" ++ (if operands.length = 1 then "" else "s") ++ " (" ++
      String.intercalate " " operands ++ ")"
  | .badValue place reason => "Invalid value for " ++ Text.quoted place ++ ": " ++ reason

end UsageFault

/-- What arguments give. -/
structure Arguments where
  /-- The options with their values, in order; an option without an operand has an empty value. -/
  given : List (OptionShape × String)
  operands : List String
deriving DecidableEq, Repr, Inhabited

namespace Arguments

/-- The value of an option; the last one counts. -/
def value? (arguments : Arguments) (role : OptionRole) : Option String :=
  (arguments.given.reverse.find? (·.1.role = role)).map (·.2)

/-- Holds if an option is given. -/
def has (arguments : Arguments) (role : OptionRole) : Bool :=
  (arguments.value? role).isSome

/-- The first option that ends the work of the command. -/
def eager? (arguments : Arguments) : Option OptionRole :=
  (arguments.given.find? (·.1.role.isEager)).map (·.1.role)

/-- What an argument that names options gives. -/
inductive Naming where
  | complete (given : List (OptionShape × String))
  /-- An option whose value is the next argument. -/
  | awaiting (option : OptionShape)
deriving DecidableEq, Repr, Inhabited

/-- The options that the letters of an argument name. -/
def readLetters (shape : CommandShape) (letters : List Char) : Except UsageFault Naming := do
  let options ← letters.mapM fun letter =>
    match shape.withLetter? letter with
    | some option => Except.ok (option, "")
    | none => .error (.unknownOption ("-" ++ letter.toString) [])
  return .complete options

/-- The parts of an argument before and behind its first equals sign. -/
def splitValue (argument : String) : String × Option String :=
  let name := argument.toList.takeWhile (· ≠ '=')
  match argument.toList.dropWhile (· ≠ '=') with
  | [] => (argument, none)
  | _ :: value => (String.ofList name, some (String.ofList value))

/-- What an argument that names an option, or several by their letters, gives. -/
def readNaming (shape : CommandShape) (argument : String) : Except UsageFault Naming :=
  let (name, value) := splitValue argument
  match shape.withName? name, value with
  | some option, none =>
    .ok (if option.operand = .nothing then .complete [(option, "")] else .awaiting option)
  | some option, some value =>
    if option.operand = .nothing then .error (.valueNotTaken name)
    else .ok (.complete [(option, value)])
  | none, _ =>
    if "--".toList.isPrefixOf argument.toList then
      .error (.unknownOption name (Text.alike name (shape.options.map (·.written))))
    else readLetters shape (argument.toList.drop 1)

/-- Holds of the arguments that name options. -/
def namesOption (argument : String) : Bool :=
  argument.toList.head? = some '-' && argument ≠ "-"

/-- What some arguments give in front of others. -/
def followedBy (given : List (OptionShape × String)) (others : Arguments) : Arguments :=
  { others with given := given ++ others.given }

/-- What the arguments of a command give. -/
def read (shape : CommandShape) : List String → Except UsageFault Arguments
  | [] => .ok ⟨[], []⟩
  | argument :: rest =>
    if argument = "--" then .ok ⟨[], rest⟩
    else if !namesOption argument then
      if shape.isGroup then .ok ⟨[], argument :: rest⟩
      else (read shape rest).map fun others =>
        { others with operands := argument :: others.operands }
    else
      match readNaming shape argument with
      | .error fault => .error fault
      | .ok (.complete given) => (read shape rest).map (followedBy given)
      | .ok (.awaiting option) =>
        match rest with
        | [] => .error (.valueMissing option.written)
        | value :: rest => (read shape rest).map (followedBy [(option, value)])

end Arguments

end ModelAssist
