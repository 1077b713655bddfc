/-!
Reading the words of a command line by a grammar of commands. A command takes options and either
further commands or arguments. Options may stand at every level from their own downwards if the
levels below know them too; what a deeper level gives wins.

An option is taken in when the next known word arrives, or its level ends. So a fault in a command
further down is found before a fault in the option in front of it.
-/
namespace FleetRegistry.Command

/-- What is wrong with a command line, or why there is nothing to run. -/
inductive UsageFault where
  | helpRequested
  | versionRequested
  /-- Nothing is given where a command has to stand. -/
  | nothingGiven
  /-- Options are given where a command has to stand, and no command. -/
  | missingCommand
  | unknownCommand
  | invalidValue
  | missingArgument
  | unknownArgument
  | repeatedOption
  | surplusValue
  deriving DecidableEq, Repr

inductive Parameter where
  /-- Nothing: the option is a switch. -/
  | switch
  | text
  | nonEmptyText
  | oneOf (values : List String)
  deriving DecidableEq, Repr

def Parameter.accepts (value : String) : Parameter → Bool
  | switch => true
  | text => true
  | nonEmptyText => !value.isEmpty
  | oneOf values => value ∈ values

structure Flag where
  name : String
  letter : Option Char := none
  parameter : Parameter := .text
  deriving DecidableEq, Repr

/-- The switch that asks for help. Every command has it. -/
def helpFlag : Flag := { name := "help", letter := some 'h', parameter := .switch }

/-- The switch that asks for the version. -/
def versionFlag : Flag := { name := "version", letter := some 'V', parameter := .switch }

/-- The command that asks for help about the commands that follow it. -/
def helpCommand : String := "help"

/-- A command: its options, those that have to be given, how many arguments it takes, all of which
have to be given, and the commands below it, with the name by which each is known further on. -/
inductive Grammar where
  | command (flags : List Flag) (required : List String) (arguments : Nat)
    (deeper : List (String × String × Grammar))
  deriving Inhabited

namespace Grammar

def flags : Grammar → List Flag
  | command flags _ _ _ => flags

def required : Grammar → List String
  | command _ required _ _ => required

def arguments : Grammar → Nat
  | command _ _ arguments _ => arguments

def deeper : Grammar → List (String × String × Grammar)
  | command _ _ _ deeper => deeper

/-- Whether a command only leads to other commands. -/
def isGroup (g : Grammar) : Bool := !g.deeper.isEmpty

def find? (name : String) (g : Grammar) : Option (String × Grammar) := g.deeper.lookup name

def knows (word : String) (g : Grammar) : Bool := word = helpCommand || (g.find? word).isSome

def flagByName? (name : String) (g : Grammar) : Option Flag :=
  (helpFlag :: g.flags).find? (·.name = name)

def flagByLetter? (letter : Char) (g : Grammar) : Option Flag :=
  (helpFlag :: g.flags).find? (·.letter = some letter)

end Grammar

structure Level where
  /-- Options with their values; a switch has an empty one. -/
  options : List (String × String) := []
  arguments : List String := []
  /-- An option that is not taken in yet, and its value. -/
  pending : Option (Flag × Option String) := none
  /-- Whether everything that follows is an argument. -/
  argumentsOnly : Bool := false

namespace Level

def take (flag : Flag) (value : String) (level : Level) : Except UsageFault Level :=
  if flag = helpFlag then .error .helpRequested
  else if flag = versionFlag then .error .versionRequested
  else if (level.options.lookup flag.name).isSome then .error .repeatedOption
  else if flag.parameter.accepts value then
    .ok { level with options := level.options ++ [(flag.name, value)] }
  else .error .invalidValue

def settle (level : Level) : Except UsageFault Level :=
  match level.pending with
  | none => .ok level
  | some (_, none) => .error .invalidValue
  | some (flag, some value) => { level with pending := none }.take flag value

/-- Whether the next word is a value, unless it is an option. -/
def awaitsValue (level : Level) : Bool := level.pending.any (·.2.isNone) && !level.argumentsOnly

def begin (flag : Flag) (value : Option String) (level : Level) : Except UsageFault Level :=
  match flag.parameter, value with
  | .switch, some _ => .error .surplusValue
  | .switch, none => do (← level.settle).take flag ""
  | _, some value => do (← level.settle).take flag value
  | _, none => return { ← level.settle with pending := some (flag, none) }

/-- Takes an option with a long name, as it stands behind its two dashes. -/
def long (g : Grammar) (word : List Char) (level : Level) : Except UsageFault Level :=
  let name := String.ofList (word.takeWhile (· ≠ '='))
  let value := match word.dropWhile (· ≠ '=') with
    | _ :: value => some (String.ofList value)
    | [] => none
  match g.flagByName? name with
  | some flag => level.begin flag value
  | none => .error .unknownArgument

/-- Takes an option by its letter, as it stands behind its dash. What follows the letter of an
option is its value, with or without an equals sign. No switch with a letter leaves anything to be
read after it. -/
def short (g : Grammar) (letter : Char) (rest : List Char) (level : Level) :
    Except UsageFault Level :=
  match g.flagByLetter? letter with
  | none => .error .unknownArgument
  | some flag =>
    if flag.parameter = .switch then level.begin flag none
    else match rest with
      | [] => level.begin flag none
      | '=' :: value => level.begin flag (some (String.ofList value))
      | value => level.begin flag (some (String.ofList value))

def argument (g : Grammar) (word : String) (level : Level) : Except UsageFault Level :=
  if level.arguments.length < g.arguments then do
    let level ← level.settle
    return { level with arguments := level.arguments ++ [word] }
  else if g.isGroup && !(level.argumentsOnly && g.knows word) then
    .error .unknownCommand
  else .error .unknownArgument

def word (g : Grammar) (word : String) (level : Level) : Except UsageFault Level :=
  if level.argumentsOnly then level.argument g word
  else
    let plain : Except UsageFault Level :=
      match level.pending with
      | some (flag, none) => .ok { level with pending := some (flag, some word) }
      | _ => level.argument g word
    match word.toList with
    | ['-', '-'] => .ok { level with argumentsOnly := true }
    | '-' :: '-' :: rest => level.long g rest
    | '-' :: letter :: rest => level.short g letter rest
    | _ => plain

def finish (g : Grammar) (level : Level) : Except UsageFault Level := do
  let level ← level.settle
  if g.isGroup then
    .error (if level.options.isEmpty then .nothingGiven else .missingCommand)
  else if level.arguments.length < g.arguments then .error .missingArgument
  else if !g.required.all fun name => (level.options.lookup name).isSome then
    .error .missingArgument
  else return level

end Level

/-- What a request for help about some commands comes to. -/
def helpFault : Grammar → List String → UsageFault
  | _, [] => .helpRequested
  | g, name :: rest =>
    if g.isGroup && name = helpCommand then
      if rest.isEmpty then .helpRequested else .unknownCommand
    else match g.find? name with
      | some (_, below) => helpFault below rest
      | none => .unknownCommand

/-- The levels of a command line, each with the name of the command that it belongs to. -/
abbrev Invocation := List (String × Level)

/-- Reads a level and those below it. -/
def readLevels (name : String) (g : Grammar) (level : Level) :
    List String → Except UsageFault Invocation
  | [] => (level.finish g).map fun level => [(name, level)]
  | word :: rest =>
    if level.argumentsOnly || level.awaitsValue then do
      readLevels name g (← level.word g word) rest
    else if g.isGroup && word = helpCommand then .error (helpFault g rest)
    else match g.find? word with
      | some (nameBelow, below) => do
        let deeper ← readLevels nameBelow below {} rest
        return (name, ← level.settle) :: deeper
      | none => do readLevels name g (← level.word g word) rest

namespace Invocation

def path (levels : Invocation) : List String := levels.map (·.1)

/-- The value of an option, at the deepest level that gives it. -/
def option? (name : String) (levels : Invocation) : Option String :=
  levels.reverse.findSome? (·.2.options.lookup name)

def isSet (name : String) (levels : Invocation) : Bool := (levels.option? name).isSome

def arguments (levels : Invocation) : List String :=
  (levels.getLast?.map (·.2.arguments)).getD []

end Invocation

end FleetRegistry.Command
