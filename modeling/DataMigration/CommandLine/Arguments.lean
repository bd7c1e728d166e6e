import DataMigration.CommandLine.Form
import DataMigration.Dict
import DataMigration.Text.Cut

/-!
# Reading the command line

The words after the name of a command are an operand and options in any order. The value of an
option is the next word or follows an equals sign. After `--` a word is never an option.
-/

namespace DataMigration.CommandLine

/-- What is wrong with a command line. -/
inductive Misuse where
  | noCommand
  | unknownCommand (word : String)
  | unexpected (word : String)
  | noValue (option : String)
  | needlessValue (option value : String)
  | badValue (option value : String)
  | repeated (option : String)
  | missing (names : List String)
  deriving DecidableEq, Repr

/-- The wording of what is wrong. -/
def Misuse.message : Misuse → String
  | .noCommand => "error: a command is required"
  | .unknownCommand word => "error: unrecognized subcommand '" ++ word ++ "'"
  | .unexpected word => "error: unexpected argument '" ++ word ++ "' found"
  | .noValue option => "error: a value is required for '" ++ option ++ "' but none was supplied"
  | .needlessValue option value =>
    "error: unexpected value '" ++ value ++ "' for '" ++ option ++
      "' found; no more were expected"
  | .badValue option value => "error: invalid value '" ++ value ++ "' for '" ++ option ++ "'"
  | .repeated option => "error: the argument '" ++ option ++ "' cannot be used multiple times"
  | .missing names =>
    "error: the following required arguments were not provided:" ++
      String.join (names.map fun name => "\n  " ++ name)

/-- Why words are not taken as a command. -/
inductive Refusal where
  /-- They ask for help. -/
  | help
  | misuse (problem : Misuse)
  deriving DecidableEq, Repr

/-- The operand and options that were given. -/
structure Arguments where
  operand : Option String := none
  /-- The options by their names, each with its values; a switch has none. -/
  options : Dict (List String) := []
  deriving DecidableEq, Repr

namespace Arguments

/-- The option was given. -/
def has (a : Arguments) (name : String) : Bool := Dict.contains a.options name

/-- All values of an option. -/
def values (a : Arguments) (name : String) : List String := (Dict.get? a.options name).getD []

/-- The value of an option. -/
def value? (a : Arguments) (name : String) : Option String := (a.values name).head?

end Arguments

namespace OptionForm

/-- Adds a switch to what was given. -/
def switchOn (o : OptionForm) (a : Arguments) : Except Misuse Arguments :=
  if a.has o.name && !o.isRepeatable then .error (.repeated o.shown)
  else .ok { a with options := Dict.insert a.options o.name [] }

/-- Adds an option with its value to what was given. -/
def take (o : OptionForm) (kind : ValueKind) (value : String) (a : Arguments) :
    Except Misuse Arguments :=
  if a.has o.name && !o.isRepeatable then .error (.repeated o.shown)
  else if kind.accepts value then
    .ok { a with options := Dict.insert a.options o.name (a.values o.name ++ [value]) }
  else if value = "" then .error (.noValue o.shown)
  else .error (.badValue o.shown value)

end OptionForm

/-- A word with a dash in front; a dash alone is a name. -/
def isMarked (word : String) : Bool := Text.startsWith "-" word && word != "-"

/-- The name in a word with two dashes in front, and the value after the equals sign. -/
def longOption? (word : String) : Option (String × Option String) :=
  (Text.afterStart? "--" word).map fun rest =>
    match Text.cut? "=" rest with
    | some (name, value) => (name, some value)
    | none => (rest, none)

namespace CommandForm

/-- Adds the operand to what was given. -/
def takeOperand (form : CommandForm) (a : Arguments) (word : String) : Except Misuse Arguments :=
  if a.operand.isSome then .error (.unexpected word)
  else if word = "" then .error (.noValue ("<" ++ form.operand ++ ">"))
  else .ok { a with operand := some word }

/-- Goes on with what was given, unless it was misused. -/
def taken {α : Type} (x : Except Misuse Arguments) (next : Arguments → Except Refusal α) :
    Except Refusal α :=
  match x with
  | .ok a => next a
  | .error problem => .error (.misuse problem)

/-- A word with a dash in front that is no option asks for help or is a mistake. -/
def refused (word : String) : Refusal :=
  if word = "--help" ∨ Text.startsWith "-h" word then .help else .misuse (.unexpected word)

/-- Reads words and adds them to what was given. -/
def readWords (form : CommandForm) : List String → Arguments → Except Refusal Arguments
  | [], a => .ok a
  | word :: words, a =>
    if word = "--" then taken (words.foldlM form.takeOperand a) .ok
    else if isMarked word then
      match longOption? word with
      | none => .error (refused word)
      | some (name, value) =>
        match form.option? name with
        | none => .error (refused word)
        | some o =>
          match o.value, value with
          | none, none => taken (o.switchOn a) fun a => readWords form words a
          | none, some value => .error (.misuse (.needlessValue o.shown value))
          | some (_, kind), some value =>
            taken (o.take kind value a) fun a => readWords form words a
          | some (_, kind), none =>
            match words with
            | [] => .error (.misuse (.noValue o.shown))
            | value :: words =>
              if isMarked value then .error (.misuse (.noValue o.shown))
              else taken (o.take kind value a) fun a => readWords form words a
    else taken (form.takeOperand a word) fun a => readWords form words a

/-- The operand and the options that were not given although they have to be. -/
def missing (form : CommandForm) (a : Arguments) : List String :=
  (form.options.filter fun o => o.isRequired && !a.has o.name).map OptionForm.shown ++
    if a.operand.isSome then [] else ["<" ++ form.operand ++ ">"]

/-- Reads the words after the name of the command. -/
def read (form : CommandForm) (words : List String) : Except Refusal Arguments :=
  match form.readWords words {} with
  | .error refusal => .error refusal
  | .ok a =>
    match form.missing a with
    | [] => .ok a
    | names => .error (.misuse (.missing names))

end CommandForm

end DataMigration.CommandLine
