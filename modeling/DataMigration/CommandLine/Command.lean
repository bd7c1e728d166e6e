import DataMigration.CommandLine.Arguments

/-!
# Commands

What the program can be told to do. The first word of a command line names the command.
-/

namespace DataMigration.CommandLine

/-- Where registered schemas and mappings come from. -/
structure RegistryPlaces where
  schemas : Option String := none
  mappings : Option String := none
  urls : List String := []
  deriving DecidableEq, Repr

/-- What to do. -/
inductive Command where
  | run (config : String) (mapping : Option String) (places : RegistryPlaces)
      (dryRun rollback : Bool) (format : ReportFormat)
  | validateMapping (mapping : String) (places : RegistryPlaces)
  | inferSchema (samples service entity : String) (output : Option String)
  | preview (record mapping source target : String) (places : RegistryPlaces)
  deriving DecidableEq, Repr

/-- The places among the arguments. -/
def Arguments.places (a : Arguments) : RegistryPlaces where
  schemas := a.value? "schemas"
  mappings := a.value? "mappings"
  urls := a.values "schema-url"

/-- The value of an option that has to be given. -/
def Arguments.text (a : Arguments) (name : String) : String := (a.value? name).getD ""

/-- Why a command line is not taken as a command, and which command it is about. -/
structure Refused where
  about : Option CommandForm := none
  reason : Refusal
  deriving DecidableEq, Repr

namespace Command

/-- The command with a form and arguments. -/
def ofArguments (form : CommandForm) (a : Arguments) : Command :=
  let operand := a.operand.getD ""
  if form = .run then
    .run operand (a.value? "mapping") a.places (a.has "dry-run") (a.has "rollback")
      (((a.value? "format").bind ReportFormat.ofName?).getD .console)
  else if form = .validateMapping then .validateMapping operand a.places
  else if form = .inferSchema then
    .inferSchema operand (a.text "service") (a.text "entity") (a.value? "output")
  else .preview operand (a.text "mapping") (a.text "source") (a.text "target") a.places

/-- What the words after `help` ask for. -/
def helpOn : List String → Refused
  | [] => { reason := .help }
  | ["help"] => { reason := .help }
  | word :: words =>
    match CommandForm.ofName? word, words with
    | some form, [] => { about := some form, reason := .help }
    | some form, next :: _ => { about := some form, reason := .misuse (.unknownCommand next) }
    | none, _ => { reason := .misuse (.unknownCommand word) }

/-- Reads a command line. -/
def ofWords : List String → Except Refused Command
  | [] => .error { reason := .misuse .noCommand }
  | word :: words =>
    match CommandForm.ofName? word with
    | some form =>
      match form.read words with
      | .ok a => .ok (ofArguments form a)
      | .error reason => .error { about := some form, reason }
    | none =>
      if word = "help" then .error (helpOn words)
      else if isMarked word then .error { reason := CommandForm.refused word }
      else .error { reason := .misuse (.unknownCommand word) }

end Command

end DataMigration.CommandLine
