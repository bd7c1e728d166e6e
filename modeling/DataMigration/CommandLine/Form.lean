import DataMigration.Report.Format

/-!
# The form of the command line

What each command takes: one operand, which is a path, and options. The same forms are the basis
for reading a command line and for the help on it.
-/

namespace DataMigration.CommandLine

/-- What the value of an option may be. -/
inductive ValueKind where
  | text
  /-- Any text but the empty one. -/
  | path
  /-- The name of a report format. -/
  | format
  deriving DecidableEq, Repr

/-- A text can be a value of this kind. -/
def ValueKind.accepts : ValueKind → String → Bool
  | .text, _ => true
  | .path, s => s != ""
  | .format, s => (ReportFormat.ofName? s).isSome

/-- An option of a command. -/
structure OptionForm where
  name : String
  /-- What stands for the value in help texts, and what the value may be. A switch has none. -/
  value : Option (String × ValueKind) := none
  isRequired : Bool := false
  /-- The option may be given more than once. -/
  isRepeatable : Bool := false
  about : String
  deriving DecidableEq, Repr

/-- An option as it is written, with what stands for its value. -/
def OptionForm.shown (o : OptionForm) : String :=
  match o.value with
  | none => "--" ++ o.name
  | some (value, _) => "--" ++ o.name ++ " <" ++ value ++ ">"

/-- A command with its operand and options. -/
structure CommandForm where
  name : String
  about : String
  /-- What stands for the operand in help texts. -/
  operand : String
  operandAbout : String
  options : List OptionForm
  deriving DecidableEq, Repr

namespace CommandForm

/-- The option with a name. -/
def option? (form : CommandForm) (name : String) : Option OptionForm :=
  form.options.find? fun o => o.name == name

/-- The options that say what is registered. -/
def registryOptions : List OptionForm := [
  { name := "schemas", value := some ("DIR", .path)
    about := "Directory of service schema documents (json/yaml)" },
  { name := "mappings", value := some ("DIR", .path)
    about := "Directory of mapping documents (json/yaml)" },
  { name := "schema-url", value := some ("URL", .text), isRepeatable := true
    about := "Fetch a service schema document over HTTP" }]

/-- Runs a migration. -/
def run : CommandForm where
  name := "run"
  about := "Run a migration described by a config file"
  operand := "CONFIG"
  operandAbout := "Migration config (yaml or json)"
  options := [{
    name := "mapping", value := some ("FILE", .path)
    about := "Mapping document, overrides mapping_file from the config" }] ++
    registryOptions ++ [
    { name := "dry-run", about := "Load into memory instead of the target service" },
    { name := "rollback", about := "Delete everything that was created once the run completes" },
    { name := "format", value := some ("FORMAT", .format)
      about := "[default: console] [possible values: console, json, yaml]" }]

/-- Checks a mapping. -/
def validateMapping : CommandForm where
  name := "validate-mapping"
  about := "Check a mapping document against the registered schemas"
  operand := "MAPPING"
  operandAbout := "Mapping document"
  options := registryOptions

/-- Infers a schema. -/
def inferSchema : CommandForm where
  name := "infer-schema"
  about := "Infer an entity schema from sample records"
  operand := "SAMPLES"
  operandAbout := "Sample records (json/yaml array, or an object with data/records)"
  options := [
    { name := "service", value := some ("SERVICE", .text), isRequired := true
      about := "Name of the service" },
    { name := "entity", value := some ("ENTITY", .text), isRequired := true
      about := "Name of the entity" },
    { name := "output", value := some ("FILE", .path)
      about := "Write the service schema here instead of printing it" }]

/-- Previews a record. -/
def preview : CommandForm where
  name := "preview"
  about := "Transform a single record and print the result"
  operand := "RECORD"
  operandAbout := "Source record (json/yaml object)"
  options := [
    { name := "mapping", value := some ("FILE", .path), isRequired := true
      about := "Mapping document" },
    { name := "source", value := some ("SOURCE", .text), isRequired := true
      about := "Source as service.entity" },
    { name := "target", value := some ("TARGET", .text), isRequired := true
      about := "Target as service.entity" }] ++ registryOptions

/-- All commands. -/
def all : List CommandForm := [run, validateMapping, inferSchema, preview]

/-- The command with a name. -/
def ofName? (name : String) : Option CommandForm := all.find? fun form => form.name == name

end CommandForm

/-! ## Help -/

/-- The name under which the program is called. -/
def programName : String := "data-migration"

/-- Names and what they are about, in two columns. -/
def columns (rows : List (String × String)) : List String :=
  let width := (rows.map fun row => row.1.length).foldl max 0
  rows.map fun row =>
    "  " ++ row.1 ++ String.ofList (List.replicate (width + 2 - row.1.length) ' ') ++ row.2

/-- How to call the program, or one of its commands. -/
def usage : Option CommandForm → String
  | none => "Usage: " ++ programName ++ " <COMMAND>"
  | some form =>
    let required := (form.options.filter (·.isRequired)).map fun o => " " ++ o.shown
    "Usage: " ++ programName ++ " " ++ form.name ++ " [OPTIONS]" ++ String.join required ++
      " <" ++ form.operand ++ ">"

/-- The row of the option that asks for help. -/
def helpRow : String × String := ("-h, --help", "Print help")

/-- The help on the program, or on one of its commands. -/
def help (about : Option CommandForm) : String :=
  let lines := match about with
    | none =>
      let rows := CommandForm.all.map fun (form : CommandForm) => (form.name, form.about)
      ["Migrate business records between SaaS data models", "", usage none, "", "Commands:"] ++
      columns rows ++
      ["", "Options:"] ++ columns [helpRow]
    | some form =>
      let rows := form.options.map fun (o : OptionForm) => (o.shown, o.about)
      [form.about, "", usage (some form), "", "Arguments:"] ++
      columns [("<" ++ form.operand ++ ">", form.operandAbout)] ++
      ["", "Options:"] ++ columns (rows ++ [helpRow])
  String.join (lines.map (· ++ "\n"))

end DataMigration.CommandLine
