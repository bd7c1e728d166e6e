import DataMigration.Json.Write
import DataMigration.Report.Basic
import DataMigration.Text.Case
import DataMigration.Yaml.Write

/-!
# Formats of reports

A report is written for people to read, or as a JSON or YAML document.
-/

namespace DataMigration

/-- The format of a report. -/
inductive ReportFormat where
  | console
  | json
  | yaml
  deriving DecidableEq, Repr

namespace ReportFormat

/-- The name in documents and on the command line. -/
def name : ReportFormat → String
  | .console => "console"
  | .json => "json"
  | .yaml => "yaml"

/-- All formats. -/
def all : List ReportFormat := [.console, .json, .yaml]

/-- The format with a name. -/
def ofName? (s : String) : Option ReportFormat := all.find? fun f => f.name == s

end ReportFormat

namespace Report

/-- A number with one decimal place. -/
def tenths (x : Float) : String := Decimal.onePlace (Binary64.ofFloat x)

/-- The lines at the top. -/
def headLines (r : Report) : List String :=
  ["=== Migration Report ===", "", "Run: " ++ r.name ++ " (" ++ r.runId ++ ")",
    "Status: " ++ Text.toUpper r.status.name] ++
  (if r.dryRun then ["Mode: dry run"] else []) ++
  (r.seconds.toList.map fun x => "Duration: " ++ tenths x ++ "s") ++
  ["", "Records: " ++ natText r.processed ++ " processed, " ++ natText r.succeeded ++
    " succeeded, " ++ natText r.failed ++ " failed, " ++ natText r.skipped ++ " skipped (" ++
    tenths (r.successRate * 100.0) ++ "% success)"]

/-- The line of a step. -/
def stepLine (s : Step) : String :=
  "  [" ++ s.status.name ++ "] " ++ s.name ++ ": " ++ natText s.succeeded ++ "/" ++
    natText s.processed ++ " succeeded" ++
    if 0 < s.failed then ", " ++ natText s.failed ++ " failed" else ""

/-- A titled part of the report, which is left out when it has no lines. -/
def titled (title : String) (lines : List String) : List String :=
  if lines.isEmpty then [] else ["", title] ++ lines

/-- The report for people to read. -/
def consoleText (r : Report) : String :=
  String.join ((r.headLines ++ titled "Steps:" (r.steps.map stepLine) ++
    titled "Errors:" (r.errors.map fun e => "  • [" ++ e.phase.name ++ "] " ++ e.message) ++
    titled "Recommendations:" (r.advice.map fun a => "  • " ++ a)).map (· ++ "\n"))

/-- The report in a format. -/
def format (r : Report) : ReportFormat → String
  | .console => r.consoleText
  | .json => Json.pretty r.toValue
  | .yaml => Yaml.write r.toValue

end Report

end DataMigration
