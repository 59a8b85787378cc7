import Botwright.Failure
import Botwright.Journal
import Botwright.Schema.Validation
/-!
# What a command prints

A command tells of its work line by line. Lines of the log stand between the others, in the order
in which things happen.
-/
namespace Botwright

namespace LogEvent

def padded (name : String) : String :=
  String.ofList (List.replicate (5 - name.length) ' ') ++ name

def fieldText : FieldValue → String
  | .text s => s
  | .quoted s => Text.quoted s
  | .number n => toString n

def text (e : LogEvent) : String :=
  " " ++ padded e.level.name ++ " " ++ e.message ++
    String.join (e.fields.map fun (name, value) => " " ++ name ++ "=" ++ fieldText value)

end LogEvent

/-- Which events of the log are shown: none, or those from a level on. -/
inductive LogFilter where
  | silent
  | from (level : Level)
deriving DecidableEq, Inhabited

namespace LogFilter

def standard : LogFilter := .from .warn

def admits (filter : LogFilter) (e : LogEvent) : Bool :=
  match filter with
  | silent => false
  | .from level => level.rank ≤ e.level.rank

/-- The filter of a level's name; no event is as severe as an error. -/
def ofName? (name : String) : Option LogFilter :=
  match String.ofList (name.toList.map Char.toLower) with
  | "off" | "error" => some silent
  | "warn" => some (.from .warn)
  | "info" => some (.from .info)
  | "debug" | "trace" => some (.from .debug)
  | _ => none

end LogFilter

inductive CommandLine where
  | heading (text : String)
  | event (event : LogEvent)
  | remark (diagnostic : Diagnostic)
  | violation (violation : Schema.Violation)
  /-- A specification that was found valid, or whose template went to a destination. -/
  | passed (path : String) (destination : Option String)
  /-- A specification that failed; without a reason its violations follow. -/
  | failed (path : String) (reason : Option Failure)
  | created (path : String)
deriving Inhabited

namespace CommandLine

def severityLabel : Severity → String
  | .info => "note"
  | .warning => "warn"

def text : CommandLine → String
  | heading s => s
  | event e => e.text
  | remark d => "        " ++ severityLabel d.severity ++ ": " ++ d.context ++ " [" ++ d.code ++
      "]: " ++ d.message
  | violation v => "        - " ++ v.text
  | passed path none => "  ok    " ++ path
  | passed path (some destination) => "  ok    " ++ path ++ " -> " ++ destination
  | failed path none => "  FAIL  " ++ path
  | failed path (some reason) => "  FAIL  " ++ path ++ ": " ++ reason.message
  | created path => "Created " ++ path

def isShown (filter : LogFilter) : CommandLine → Bool
  | event e => filter.admits e
  | _ => true

end CommandLine

/-- What a command printed and how it ended: it could not start, or it ran and says whether every
specification passed. -/
structure CommandResult where
  lines : List CommandLine
  outcome : Except Failure Bool
deriving Inhabited

namespace CommandResult

def failed (reason : Failure) : CommandResult := ⟨[], .error reason⟩

def status (r : CommandResult) : Nat :=
  match r.outcome with
  | .ok true => 0
  | _ => 1

def output (filter : LogFilter) (r : CommandResult) : List String :=
  (r.lines.filter (·.isShown filter)).map CommandLine.text

def errors (r : CommandResult) : List String :=
  match r.outcome with
  | .ok _ => []
  | .error reason => ["af: " ++ reason.message]

end CommandResult
end Botwright
