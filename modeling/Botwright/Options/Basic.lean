import Botwright.Decode.Record
/-!
# Compile options

What shapes a compilation besides the specification. Every option has a default.
-/
namespace Botwright

structure Options where
  /-- The publisher's name in front of every schema name. -/
  publisher : String := "af"
  environmentId : String := "00000000-0000-0000-0000-000000000000"
  /-- The cloud of a specification that names none. -/
  cloud : String := "commercial"
  /-- Whether the finished document is checked for dangling references and unreachable nodes. -/
  checkReferences : Bool := true
deriving DecidableEq, Inhabited

namespace Options

open Decode

def toJson (o : Options) : Json :=
  .object [("prefix", .string o.publisher), ("environment_id", .string o.environmentId),
    ("cloud", .string o.cloud), ("check_references", .bool o.checkReferences)]

def ofJson (v : Json) : Decoded Options := do
  let publisher := field v "prefix" 0 text
  let environment := field v "environment_id" 1 text
  let cloud := field v "cloud" 2 text
  let check := field v "check_references" 3 boolean
  checkRecord .plain "CompileOptions" [slot "prefix" .defaulted publisher,
    slot "environment_id" .defaulted environment, slot "cloud" .defaulted cloud,
    slot "check_references" .defaulted check] v
  let standard : Options := {}
  return {
    publisher := (← publisher).getD standard.publisher
    environmentId := (← environment).getD standard.environmentId
    cloud := (← cloud).getD standard.cloud
    checkReferences := (← check).getD standard.checkReferences }

end Options
end Botwright
