import Botwright.Command.Dispatch
import Botwright.Identifier.Random
/-!
# The program

Reads arguments, runs the command on the files of the machine and prints what it tells. Log events
from warnings on are shown, or from the level that the environment names.
-/
namespace Botwright.Main

def faultOf : IO.Error → FileFault
  | .noFileOrDirectory .. => .missing
  | .alreadyExists .. => .alreadyThere
  | .inappropriateType _ code details =>
      if code = 20 then .notDirectory else if code = 21 then .isDirectory else .other details
  | e => .other (toString e)

def attempt {α : Type} (action : IO α) : IO (Except FileFault α) := do
  match ← action.toBaseIO with
  | .ok a => return .ok a
  | .error e => return .error (faultOf e)

instance : FileStore IO where
  read path := attempt (IO.FS.readFile path)
  makeDirectory path := attempt (IO.FS.createDir path)
  write path text := attempt (IO.FS.writeFile path text)

def poolSize : Nat := 4096

def seedOf (bytes : ByteArray) : UInt64 :=
  bytes.foldl (fun seed byte => seed * 256 + byte.toUInt64) 0

def sources (seed : UInt64) (index : Nat) : RandomIds :=
  RandomIds.ofSeed poolSize (seed + UInt64.ofNat index)

def logFilter : IO LogFilter := do
  let asked ← IO.getEnv "AF_LOG"
  return (asked.bind LogFilter.ofName?).getD LogFilter.standard

def usage : String :=
  "usage: af validate SPEC... [--schema FILE]\n" ++
    "       af generate SPEC... [--output PATH] [--config FILE] [--prefix NAME] " ++
    "[--environment-id ID]\n" ++
    "       af init [SLUG] [--cloud TAG] [--dir DIRECTORY] [--force]"

def runInvocation (i : Invocation) : IO UInt32 := do
  let filter ← logFilter
  let seed := seedOf (← IO.getRandomBytes 8)
  let result : CommandResult ← Command.run (sources seed) i
  for line in result.output filter do
    IO.println line
  for line in result.errors do
    IO.eprintln line
  return UInt32.ofNat result.status

end Botwright.Main

def main (args : List String) : IO UInt32 := do
  match Botwright.Arguments.request args with
  | .run i => Botwright.Main.runInvocation i
  | .version =>
      IO.println Botwright.Command.versionText
      return 0
  | .help =>
      IO.println Botwright.Main.usage
      return 0
  | .invalid =>
      IO.eprintln Botwright.Main.usage
      return 2
