import Botwright.Compile.Document
/-!
# Sessions

Several steps on one identifier source: raw draws and compilations, of which some may fail. What a
failing step drew stays drawn.
-/
namespace Botwright

inductive SessionStep where
  /-- Draws so many times. -/
  | draw (kind : Draw) (count : Nat)
  | compile (options : Options) (agent : Agent)
deriving Inhabited

/-- What a step gives: the last text drawn, or the result of a compilation. -/
inductive StepResult where
  | drawn (text : String)
  | compiled (result : Except Failure Compilation)
deriving Inhabited

namespace SessionStep

variable {σ : Type} [IdSource σ]

def run : SessionStep → StateM σ StepResult
  | draw kind count => fun source =>
      let (text, source) := IdSource.drawLast kind count "" source
      (.drawn text, source)
  | compile options agent => fun source =>
      let outcome := agent.compile options source
      (.compiled outcome.result, outcome.source)

def runAll : List SessionStep → StateM σ (List StepResult)
  | [] => return []
  | step :: rest => do
      let result ← step.run
      return result :: (← runAll rest)

end SessionStep
end Botwright
