import Botwright.Json.Basic
/-!
# Pointers into JSON values

A pointer is a list of steps, each the key of a field or the index of an item. Its text escapes
the tilde and the slash.
-/
namespace Botwright.Json

abbrev Pointer := List String

def escapeStep (step : String) : List Char :=
  step.toList.flatMap fun c => if c = '~' then ['~', '0'] else if c = '/' then ['~', '1'] else [c]

def unescapeStep : List Char → List Char
  | '~' :: '0' :: rest => '~' :: unescapeStep rest
  | '~' :: '1' :: rest => '/' :: unescapeStep rest
  | c :: rest => c :: unescapeStep rest
  | [] => []

def pointerText (p : Pointer) : String :=
  String.ofList (p.flatMap fun step => '/' :: escapeStep step)

def splitSteps : List Char → List (List Char)
  | [] => [[]]
  | c :: rest =>
      if c = '/' then [] :: splitSteps rest
      else match splitSteps rest with
        | [] => [[c]]
        | step :: steps => (c :: step) :: steps

/-- The pointer of a text, which is empty or begins with a slash. -/
def pointer? (text : String) : Option Pointer :=
  match text.toList with
  | [] => some []
  | '/' :: rest => some ((splitSteps rest).map fun step => String.ofList (unescapeStep step))
  | _ => none

/-- The index that a step names: decimal digits without a needless zero in front. -/
def index? (step : String) : Option Nat :=
  let digits := step.toList
  if digits.length > 1 ∧ digits.head? = some '0' then none else Text.readDigits? 10 digits

def step? (step : String) : Json → Option Json
  | .object fields => field? step fields
  | .array items => (index? step).bind (items[·]?)
  | _ => none

def resolve? : Pointer → Json → Option Json
  | [], v => some v
  | step :: rest, v => (step? step v).bind (resolve? rest)

end Botwright.Json
