import Botwright.Files.Path
import Botwright.Options.Basic
/-!
# Arguments

The command line names one command with its specifications and options. Options may stand anywhere
behind the command; two dashes end them. No option may be given twice.
-/
namespace Botwright

inductive Invocation where
  | validate (specs : List String) (schema : Option String)
  | generate (specs : List String) (output : String)
      (config publisher environmentId : Option String)
  | init (name : Option String) (cloud directory : String) (force : Bool)
deriving DecidableEq, Inhabited

inductive Request where
  | run (invocation : Invocation)
  | version
  | help
  | invalid
deriving DecidableEq, Inhabited

namespace Arguments

structure Flag where
  name : String
  letter : Option Char
  takesValue : Bool
deriving DecidableEq, Inhabited

structure Sorted where
  plain : List String
  named : List (String × String)
deriving DecidableEq, Inhabited

inductive Obstacle where
  | help | invalid
deriving DecidableEq, Inhabited

def Sorted.addPlain (arg : String) (s : Sorted) : Sorted := { s with plain := arg :: s.plain }

def Sorted.addNamed (name value : String) (s : Sorted) : Except Obstacle Sorted :=
  if s.named.any (·.1 == name) then .error .invalid
  else .ok { s with named := (name, value) :: s.named }

/-- What an argument is by its dashes. A single dash is a plain argument. -/
inductive Form where
  | plain
  | ending
  | long (name : String) (attached : Option String)
  | short (letter : Char) (attached : Option String)
deriving DecidableEq, Inhabited

/-- Text behind the letter of an option is its value, with an equals sign in front or not. -/
def attachedTo : List Char → Option String
  | [] => none
  | '=' :: value => some (String.ofList value)
  | value => some (String.ofList value)

def formOf (arg : String) : Form :=
  match arg.toList with
  | ['-', '-'] => .ending
  | '-' :: '-' :: rest =>
      let name := rest.takeWhile (· != '=')
      match rest.drop name.length with
      | [] => .long (String.ofList name) none
      | _ :: value => .long (String.ofList name) (some (String.ofList value))
  | '-' :: letter :: rest => .short letter (attachedTo rest)
  | _ => .plain

def flagOf (flags : List Flag) : Form → Option (Flag × Option String)
  | .long name attached => (flags.find? (·.name == name)).map (·, attached)
  | .short letter attached => (flags.find? (·.letter == some letter)).map (·, attached)
  | _ => none

def asksForHelp : Form → Bool
  | .long "help" none => true
  | .short 'h' _ => true
  | _ => false

/-- Sorts arguments; the plain ones are given back latest first. -/
def sort (flags : List Flag) (s : Sorted) : List String → Except Obstacle Sorted
  | [] => .ok s
  | arg :: rest =>
      match formOf arg with
      | .plain => sort flags (s.addPlain arg) rest
      | .ending => .ok { s with plain := rest.reverse ++ s.plain }
      | form =>
          if asksForHelp form then .error .help
          else match flagOf flags form with
            | none => .error .invalid
            | some (flag, attached) =>
                match flag.takesValue, attached with
                | false, none =>
                    match s.addNamed flag.name "" with
                    | .error e => .error e
                    | .ok s => sort flags s rest
                | false, some _ => .error .invalid
                | true, some value =>
                    match s.addNamed flag.name value with
                    | .error e => .error e
                    | .ok s => sort flags s rest
                | true, none =>
                    match rest with
                    | [] => .error .invalid
                    | value :: rest =>
                        if formOf value = .plain then
                          match s.addNamed flag.name value with
                          | .error e => .error e
                          | .ok s => sort flags s rest
                        else .error .invalid

def Sorted.value? (s : Sorted) (name : String) : Option String :=
  (s.named.find? (·.1 == name)).map (·.2)

def arePaths (paths : List String) : Bool := paths.all (!·.isEmpty)

def validateFlags : List Flag := [⟨"schema", some 's', true⟩]

def generateFlags : List Flag :=
  [⟨"output", some 'o', true⟩, ⟨"config", some 'c', true⟩, ⟨"prefix", none, true⟩,
    ⟨"environment-id", none, true⟩]

def initFlags : List Flag :=
  [⟨"cloud", some 'c', true⟩, ⟨"dir", none, true⟩, ⟨"force", none, false⟩]

def defaultOutput : String := "templates/"

def defaultDirectory : String := "specs"

def validateOf (s : Sorted) : Option Invocation :=
  let specs := s.plain.reverse
  let schema := s.value? "schema"
  if specs.isEmpty || !arePaths (specs ++ schema.toList) then none
  else some (.validate specs schema)

def generateOf (s : Sorted) : Option Invocation :=
  let specs := s.plain.reverse
  let config := s.value? "config"
  if specs.isEmpty || !arePaths (specs ++ config.toList) then none
  else some (.generate specs ((s.value? "output").getD defaultOutput) config (s.value? "prefix")
    (s.value? "environment-id"))

def initOf (s : Sorted) : Option Invocation :=
  let directory := (s.value? "dir").getD defaultDirectory
  match s.plain with
  | _ :: _ :: _ => none
  | name =>
      if directory.isEmpty then none
      else some (.init name.head? ((s.value? "cloud").getD ({} : Options).cloud) directory
        (s.value? "force").isSome)

def requestOf (flags : List Flag) (invocation : Sorted → Option Invocation)
    (args : List String) : Request :=
  match sort flags ⟨[], []⟩ args with
  | .error .help => .help
  | .error .invalid => .invalid
  | .ok s =>
      match invocation s with
      | some i => .run i
      | none => .invalid

/-- What the arguments of the program ask for. -/
def request : List String → Request
  | [] => .invalid
  | command :: args =>
      if command = "validate" then requestOf validateFlags validateOf args
      else if command = "generate" then requestOf generateFlags generateOf args
      else if command = "init" then requestOf initFlags initOf args
      else if command = "--version" ∨ command = "-V" then .version
      else if command = "help" ∨ command = "--help" ∨ command = "-h" then .help
      else .invalid

end Arguments
end Botwright
