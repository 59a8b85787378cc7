import Botwright.Options.Basic
import Botwright.Failure
import Botwright.Journal
import Botwright.Naming
import Botwright.Toml.Excerpt
import Botwright.Toml.Reader
/-!
# Options as text

Options may be kept in a file. Every key may be left out, but a key that is none of them is refused,
so that a misspelt key does not go unnoticed.
-/
namespace Botwright.Options

open Toml

def keys : List String := ["prefix", "environment_id", "cloud", "check_references"]

/-- A field that does not fit, where it stands and why. -/
structure Misfit where
  span : Span
  reason : String

def positional (x : Binary64) : String :=
  let d := x.shortest
  let text := (toString d.digits).toList
  let point := (text.length : Int) + d.exponent
  let body :=
    if 0 ≤ d.exponent then text ++ List.replicate d.exponent.toNat '0' ++ ['.', '0']
    else if 0 < point then text.take point.toNat ++ '.' :: text.drop point.toNat
    else ['0', '.'] ++ List.replicate (-point).toNat '0' ++ text
  (if d.negative then "-" else "") ++ String.ofList body

def floatText (x : Binary64) : String :=
  if x.isFinite then positional x
  else if x = Binary64.notANumber then "NaN"
  else if x.negative then "-inf"
  else "inf"

/-- What an item is, in a message. A moment counts as a map. -/
def foundPhrase : Item → String
  | .scalar (.text s) _ => DecodeError.foundPhrase (.text s)
  | .scalar (.boolean b) _ => DecodeError.foundPhrase (.boolean b)
  | .scalar (.integer n) _ => DecodeError.foundPhrase (.integer n)
  | .scalar (.float x) _ => "floating point " ++ DecodeError.code (floatText x)
  | .array .. | .tables .. => DecodeError.foundPhrase .sequence
  | .scalar .moment _ | .braces .. | .table .. => DecodeError.foundPhrase .map

def misfit (wanted : Wanted) (key : Key) (found : Item) : Misfit :=
  ⟨found.span?.getD key.span,
    "invalid type: " ++ foundPhrase found ++ ", expected " ++ DecodeError.wantedPhrase wanted⟩

def textOf (key : Key) : Item → Except Misfit String
  | .scalar (.text s) _ => .ok s
  | found => .error (misfit .text key found)

def booleanOf (key : Key) : Item → Except Misfit Bool
  | .scalar (.boolean b) _ => .ok b
  | found => .error (misfit .boolean key found)

def set (options : Options) (field : Key × Item) : Except Misfit Options :=
  let (key, item) := field
  if key.text = "prefix" then (textOf key item).map ({ options with publisher := · })
  else if key.text = "environment_id" then
    (textOf key item).map ({ options with environmentId := · })
  else if key.text = "cloud" then (textOf key item).map ({ options with cloud := · })
  else if key.text = "check_references" then
    (booleanOf key item).map ({ options with checkReferences := · })
  else .error ⟨key.span,
    "unknown field " ++ DecodeError.code key.text ++ ", expected " ++
      DecodeError.alternatives keys⟩

def unreadable : String := "failed to parse options TOML"

/-- The options in a text, with a usable publisher. -/
def ofToml (text : String) : Except Failure Options :=
  match parse? text with
  | none => .error (.configuration unreadable)
  | some fields =>
      match fields.foldlM set ({} : Options) with
      | .error m =>
          .error (.configuration (unreadable ++ ": " ++ excerpt text.toList m.span m.reason))
      | .ok options => (Naming.checkPublisher options.publisher).map fun _ => options

def loadedEvent (options : Options) : LogEvent :=
  ⟨.debug, "loaded compile options",
    [("prefix", .text options.publisher), ("cloud", .text options.cloud)]⟩

end Botwright.Options
