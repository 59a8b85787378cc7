import Botwright.Decimal.Numeral
import Botwright.Json.Basic
/-!
# Reading JSON text

One pass cuts the text into tokens, a second pass builds the value with a stack of the containers
that are still open. Both passes are folds. Integers beyond 64 bits become floating-point numbers,
and of a repeated key the last value counts.
-/
namespace Botwright.Json

inductive Token where
  | openArray | closeArray | openObject | closeObject | comma | colon
  | scalar (value : Json)

/-- What the characters read so far are part of. Strings collect code points and escaped
surrogates, latest first. -/
inductive LexState where
  | between
  | word (read : List Char)
  | text (read : List Nat)
  | escape (read : List Nat)
  | escapedUnit (read : List Nat) (digits : List Char)

/-- Joins escaped surrogate pairs; a surrogate on its own is refused. -/
def joinSurrogates : List Nat → Option (List Char)
  | [] => some []
  | [c] => if 0xd800 ≤ c ∧ c < 0xe000 then none else some [Char.ofNat c]
  | c :: d :: rest =>
      if 0xd800 ≤ c ∧ c < 0xdc00 then
        if 0xdc00 ≤ d ∧ d < 0xe000 then
          (joinSurrogates rest).map
            (Char.ofNat (0x10000 + (c - 0xd800) * 0x400 + (d - 0xdc00)) :: ·)
        else none
      else if 0xdc00 ≤ c ∧ c < 0xe000 then none
      else (joinSurrogates (d :: rest)).map (Char.ofNat c :: ·)

def numberOf? (negative : Bool) (cs : List Char) : Option Json :=
  match DecimalNumeral.ofChars? cs with
  | none => none
  | some n =>
      if !n.isStrict then none
      else
        let value : Int :=
          let magnitude : Int := DecimalNumeral.digitsValue n.whole
          if negative then -magnitude else magnitude
        let float := (n.toDecimal negative).toBinary64
        if n.isInteger && decide (leastInteger ≤ value ∧ value ≤ greatestInteger) &&
            !(negative && value == 0) then
          some (.int value)
        else if float.isFinite then some (.number (.float float))
        else none

def wordOf? (cs : List Char) : Option Json :=
  if cs = "null".toList then some .null
  else if cs = "true".toList then some (.bool true)
  else if cs = "false".toList then some (.bool false)
  else match cs with
    | '-' :: rest => numberOf? true rest
    | _ => numberOf? false cs

def isBlank (c : Char) : Bool := c == ' ' || c == '\n' || c == '\r' || c == '\t'

def punctuation? (c : Char) : Option Token :=
  if c = '[' then some .openArray
  else if c = ']' then some .closeArray
  else if c.toNat = 123 then some .openObject
  else if c.toNat = 125 then some .closeObject
  else if c = ',' then some .comma
  else if c = ':' then some .colon
  else none

def escapedChar? (c : Char) : Option Nat :=
  if c = '"' ∨ c = '\\' ∨ c = '/' then some c.toNat
  else if c = 'b' then some 8
  else if c = 'f' then some 12
  else if c = 'n' then some 10
  else if c = 'r' then some 13
  else if c = 't' then some 9
  else none

def lexBetween (done : List Token) (c : Char) : Option (LexState × List Token) :=
  if isBlank c then some (.between, done)
  else if c = '"' then some (.text [], done)
  else match punctuation? c with
    | some token => some (.between, token :: done)
    | none => some (.word [c], done)

def lexStep (state : LexState × List Token) (c : Char) : Option (LexState × List Token) :=
  match state with
  | (.between, done) => lexBetween done c
  | (.word read, done) =>
      if isBlank c ∨ c = '"' ∨ (punctuation? c).isSome then
        (wordOf? read.reverse).bind fun v => lexBetween (.scalar v :: done) c
      else some (.word (c :: read), done)
  | (.text read, done) =>
      if c = '"' then
        (joinSurrogates read.reverse).map fun cs =>
          (.between, .scalar (.string (String.ofList cs)) :: done)
      else if c = '\\' then some (.escape read, done)
      else if c.toNat < 32 then none
      else some (.text (c.toNat :: read), done)
  | (.escape read, done) =>
      if c = 'u' then some (.escapedUnit read [], done)
      else (escapedChar? c).map fun code => (.text (code :: read), done)
  | (.escapedUnit read digits, done) =>
      let digits := digits ++ [c]
      if digits.length < 4 then some (.escapedUnit read digits, done)
      else (Text.readDigits? 16 digits).map fun code => (.text (code :: read), done)

def tokens? (cs : List Char) : Option (List Token) :=
  (cs.foldlM lexStep (LexState.between, [])).bind fun
    | (.between, done) => some done.reverse
    | (.word read, done) => (wordOf? read.reverse).map fun v => (Token.scalar v :: done).reverse
    | _ => none

inductive Frame where
  | array (items : List Json)
  | object (fields : Fields)
  | member (fields : Fields) (key : String)

inductive Expect where
  | value
  | firstItem
  | firstKey
  | key
  | colon
  | next
  | done (value : Json)

/-- A complete value goes to the container that waits for it. -/
def deliver (v : Json) : List Frame → Option (Expect × List Frame)
  | [] => some (.done v, [])
  | .array items :: rest => some (.next, .array (v :: items) :: rest)
  | .member fields key :: rest => some (.next, .object ((key, v) :: fields) :: rest)
  | .object _ :: _ => none

def startValue (stack : List Frame) : Token → Option (Expect × List Frame)
  | .scalar v => deliver v stack
  | .openArray => some (.firstItem, .array [] :: stack)
  | .openObject => some (.firstKey, .object [] :: stack)
  | _ => none

def startMember : List Frame → Token → Option (Expect × List Frame)
  | .object fields :: rest, .scalar (.string key) => some (.colon, .member fields key :: rest)
  | _, _ => none

def closeFrame : List Frame → Token → Option (Expect × List Frame)
  | .array items :: rest, .closeArray => deliver (.array items.reverse) rest
  | .object fields :: rest, .closeObject => deliver (ofFields fields.reverse) rest
  | _, _ => none

def buildStep (state : Expect × List Frame) (t : Token) : Option (Expect × List Frame) :=
  match state.1, t with
  | .done _, _ => none
  | .value, t => startValue state.2 t
  | .firstItem, .closeArray => closeFrame state.2 t
  | .firstItem, t => startValue state.2 t
  | .firstKey, .closeObject => closeFrame state.2 t
  | .firstKey, t => startMember state.2 t
  | .key, t => startMember state.2 t
  | .colon, .colon => some (.value, state.2)
  | .colon, _ => none
  | .next, .comma =>
      match state.2 with
      | .array _ :: _ => some (.value, state.2)
      | .object _ :: _ => some (.key, state.2)
      | _ => none
  | .next, t => closeFrame state.2 t

def parse? (text : String) : Option Json :=
  (tokens? text.toList).bind fun ts =>
    (ts.foldlM buildStep (Expect.value, [])).bind fun
      | (.done v, _) => some v
      | _ => none

end Botwright.Json
