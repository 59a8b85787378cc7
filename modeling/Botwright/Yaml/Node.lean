import Botwright.Yaml.Token
/-!
# Nodes

The tree of a document: scalars, sequences and mappings with their tags, anchors and aliases.
-/
namespace Botwright.Yaml

/-- A node whose anchors and aliases are of type `α`: names as written. -/
inductive Node (α : Type) where
  | scalar (tag : Option String) (text : String) (plain : Bool)
  | sequence (tag : Option String) (items : List (Node α))
  | mapping (tag : Option String) (entries : List (Node α × Node α))
  | anchored (anchor : α) (node : Node α)
  | reference (anchor : α)
deriving Inhabited

namespace Node

def blank {α : Type} : Node α := scalar none "" true

abbrev Parsed (β : Type) := Option (β × List Token)

abbrev Written := Node String

abbrev Handles := List (String × String)

def standardHandles : Handles := [("!", "!"), ("!!", "tag:yaml.org,2002:")]

def expandTag (handles : Handles) (handle suffix : String) : Option String :=
  if handle.isEmpty then some suffix
  else (handles.find? (·.1 == handle)).map fun (_, expansion) => expansion ++ suffix

def properties (handles : Handles) :
    List Token → Option (Option String × Option String × List Token)
  | .anchor a :: .tag h s :: rest => (expandTag handles h s).map fun t => (some a, some t, rest)
  | .tag h s :: .anchor a :: rest => (expandTag handles h s).map fun t => (some a, some t, rest)
  | .anchor a :: rest => some (some a, none, rest)
  | .tag h s :: rest => (expandTag handles h s).map fun t => (none, some t, rest)
  | rest => some (none, none, rest)

def withAnchor (anchor : Option String) (n : Written) : Written :=
  match anchor with
  | none => n
  | some a => anchored a n

def scalarTag (tag : Option String) : Option String := tag.filter (· != "!")

mutual

/-- A node and the tokens behind it. Block collections are taken only where `block` allows them,
a sequence without indentation only where `indentless` does. -/
def parse (handles : Handles) (block indentless : Bool) : Nat → List Token → Parsed Written
  | 0, _ => none
  | _ + 1, .reference name :: rest => some (reference name, rest)
  | fuel + 1, tokens =>
      match properties handles tokens with
      | none => none
      | some (anchor, tag, tokens) =>
          let finish : Written × List Token → Written × List Token :=
            fun (n, rest) => (withAnchor anchor n, rest)
          match tokens with
          | .blockEntry :: _ =>
              if indentless then
                (parseIndentless handles fuel tokens).map fun (items, rest) =>
                  finish (sequence tag items, rest)
              else if anchor.isSome || tag.isSome then
                some (finish (scalar (scalarTag tag) "" true, tokens))
              else none
          | .scalar text plain :: rest => some (finish (scalar (scalarTag tag) text plain, rest))
          | .flowSequence :: rest =>
              (parseFlowItems handles true fuel rest).map fun (items, rest) =>
                finish (sequence tag items, rest)
          | .flowMapping :: rest =>
              (parseFlowEntries handles true fuel rest).map fun (entries, rest) =>
                finish (mapping tag entries, rest)
          | .blockSequence :: rest =>
              if block then
                (parseBlockItems handles fuel rest).map fun (items, rest) =>
                  finish (sequence tag items, rest)
              else if anchor.isSome || tag.isSome then
                some (finish (scalar (scalarTag tag) "" true, tokens))
              else none
          | .blockMapping :: rest =>
              if block then
                (parseBlockEntries handles fuel rest).map fun (entries, rest) =>
                  finish (mapping tag entries, rest)
              else if anchor.isSome || tag.isSome then
                some (finish (scalar (scalarTag tag) "" true, tokens))
              else none
          | _ =>
              if anchor.isSome || tag.isSome then
                some (finish (scalar (scalarTag tag) "" true, tokens))
              else none

def parseBlockItems (handles : Handles) : Nat → List Token → Parsed (List Written)
  | 0, _ => none
  | _ + 1, .blockEnd :: rest => some ([], rest)
  | fuel + 1, .blockEntry :: rest =>
      match rest with
      | .blockEntry :: _ | .blockEnd :: _ =>
          (parseBlockItems handles fuel rest).map fun (items, rest) => (blank :: items, rest)
      | _ =>
          (parse handles true false fuel rest).bind fun (n, rest) =>
            (parseBlockItems handles fuel rest).map fun (items, rest) => (n :: items, rest)
  | _ + 1, _ => none

/-- The items of a sequence at the indentation of its key, which nothing marks the end of. -/
def parseIndentless (handles : Handles) : Nat → List Token → Parsed (List Written)
  | 0, _ => none
  | fuel + 1, .blockEntry :: rest =>
      match rest with
      | .blockEntry :: _ | .key :: _ | .value :: _ | .blockEnd :: _ =>
          (parseIndentless handles fuel rest).map fun (items, rest) => (blank :: items, rest)
      | _ =>
          (parse handles true false fuel rest).bind fun (n, rest) =>
            (parseIndentless handles fuel rest).map fun (items, rest) => (n :: items, rest)
  | _ + 1, rest => some ([], rest)

def parseBlockEntries (handles : Handles) : Nat → List Token → Parsed (List (Written × Written))
  | 0, _ => none
  | _ + 1, .blockEnd :: rest => some ([], rest)
  | fuel + 1, .key :: rest =>
      let key := match rest with
        | .key :: _ | .value :: _ | .blockEnd :: _ => some (blank, rest)
        | _ => parse handles true true fuel rest
      key.bind fun (k, rest) =>
        (parseBlockValue handles fuel rest).bind fun (v, rest) =>
          (parseBlockEntries handles fuel rest).map fun (entries, rest) =>
            ((k, v) :: entries, rest)
  | _ + 1, _ => none

def parseBlockValue (handles : Handles) : Nat → List Token → Parsed Written
  | 0, _ => none
  | fuel + 1, .value :: rest =>
      match rest with
      | .key :: _ | .value :: _ | .blockEnd :: _ => some (blank, rest)
      | _ => parse handles true true fuel rest
  | _ + 1, rest => some (blank, rest)

def parseFlowItems (handles : Handles) (first : Bool) : Nat → List Token → Parsed (List Written)
  | 0, _ => none
  | _ + 1, .flowSequenceEnd :: rest => some ([], rest)
  | fuel + 1, tokens =>
      let tokens := match first, tokens with
        | true, tokens => some tokens
        | false, .flowEntry :: rest => some rest
        | false, _ => none
      match tokens with
      | none => none
      | some (.flowSequenceEnd :: rest) => some ([], rest)
      | some (.key :: rest) =>
          (parsePair handles fuel rest).bind fun (n, rest) =>
            (parseFlowItems handles false fuel rest).map fun (items, rest) => (n :: items, rest)
      | some tokens =>
          (parse handles false false fuel tokens).bind fun (n, rest) =>
            (parseFlowItems handles false fuel rest).map fun (items, rest) => (n :: items, rest)

def parsePair (handles : Handles) : Nat → List Token → Parsed Written
  | 0, _ => none
  | fuel + 1, tokens =>
      let key := match tokens with
        | .value :: rest | .flowEntry :: rest | .flowSequenceEnd :: rest => some (blank, rest)
        | _ => parse handles false false fuel tokens
      key.bind fun (k, rest) =>
        match rest with
        | .value :: .flowEntry :: rest =>
            some (mapping none [(k, blank)], .flowEntry :: rest)
        | .value :: .flowSequenceEnd :: rest =>
            some (mapping none [(k, blank)], .flowSequenceEnd :: rest)
        | .value :: rest =>
            (parse handles false false fuel rest).map fun (v, rest) =>
              (mapping none [(k, v)], rest)
        | rest => some (mapping none [(k, blank)], rest)

def parseFlowEntries (handles : Handles) (first : Bool) :
    Nat → List Token → Parsed (List (Written × Written))
  | 0, _ => none
  | _ + 1, .flowMappingEnd :: rest => some ([], rest)
  | fuel + 1, tokens =>
      let tokens := match first, tokens with
        | true, tokens => some tokens
        | false, .flowEntry :: rest => some rest
        | false, _ => none
      let entry := match tokens with
        | none => none
        | some (.flowMappingEnd :: _) => none
        | some (.key :: rest) =>
            let key := match rest with
              | .value :: _ | .flowEntry :: _ | .flowMappingEnd :: _ => some (blank, rest)
              | _ => parse handles false false fuel rest
            key.bind fun (k, rest) =>
              (parseFlowValue handles fuel rest).map fun (v, rest) => ((k, v), rest)
        | some tokens =>
            (parse handles false false fuel tokens).map fun (k, rest) => ((k, blank), rest)
      match tokens, entry with
      | some (.flowMappingEnd :: rest), _ => some ([], rest)
      | _, none => none
      | _, some (e, rest) =>
          (parseFlowEntries handles false fuel rest).map fun (entries, rest) =>
            (e :: entries, rest)

def parseFlowValue (handles : Handles) : Nat → List Token → Parsed Written
  | 0, _ => none
  | fuel + 1, .value :: rest =>
      match rest with
      | .flowEntry :: _ | .flowMappingEnd :: _ => some (blank, rest)
      | _ => parse handles false false fuel rest
  | _ + 1, rest => some (blank, rest)

end

/-- The directives of a document: at most one version of the first generation, and no handle
twice. -/
def directives : Bool → Handles → List Token → Parsed Handles
  | versioned, handles, .version major minor :: rest =>
      if versioned || major != 1 || (minor != 1 && minor != 2) then none
      else directives true handles rest
  | versioned, handles, .tagHandle handle expansion :: rest =>
      if (handles.find? (·.1 == handle)).isSome then none
      else directives versioned ((handle, expansion) :: handles) rest
  | _, handles, rest => some (handles, rest)

def isDirective : Token → Bool
  | .version .. | .tagHandle .. => true
  | _ => false

def content (handles : Handles) (tokens : List Token) : Parsed Written :=
  match tokens with
  | [] => some (blank, [])
  | t :: _ =>
      if isDirective t || t == .documentStart || t == .documentEnd then some (blank, tokens)
      else parse handles true false (3 * tokens.length + 3) tokens

def dropEnds (tokens : List Token) : List Token := tokens.dropWhile (· == .documentEnd)

def explicitDocument (tokens : List Token) : Parsed Written :=
  (directives false [] tokens).bind fun (handles, rest) =>
    match rest with
    | .documentStart :: rest => content (handles ++ standardHandles) rest
    | _ => none

/-- The node of the only document of a text; a text without a document is blank. -/
def ofTokens? (tokens : List Token) : Option Written :=
  match tokens with
  | [] => some blank
  | t :: _ =>
      let document :=
        if isDirective t || t == .documentStart then explicitDocument tokens
        else parse standardHandles true false (3 * tokens.length + 3) tokens
      document.bind fun (n, rest) => if (dropEnds rest).isEmpty then some n else none

def ofText? (text : String) : Option Written := (tokens? text).bind ofTokens?

end Node
end Botwright.Yaml
