/-!
# Paths

A path is a text with slashes. Repeated slashes and single dots behind the start do not count as
names, but a path is shown as it is written.
-/
namespace Botwright.Path

def split : List Char → List (List Char)
  | [] => [[]]
  | c :: rest =>
      if c = '/' then [] :: split rest
      else match split rest with
        | [] => [[c]]
        | part :: parts => (c :: part) :: parts

def isAbsolute (path : String) : Bool := path.toList.head? == some '/'

def isDirectoryPath (path : String) : Bool := path.toList.getLast? == some '/'

def isIdle (part : List Char) : Bool := part.isEmpty || part == ['.']

/-- The parts of a path, latest first, without idle parts at the end. The first part always
stands: it is the root of an absolute path or a name. -/
def partsBack (path : String) : List (List Char) :=
  match split path.toList with
  | [] => []
  | first :: rest => rest.reverse.dropWhile isIdle ++ [first]

def ofPartsBack (absolute : Bool) (parts : List (List Char)) : String :=
  let text := String.intercalate "/" (parts.reverse.map String.ofList)
  if absolute && text.isEmpty then "/" else text

def parent? (path : String) : Option String :=
  match partsBack path with
  | [] => none
  | [first] => if first.isEmpty then none else some ""
  | _ :: before =>
      let kept := before.dropLast.dropWhile isIdle ++ before.getLast?.toList
      some (ofPartsBack (isAbsolute path) kept)

def ancestorsUpTo : Nat → String → List String
  | 0, path => [path]
  | limit + 1, path =>
      match parent? path with
      | none => [path]
      | some above => path :: ancestorsUpTo limit above

def ancestors (path : String) : List String := ancestorsUpTo path.length path

def name? (path : String) : Option (List Char) :=
  match partsBack path with
  | [] => none
  | part :: _ => if isIdle part || part == ['.', '.'] then none else some part

/-- A name without the part from its last dot on; a dot in front does not count. -/
def stemOf (name : List Char) : List Char :=
  let behind := name.reverse.takeWhile (· != '.')
  let before := (name.reverse.drop (behind.length + 1)).reverse
  if before.isEmpty then name else before

def stem? (path : String) : Option String := (name? path).map fun n => String.ofList (stemOf n)

/-- A path below a directory; an absolute path stands for itself. -/
def join (directory path : String) : String :=
  if isAbsolute path then path
  else if directory.isEmpty || isDirectoryPath directory then directory ++ path
  else directory ++ "/" ++ path

def withoutSlash (path : String) : String :=
  let bare := String.ofList (path.toList.reverse.dropWhile (· == '/')).reverse
  if isAbsolute path && bare.isEmpty then "/" else bare

/-- The steps of a path. A slash at the end asks for a directory, as a single dot does. -/
def steps (path : String) : List String :=
  let parts := (split path.toList).filter (!·.isEmpty)
  (parts.map String.ofList) ++ (if isDirectoryPath path then ["."] else [])

end Botwright.Path
