import Botwright.Files.Store
/-!
# File trees

A tree of files and directories with a working directory, and the operations of a file store on
it. A path is followed name by name, and every name on the way has to be a directory.
-/
namespace Botwright

/-- A place in a tree: the names on the way up to the root. -/
abbrev Place := List String

inductive FileEntry where
  | file (text : String)
  | directory
deriving DecidableEq, Inhabited

structure FileTree where
  entries : List (Place × FileEntry)
  /-- Where relative paths begin. -/
  workingPlace : Place
deriving Inhabited

namespace FileTree

def lookup (place : Place) : List (Place × FileEntry) → Option FileEntry
  | [] => none
  | (p, e) :: rest => if p = place then some e else lookup place rest

def entryAt (tree : FileTree) (place : Place) : Option FileEntry :=
  if place = [] then some .directory else lookup place tree.entries

def putEntry (place : Place) (entry : FileEntry) :
    List (Place × FileEntry) → List (Place × FileEntry)
  | [] => [(place, entry)]
  | (p, e) :: rest =>
      if p = place then (place, entry) :: rest else (p, e) :: putEntry place entry rest

def put (place : Place) (entry : FileEntry) (tree : FileTree) : FileTree :=
  { tree with entries := putEntry place entry tree.entries }

@[simp, grind =] theorem lookup_putEntry (place other : Place) (entry : FileEntry)
    (entries : List (Place × FileEntry)) :
    lookup other (putEntry place entry entries) =
      if place = other then some entry else lookup other entries := by
  induction entries with
  | nil => simp [putEntry, lookup]
  | cons head rest ih => grind [putEntry, lookup]

@[grind =] theorem entryAt_put (place other : Place) (entry : FileEntry) (tree : FileTree)
    (hplace : place ≠ []) :
    (tree.put place entry).entryAt other =
      if place = other then some entry else tree.entryAt other := by
  by_cases ho : other = []
  · subst ho; simp [entryAt, hplace]
  · simp [entryAt, put, ho]

@[simp] theorem entryAt_put_self (place : Place) (entry : FileEntry) (tree : FileTree)
    (hplace : place ≠ []) : (tree.put place entry).entryAt place = some entry := by
  grind

def walk (tree : FileTree) : Place → List String → Except FileFault Place
  | here, [] => .ok here
  | here, step :: rest =>
      match tree.entryAt here with
      | none => .error .missing
      | some (.file _) => .error .notDirectory
      | some .directory =>
          if step = "." then walk tree here rest
          else if step = ".." then walk tree here.tail rest
          else walk tree (step :: here) rest

/-- The place of a path. All but its last name have to be directories. -/
def locate (tree : FileTree) (path : String) : Except FileFault Place :=
  if path.isEmpty then .error .missing
  else tree.walk (if Path.isAbsolute path then [] else tree.workingPlace) (Path.steps path)

def read (tree : FileTree) (path : String) : Except FileFault String :=
  match tree.locate path with
  | .error fault => .error fault
  | .ok place =>
      match tree.entryAt place with
      | none => .error .missing
      | some .directory => .error .isDirectory
      | some (.file text) => .ok text

/-- Makes a directory where nothing is; a slash at the end of its path does not matter. -/
def makeDirectory (tree : FileTree) (path : String) : Except FileFault Unit × FileTree :=
  match tree.locate (Path.withoutSlash path) with
  | .error fault => (.error fault, tree)
  | .ok place =>
      match tree.entryAt place with
      | none => (.ok (), tree.put place .directory)
      | some _ => (.error .alreadyThere, tree)

/-- Writes a whole file. A failed write changes nothing. -/
def write (tree : FileTree) (path text : String) : Except FileFault Unit × FileTree :=
  match tree.locate path with
  | .error fault => (.error fault, tree)
  | .ok place =>
      match tree.entryAt place with
      | some .directory => (.error .isDirectory, tree)
      | _ => (.ok (), tree.put place (.file text))

instance : FileStore (StateM FileTree) where
  read path := fun tree => (tree.read path, tree)
  makeDirectory path := fun tree => tree.makeDirectory path
  write path text := fun tree => tree.write path text

end FileTree
end Botwright
