import Botwright.Files.Path
/-!
# File stores

What a command asks of a place where files are kept. Everything else, such as whether a file is
there, follows from what reading gives.
-/
namespace Botwright

inductive FileFault where
  | missing
  | alreadyThere
  | notDirectory
  | isDirectory
  | other (reason : String)
deriving DecidableEq, Inhabited

def FileFault.message : FileFault → String
  | missing => "No such file or directory (os error 2)"
  | alreadyThere => "File exists (os error 17)"
  | notDirectory => "Not a directory (os error 20)"
  | isDirectory => "Is a directory (os error 21)"
  | other reason => reason

class FileStore (m : Type → Type) where
  read : String → m (Except FileFault String)
  makeDirectory : String → m (Except FileFault Unit)
  write : String → String → m (Except FileFault Unit)

namespace FileStore

variable {m : Type → Type} [Monad m] [FileStore m]

def isPresent (path : String) : m Bool := do
  match ← read path with
  | .error .missing | .error .notDirectory => return false
  | _ => return true

def isDirectory (path : String) : m Bool := do
  match ← read path with
  | .error .isDirectory => return true
  | _ => return false

/-- Makes a directory; one that is there already is as good. -/
def settleDirectory (path : String) (made : Except FileFault Unit) :
    m (Except FileFault Unit) := do
  match made with
  | .ok () => return .ok ()
  | .error fault => if ← isDirectory path then return .ok () else return .error fault

/-- Makes the first of several nested directories, innermost first, and those above it where they
are missing. -/
def makeDirectories : List String → m (Except FileFault Unit)
  | [] => return .error (.other "failed to create whole tree")
  | path :: above => do
      if path.isEmpty then return .ok ()
      else
        match ← makeDirectory path with
        | .error .missing =>
            match ← makeDirectories above with
            | .error fault => return .error fault
            | .ok () => settleDirectory path (← makeDirectory path)
        | made => settleDirectory path made

end FileStore
end Botwright
