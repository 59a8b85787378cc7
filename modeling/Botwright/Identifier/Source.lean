import Botwright.Uuid
/-!
# Identifier sources

A compilation draws tokens for node ids and unique identifiers for the bot from a source. A
sequential source numbers its draws, so equal sources give equal documents.
-/
namespace Botwright

class IdSource (σ : Type) where
  token : σ → String × σ
  uuid : σ → Uuid × σ

def tokenLength : Nat := 8

/-- The token of a number: its low base-36 digits. -/
def tokenOf (n : Nat) : String := Text.base36 n tokenLength

/-- Counts the draws made so far, tokens and unique identifiers alike. -/
structure SequentialIds where
  drawn : Nat
deriving DecidableEq, Inhabited

namespace SequentialIds

def fresh : SequentialIds := ⟨0⟩

instance : IdSource SequentialIds where
  token s := (tokenOf (s.drawn + 1), ⟨s.drawn + 1⟩)
  uuid s := (Uuid.ofNat (s.drawn + 1), ⟨s.drawn + 1⟩)

end SequentialIds

inductive Draw where
  | token | uuid
deriving DecidableEq, Inhabited

namespace IdSource

variable {σ : Type} [IdSource σ]

def draw (kind : Draw) (s : σ) : String × σ :=
  match kind with
  | .token => token s
  | .uuid => let (u, s) := uuid s; (u.text, s)

/-- Draws several times; the latest draw counts. -/
def drawLast (kind : Draw) : Nat → String → σ → String × σ
  | 0, last, s => (last, s)
  | n + 1, _, s => let (text, s) := draw kind s; drawLast kind n text s

def skip : Nat → σ → σ
  | 0, s => s
  | n + 1, s => skip n (token s).2

end IdSource
end Botwright
