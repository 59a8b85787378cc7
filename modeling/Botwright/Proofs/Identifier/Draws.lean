import Botwright.Identifier.Source
import Mathlib.Data.List.Nodup

/-!
# Several draws on one source

A source meets its users only through draws, so what a piece of work does to it is told by the
list of its draws: the tokens among them and the source that stands behind them.
-/

namespace Botwright.IdSource

variable {σ : Type} [IdSource σ]

/-- The tokens among several draws, in order. -/
def tokens : List Draw → σ → List String
  | [], _ => []
  | .token :: draws, s => (token s).1 :: tokens draws (token s).2
  | .uuid :: draws, s => tokens draws (uuid s).2

def after : List Draw → σ → σ
  | [], s => s
  | .token :: draws, s => after draws (token s).2
  | .uuid :: draws, s => after draws (uuid s).2

@[simp] theorem after_append (draws more : List Draw) (s : σ) :
    after (draws ++ more) s = after more (after draws s) := by
  induction draws generalizing s with
  | nil => rfl
  | cons draw draws ih => cases draw <;> exact ih _

@[simp] theorem tokens_append (draws more : List Draw) (s : σ) :
    tokens (draws ++ more) s = tokens draws s ++ tokens more (after draws s) := by
  induction draws generalizing s with
  | nil => rfl
  | cons draw draws ih =>
    cases draw with
    | token => exact congrArg (List.cons (token s).1) (ih _)
    | uuid => exact ih _

/-- Drawing several times for the latest text draws as often as it says. -/
theorem drawLast_source (kind : Draw) (n : Nat) (last : String) (s : σ) :
    (drawLast kind n last s).2 = after (List.replicate n kind) s := by
  induction n generalizing last s with
  | zero => rfl
  | succ n ih =>
    rw [List.replicate_succ]
    cases kind with
    | token => exact ih _ _
    | uuid => exact ih _ _

end Botwright.IdSource
