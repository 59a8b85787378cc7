import Botwright.Identifier.Source
/-!
# Random identifiers

A source of tokens that never repeats one. It reads values from a pool and passes over those whose
token was issued before. When the pool is dry, the least unused numeral stands in.
-/
namespace Botwright

structure RandomIds where
  /-- The 128-bit values that are still to be read. -/
  pool : List Nat
  /-- Every token issued so far, latest first. -/
  issued : List String
deriving Inhabited

namespace RandomIds

def ofPool (pool : List Nat) : RandomIds := ⟨pool, []⟩

/-- Reads values until the token of one was not issued before. -/
def firstFresh (issued : List String) : List Nat → Option (String × List Nat)
  | [] => none
  | value :: rest =>
      if tokenOf value ∈ issued then firstFresh issued rest else some (tokenOf value, rest)

def token? (s : RandomIds) : Option (String × RandomIds) :=
  (firstFresh s.issued s.pool).map fun (token, rest) => (token, ⟨rest, token :: s.issued⟩)

def uuid? (s : RandomIds) : Option (Uuid × RandomIds) :=
  match s.pool with
  | [] => none
  | value :: rest => some (Uuid.ofNat value, { s with pool := rest })

/-- The least numeral whose token was not issued. -/
def leastFresh (issued : List String) : String :=
  ((List.range (issued.length + 1)).map tokenOf).find? (fun t => !issued.contains t) |>.getD ""

instance : IdSource RandomIds where
  token s :=
    s.token?.getD (leastFresh s.issued, { s with issued := leastFresh s.issued :: s.issued })
  uuid s := s.uuid?.getD (Uuid.ofRandom 0, s)

/-- One step of a 64-bit mixing generator: the state and its scrambled value. -/
def mix (state : UInt64) : UInt64 × UInt64 :=
  let state := state + 0x9e3779b97f4a7c15
  let z := (state ^^^ (state >>> 30)) * 0xbf58476d1ce4e5b9
  let z := (z ^^^ (z >>> 27)) * 0x94d049bb133111eb
  (state, z ^^^ (z >>> 31))

def grow : Nat → UInt64 → List Nat
  | 0, _ => []
  | count + 1, state =>
      let (state, high) := mix state
      let (state, low) := mix state
      (Uuid.ofRandom (high.toNat * Nat.pow 2 64 + low.toNat)).toNat :: grow count state

def ofSeed (size : Nat) (seed : UInt64) : RandomIds := ofPool (grow size (mix seed).2)

end RandomIds
end Botwright
