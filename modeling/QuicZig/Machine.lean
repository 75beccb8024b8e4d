import Mathlib.Tactic

/-! What every component shares with the machine it runs on: 64-bit limits,
checked and saturating additions, slices, and an allocator that may refuse a request. -/
namespace QuicZig.Machine

abbrev Byte := UInt8

/-- `maxInt(u64)`, which is also `maxInt(usize)` on the supported targets. -/
def maxU64 : Nat := 2^64-1

def maxU32 : Nat := 2^32-1

/-- `std.math.add` on 64-bit integers: `none` is `error.Overflow`. -/
def checkedAdd (a b : Nat) : Option Nat := if a+b ≤ maxU64 then some (a+b) else none

/-- The saturating `a +| b`. -/
def saturatingAdd (a b : Nat) : Nat := min (a+b) maxU64

/-- `bytes[start..stop]`; `none` is a slice that reaches outside the bytes. -/
def slice? (bytes : List Byte) (start stop : Nat) : Option (List Byte) :=
  if start ≤ stop ∧ stop ≤ bytes.length then some ((bytes.take stop).drop start) else none

inductive AllocError where
  | outOfMemory
  deriving DecidableEq, Repr

/-- The allocator's answers to the requests of one call, in the order the code makes
them. A request that spare capacity would have served may be answered either way. -/
abbrev Allocator := Nat → Bool

def granting : Allocator := fun _ => true

end QuicZig.Machine
