import Mathlib.Data.Finmap
import QuicZig.Machine

/-! The gates that a server keeps for each source: a count within a window for each of four axes and a
bucket of bytes, in a table of bounded size. -/
namespace QuicZig.Server.SourceRate
open Machine

def bandwidthIdleThresholdUs : Nat := 5000000

def usPerS : Nat := 1000000

/-- The pairs of fields of an entry. -/
inductive Axis where
  | initial | vn | reset | log
  deriving DecidableEq, Repr

structure Window where
  count : Nat := 0
  startUs : Nat := 0
  deriving DecidableEq, Repr

structure SourceRateEntry where
  window : Axis → Window := fun _ => {}
  bandwidthTokens : Nat := 0
  bandwidthLastRefillUs : Nat := 0

def SourceRateEntry.lastActiveUs (e : SourceRateEntry) : Nat :=
  max (max (e.window .initial).startUs (e.window .vn).startUs)
    (max (max (e.window .reset).startUs (e.window .log).startUs) e.bandwidthLastRefillUs)

/-- `now -% since` -/
def elapsed (nowUs sinceUs : Nat) : Nat := (nowUs+(maxU64+1)-sinceUs)%(maxU64+1)

section
variable {Address : Type} [DecidableEq Address]

structure Gates (Address : Type) where
  sourceRateTable : Finmap fun _ : Address => SourceRateEntry := ∅
  sourceRateTableCapacity : Nat
  sourceRateWindowUs : Nat

namespace Gates

def find (s : Gates Address) (addr : Address) : Option SourceRateEntry := s.sourceRateTable.lookup addr

def count (s : Gates Address) : Nat := s.sourceRateTable.keys.card

def put (s : Gates Address) (addr : Address) (e : SourceRateEntry) : Gates Address :=
  {s with sourceRateTable := s.sourceRateTable.insert addr e}

def remove (s : Gates Address) (addr : Address) : Gates Address :=
  {s with sourceRateTable := s.sourceRateTable.erase addr}

/-- Every axis of the entry has been idle for its time. -/
def idle (s : Gates Address) (e : SourceRateEntry) (nowUs : Nat) : Bool :=
  elapsed nowUs (e.window .initial).startUs ≥ s.sourceRateWindowUs ∧
  elapsed nowUs (e.window .vn).startUs ≥ s.sourceRateWindowUs ∧
  elapsed nowUs (e.window .reset).startUs ≥ s.sourceRateWindowUs ∧
  elapsed nowUs (e.window .log).startUs ≥ s.sourceRateWindowUs ∧
  elapsed nowUs e.bandwidthLastRefillUs ≥ bandwidthIdleThresholdUs

/-- The table is met in the `order` of its iterator. -/
def pruneSourceRate (order : List Address) (s : Gates Address) (nowUs : Nat) : Gates Address :=
  order.foldl (fun s addr => match s.find addr with
    | none => s
    | some e => if s.idle e nowUs then s.remove addr else s) s

def oldest (order : List Address) (s : Gates Address) : Option Address × Nat :=
  order.foldl (fun best addr => match s.find addr with
    | none => best
    | some e => if e.lastActiveUs < best.2 then (some addr,e.lastActiveUs) else best) (none,maxU64)

def evictOldestSourceRate (order : List Address) (s : Gates Address) : Gates Address :=
  match (s.oldest order).1 with
  | none => s
  | some addr => s.remove addr

def ensureSourceRateRoom (order : List Address) (s : Gates Address) (nowUs : Nat) : Gates Address :=
  if s.count ≥ s.sourceRateTableCapacity then
    let s := s.pruneSourceRate order nowUs
    if s.count ≥ s.sourceRateTableCapacity then s.evictOldestSourceRate order else s
  else s

/-- The count is of 32 bits: past them the call traps. -/
def countIn (axis : Axis) (granted : Bool) (s : Gates Address) (addr : Address) (cap nowUs : Nat) :
    Option (Bool × Gates Address) :=
  match s.find addr with
  | none =>
    if granted = false then some (false,s)
    else some (true,s.put addr {window := fun other => if other = axis then ⟨1,nowUs⟩ else {}})
  | some e =>
    if elapsed nowUs (e.window axis).startUs ≥ s.sourceRateWindowUs then
      some (true,s.put addr {e with window := fun other => if other = axis then ⟨1,nowUs⟩ else e.window other})
    else if (e.window axis).count ≥ cap then some (false,s)
    else if (e.window axis).count+1 > maxU32 then none
    else some (true,s.put addr {e with
      window := fun other => if other = axis then ⟨(e.window axis).count+1,(e.window axis).startUs⟩ else e.window other})

def acceptWindowed (axis : Axis) (order : List Address) (granted : Bool) (s : Gates Address) (addr : Address)
    (cap nowUs : Nat) : Option (Bool × Gates Address) :=
  (s.ensureSourceRateRoom order nowUs).countIn axis granted addr cap nowUs

def acceptSourceRate (order : List Address) (granted : Bool) (s : Gates Address) (addr : Address) (cap nowUs : Nat) :
    Option (Bool × Gates Address) := s.acceptWindowed .initial order granted addr cap nowUs

def acceptVnRate (order : List Address) (granted : Bool) (s : Gates Address) (addr : Address) (cap nowUs : Nat) :
    Option (Bool × Gates Address) := s.acceptWindowed .vn order granted addr cap nowUs

def acceptStatelessResetRate (order : List Address) (granted : Bool) (s : Gates Address) (addr : Address)
    (cap nowUs : Nat) : Option (Bool × Gates Address) := s.acceptWindowed .reset order granted addr cap nowUs

def acceptLogRate (order : List Address) (granted : Bool) (s : Gates Address) (addr : Address) (cap nowUs : Nat) :
    Option (Bool × Gates Address) := s.acceptWindowed .log order granted addr cap nowUs

/-- The refill is cast to 64 bits: past them the call traps. -/
def drawIn (granted : Bool) (s : Gates Address) (addr : Address) (bytesCharged capPerSecond nowUs : Nat) :
    Option (Bool × Gates Address) :=
  match s.find addr with
  | none =>
    if granted = false then some (false,s)
    else
      let tokensAfterCharge := if capPerSecond ≥ bytesCharged then capPerSecond-bytesCharged else 0
      some (decide (capPerSecond ≥ bytesCharged),
        s.put addr {bandwidthTokens := tokensAfterCharge,bandwidthLastRefillUs := nowUs})
  | some e =>
    let refill := elapsed nowUs e.bandwidthLastRefillUs*capPerSecond/usPerS
    if refill > maxU64 then none
    else
      let refilled := if e.bandwidthTokens+refill ≤ maxU64 then e.bandwidthTokens+refill else capPerSecond
      let tokens := min refilled capPerSecond
      if tokens < bytesCharged then some (false,s.put addr {e with bandwidthTokens := tokens,bandwidthLastRefillUs := nowUs})
      else some (true,s.put addr {e with bandwidthTokens := tokens-bytesCharged,bandwidthLastRefillUs := nowUs})

def acceptSourceBandwidth (order : List Address) (granted : Bool) (s : Gates Address) (addr : Address)
    (bytesCharged capPerSecond nowUs : Nat) : Option (Bool × Gates Address) :=
  (s.ensureSourceRateRoom order nowUs).drawIn granted addr bytesCharged capPerSecond nowUs

end Gates
end

end QuicZig.Server.SourceRate
