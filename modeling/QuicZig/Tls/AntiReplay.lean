import QuicZig.Library.BigEndian
import QuicZig.Library.Ring
import QuicZig.Machine

/-! The single-use cache of 0-RTT attempts: a ring of entries in the order of insertion, a map
of the ids it holds, and the envelope that it is stored in. -/
namespace QuicZig.Tls.AntiReplay
open Machine QuicZig.Ring BigEndian

def idLen : Nat := 32

/-- 32 bytes. -/
@[ext] structure Id where
  bytes : List Byte
  size : bytes.length = idLen
  deriving DecidableEq

instance : Inhabited Id := ⟨⟨List.replicate idLen 0,rfl⟩⟩

structure Options where
  maxEntries : Nat := 4096
  maxAgeUs : Nat := 10*60*1000000
  deriving DecidableEq

inductive Verdict where
  | fresh | replay
  deriving DecidableEq, Repr

inductive Error where
  | bufferTooSmall | invalidFormat | unsupportedVersion | invalidFlags | valueTooLarge | trailingBytes | duplicateEntry
  | invalidOptions | outOfMemory
  deriving DecidableEq, Repr

structure Entry where
  id : Id
  insertedAtUs : Nat
  deriving DecidableEq, Inhabited

/-- The cells of `entries` behind the live ones have no meaning. -/
structure Tracker where
  options : Options
  entries : List Entry := []
  entriesHead : Nat := 0
  entriesLen : Nat := 0
  seen : Id → Option Nat := fun _ => none
  lastObservedNowUs : Nat := 0

def persistenceMagic : List Byte := [0x51,0x5a,0x41,0x52]

def persistenceVersion : Byte := 1

def persistenceFlags : Byte := 0

def persistenceHeaderLen : Nat := 4+1+1+8+8+8+8

def persistenceEntryLen : Nat := idLen+8

namespace Tracker

/-- The first request is the ring's, the second the map's. -/
def init (grants : Allocator) (options : Options) : Except Error Tracker :=
  if options.maxEntries = 0 then .error .invalidOptions
  else if options.maxAgeUs = 0 then .error .invalidOptions
  else if grants 0 = false ∨ grants 1 = false then .error .outOfMemory
  else .ok {options := options,entries := List.replicate (min options.maxEntries 64) default}

def entryAt (t : Tracker) (i : Nat) : Entry := peek t.entries t.entriesHead i

/-- The live entries, oldest first. -/
def live (t : Tracker) : List Entry := window t.entries t.entriesHead t.entriesLen

/-- `now -| inserted < max_age` -/
def young (t : Tracker) (nowUs : Nat) (insertedAtUs : Nat) : Bool := nowUs-insertedAtUs < t.options.maxAgeUs

/-- The head entry goes, and the map's record of it. -/
def dropHead (t : Tracker) : Tracker :=
  let e := t.entryAt 0
  {t with
    seen := fun id => if id = e.id ∧ t.seen e.id = some e.insertedAtUs then none else t.seen id
    entriesHead := (t.entriesHead+1)%t.entries.length
    entriesLen := t.entriesLen-1}

def rewind (t : Tracker) : Tracker := if t.entriesLen = 0 then {t with entriesHead := 0} else t

def pruneLoop (nowUs : Nat) : Nat → Tracker → Tracker
  | 0,t => t
  | fuel+1,t =>
    if t.entriesLen = 0 then t
    else if t.young nowUs (t.entryAt 0).insertedAtUs then t
    else pruneLoop nowUs fuel t.dropHead

def pruneStale (t : Tracker) (nowUs : Nat) : Tracker := (pruneLoop nowUs t.entriesLen t).rewind

def evictOldest (t : Tracker) : Tracker := if t.entriesLen = 0 then t else t.dropHead.rewind

def ensureRingCapacity (granted : Bool) (t : Tracker) (minCap : Nat) : Except Error Tracker :=
  if minCap ≤ t.entries.length then .ok t
  else
    let targetCap := min t.options.maxEntries minCap
    if targetCap ≤ t.entries.length then .ok t
    else if granted = false then .error .outOfMemory
    else .ok {t with entries := t.live ++ List.replicate (targetCap-t.entriesLen) default,entriesHead := 0}

def ensureRingSlot (granted : Bool) (t : Tracker) : Except Error Tracker :=
  if t.entriesLen < t.entries.length ∨ t.entries.length ≥ t.options.maxEntries then .ok t
  else
    let doubled := if t.entries.length*2 ≤ maxU64 then t.entries.length*2 else t.options.maxEntries
    t.ensureRingCapacity granted (min t.options.maxEntries (max doubled 64))

def pushEntryAssumeCapacity (t : Tracker) (e : Entry) : Tracker :=
  {t with entries := t.entries.set (slot t.entries.length t.entriesHead t.entriesLen) e,entriesLen := t.entriesLen+1}

def shiftDown (head : Nat) : Nat → Nat → List Entry → List Entry
  | 0,_,entries => entries
  | n+1,j,entries => shiftDown head n (j+1) (entries.set (slot entries.length head j) (peek entries head (j+1)))

def removeFromRing (t : Tracker) (id : Id) : Tracker :=
  match t.live.findIdx? (·.id = id) with
  | none => t
  | some i => rewind {t with entries := shiftDown t.entriesHead (t.entriesLen-1-i) i t.entries,entriesLen := t.entriesLen-1}

/-- The first request is the map's, the second the ring's. -/
def consume (grants : Allocator) (t : Tracker) (id : Id) (nowUs : Nat) : Except Error Verdict × Tracker :=
  if (t.seen id).any (t.young nowUs) then (.ok .replay,t)
  else
    let t := t.pruneStale nowUs
    if grants 0 = false then (.error .outOfMemory,t)
    else match t.ensureRingSlot (grants 1) with
      | .error e => (.error e,t)
      | .ok t =>
        let t := if (t.seen id).isSome then {t with seen := fun other => if other = id then none else t.seen other}.removeFromRing id
          else t
        let t := if t.entriesLen ≥ t.options.maxEntries then t.evictOldest else t
        let t := t.pushEntryAssumeCapacity ⟨id,nowUs⟩
        (.ok .fresh,{t with seen := fun other => if other = id then some nowUs else t.seen other})

def prune (t : Tracker) (nowUs : Nat) : Tracker := t.pruneStale nowUs

def bumpClock (t : Tracker) (nowUs : Nat) : Tracker := if nowUs > t.lastObservedNowUs then {t with lastObservedNowUs := nowUs} else t

def consumeUsingInternalClock (grants : Allocator) (t : Tracker) (id : Id) : Except Error Verdict × Tracker :=
  t.consume grants id t.lastObservedNowUs

def encodedLen (t : Tracker) : Except Error Nat :=
  if t.entriesLen*persistenceEntryLen > maxU64 then .error .valueTooLarge
  else if persistenceHeaderLen+t.entriesLen*persistenceEntryLen > maxU64 then .error .valueTooLarge
  else .ok (persistenceHeaderLen+t.entriesLen*persistenceEntryLen)

def encodeEntry (e : Entry) : List Byte := e.id.bytes ++ bigEndian 8 e.insertedAtUs

/-- What `encode` writes into a buffer of `dstLen` bytes. -/
def encode (t : Tracker) (dstLen : Nat) : Except Error (List Byte) :=
  match t.encodedLen with
  | .error e => .error e
  | .ok needed =>
    if dstLen < needed then .error .bufferTooSmall
    else .ok (persistenceMagic ++ [persistenceVersion,persistenceFlags] ++ bigEndian 8 t.options.maxEntries ++
      bigEndian 8 t.options.maxAgeUs ++ bigEndian 8 t.lastObservedNowUs ++ bigEndian 8 t.entriesLen ++ t.live.flatMap encodeEntry)

/-- The buffer is of the size that `encode` needs. -/
def encodeAlloc (granted : Bool) (t : Tracker) : Except Error (List Byte) :=
  match t.encodedLen with
  | .error e => .error e
  | .ok needed => if granted = false then .error .outOfMemory else t.encode needed

def readU64 (src : List Byte) (pos : Nat) : Nat := ofBigEndian 0 ((src.drop pos).take 8)

/-- The entries of the envelope, from one position on. -/
def decodeEntries (src : List Byte) : Nat → Nat → Tracker → Except Error Tracker
  | 0,_,t => .ok t
  | n+1,pos,t =>
    if size : ((src.drop pos).take idLen).length = idLen then
      let id : Id := ⟨(src.drop pos).take idLen,size⟩
      let insertedAtUs := readU64 src (pos+idLen)
      if (t.seen id).isSome then .error .duplicateEntry
      else
        let t := t.pushEntryAssumeCapacity ⟨id,insertedAtUs⟩
        decodeEntries src n (pos+idLen+8) {t with seen := fun other => if other = id then some insertedAtUs else t.seen other}
    else .error .invalidFormat

/-- The last two requests are those for as many entries as the envelope has. -/
def decode (grants : Allocator) (src : List Byte) : Except Error Tracker :=
  if src.length < persistenceHeaderLen then .error .invalidFormat
  else if src.take 4 ≠ persistenceMagic then .error .invalidFormat
  else if src[4]? ≠ some persistenceVersion then .error .unsupportedVersion
  else if src[5]? ≠ some persistenceFlags then .error .invalidFlags
  else
    let maxEntries := readU64 src 6
    let maxAgeUs := readU64 src 14
    let lastObservedNowUs := readU64 src 22
    let entryCount := readU64 src 30
    if maxEntries = 0 ∨ maxAgeUs = 0 then .error .invalidOptions
    else if entryCount > maxEntries then .error .invalidFormat
    else if entryCount*persistenceEntryLen > maxU64 then .error .valueTooLarge
    else
      let total := persistenceHeaderLen+entryCount*persistenceEntryLen
      if total > maxU64 then .error .valueTooLarge
      else if src.length < total then .error .invalidFormat
      else if src.length > total then .error .trailingBytes
      else match init grants {maxEntries := maxEntries,maxAgeUs := maxAgeUs} with
        | .error e => .error e
        | .ok t =>
          match {t with lastObservedNowUs := lastObservedNowUs}.ensureRingCapacity (grants 2) entryCount with
          | .error e => .error e
          | .ok t =>
            if grants 3 = false then .error .outOfMemory
            else decodeEntries src entryCount persistenceHeaderLen t

def restore (grants : Allocator) (src : List Byte) : Except Error Tracker := decode grants src

end Tracker
end QuicZig.Tls.AntiReplay
