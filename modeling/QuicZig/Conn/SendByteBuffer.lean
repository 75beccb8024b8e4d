import QuicZig.Machine
import QuicZig.Library.Ring

/-! The live bytes of a send stream as a ring. The acknowledged prefix goes by
moving the head, a write lands behind the live bytes, and the ring grows by
copying them to the start of a larger block. -/
namespace QuicZig.Conn
open Machine

structure SendByteBuffer where
  allocation : List Byte := []
  head : Nat := 0
  live : Nat := 0
  deriving DecidableEq, Repr

namespace SendByteBuffer

def cap (b : SendByteBuffer) : Nat := b.allocation.length

/-- The bytes from relative index `from` up to the wrap; `none` is the failed assertion. -/
def slice (b : SendByteBuffer) (start n : Nat) : Option (List Byte) :=
  if start + n ≤ b.live then
    if n = 0 then some [] else
    let at' := (b.head+start) % b.cap
    let run := min n (b.cap-at')
    some ((b.allocation.drop at').take run)
  else none

/-- The growth loop. Each turn adds at least 8, so `fuel = minimum` never runs out. -/
def growLoop : Nat → Nat → Nat → Option Nat
  | 0,newCapacity,minimum => if newCapacity < minimum then none else some newCapacity
  | fuel+1,newCapacity,minimum =>
    if newCapacity < minimum then
      match checkedAdd newCapacity (newCapacity/2+8) with
      | none => none
      | some grown => growLoop fuel grown minimum
    else some newCapacity

def growCapacity (oldCapacity minimum : Nat) : Option Nat :=
  growLoop minimum (if oldCapacity = 0 then max 64 minimum else oldCapacity) minimum

/-- A bigger ring, with the live bytes laid out from its start. -/
def reallocate (granted : Bool) (b : SendByteBuffer) (newCapacity : Nat) : Except AllocError Unit × SendByteBuffer :=
  if granted then
    let first := min b.live (b.cap-b.head)
    let kept := (b.allocation.drop b.head).take first ++ b.allocation.take (b.live-first)
    (.ok (),⟨kept ++ List.replicate (newCapacity-b.live) 0,0,b.live⟩)
  else (.error .outOfMemory,b)

def ensureUnusedCapacity (granted : Bool) (b : SendByteBuffer) (extra : Nat) : Except AllocError Unit × SendByteBuffer :=
  match checkedAdd b.live extra with
  | none => (.error .outOfMemory,b)
  | some neededLen =>
    if b.cap ≥ neededLen then (.ok (),b)
    else match growCapacity b.cap neededLen with
      | none => (.error .outOfMemory,b)
      | some newCapacity => b.reallocate granted newCapacity

def appendSlice (granted : Bool) (b : SendByteBuffer) (data : List Byte) : Except AllocError Unit × SendByteBuffer :=
  if data = [] then (.ok (),b) else
  match b.ensureUnusedCapacity granted data.length with
  | (.error e,b) => (.error e,b)
  | (.ok _,b) => (.ok (),{b with allocation := Ring.splice b.allocation b.head b.live data,live := b.live+data.length})

def discardPrefix (b : SendByteBuffer) (n : Nat) : SendByteBuffer :=
  if n = 0 then b else
  {b with live := b.live-n,head := if b.live-n = 0 then 0 else (b.head+n) % b.cap}

/-- The live bytes, oldest first. -/
def contents (b : SendByteBuffer) : List Byte := Ring.window b.allocation b.head b.live

structure Sound (b : SendByteBuffer) : Prop where
  fits : b.live ≤ b.cap
  inside : b.head < b.cap ∨ b.head = 0

@[simp] theorem length_contents (b : SendByteBuffer) : b.contents.length = b.live := Ring.length_window _ _ _

theorem growLoop_reaches (fuel newCapacity minimum result : Nat) (grown : growLoop fuel newCapacity minimum = some result) :
    minimum ≤ result := by
  induction fuel generalizing newCapacity with
  | zero =>
    unfold growLoop at grown
    grind
  | succ fuel ih =>
    unfold growLoop at grown
    grind

theorem growLoop_none (fuel newCapacity minimum : Nat) (enough : minimum ≤ newCapacity + fuel)
    (failed : growLoop fuel newCapacity minimum = none) : maxU64 < minimum + minimum/2 + 8 := by
  induction fuel generalizing newCapacity with
  | zero =>
    unfold growLoop at failed
    grind
  | succ fuel ih =>
    unfold growLoop at failed
    split at failed
    · rename_i small
      unfold checkedAdd at failed
      split at failed
      · rename_i overflow
        grind
      · rename_i grown sum
        have exact : grown = newCapacity + (newCapacity/2+8) := by grind
        exact ih grown (by omega) failed
    · simp at failed

/-- The loop stops for want of address space only, never for want of fuel. -/
theorem growCapacity_none (oldCapacity minimum : Nat) (failed : growCapacity oldCapacity minimum = none) :
    maxU64 < minimum + minimum/2 + 8 := growLoop_none _ _ _ (by omega) failed

theorem reallocate_spec (granted : Bool) (b : SendByteBuffer) (newCapacity : Nat) (sound : b.Sound)
    (larger : b.live ≤ newCapacity) :
    (b.reallocate granted newCapacity).2.Sound ∧ (b.reallocate granted newCapacity).2.contents = b.contents ∧
      ((b.reallocate granted newCapacity).1 = .ok () → (b.reallocate granted newCapacity).2.cap = newCapacity) := by
  unfold reallocate
  split
  · dsimp only
    have kept : (b.allocation.drop b.head).take (min b.live (b.cap-b.head)) ++
        b.allocation.take (b.live - min b.live (b.cap-b.head)) = b.contents := by
      by_cases start : b.head < b.cap
      · exact (Ring.window_wrap b.allocation b.head b.live start sound.fits).symm
      · have none : b.live = 0 := by
          have := sound.fits
          have := sound.inside
          omega
        simp [contents,none]
    rw [kept]
    have size : (b.contents ++ List.replicate (newCapacity-b.live) (0 : Byte)).length = newCapacity := by
      simp
      omega
    refine ⟨⟨?_,.inr rfl⟩,?_,fun _ => size⟩
    · exact larger.trans size.ge
    · have shown := Ring.window_prefix b.contents (List.replicate (newCapacity-b.live) (0 : Byte))
      rw [length_contents] at shown
      exact shown
  · exact ⟨sound,rfl,by simp⟩

theorem ensureUnusedCapacity_spec (granted : Bool) (b : SendByteBuffer) (extra : Nat) (sound : b.Sound) :
    (b.ensureUnusedCapacity granted extra).2.Sound ∧ (b.ensureUnusedCapacity granted extra).2.contents = b.contents ∧
      ((b.ensureUnusedCapacity granted extra).1 = .ok () →
        b.live + extra ≤ (b.ensureUnusedCapacity granted extra).2.cap ∧ b.live + extra ≤ maxU64) := by
  unfold ensureUnusedCapacity
  split
  · exact ⟨sound,rfl,by simp⟩
  · rename_i needed sum
    have exact : needed = b.live + extra ∧ b.live + extra ≤ maxU64 := by
      unfold checkedAdd at sum
      grind
    split
    · rename_i fits
      exact ⟨sound,rfl,fun _ => ⟨exact.1 ▸ fits,exact.2⟩⟩
    · split
      · exact ⟨sound,rfl,by simp⟩
      · rename_i newCapacity grown
        have larger := growLoop_reaches _ _ _ _ grown
        obtain ⟨sound',same,cap⟩ := reallocate_spec granted b newCapacity sound (by omega)
        exact ⟨sound',same,fun ok => ⟨by rw [cap ok]; omega,exact.2⟩⟩

theorem ensureUnusedCapacity_live (granted : Bool) (b : SendByteBuffer) (extra : Nat) :
    (b.ensureUnusedCapacity granted extra).2.live = b.live := by
  unfold ensureUnusedCapacity reallocate
  grind

theorem ensureUnusedCapacity_ready (granted : Bool) (b : SendByteBuffer) (extra : Nat)
    (room : b.live + extra ≤ b.cap) (address : b.live + extra ≤ maxU64) : b.ensureUnusedCapacity granted extra = (.ok (),b) := by
  unfold ensureUnusedCapacity checkedAdd
  rw [if_pos address]
  simp [room]

theorem appendSlice_spec (granted : Bool) (b : SendByteBuffer) (data : List Byte) (sound : b.Sound)
    (room : b.live + data.length ≤ b.cap) (address : b.live + data.length ≤ maxU64) :
    (b.appendSlice granted data).1 = .ok () ∧ (b.appendSlice granted data).2.Sound ∧
      (b.appendSlice granted data).2.contents = b.contents ++ data := by
  unfold appendSlice
  split
  · rename_i none
    simp [none,sound]
  · rename_i some
    rw [ensureUnusedCapacity_ready granted b data.length room address]
    have start : b.head < b.cap := by
      have := List.length_pos_iff.mpr some
      have := sound.inside
      omega
    have size := Ring.length_splice b.allocation b.head b.live data start room
    refine ⟨rfl,⟨?_,?_⟩,Ring.window_splice b.allocation b.head b.live data start room⟩
    · simpa [cap,size] using room
    · simpa [cap,size] using sound.inside

theorem discardPrefix_spec (b : SendByteBuffer) (n : Nat) (sound : b.Sound) (within : n ≤ b.live) :
    (b.discardPrefix n).Sound ∧ (b.discardPrefix n).contents = b.contents.drop n := by
  unfold discardPrefix
  split
  · rename_i none
    simp [none,sound]
  · have fits := sound.fits
    split
    · rename_i emptied
      refine ⟨⟨by change b.live-n ≤ b.cap; omega,.inr rfl⟩,?_⟩
      rw [List.drop_of_length_le (by rw [length_contents]; omega)]
      simp [contents,emptied]
    · refine ⟨⟨by change b.live-n ≤ b.cap; omega,.inl (Nat.mod_lt _ (by omega))⟩,?_⟩
      exact (Ring.drop_window b.allocation b.head b.live n).symm

theorem slice_spec (b : SendByteBuffer) (start n : Nat) (sound : b.Sound) (within : start + n ≤ b.live) :
    ∃ run ≤ n, b.slice start n = some ((b.contents.drop start).take run) ∧
      (run < n → (b.head+(start+run)) % b.cap = 0) := by
  have fits := sound.fits
  unfold slice
  rw [if_pos within]
  by_cases none : n = 0
  · exact ⟨0,by omega,by simp [none],by omega⟩
  · rw [if_neg none]
    have turn : (b.head+start) % b.cap < b.cap := Nat.mod_lt _ (by omega)
    refine ⟨min n (b.cap-(b.head+start) % b.cap),Nat.min_le_left _ _,?_,?_⟩
    · have straight : Ring.slot b.allocation.length b.head start +
          min n (b.cap-(b.head+start) % b.cap) ≤ b.allocation.length := by
        change (b.head+start) % b.cap + _ ≤ b.cap
        omega
      exact congrArg some (Ring.slice_window b.allocation b.head b.live start _ (by omega) straight)
    · intro short
      have run : min n (b.cap-(b.head+start) % b.cap) = b.cap-(b.head+start) % b.cap := by omega
      rw [run,← Nat.add_assoc,← Nat.mod_add_mod,Nat.add_sub_cancel' turn.le,Nat.mod_self]

theorem slice_straight (b : SendByteBuffer) (start n : Nat) (sound : b.Sound) (within : start + n ≤ b.live)
    (turned : (b.head+start) % b.cap = 0) : b.slice start n = some ((b.contents.drop start).take n) := by
  have fits := sound.fits
  unfold slice
  rw [if_pos within]
  by_cases none : n = 0
  · simp [none]
  · rw [if_neg none,turned]
    have run : min n (b.cap-0) = n := by omega
    have straight : Ring.slot b.allocation.length b.head start + n ≤ b.allocation.length := by
      change (b.head+start) % b.cap + n ≤ b.cap
      omega
    have shown := Ring.slice_window b.allocation b.head b.live start n within straight
    rw [show Ring.slot b.allocation.length b.head start = 0 from turned] at shown
    dsimp only
    rw [run]
    exact congrArg some shown

end SendByteBuffer
end QuicZig.Conn
