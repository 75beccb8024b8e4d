import QuicZig.Conn.SendStream
import QuicZig.Library.System

/-! The send ring against the plain list of the bytes that were appended and not yet
dropped, over any run of appends, drops and growths, and what it returns for a place. -/
namespace QuicZig.Conn
open Machine

namespace SendByteBuffer

/-- The answer of the allocator matters only when the block is too short. -/
def ensureTotalCapacity (granted : Bool) (b : SendByteBuffer) (newCapacity : Nat) : Except AllocError Unit × SendByteBuffer :=
  if b.cap ≥ newCapacity then (.ok (),b)
  else match growCapacity b.cap newCapacity with
    | none => (.error .outOfMemory,b)
    | some grown => b.reallocate granted grown

def clearRetainingCapacity (b : SendByteBuffer) : SendByteBuffer := {b with head := 0,live := 0}

def contiguousFrom (b : SendByteBuffer) (start : Nat) : Nat :=
  if start ≥ b.live then 0 else min (b.live-start) (b.cap-(b.head+start) % b.cap)

/-- The read of `chunkBytesContiguous` at a relative index, with a scratch buffer of
`room` bytes for a chunk that crosses the wrap. -/
def readContiguous (b : SendByteBuffer) (room start n : Nat) : Option (List Byte) :=
  if n = 0 then some [] else
  match b.slice start n with
  | none => none
  | some first =>
    if first.length = n then some first
    else if n > room then none
    else match b.slice (start+first.length) (n-first.length) with
      | none => none
      | some rest => if rest.length = n-first.length then some (first ++ rest) else none

end SendByteBuffer

namespace SendBytesRun
open SendByteBuffer

inductive Op where
  | append (granted : Bool) (data : List Byte)
  | ensureUnusedCapacity (granted : Bool) (extra : Nat)
  | ensureTotalCapacity (granted : Bool) (newCapacity : Nat)
  | discardPrefix (n : Nat)
  | clearRetainingCapacity
  deriving DecidableEq

/-- The ring with the list it stands for. -/
structure History where
  buffer : SendByteBuffer := {}
  bytes : List Byte := []
  deriving DecidableEq

def step (h : History) : Op → History
  | .append granted data =>
    match h.buffer.appendSlice granted data with
    | (.ok _,b) => ⟨b,h.bytes ++ data⟩
    | (.error _,b) => ⟨b,h.bytes⟩
  | .ensureUnusedCapacity granted extra => {h with buffer := (h.buffer.ensureUnusedCapacity granted extra).2}
  | .ensureTotalCapacity granted newCapacity => {h with buffer := (h.buffer.ensureTotalCapacity granted newCapacity).2}
  | .discardPrefix n => ⟨h.buffer.discardPrefix n,h.bytes.drop n⟩
  | .clearRetainingCapacity => ⟨h.buffer.clearRetainingCapacity,[]⟩

def Asserted (h : History) : Op → Prop
  | .discardPrefix n => n ≤ h.buffer.live
  | _ => True

instance (h : History) (op : Op) : Decidable (Asserted h op) := by
  cases op <;> unfold Asserted <;> infer_instance

def Fresh (h : History) : Prop := h = {}

abbrev Reached (h : History) : Prop := System.Reaches Fresh step Asserted h

structure Refines (h : History) : Prop where
  sound : h.buffer.Sound
  same : h.buffer.contents = h.bytes

theorem ensureTotalCapacity_spec (granted : Bool) (b : SendByteBuffer) (newCapacity : Nat) (sound : b.Sound) :
    (b.ensureTotalCapacity granted newCapacity).2.Sound ∧
      (b.ensureTotalCapacity granted newCapacity).2.contents = b.contents := by
  unfold ensureTotalCapacity
  split
  · exact ⟨sound,rfl⟩
  split
  · exact ⟨sound,rfl⟩
  · rename_i short _ grown reached
    have larger := growLoop_reaches _ _ _ _ reached
    have fits := sound.fits
    obtain ⟨sound',same,_⟩ := reallocate_spec granted b grown sound (by omega)
    exact ⟨sound',same⟩

theorem appendSlice_cases (granted : Bool) (b : SendByteBuffer) (data : List Byte) (sound : b.Sound) :
    (b.appendSlice granted data).2.Sound ∧ (b.appendSlice granted data).2.contents =
      if (b.appendSlice granted data).1 = .ok () then b.contents ++ data else b.contents := by
  by_cases empty : data = []
  · simp [appendSlice,empty,sound]
  obtain ⟨sound',same,room⟩ := ensureUnusedCapacity_spec granted b data.length sound
  have live := ensureUnusedCapacity_live granted b data.length
  cases reserved : b.ensureUnusedCapacity granted data.length with
  | mk result grown =>
    rw [reserved] at sound' same room live
    cases result with
    | error e =>
      have failed : b.appendSlice granted data = (.error e,grown) := by simp [appendSlice,empty,reserved]
      rw [failed,if_neg (by simp)]
      exact ⟨sound',same⟩
    | ok _ =>
      obtain ⟨fits,address⟩ := room rfl
      -- With the room there, the append is that of the grown ring, which reserves nothing more.
      have again := ensureUnusedCapacity_ready granted grown data.length (by rw [live]; exact fits) (by rw [live]; exact address)
      have equal : b.appendSlice granted data = grown.appendSlice granted data := by
        simp [appendSlice,empty,reserved,again]
      obtain ⟨ok,sound'',contents⟩ := appendSlice_spec granted grown data sound' (by rw [live]; exact fits)
        (by rw [live]; exact address)
      rw [equal,if_pos ok]
      exact ⟨sound'',by rw [contents,same]⟩

theorem appendSlice_refused {b : SendByteBuffer} {data : List Byte} {e : AllocError}
    (refused : (b.appendSlice true data).1 = .error e) :
    maxU64 < (b.live+data.length) + (b.live+data.length)/2 + 8 := by
  by_cases empty : data = []
  · simp [appendSlice,empty] at refused
  cases reserved : b.ensureUnusedCapacity true data.length with
  | mk result grown =>
    cases result with
    | ok _ => simp [appendSlice,empty,reserved] at refused
    | error _ =>
      unfold ensureUnusedCapacity at reserved
      split at reserved
      · rename_i overflow
        unfold checkedAdd at overflow
        split at overflow
        · exact absurd overflow (by simp)
        · omega
      · rename_i needed sum
        have exact : needed = b.live+data.length := by
          unfold checkedAdd at sum
          split at sum
          · exact (Option.some.inj sum).symm
          · exact absurd sum (by simp)
        split at reserved
        · simp at reserved
        · split at reserved
          · rename_i failed
            rw [← exact]
            exact growCapacity_none _ _ failed
          · simp [reallocate] at reserved

theorem refines_step (h : History) (op : Op) (refines : Refines h) (asserted : Asserted h op) : Refines (step h op) := by
  obtain ⟨sound,same⟩ := refines
  cases op with
  | append granted data =>
    obtain ⟨sound',contents⟩ := appendSlice_cases granted h.buffer data sound
    cases appended : h.buffer.appendSlice granted data with
    | mk result b =>
      rw [appended] at sound' contents
      cases result with
      | ok _ =>
        have grown : step h (.append granted data) = ⟨b,h.bytes ++ data⟩ := by simp [step,appended]
        rw [grown]
        exact ⟨sound',by simpa [same] using contents⟩
      | error _ =>
        have kept : step h (.append granted data) = ⟨b,h.bytes⟩ := by simp [step,appended]
        rw [kept]
        exact ⟨sound',by simpa [same] using contents⟩
  | ensureUnusedCapacity granted extra =>
    obtain ⟨sound',contents,_⟩ := ensureUnusedCapacity_spec granted h.buffer extra sound
    exact ⟨sound',contents.trans same⟩
  | ensureTotalCapacity granted newCapacity =>
    obtain ⟨sound',contents⟩ := ensureTotalCapacity_spec granted h.buffer newCapacity sound
    exact ⟨sound',contents.trans same⟩
  | discardPrefix n =>
    obtain ⟨sound',contents⟩ := discardPrefix_spec h.buffer n sound asserted
    refine ⟨sound',contents.trans ?_⟩
    rw [same]
    rfl
  | clearRetainingCapacity => exact ⟨⟨Nat.zero_le _,.inr rfl⟩,rfl⟩

theorem refines_reached {h : History} (reached : Reached h) : Refines h :=
  reached.invariant Refines (fun h fresh => by rw [fresh]; exact ⟨⟨Nat.zero_le _,.inr rfl⟩,rfl⟩) refines_step

theorem slice_within {b : SendByteBuffer} {start n : Nat} (within : start+n ≤ b.live)
    (straight : n ≤ b.cap-(b.head+start) % b.cap) (room : 0 < b.cap) :
    b.slice start n = some ((b.contents.drop start).take n) := by
  unfold slice
  rw [if_pos within]
  by_cases none : n = 0
  · simp [none]
  have turn : (b.head+start) % b.cap < b.cap := Nat.mod_lt _ room
  rw [if_neg none]
  dsimp only
  rw [Nat.min_eq_left straight]
  refine congrArg some (Ring.slice_window b.allocation b.head b.live start n within ?_)
  change (b.head+start) % b.cap+n ≤ b.cap
  omega

/-- A slice in range is a part of the list from its place on, and not an empty one. -/
theorem slice_part {b : SendByteBuffer} (sound : b.Sound) {start n : Nat} (within : start+n ≤ b.live) :
    ∃ run ≤ n, b.slice start n = some ((b.contents.drop start).take run) ∧ (0 < n → 0 < run) := by
  by_cases none : n = 0
  · exact ⟨0,by omega,by simp [slice,none,show start ≤ b.live by omega],by omega⟩
  have fits := sound.fits
  have turn : (b.head+start) % b.cap < b.cap := Nat.mod_lt _ (by omega)
  by_cases straight : n ≤ b.cap-(b.head+start) % b.cap
  · exact ⟨n,le_rfl,slice_within within straight (by omega),id⟩
  · refine ⟨b.cap-(b.head+start) % b.cap,by omega,?_,by omega⟩
    have within' : start+(b.cap-(b.head+start) % b.cap) ≤ b.live := by omega
    have short := slice_within within' le_rfl (by omega)
    rw [← short]
    simp only [slice]
    rw [if_pos within,if_neg none,if_pos (by omega),if_neg (by omega),Nat.min_eq_right (by omega),Nat.min_self]

theorem slice_contiguous {b : SendByteBuffer} (sound : b.Sound) {start : Nat} (within : start ≤ b.live) :
    b.slice start (b.contiguousFrom start) = some ((b.contents.drop start).take (b.contiguousFrom start)) := by
  have fits := sound.fits
  unfold contiguousFrom
  split
  · simp [slice,within]
  · exact slice_within (by omega) (Nat.min_le_right ..) (by omega)

theorem readContiguous_whole {b : SendByteBuffer} (sound : b.Sound) {room start n : Nat} (within : start+n ≤ b.live)
    (scratch : n ≤ room) : b.readContiguous room start n = some ((b.contents.drop start).take n) := by
  unfold readContiguous
  by_cases none : n = 0
  · simp [none]
  obtain ⟨run,short,first,turned⟩ := b.slice_spec start n sound within
  have count : ((b.contents.drop start).take run).length = run := by
    rw [List.length_take,List.length_drop,length_contents]
    omega
  rw [if_neg none,first]
  simp only [count]
  split
  · rename_i whole
    rw [whole]
  · rename_i part
    -- The rest begins at the start of the block, so the second slice comes whole.
    rw [if_neg (by omega),slice_straight b _ _ sound (by omega) (turned (by omega)),← List.drop_drop]
    have rest : (((b.contents.drop start).drop run).take (n-run)).length = n-run := by
      rw [List.length_take,List.length_drop,List.length_drop,length_contents]
      omega
    simp only [rest,if_true]
    rw [← List.take_add,Nat.add_sub_cancel' short]

theorem chunkBytesContiguous_read (s : SendStream) (c : Chunk) {room : Nat} (scratch : c.length ≤ room)
    (above : s.baseOffset ≤ c.offset) :
    s.chunkBytesContiguous c = s.bytes.readContiguous room (c.offset-s.baseOffset) c.length := by
  unfold SendStream.chunkBytesContiguous readContiguous
  by_cases none : c.length = 0
  · simp [none]
  rw [if_neg none,if_neg (Nat.not_lt.mpr above),if_neg none]
  dsimp only
  cases s.bytes.slice (c.offset-s.baseOffset) c.length with
  | none => rfl
  | some first =>
    exact congrArg (fun rest => if first.length = c.length then some first else rest) (if_neg (Nat.not_lt.mpr scratch)).symm

/-- In every run the ring holds exactly the appended bytes that were not dropped, and reads give them back. -/
theorem ring_refines_list (h : History) (reached : Reached h) :
    h.buffer.live = h.bytes.length ∧
      (∀ data e, (h.buffer.appendSlice true data).1 = .error e →
        maxU64 < (h.bytes.length+data.length) + (h.bytes.length+data.length)/2 + 8) ∧
      (∀ start n, start+n ≤ h.bytes.length →
        ∃ run ≤ n, h.buffer.slice start n = some ((h.bytes.drop start).take run) ∧ (0 < n → 0 < run)) ∧
      (∀ start ≤ h.bytes.length,
        h.buffer.slice start (h.buffer.contiguousFrom start) = some ((h.bytes.drop start).take (h.buffer.contiguousFrom start))) ∧
      ∀ room start n, start+n ≤ h.bytes.length → n ≤ room →
        h.buffer.readContiguous room start n = some ((h.bytes.drop start).take n) := by
  obtain ⟨sound,same⟩ := refines_reached reached
  have size : h.buffer.live = h.bytes.length := by rw [← same,length_contents]
  rw [← size,← same]
  exact ⟨rfl,fun _ _ refused => appendSlice_refused refused,fun _ _ within => slice_part sound within,
    fun _ within => slice_contiguous sound within,fun _ _ _ within scratch => readContiguous_whole sound within scratch⟩

def turned : List Op :=
  [.append true (List.replicate 60 1),.discardPrefix 50,.append false (List.replicate 30 2)]

theorem ring_refines_list_turned : (System.run step {} turned).buffer.contiguousFrom 0 = 14 ∧
    (System.run step {} turned).buffer.readContiguous 40 0 40 = some (List.replicate 10 1 ++ List.replicate 30 2) := by
  have fresh : Reached {} := .start rfl
  have reached : Reached (System.run step {} turned) := fresh.run turned (by decide +kernel)
  obtain ⟨_,_,_,_,whole⟩ := ring_refines_list _ reached
  refine ⟨by decide +kernel,?_⟩
  exact (whole 40 0 40 (by decide +kernel) le_rfl).trans (by decide +kernel)

end SendBytesRun
end QuicZig.Conn
