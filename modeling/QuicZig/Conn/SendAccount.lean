import QuicZig.Conn.SendRun

/-! What a failed call leaves of the account of a send stream: which bytes are acknowledged,
which are pending and which are in flight. The account is read off the state at the point where
the call stopped. -/
namespace QuicZig.Conn.SendAccount
open Machine RangeList Spans SendStream

/-! Which requests the range lists make. -/

/-- A range that touches no other needs a slot of its own. -/
def Apart (list : List Range) (new : Range) : Prop :=
  new.offset < new.stop ∧ ∀ r ∈ list, r.stop < new.offset ∨ new.stop < r.offset

/-- A removal from the middle of a range leaves two. -/
def Splits (list : List Range) (rem : Range) : Prop := ∃ r ∈ list, r.offset < rem.offset ∧ rem.stop < r.stop

theorem insertMerge_refused {granted : Bool} {list : List Range} (sorted : Sorted list) (new : Range) :
    (insertMerge granted list new).1 ≠ .ok () ↔ granted = false ∧ Apart list new := by
  unfold insertMerge Apart
  split
  · simp
    omega
  rename_i proper
  have below : ∀ r ∈ list.takeWhile (·.stop < new.offset), r.stop < new.offset := by
    intro r member
    simpa using List.mem_takeWhile_imp member
  have whole : list.takeWhile (·.stop < new.offset) ++ list.dropWhile (·.stop < new.offset) = list :=
    List.takeWhile_append_dropWhile
  have start : ∀ first rest, list.dropWhile (·.stop < new.offset) = first::rest → new.offset ≤ first.stop := by
    intro first rest equal
    have head := List.head_dropWhile_not (fun r : Range => decide (r.stop < new.offset)) (l := list) (by simp [equal])
    simpa [equal] using head
  generalize list.takeWhile (·.stop < new.offset) = before at below whole
  generalize list.dropWhile (·.stop < new.offset) = after at whole start
  subst whole
  cases after with
  | nil =>
    have apart : ∀ r ∈ before ++ [], r.stop < new.offset ∨ new.stop < r.offset :=
      fun r member => .inl (below r (by simpa using member))
    cases granted with
    | true => simp
    | false => simpa using ⟨by omega,fun r member => .inl (below r member)⟩
  | cons first rest =>
    have touch := start first rest rfl
    obtain ⟨_,upper,_⟩ := (separated_append before (first::rest)).mp sorted
    obtain ⟨_,gap,_⟩ := (separated_cons first rest).mp upper
    dsimp only
    split
    · rename_i above
      have apart : ∀ r ∈ before ++ first::rest, r.stop < new.offset ∨ new.stop < r.offset := by
        intro r member
        rcases List.mem_append.mp member with inBefore | inAfter
        · exact .inl (below r inBefore)
        · rcases List.mem_cons.mp inAfter with rfl | later
          · exact .inr above
          · have := gap r later
            have := upper.proper first (by simp)
            exact .inr (by omega)
      cases granted with
      | true => simp
      | false => exact ⟨fun _ => ⟨rfl,by omega,apart⟩,fun _ => by simp⟩
    · rename_i meets
      refine ⟨fun refused => absurd rfl refused,?_⟩
      rintro ⟨_,_,apart⟩
      have := apart first (by simp)
      omega

theorem removeRange_refused {granted : Bool} {list : List Range} (sorted : Sorted list) {rem : Range}
    (proper : rem.offset < rem.stop) :
    (removeRange granted list rem).1 ≠ .ok () ↔ granted = false ∧ Splits list rem := by
  unfold removeRange
  rw [if_neg (by omega)]
  unfold Splits
  induction list with
  | nil => simp [removeFrom]
  | cons r rest ih =>
    obtain ⟨_,gap,tail⟩ := (separated_cons r rest).mp sorted
    -- A range that is not split passes the question on.
    have passed (missed : ¬(r.offset < rem.offset ∧ rem.stop < r.stop)) : (removeFrom granted rem rest).1 ≠ .ok () ↔
        granted = false ∧ ∃ q ∈ r::rest, q.offset < rem.offset ∧ rem.stop < q.stop := by
      rw [ih tail]
      simp only [List.mem_cons,exists_eq_or_imp]
      rw [or_iff_right missed]
    unfold removeFrom
    split
    · exact passed (by omega)
    split
    · refine ⟨fun refused => absurd rfl refused,?_⟩
      rintro ⟨_,q,member,low,_⟩
      rcases List.mem_cons.mp member with rfl | later
      · omega
      · have := gap q later
        omega
    split
    · rename_i inside
      cases granted with
      | true => simp
      | false => exact ⟨fun _ => ⟨rfl,r,by simp,inside.1,inside.2⟩,fun _ => by simp⟩
    split
    · exact passed (by omega)
    split
    · exact passed (by omega)
    · exact passed (by omega)

/-- The acknowledged ranges that the scrub loop has taken out of `pending` when it ends or is refused. -/
def scrubbed (grants : Allocator) (low high : Nat) (pending : List Range) : Nat → List Range → List Range
  | _,[] => []
  | n,acked::rest =>
    if acked.stop ≤ low then scrubbed grants low high pending (n+1) rest
    else if acked.offset ≥ high then []
    else match removeRange (grants n) pending acked with
      | (.error _,_) => []
      | (.ok _,pending) => acked::scrubbed grants low high pending (n+1) rest

theorem scrubbed_subset (grants : Allocator) (low high : Nat) (acked pending : List Range) (n : Nat) :
    ∀ r ∈ scrubbed grants low high pending n acked, r ∈ acked := by
  induction acked generalizing pending n with
  | nil => exact fun _ => id
  | cons first rest ih =>
    intro r member
    unfold scrubbed at member
    split at member
    · exact List.mem_cons_of_mem _ (ih pending (n+1) r member)
    split at member
    · cases member
    cases outcome : removeRange (grants n) pending first with
    | mk result pending' =>
    rw [outcome] at member
    cases result with
    | error e => cases member
    | ok _ =>
      rcases List.mem_cons.mp member with rfl | later
      · exact List.mem_cons_self
      · exact List.mem_cons_of_mem _ (ih pending' (n+1) r later)

theorem removeAcked_scrubbed (grants : Allocator) (low high : Nat) (acked pending : List Range) (sorted : Sorted pending)
    (n : Nat) (x : Nat) : Covered (removeAcked grants low high pending n acked).2 x ↔
      Covered pending x ∧ ¬Covered (scrubbed grants low high pending n acked) x := by
  induction acked generalizing pending n with
  | nil => simp [removeAcked,scrubbed]
  | cons first rest ih =>
    unfold removeAcked scrubbed
    split
    · exact ih pending sorted (n+1)
    split
    · simp
    obtain ⟨sorted',covers⟩ := removeRange_spec (grants n) pending first sorted
    cases outcome : removeRange (grants n) pending first with
    | mk result pending' =>
    rw [outcome] at sorted' covers
    cases result with
    | error e =>
      rw [covers x]
      simp
    | ok _ =>
      dsimp only at covers ⊢
      rw [ih pending' sorted' (n+1),covers x,covered_cons]
      simp only [true_imp_iff]
      tauto

/-! The account. -/

/-- Packet `pn` put aside, some packet in flight carries the byte. -/
def Elsewhere (s : SendStream) (pn x : Nat) : Prop := ∃ qn c, qn ≠ pn ∧ s.inFlight.Holds qn c ∧ Carries c x

def InFlight (s : SendStream) (x : Nat) : Prop := ∃ pn c, s.inFlight.Holds pn c ∧ Carries c x

def Accounted (s : SendStream) (x : Nat) : Prop := s.Acked x ∨ Covered s.pending x ∨ InFlight s x

/-- Every written byte is acknowledged, pending and in flight as it was. -/
def SameAccount (s after : SendStream) : Prop :=
  ∀ x < s.writeOffset, (after.Acked x ↔ s.Acked x) ∧ (Covered after.pending x ↔ Covered s.pending x) ∧
    (InFlight after x ↔ InFlight s x)

def NoneOrphaned (s after : SendStream) : Prop := ∀ x < s.writeOffset, Accounted s x → Accounted after x

/-- The parts of a stream fit together. -/
structure Whole (written : List Byte) (s : SendStream) : Prop where
  buffered : Buffered written s
  inFlight : s.inFlight.Sound
  pending : Sorted s.pending
  pendingEnd : ∀ x, Covered s.pending x → x < s.writeOffset
  chunkEnd : ∀ pn c, s.inFlight.Holds pn c → c.offset+c.length ≤ s.writeOffset

theorem whole_run {guard : SendRun.History → SendRun.Event → Prop} {h : SendRun.History}
    (reached : System.Reaches SendRun.Fresh SendRun.step guard h) : Whole h.written h.stream := by
  have coherent := SendRun.coherent_run h reached
  exact ⟨coherent.buffered,coherent.inFlight,coherent.pending,coherent.pendingEnd,coherent.chunkEnd⟩

/-- The bytes of a chunk that would be queued again: those above the floor. -/
def queueRange (s : SendStream) (c : Chunk) : Range := ⟨max c.offset s.baseOffset,c.offset+c.length⟩

def Requeued (s : SendStream) (c : Chunk) (x : Nat) : Prop := s.baseOffset ≤ x ∧ Carries c x

/-- The acknowledged ranges the requeue has taken out of `pending` again by the time it stops. -/
def gone (grants : Allocator) (s : SendStream) (c : Chunk) : List Range :=
  scrubbed grants (queueRange s c).offset (queueRange s c).stop (insertMerge (grants 0) s.pending (queueRange s c)).2 1 s.ackedAbove

/-- The requeue is refused its slot in `pending`. -/
def Unqueued (grants : Allocator) (s : SendStream) (c : Chunk) : Prop := grants 0 = false ∧ Apart s.pending (queueRange s c)

/-- A requeue that fails leaves `pending` covering what it did: it is refused the slot, or what it had queued was
pending already and what it had scrubbed was not. -/
def QueueSpared (grants : Allocator) (s : SendStream) (c : Chunk) : Prop :=
  Unqueued grants s c ∨
    (∀ x, Requeued s c x → ¬Covered (gone grants s c) x → Covered s.pending x) ∧
      ∀ x, Covered (gone grants s c) x → ¬Covered s.pending x

/-- `recordSent` cuts the chunk out of `pending`, and then finds that its FIN does not fit. -/
structure CutFirst (grants : Allocator) (s : SendStream) (pn : Nat) (c : Chunk) : Prop where
  new : s.inFlight.contains pn = false
  room : (s.inFlight.ensureUnusedCapacity (grants 0) 1).1 = .ok ()
  long : 0 < c.length
  first : ∃ r rest, s.pending = r::rest ∧ c.offset = r.offset ∧ c.offset+c.length ≤ r.stop
  fin : c.fin = true
  misfit : s.finInFlight = true ∨ s.finAcked = true ∨ s.finalSize ≠ some (c.offset+c.length)

/-- The bytes of an acknowledged chunk are scrubbed from `pending` before the acknowledgement is recorded. -/
def Scrubs (grants : Allocator) (s : SendStream) (c : Chunk) : Prop :=
  s.probeRequeuedPending = true ∧ ¬(grants 0 = false ∧ Splits s.pending ⟨c.offset,c.offset+c.length⟩)

inductive Call where
  | write (data : List Byte)
  | recordSent (pn : Nat) (c : Chunk)
  | onPacketAcked (pn : Nat)
  | onPacketLost (pn : Nat)
  | onPacketProbeRequeued (pn : Nat)

def run (grants : Allocator) (s : SendStream) : Call → Outcome Unit
  | .write data => ((s.write grants data).1.map fun _ => (),(s.write grants data).2)
  | .recordSent pn c => s.recordSent (grants 0) pn c
  | .onPacketAcked pn => s.onPacketAcked grants pn
  | .onPacketLost pn => s.onPacketLost grants pn
  | .onPacketProbeRequeued pn => ((s.onPacketProbeRequeued grants pn).1.map fun _ => (),(s.onPacketProbeRequeued grants pn).2)

def Spared (grants : Allocator) (s : SendStream) : Call → Prop
  | .write _ => True
  | .recordSent pn c => ¬CutFirst grants s pn c
  | .onPacketAcked pn => ∀ c, s.inFlight.Holds pn c →
      (∀ x, Carries c x → Elsewhere s pn x) ∧ (Scrubs grants s c → ∀ x, Carries c x → ¬Covered s.pending x)
  | .onPacketLost pn => ∀ c, s.inFlight.Holds pn c → (∀ x, Carries c x → Elsewhere s pn x) ∧ QueueSpared grants s c
  | .onPacketProbeRequeued pn => ∀ c, s.inFlight.Holds pn c → QueueSpared grants s c

/-- When a failed call orphans no byte. -/
def Sheltered (grants : Allocator) (s : SendStream) : Call → Prop
  | .write _ => True
  | .recordSent pn c => CutFirst grants s pn c → ∀ x, Carries c x → s.Acked x ∨ InFlight s x
  | .onPacketAcked pn => ∀ c, s.inFlight.Holds pn c → ∀ x, Carries c x →
      s.Acked x ∨ Elsewhere s pn x ∨ (Covered s.pending x ∧ ¬Scrubs grants s c)
  | .onPacketLost pn => ∀ c, s.inFlight.Holds pn c → Unqueued grants s c → ∀ x, Carries c x →
      s.Acked x ∨ Elsewhere s pn x ∨ Covered s.pending x
  | .onPacketProbeRequeued _ => True

section
variable {written : List Byte} {s : SendStream}

theorem SameAccount.refl (s : SendStream) : SameAccount s s := fun _ _ => ⟨Iff.rfl,Iff.rfl,Iff.rfl⟩

theorem NoneOrphaned.refl (s : SendStream) : NoneOrphaned s s := fun _ _ => id

theorem account_of_fields {after : SendStream} (base : after.baseOffset = s.baseOffset)
    (above : after.ackedAbove = s.ackedAbove) (pending : after.pending = s.pending)
    (alive : after.inFlight.alive = s.inFlight.alive) : SameAccount s after ∧ NoneOrphaned s after := by
  have acked : ∀ x, after.Acked x ↔ s.Acked x := by
    intro x
    unfold SendStream.Acked
    rw [base,above]
  have flying : ∀ x, InFlight after x ↔ InFlight s x := by
    intro x
    unfold InFlight InFlightMap.Holds
    rw [alive]
  refine ⟨fun x _ => ⟨acked x,by rw [pending],flying x⟩,fun x _ => ?_⟩
  unfold Accounted
  rw [acked,pending,flying]
  exact id

/-- With packet `pn` gone, the bytes in flight are those that another packet carries. -/
theorem inFlight_removed {after : SendStream} {pn : Nat}
    (members : ∀ e, e ∈ after.inFlight.alive ↔ e ∈ s.inFlight.alive ∧ e.pn ≠ pn) (x : Nat) :
    InFlight after x ↔ Elsewhere s pn x := by
  unfold InFlight Elsewhere InFlightMap.Holds
  constructor
  · rintro ⟨qn,c,held,carries⟩
    obtain ⟨held',other⟩ := (members _).mp held
    exact ⟨qn,c,other,held',carries⟩
  · rintro ⟨qn,c,other,held,carries⟩
    exact ⟨qn,c,(members _).mpr ⟨held,other⟩,carries⟩

theorem inFlight_split (whole : Whole written s) {pn : Nat} {c : Chunk} (held : s.inFlight.Holds pn c) (x : Nat) :
    InFlight s x ↔ Elsewhere s pn x ∨ Carries c x := by
  constructor
  · rintro ⟨qn,d,held',carries⟩
    by_cases same : qn = pn
    · subst same
      rw [InFlightMap.Sound.unique whole.inFlight held held']
      exact .inr carries
    · exact .inl ⟨qn,d,same,held',carries⟩
  · rintro (⟨qn,d,_,held',carries⟩ | carries)
    · exact ⟨qn,d,held',carries⟩
    · exact ⟨pn,c,held,carries⟩

theorem Whole.carries_lt (whole : Whole written s) {pn : Nat} {c : Chunk} (held : s.inFlight.Holds pn c) {x : Nat}
    (carries : Carries c x) : x < s.writeOffset :=
  carries.2.trans_le (whole.chunkEnd pn c held)

theorem gone_acked (whole : Whole written s) (grants : Allocator) (c : Chunk) {x : Nat}
    (covered : Covered (gone grants s c) x) : s.Acked x ∧ x < s.writeOffset := by
  obtain ⟨r,member,inside⟩ := covered
  have above : Covered s.ackedAbove x := ⟨r,scrubbed_subset _ _ _ _ _ _ r member,inside⟩
  exact ⟨.inr above,(whole.buffered.above x above).2⟩

theorem requeue_refused (whole : Whole written s) {grants : Allocator} {c : Chunk} {e : Error}
    (failed : (s.requeue grants c).1 = .error e) :
    (∃ pending, (s.requeue grants c).2 = {s with pending := pending}) ∧
      ((Unqueued grants s c ∧ (s.requeue grants c).2 = s) ∨ (¬Unqueued grants s c ∧ ∀ x,
        Covered (s.requeue grants c).2.pending x ↔
          (Covered s.pending x ∨ Requeued s c x) ∧ ¬Covered (gone grants s c) x)) := by
  unfold requeue at failed ⊢
  by_cases long : c.length > 0
  · rw [if_pos long] at failed ⊢
    unfold addUnackedPending at failed ⊢
    dsimp only at failed ⊢
    split at failed
    · cases failed
    rename_i some
    rw [if_neg some]
    unfold addPending at failed ⊢
    have refused : (insertMerge (grants 0) s.pending (queueRange s c)).1 ≠ .ok () ↔ Unqueued grants s c :=
      insertMerge_refused whole.pending (queueRange s c)
    have inserted := insertMerge_spec (grants 0) s.pending (queueRange s c) whole.pending
    have same := insertMerge_error (grants 0) s.pending (queueRange s c)
    unfold gone
    unfold queueRange at refused inserted same ⊢
    cases outcome : insertMerge (grants 0) s.pending ⟨max c.offset s.baseOffset,c.offset+c.length⟩ with
    | mk result pending =>
    rw [outcome] at refused inserted same failed
    cases result with
    | error cause =>
      obtain rfl : pending = s.pending := (same cause rfl).2
      exact ⟨⟨s.pending,rfl⟩,.inl ⟨refused.mp (by simp),rfl⟩⟩
    | ok _ =>
      obtain ⟨sorted,covers⟩ := inserted rfl
      have scrubbing := removeAcked_scrubbed grants (max c.offset s.baseOffset) (c.offset+c.length) s.ackedAbove pending sorted 1
      refine ⟨⟨_,rfl⟩,.inr ⟨fun unqueued => refused.mpr unqueued rfl,fun x => ?_⟩⟩
      have queued : Requeued s c x ↔ max c.offset s.baseOffset ≤ x ∧ x < c.offset+c.length := by
        unfold Requeued Carries
        omega
      rw [queued,← covers x]
      exact scrubbing x
  · rw [if_neg long] at failed
    cases failed

/-- A refused requeue keeps `pending` exactly when it is spared, and never drops a byte that is not acknowledged. -/
theorem requeue_account (whole : Whole written s) {grants : Allocator} {c : Chunk} {e : Error}
    (within : c.offset+c.length ≤ s.writeOffset) (failed : (s.requeue grants c).1 = .error e) :
    ((∀ x < s.writeOffset, Covered (s.requeue grants c).2.pending x ↔ Covered s.pending x) ↔ QueueSpared grants s c) ∧
      (∀ x, Covered s.pending x → s.Acked x ∨ Covered (s.requeue grants c).2.pending x) ∧
      (¬Unqueued grants s c → ∀ x, Carries c x → s.Acked x ∨ Covered (s.requeue grants c).2.pending x) := by
  obtain ⟨_,⟨unqueued,same⟩ | ⟨queued,covers⟩⟩ := requeue_refused whole failed
  · rw [same]
    exact ⟨⟨fun _ => .inl unqueued,fun _ _ _ => Iff.rfl⟩,fun x => .inr,fun other => absurd unqueued other⟩
  refine ⟨⟨fun kept => .inr ⟨fun x again standing => ?_,fun x covered pending => ?_⟩,fun spared x _ => ?_⟩,fun x pending => ?_,
    fun _ x carries => ?_⟩
  · exact (kept x (again.2.2.trans_le within)).mp ((covers x).mpr ⟨.inr again,standing⟩)
  · exact ((covers x).mp ((kept x (gone_acked whole grants c covered).2).mpr pending)).2 covered
  · obtain unqueued | ⟨again,standing⟩ := spared
    · exact absurd unqueued queued
    rw [covers x]
    constructor
    · rintro ⟨pending | requeued,left⟩
      · exact pending
      · exact again x requeued left
    · exact fun pending => ⟨.inl pending,fun covered => standing x covered pending⟩
  · by_cases covered : Covered (gone grants s c) x
    · exact .inl (gone_acked whole grants c covered).1
    · exact .inr ((covers x).mpr ⟨.inl pending,covered⟩)
  · by_cases covered : Covered (gone grants s c) x
    · exact .inl (gone_acked whole grants c covered).1
    by_cases below : x < s.baseOffset
    · exact .inl (.inl below)
    · exact .inr ((covers x).mpr ⟨.inr ⟨by omega,carries⟩,covered⟩)

theorem write_account {grants : Allocator} {data : List Byte} {e : Error} (failed : (s.write grants data).1 = .error e) :
    SameAccount s (s.write grants data).2 ∧ NoneOrphaned s (s.write grants data).2 := by
  unfold write at failed ⊢
  split
  · exact ⟨.refl s,.refl s⟩
  rename_i opened
  rw [if_neg opened] at failed
  split
  · exact ⟨.refl s,.refl s⟩
  rename_i some
  rw [if_neg some] at failed
  dsimp only at failed ⊢
  split
  · exact ⟨.refl s,.refl s⟩
  rename_i room
  rw [if_neg room] at failed
  generalize min data.length (s.maxBuffered-s.bytes.live) = n at failed ⊢
  cases reserve : s.bytes.ensureUnusedCapacity (grants 0) n with
  | mk result bytes =>
  rw [reserve] at failed
  cases result with
  | error cause => exact account_of_fields rfl rfl rfl rfl
  | ok _ =>
    unfold addPending at failed ⊢
    have refused := insertMerge_error (grants 1) s.pending ⟨s.writeOffset,s.writeOffset+n⟩
    dsimp only at failed ⊢
    cases outcome : insertMerge (grants 1) s.pending ⟨s.writeOffset,s.writeOffset+n⟩ with
    | mk result pending =>
    rw [outcome] at failed refused
    cases result with
    | error cause =>
      obtain rfl : pending = s.pending := (refused cause rfl).2
      exact account_of_fields rfl rfl rfl rfl
    | ok _ => cases failed

theorem storeSent_refused {pn : Nat} {c : Chunk} {e : Error} (failed : (s.storeSent pn c).1 = .error e) :
    (s.storeSent pn c).2 = s ∧ c.fin = true ∧
      (s.finInFlight = true ∨ s.finAcked = true ∨ s.finalSize ≠ some (c.offset+c.length)) := by
  unfold storeSent at failed ⊢
  split at failed
  · rename_i fin
    rw [if_pos fin]
    split at failed
    · rename_i due
      rw [if_pos due]
      exact ⟨rfl,fin,by simpa [or_assoc] using Or.inl due⟩
    rename_i due
    rw [if_neg due]
    split at failed
    · rename_i misfit
      rw [if_pos misfit]
      exact ⟨rfl,fin,.inr (.inr misfit)⟩
    · cases failed
  · cases failed

theorem takePending_cases (s : SendStream) (c : Chunk) :
    (0 < c.length ∧ ∃ r rest, s.pending = r::rest ∧ c.offset = r.offset ∧ c.offset+c.length ≤ r.stop) ∨
      ((s.takePending c).2 = s ∧
        ¬(0 < c.length ∧ ∃ r rest, s.pending = r::rest ∧ c.offset = r.offset ∧ c.offset+c.length ≤ r.stop)) := by
  rw [or_and_left]
  refine ⟨?_,Classical.em _⟩
  unfold takePending
  by_cases long : c.length > 0
  · rw [if_pos long]
    cases head : s.pending with
    | nil => exact .inr rfl
    | cons r rest =>
      by_cases offset : c.offset = r.offset
      · by_cases stop : c.offset+c.length ≤ r.stop
        · exact .inl ⟨long,r,rest,rfl,offset,stop⟩
        · refine .inr ?_
          dsimp only
          rw [if_neg (fun other => other offset),if_pos (by omega)]
      · refine .inr ?_
        dsimp only
        rw [if_pos offset]
  · rw [if_neg long]
    refine .inr ?_
    split
    · rfl
    · rfl

theorem recordSent_refused (whole : Whole written s) {grants : Allocator} {pn : Nat} {c : Chunk} {e : Error}
    (failed : (s.recordSent (grants 0) pn c).1 = .error e) :
    ∃ inFlight pending flag, (s.recordSent (grants 0) pn c).2 =
        {s with inFlight := inFlight,pending := pending,probeRequeuedPending := flag} ∧
      inFlight.alive = s.inFlight.alive ∧
      ((CutFirst grants s pn c ∧ (∀ x, Carries c x → Covered s.pending x) ∧
          ∀ x, Covered pending x ↔ Covered s.pending x ∧ ¬Carries c x) ∨
        (¬CutFirst grants s pn c ∧ pending = s.pending)) := by
  unfold recordSent at failed ⊢
  split
  · rename_i known
    exact ⟨s.inFlight,s.pending,s.probeRequeuedPending,rfl,rfl,.inr ⟨fun cut => by simp [cut.new] at known,rfl⟩⟩
  rename_i new
  rw [if_neg new] at failed
  obtain ⟨_,alive,_⟩ := InFlightMap.ensureUnusedCapacity_spec (grants 0) s.inFlight 1 whole.inFlight
  generalize reserve : s.inFlight.ensureUnusedCapacity (grants 0) 1 = reserved at failed alive ⊢
  obtain ⟨result,inFlight⟩ := reserved
  cases result with
  | error cause =>
    refine ⟨inFlight,s.pending,s.probeRequeuedPending,rfl,alive,.inr ⟨fun cut => ?_,rfl⟩⟩
    have := cut.room
    rw [reserve] at this
    cases this
  | ok _ =>
    dsimp only at failed alive ⊢
    obtain ⟨long,r,rest,head,offset,stop⟩ | ⟨same,short⟩ := takePending_cases {s with inFlight := inFlight} c
    · obtain ⟨pending,flag,taken,_,covers,carried⟩ :=
        takePending_spec (s := {s with inFlight := inFlight}) whole.pending head offset stop long
      rw [taken] at failed ⊢
      obtain ⟨left,fin,misfit⟩ := storeSent_refused failed
      exact ⟨inFlight,pending,flag,left,alive,
        .inl ⟨⟨by simpa using new,by rw [reserve],long,⟨r,rest,head,offset,stop⟩,fin,misfit⟩,carried,covers⟩⟩
    · refine ⟨inFlight,s.pending,s.probeRequeuedPending,?_,alive,.inr ⟨fun cut => short ⟨cut.long,cut.first⟩,rfl⟩⟩
      cases taken : SendStream.takePending {s with inFlight := inFlight} c with
      | mk result left =>
      rw [taken] at failed same
      obtain rfl : left = {s with inFlight := inFlight} := same
      cases result with
      | error _ => rfl
      | ok _ => exact (storeSent_refused failed).1

theorem recordSent_account (whole : Whole written s) {grants : Allocator} {pn : Nat} {c : Chunk} {e : Error}
    (failed : (s.recordSent (grants 0) pn c).1 = .error e) :
    (SameAccount s (s.recordSent (grants 0) pn c).2 ↔ ¬CutFirst grants s pn c) ∧
      (NoneOrphaned s (s.recordSent (grants 0) pn c).2 ↔
        (CutFirst grants s pn c → ∀ x, Carries c x → s.Acked x ∨ InFlight s x)) := by
  obtain ⟨inFlight,pending,flag,left,alive,⟨cut,carried,covers⟩ | ⟨uncut,rfl⟩⟩ := recordSent_refused whole failed
  · rw [left]
    have flying : ∀ x, InFlight {s with inFlight := inFlight,pending := pending,probeRequeuedPending := flag} x ↔ InFlight s x := by
      intro x
      unfold InFlight InFlightMap.Holds
      rw [alive]
    refine ⟨iff_of_false (fun same => ?_) (not_not_intro cut),fun kept _ x carries => ?_,fun held x _ accounted => ?_⟩
    · have first : Carries c c.offset := ⟨le_rfl,Nat.lt_add_of_pos_right cut.long⟩
      have pending' := carried c.offset first
      exact ((covers c.offset).mp ((same c.offset (whole.pendingEnd _ pending')).2.1.mpr pending')).2 first
    · have pending' := carried x carries
      rcases kept x (whole.pendingEnd x pending') (.inr (.inl pending')) with acked | pending'' | flies
      · exact .inl acked
      · exact absurd carries ((covers x).mp pending'').2
      · exact .inr ((flying x).mp flies)
    · rcases accounted with acked | pending' | flies
      · exact .inl acked
      · by_cases carries : Carries c x
        · rcases held cut x carries with acked | flies
          · exact .inl acked
          · exact .inr (.inr ((flying x).mpr flies))
        · exact .inr (.inl ((covers x).mpr ⟨pending',carries⟩))
      · exact .inr (.inr ((flying x).mpr flies))
  · rw [left]
    have kept (after : SendStream) (shape : after = {s with inFlight := inFlight,pending := s.pending,probeRequeuedPending := flag}) :
        SameAccount s after ∧ NoneOrphaned s after := by
      rw [shape]
      exact account_of_fields rfl rfl rfl alive
    obtain ⟨same,none⟩ := kept _ rfl
    exact ⟨iff_of_true same uncut,iff_of_true none fun cut => absurd cut uncut⟩

theorem removed_account (whole : Whole written s) {pn : Nat} {c : Chunk} (held : s.inFlight.Holds pn c) {t : SendStream}
    (acked : ∀ x, t.Acked x ↔ s.Acked x) (flying : ∀ x, InFlight t x ↔ Elsewhere s pn x) :
    (SameAccount s t ↔ (∀ x, Carries c x → Elsewhere s pn x) ∧
      ∀ x < s.writeOffset, Covered t.pending x ↔ Covered s.pending x) ∧
    (NoneOrphaned s t ↔ ∀ x, Carries c x ∨ Covered s.pending x →
      s.Acked x ∨ Elsewhere s pn x ∨ Covered t.pending x) := by
  have split := inFlight_split whole held
  refine ⟨⟨fun same => ⟨fun x carries => ?_,fun x within => (same x within).2.1⟩,fun ⟨elsewhere,kept⟩ x within => ?_⟩,
    fun none x either => ?_,fun none x within accounted => ?_⟩
  · rw [← flying x,(same x (whole.carries_lt held carries)).2.2,split x]
    exact .inr carries
  · refine ⟨acked x,kept x within,?_⟩
    rw [flying x,split x]
    exact ⟨.inl,fun either => either.elim id (elsewhere x)⟩
  · have accounted : x < s.writeOffset ∧ Accounted s x := by
      rcases either with carries | pending
      · exact ⟨whole.carries_lt held carries,.inr (.inr ((split x).mpr (.inr carries)))⟩
      · exact ⟨whole.pendingEnd x pending,.inr (.inl pending)⟩
    rcases none x accounted.1 accounted.2 with acked' | pending | flies
    · exact .inl ((acked x).mp acked')
    · exact .inr (.inr pending)
    · exact .inr (.inl ((flying x).mp flies))
  · have left : s.Acked x ∨ Elsewhere s pn x ∨ Covered t.pending x := by
      rcases accounted with acked' | pending | flies
      · exact .inl acked'
      · exact none x (.inr pending)
      · rcases (split x).mp flies with elsewhere | carries
        · exact .inr (.inl elsewhere)
        · exact none x (.inl carries)
    rcases left with acked' | elsewhere | pending
    · exact .inl ((acked x).mpr acked')
    · exact .inr (.inr ((flying x).mpr elsewhere))
    · exact .inr (.inl pending)

/-- A refused acknowledgement records nothing; it may have scrubbed the bytes from `pending` before. -/
theorem markAcked_refused (buffered : Buffered written s) (sorted : Sorted s.pending) {grants : Allocator} {c : Chunk} {e : Error}
    (long : 0 < c.length) (within : c.offset+c.length ≤ s.writeOffset)
    (failed : (s.markAcked grants ⟨c.offset,c.offset+c.length⟩).1 = .error e) :
    ∃ pending flag, (s.markAcked grants ⟨c.offset,c.offset+c.length⟩).2 =
        {s with pending := pending,probeRequeuedPending := flag} ∧
      ∀ x, Covered pending x ↔ Covered s.pending x ∧ (Scrubs grants s c → ¬Carries c x) := by
  have unrecorded {t : SendStream} (buffered : Buffered written t) (within : c.offset+c.length ≤ t.writeOffset)
      (failed : (t.recordAcked (grants 1) ⟨c.offset,c.offset+c.length⟩).1 = .error e) :
      (t.recordAcked (grants 1) ⟨c.offset,c.offset+c.length⟩).2 = t :=
    (recordAcked_spec buffered (grants 1) _ within).2.2.2.2.1 (by rw [failed]; exact nofun)
  have refused := @removeRange_refused (grants 0) _ sorted ⟨c.offset,c.offset+c.length⟩
    (Nat.lt_add_of_pos_right long)
  unfold markAcked at failed ⊢
  split
  · rename_i scrub
    rw [if_pos scrub] at failed
    simp only [Bool.and_eq_true,Bool.not_eq_true'] at scrub
    obtain ⟨_,covers⟩ := removeRange_spec (grants 0) s.pending ⟨c.offset,c.offset+c.length⟩ sorted
    cases outcome : removeRange (grants 0) s.pending ⟨c.offset,c.offset+c.length⟩ with
    | mk result pending =>
    rw [outcome] at covers failed refused
    cases result with
    | error cause =>
      refine ⟨pending,s.probeRequeuedPending,rfl,fun x => ?_⟩
      have standing : ¬Scrubs grants s c := fun scrubs => scrubs.2 (refused.mp (by simp))
      rw [covers x]
      simp [standing]
    | ok _ =>
      refine ⟨pending,!pending.isEmpty,unrecorded (buffered.transfer rfl rfl rfl rfl) within failed,fun x => ?_⟩
      have scrubs : Scrubs grants s c := ⟨scrub.1,fun both => refused.mpr both rfl⟩
      rw [covers x]
      simp [scrubs,Carries]
  · rename_i still
    rw [if_neg still] at failed
    refine ⟨s.pending,s.probeRequeuedPending,unrecorded buffered within failed,fun x => ?_⟩
    refine ⟨fun covered => ⟨covered,fun scrubs => ?_⟩,And.left⟩
    have empty : s.pending = [] := by
      simpa [scrubs.1] using still
    rw [empty] at covered
    exact absurd covered (covers_nil x)

theorem acked_account (whole : Whole written s) {grants : Allocator} {pn : Nat} {e : Error}
    (failed : (s.onPacketAcked grants pn).1 = .error e) :
    (SameAccount s (s.onPacketAcked grants pn).2 ↔ Spared grants s (.onPacketAcked pn)) ∧
      (NoneOrphaned s (s.onPacketAcked grants pn).2 ↔ Sheltered grants s (.onPacketAcked pn)) := by
  unfold onPacketAcked at failed ⊢
  cases removal : s.inFlight.fetchRemove pn with
  | none =>
    have absent := (InFlightMap.fetchRemove_none whole.inFlight).mp removal
    exact ⟨iff_of_true (.refl s) fun c held => absurd held (absent c),
      iff_of_true (.refl s) fun c held => absurd held (absent c)⟩
  | some removed =>
  obtain ⟨c,inFlight⟩ := removed
  obtain ⟨held,_,members⟩ := InFlightMap.fetchRemove_some whole.inFlight removal
  rw [removal] at failed
  dsimp only at failed ⊢
  split at failed
  case isFalse => cases failed
  rename_i long
  rw [if_pos long]
  cases outcome : SendStream.markAcked grants {s with inFlight := inFlight,finAcked := s.finAcked || c.fin}
    ⟨c.offset,c.offset+c.length⟩ with
  | mk result left =>
  rw [outcome] at failed
  cases result with
  | ok _ => cases failed
  | error cause =>
  obtain ⟨pending,flag,after,covers⟩ := markAcked_refused
    (s := {s with inFlight := inFlight,finAcked := s.finAcked || c.fin})
    (whole.buffered.transfer rfl rfl rfl rfl) whole.pending long (whole.chunkEnd pn c held) (by rw [outcome])
  rw [outcome] at after
  replace after : left = _ := after
  obtain ⟨same,none⟩ := removed_account whole held (t := left) (fun x => by rw [after]; exact Iff.rfl)
    (inFlight_removed (by rw [after]; exact members))
  have pending' : left.pending = pending := by rw [after]
  rw [same,none,pending']
  have carried : ∀ d, s.inFlight.Holds pn d → d = c := fun d held' => InFlightMap.Sound.unique whole.inFlight held' held
  refine ⟨⟨?_,fun spared => ?_⟩,⟨?_,fun sheltered x either => ?_⟩⟩
  · rintro ⟨elsewhere,kept⟩ d held'
    rw [carried d held']
    refine ⟨elsewhere,fun scrubs x carries standing => ?_⟩
    exact ((covers x).mp ((kept x (whole.carries_lt held carries)).mpr standing)).2 scrubs carries
  · obtain ⟨elsewhere,standing⟩ := spared c held
    refine ⟨elsewhere,fun x _ => (covers x).trans ⟨And.left,fun pending => ⟨pending,fun scrubs carries => ?_⟩⟩⟩
    exact standing scrubs x carries pending
  · intro kept d held' x carries
    rw [carried d held'] at carries ⊢
    rcases kept x (.inl carries) with acked | elsewhere | covered
    · exact .inl acked
    · exact .inr (.inl elsewhere)
    · obtain ⟨pending,standing⟩ := (covers x).mp covered
      exact .inr (.inr ⟨pending,fun scrubs => standing scrubs carries⟩)
  · by_cases carries : Carries c x
    · rcases sheltered c held x carries with acked | elsewhere | ⟨pending,standing⟩
      · exact .inl acked
      · exact .inr (.inl elsewhere)
      · exact .inr (.inr ((covers x).mpr ⟨pending,fun scrubs => absurd scrubs standing⟩))
    · exact .inr (.inr ((covers x).mpr ⟨either.resolve_left carries,fun _ => carries⟩))

theorem lost_account (whole : Whole written s) {grants : Allocator} {pn : Nat} {e : Error}
    (failed : (s.onPacketLost grants pn).1 = .error e) :
    (SameAccount s (s.onPacketLost grants pn).2 ↔ Spared grants s (.onPacketLost pn)) ∧
      (NoneOrphaned s (s.onPacketLost grants pn).2 ↔ Sheltered grants s (.onPacketLost pn)) := by
  unfold onPacketLost at failed ⊢
  cases removal : s.inFlight.fetchRemove pn with
  | none =>
    have absent := (InFlightMap.fetchRemove_none whole.inFlight).mp removal
    exact ⟨iff_of_true (.refl s) fun c held => absurd held (absent c),
      iff_of_true (.refl s) fun c held => absurd held (absent c)⟩
  | some removed =>
  obtain ⟨c,inFlight⟩ := removed
  obtain ⟨held,sound,members⟩ := InFlightMap.fetchRemove_some whole.inFlight removal
  rw [removal] at failed
  dsimp only at failed ⊢
  split at failed
  · cases failed
  rename_i open'
  rw [if_neg open']
  have whole' : Whole written {s with inFlight := inFlight} :=
    ⟨whole.buffered.transfer rfl rfl rfl rfl,sound,whole.pending,whole.pendingEnd,
      fun qn d held' => whole.chunkEnd qn d ((members _).mp held').1⟩
  cases outcome : SendStream.requeue grants {s with inFlight := inFlight} c with
  | mk result left =>
  rw [outcome] at failed
  cases result with
  | ok _ => cases failed
  | error cause =>
  obtain ⟨⟨pending,after⟩,_⟩ := requeue_refused whole' (by rw [outcome])
  obtain ⟨spares,keeps,queues⟩ := requeue_account whole' (whole.chunkEnd pn c held) (by rw [outcome])
  rw [outcome] at after spares keeps queues
  replace after : left = _ := after
  obtain ⟨same,none⟩ := removed_account whole held (t := left) (fun x => by rw [after]; exact Iff.rfl)
    (inFlight_removed (by rw [after]; exact members))
  rw [same,none]
  have carried : ∀ d, s.inFlight.Holds pn d → d = c := fun d held' => InFlightMap.Sound.unique whole.inFlight held' held
  refine ⟨⟨?_,fun spared => ?_⟩,⟨?_,fun sheltered x either => ?_⟩⟩
  · rintro ⟨elsewhere,kept⟩ d held'
    rw [carried d held']
    exact ⟨elsewhere,spares.mp kept⟩
  · obtain ⟨elsewhere,queued⟩ := spared c held
    exact ⟨elsewhere,spares.mpr queued⟩
  · intro kept d held' unqueued x carries
    rw [carried d held'] at carries unqueued
    have still : left.pending = s.pending := by
      obtain ⟨_,⟨_,left'⟩ | ⟨queued,_⟩⟩ := requeue_refused whole'
        (show (SendStream.requeue grants {s with inFlight := inFlight} c).1 = .error cause by rw [outcome])
      · rw [outcome] at left'
        replace left' : left = {s with inFlight := inFlight} := left'
        rw [left']
      · exact absurd unqueued queued
    exact still ▸ kept x (.inl carries)
  · by_cases unqueued : Unqueued grants s c
    · rcases either with carries | covered
      · rcases sheltered c held unqueued x carries with acked | elsewhere | covered
        · exact .inl acked
        · exact .inr (.inl elsewhere)
        · exact (keeps x covered).imp_right .inr
      · exact (keeps x covered).imp_right .inr
    · rcases either with carries | covered
      · exact (queues unqueued x carries).imp_right .inr
      · exact (keeps x covered).imp_right .inr

theorem probed_account (whole : Whole written s) {grants : Allocator} {pn : Nat} {e : Error}
    (failed : (s.onPacketProbeRequeued grants pn).1 = .error e) :
    (SameAccount s (s.onPacketProbeRequeued grants pn).2 ↔ Spared grants s (.onPacketProbeRequeued pn)) ∧
      NoneOrphaned s (s.onPacketProbeRequeued grants pn).2 := by
  unfold onPacketProbeRequeued at failed ⊢
  cases read : s.inFlight.getPtr pn with
  | none =>
    have absent := (InFlightMap.getPtr_none whole.inFlight pn).mp read
    exact ⟨iff_of_true (.refl s) fun c held => absurd held (absent c),.refl s⟩
  | some c =>
  have held := (InFlightMap.getPtr_iff whole.inFlight pn c).mp read
  rw [read] at failed
  dsimp only at failed ⊢
  split at failed
  · cases failed
  rename_i plain
  rw [if_neg plain]
  split at failed
  · cases failed
  rename_i open'
  rw [if_neg open']
  cases outcome : s.requeue grants c with
  | mk result left =>
  rw [outcome] at failed
  cases result with
  | ok _ => cases failed
  | error cause =>
  obtain ⟨⟨pending,after⟩,_⟩ := requeue_refused whole (by rw [outcome])
  obtain ⟨spares,keeps,_⟩ := requeue_account whole (whole.chunkEnd pn c held) (by rw [outcome])
  rw [outcome] at after spares keeps
  replace after : left = _ := after
  have acked : ∀ x, left.Acked x ↔ s.Acked x := fun x => by rw [after]; exact Iff.rfl
  have flying : ∀ x, InFlight left x ↔ InFlight s x := fun x => by rw [after]; exact Iff.rfl
  refine ⟨⟨fun same d held' => ?_,fun spared x within => ?_⟩,fun x _ accounted => ?_⟩
  · rw [InFlightMap.Sound.unique whole.inFlight held' held]
    exact spares.mp fun x within => (same x within).2.1
  · exact ⟨acked x,spares.mpr (spared c held) x within,flying x⟩
  · rcases accounted with acked' | covered | flies
    · exact .inl ((acked x).mpr acked')
    · rcases keeps x covered with acked' | covered'
      · exact .inl ((acked x).mpr acked')
      · exact .inr (.inl covered')
    · exact .inr (.inr ((flying x).mpr flies))

/-- A call that fails leaves every written byte acknowledged, pending and in flight as it was exactly when it is
spared, and orphans none exactly when its bytes are sheltered. -/
theorem failed_call_account (whole : Whole written s) (grants : Allocator) (call : Call) (e : Error)
    (failed : (run grants s call).1 = .error e) :
    (SameAccount s (run grants s call).2 ↔ Spared grants s call) ∧
      (NoneOrphaned s (run grants s call).2 ↔ Sheltered grants s call) := by
  cases call with
  | write data =>
    have failed' : (s.write grants data).1 = .error e := by
      cases outcome : (s.write grants data).1 with
      | ok n => simp [run,outcome,Except.map] at failed
      | error cause => simpa [run,outcome,Except.map] using failed
    obtain ⟨same,none⟩ := write_account failed'
    exact ⟨iff_of_true same trivial,iff_of_true none trivial⟩
  | recordSent pn c => exact recordSent_account whole failed
  | onPacketAcked pn => exact acked_account whole failed
  | onPacketLost pn => exact lost_account whole failed
  | onPacketProbeRequeued pn =>
    have failed' : (s.onPacketProbeRequeued grants pn).1 = .error e := by
      cases outcome : (s.onPacketProbeRequeued grants pn).1 with
      | ok n => simp [run,outcome,Except.map] at failed
      | error cause => simpa [run,outcome,Except.map] using failed
    obtain ⟨same,none⟩ := probed_account whole failed'
    exact ⟨same,iff_of_true none trivial⟩

end

/-- Twenty bytes, the first ten in flight as packet 1 and the others as packet 2. -/
def sentWhole : SendRun.History := System.run SendRun.step {stream := SendStream.init defaultMaxBufferedSend}
  [⟨.write (List.replicate 20 7),granting⟩,⟨.send 1 10,granting⟩,⟨.send 2 10,granting⟩]

def refusing : Allocator := fun _ => false

theorem sentWhole_whole : Whole sentWhole.written sentWhole.stream :=
  whole_run (show System.Reaches SendRun.Fresh SendRun.step (fun _ _ => True) sentWhole from
    .run _ (.start ⟨_,rfl⟩) ⟨trivial,trivial,trivial,trivial⟩)

theorem failed_call_account_acked :
    (SameAccount sentWhole.stream (run refusing sentWhole.stream (.onPacketAcked 2)).2 ↔
        Spared refusing sentWhole.stream (.onPacketAcked 2)) ∧
      (NoneOrphaned sentWhole.stream (run refusing sentWhole.stream (.onPacketAcked 2)).2 ↔
        Sheltered refusing sentWhole.stream (.onPacketAcked 2)) :=
  failed_call_account sentWhole_whole refusing (.onPacketAcked 2) .outOfMemory (by decide +kernel)

/-- The ACK of the second packet takes it out of the map and is then refused the first slot of `acked_above`: its bytes are
nowhere. -/
theorem acked_bytes_orphaned :
    (run refusing sentWhole.stream (.onPacketAcked 2)).1 = .error .outOfMemory ∧
      ¬SameAccount sentWhole.stream (run refusing sentWhole.stream (.onPacketAcked 2)).2 ∧
      ¬NoneOrphaned sentWhole.stream (run refusing sentWhole.stream (.onPacketAcked 2)).2 := by
  have first : (run refusing sentWhole.stream (.onPacketAcked 2)).2.inFlight.alive =
      [⟨1,{offset := 0,length := 10,fin := false}⟩] := by decide +kernel
  have flown : ¬InFlight (run refusing sentWhole.stream (.onPacketAcked 2)).2 10 := by
    rintro ⟨pn,c,held,-,inside⟩
    unfold InFlightMap.Holds at held
    rw [first] at held
    cases List.mem_singleton.mp held
    exact absurd inside (by decide)
  have flying : InFlight sentWhole.stream 10 :=
    ⟨2,{offset := 10,length := 10,fin := false},by unfold InFlightMap.Holds; decide +kernel,by decide,by decide⟩
  refine ⟨by decide +kernel,fun same => flown ((same 10 (by decide +kernel)).2.2.mpr flying),fun none => ?_⟩
  rcases none 10 (by decide +kernel) (.inr (.inr flying)) with (below | above) | pending | flies
  · revert below
    decide +kernel
  · revert above
    decide +kernel
  · revert pending
    decide +kernel
  · exact flown flies

end QuicZig.Conn.SendAccount
