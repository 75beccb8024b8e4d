import QuicZig.Conn.SendRun

/-! When the pending ranges stay between the acknowledged floor and the last byte
written, clear of the acknowledged ranges. One boolean decides whether an
acknowledgement scrubs the pending ranges; a resend clears it while a later loss
can queue the same bytes again, so the rule needs a condition on the run. -/
namespace QuicZig.Conn.SendRun
open Machine RangeList Spans SendStream

/-- Every pending range lies in the buffered bytes and apart from the acknowledged ranges. -/
def Clean (s : SendStream) : Prop :=
  ∀ r ∈ s.pending, s.baseOffset ≤ r.offset ∧ r.stop ≤ s.writeOffset ∧
    ∀ a ∈ s.ackedAbove, r.stop ≤ a.offset ∨ a.stop ≤ r.offset

instance (s : SendStream) : Decidable (Clean s) :=
  inferInstanceAs (Decidable (∀ r ∈ s.pending, s.baseOffset ≤ r.offset ∧ r.stop ≤ s.writeOffset ∧
    ∀ a ∈ s.ackedAbove, r.stop ≤ a.offset ∨ a.stop ≤ r.offset))

/-- The steps that keep the pending ranges clean. An acknowledged chunk shares no byte with the
pending ranges unless the flag makes the acknowledgement scrub them, and a chunk that is queued again
has no acknowledged byte unless the splits that take it out are not refused memory. -/
def Safe (h : History) (e : Event) : Prop :=
  match e.call with
  | .acked pn => h.stream.probeRequeuedPending = true ∨
      ∀ c, h.stream.inFlight.getPtr pn = some c → ∀ x, Carries c x → ¬ Covered h.stream.pending x
  | .lost pn | .probeRequeued pn => (∀ k, 1 ≤ k → e.grants k = true) ∨
      ∀ c, h.stream.inFlight.getPtr pn = some c → c.requeuedForProbe = false → ∀ x, Carries c x → ¬ h.stream.Acked x
  | _ => True

theorem clean_iff {h : History} (coherent : Coherent h) :
    Clean h.stream ↔ ∀ x, Covered h.stream.pending x → ¬ h.stream.Acked x := by
  constructor
  · rintro clean x ⟨r,member,low,high⟩ acked
    obtain ⟨floor,_,apart⟩ := clean r member
    rcases acked with below | ⟨a,inAcked,start,stop⟩
    · omega
    · rcases apart a inAcked with before | after <;> omega
  · intro separate r member
    have proper := coherent.pending.proper r member
    obtain ⟨_,_,stop⟩ := within_of_covered h.stream.pending coherent.pending 0 h.stream.writeOffset
      (fun x covered => ⟨Nat.zero_le x,coherent.pendingEnd x covered⟩) r member
    refine ⟨?_,stop,?_⟩
    · by_contra below
      exact separate r.offset (coherent.pending.covered_of_mem member) (.inl (by omega))
    · intro a inAcked
      have proper' := coherent.buffered.sorted.proper a inAcked
      by_contra overlap
      -- The larger of the two starts is a byte of both ranges.
      exact separate (max r.offset a.offset) ⟨r,member,by omega,by omega⟩ (.inr ⟨a,inAcked,by omega,by omega⟩)

theorem clean_effect {h h' : History} {e : Event} (coherent : Coherent h) (clean : Clean h.stream) (safe : Safe h e)
    (effect : Effect h e h') : Clean h'.stream := by
  rw [clean_iff (coherent_effect coherent effect)]
  rw [clean_iff coherent] at clean
  cases effect with
  | quiet idle quiet =>
    obtain ⟨⟨_,_,rfl⟩,_,_,_,_⟩ := quiet
    exact clean
  | wrote call wrote =>
    obtain ⟨⟨_,_,_,rfl⟩,_,_,_,_,_,covers,_⟩ := wrote
    intro x covered acked
    rcases (covers x).mp covered with old | ⟨new,_⟩
    · exact clean x old acked
    · have := coherent.buffered.acked_lt (show h.stream.Acked x from acked)
      omega
  | finished => exact clean
  | sent call plain sound sorted effect =>
    obtain ⟨⟨_,_,_,rfl⟩,_,_,covers,_,_,_⟩ := effect
    exact fun x covered => clean x ((covers x).mp covered).1
  | acked call removed buffered effect =>
    rename_i pn c map s
    obtain ⟨state,advanced,_,_⟩ := maybeAdvanceState_spec s (by
      obtain ⟨_,_,_,_,_,rfl⟩ := effect.frame
      exact coherent.running)
    rw [advanced]
    intro x covered acked
    have old := effect.shrinks x covered
    rcases (effect.acked rfl x).mp acked with before | inside
    · exact clean x old before
    · simp only [Safe,call] at safe
      rcases safe with flag | apart
      · exact effect.scrubs flag rfl x covered inside
      · exact apart c ((InFlightMap.getPtr_iff coherent.inFlight pn c).mpr removed.held) x inside old
  | ackFailed call removed buffered refused effect =>
    obtain ⟨⟨_,_,_,_,_,rfl⟩,_,_,shrinks,_,_,_,_,failed,_⟩ := effect
    exact fun x covered acked => clean x (shrinks x covered) ((failed (by simp) x).mp acked)
  | dropped => exact clean
  | lost call removed plain effect =>
    obtain ⟨⟨_,rfl⟩,_,_,exact',_,_⟩ := effect
    intro x covered acked
    rcases exact' rfl x covered with old | ⟨_,_,fresh⟩
    · exact clean x old acked
    · exact fresh acked
  | lossFailed call removed plain refused early effect =>
    rename_i pn c map s
    simp only [Safe,call] at safe
    rcases safe with served | apart
    · obtain rfl := early served
      exact clean
    · obtain ⟨⟨_,rfl⟩,_,grows,_⟩ := effect
      intro x covered acked
      rcases grows x covered with old | ⟨low,high,_⟩
      · exact clean x old acked
      · exact apart c ((InFlightMap.getPtr_iff coherent.inFlight pn c).mpr removed.held) plain x ⟨low,high⟩ acked
  | probed call held plain sound members effect =>
    obtain ⟨⟨_,rfl⟩,_,_,exact',_,_⟩ := effect
    intro x covered acked
    rcases exact' rfl x covered with old | ⟨_,_,fresh⟩
    · exact clean x old acked
    · exact fresh acked
  | probeFailed call held plain refused early effect =>
    rename_i pn c s
    simp only [Safe,call] at safe
    rcases safe with served | apart
    · obtain rfl := early served
      exact clean
    · obtain ⟨⟨_,rfl⟩,_,grows,_⟩ := effect
      intro x covered acked
      rcases grows x covered with old | ⟨low,high,_⟩
      · exact clean x old acked
      · exact apart c ((InFlightMap.getPtr_iff coherent.inFlight pn c).mpr held) plain x ⟨low,high⟩ acked

/-- The other direction: an acknowledgement that is not safe leaves an acknowledged byte pending. -/
theorem safe_of_clean {h : History} {e : Event} (coherent : Coherent h) (granted : e.grants = granting)
    (clean : Clean (step h e).stream) : Safe h e := by
  have coherent' := coherent_step h e coherent
  rw [clean_iff coherent'] at clean
  have effect := step_effect coherent e
  cases call : e.call with
  | acked pn =>
    rw [Safe,call]
    by_contra unsafe'
    push Not at unsafe'
    obtain ⟨unset,c,read,x,carries,pending⟩ := unsafe'
    have unset : h.stream.probeRequeuedPending = false := by simpa using unset
    have held := (InFlightMap.getPtr_iff coherent.inFlight pn c).mp read
    generalize step h e = h' at clean effect
    cases effect with
    | quiet idle quiet => exact idle pn c call held
    | acked call' removed buffered effect =>
      rename_i qn d map s
      obtain rfl : pn = qn := Call.acked.inj (call.symm.trans call')
      obtain rfl := coherent.inFlight.unique removed.held held
      obtain ⟨state,advanced,_,_⟩ := maybeAdvanceState_spec s (by
        obtain ⟨_,_,_,_,_,rfl⟩ := effect.frame
        exact coherent.running)
      rw [advanced] at clean
      refine clean x ?_ ((effect.acked rfl x).mpr (.inr carries))
      change Covered s.pending x
      rw [effect.unscrubbed unset]
      exact pending
    | ackFailed call' removed buffered refused effect =>
      simp [granted,granting] at refused
    | _ => simp_all
  | lost pn => simp [Safe,call,granted,granting]
  | probeRequeued pn => simp [Safe,call,granted,granting]
  | _ => simp [Safe,call]

/-- Bytes between the floor and the last byte written can be read, across the wrap of the ring too. -/
theorem chunkBytesContiguous_spec {h : History} (coherent : Coherent h) (c : Chunk)
    (low : c.length = 0 ∨ h.stream.baseOffset ≤ c.offset) (high : c.offset+c.length ≤ h.stream.writeOffset) :
    h.stream.chunkBytesContiguous c = some ((h.written.drop c.offset).take c.length) := by
  unfold chunkBytesContiguous
  by_cases none : c.length = 0
  · simp [none]
  have low := low.resolve_left none
  rw [if_neg none,if_neg (by omega)]
  have sound := coherent.buffered.bytes
  have live := coherent.buffered.live
  have within : (c.offset-h.stream.baseOffset)+c.length ≤ h.stream.bytes.live := by omega
  obtain ⟨run,short,first,turned⟩ := h.stream.bytes.slice_spec (c.offset-h.stream.baseOffset) c.length sound within
  have bytes : h.stream.bytes.contents.drop (c.offset-h.stream.baseOffset) = h.written.drop c.offset := by
    rw [coherent.buffered.contents,List.drop_drop]
    congr 1
    omega
  have size : (h.written.drop c.offset).length = h.stream.writeOffset-c.offset := by
    rw [List.length_drop,coherent.buffered.size]
  have count : ((h.written.drop c.offset).take run).length = run := by
    rw [List.length_take,size]
    omega
  dsimp only
  rw [first,bytes]
  simp only [count]
  split
  · rename_i whole
    rw [whole]
  · rename_i part
    rw [h.stream.bytes.slice_straight _ _ sound (by omega) (turned (by omega)),← List.drop_drop,bytes]
    have rest : (((h.written.drop c.offset).drop run).take (c.length-run)).length = c.length-run := by
      rw [List.length_take,List.length_drop,size]
      omega
    simp only [rest,ite_true]
    rw [← List.take_add,Nat.add_sub_cancel' short]

theorem chunk_readable {h : History} (coherent : Coherent h) (clean : Clean h.stream) {maxBytes : Nat} {c : Chunk}
    (peeked : h.stream.peekChunk maxBytes = some c) :
    h.stream.baseOffset ≤ c.offset ∧ c.offset+c.length ≤ h.stream.writeOffset ∧
      h.stream.chunkBytesContiguous c = some ((h.written.drop c.offset).take c.length) := by
  have bounds : h.stream.baseOffset ≤ c.offset ∧ c.offset+c.length ≤ h.stream.writeOffset := by
    obtain ⟨_,_,⟨r,rest,some,offset,stop,_⟩ | ⟨_,due,offset,length,_⟩⟩ := peekChunk_spec coherent.pending peeked
    · obtain ⟨low,high,_⟩ := clean r (by simp [some])
      omega
    · have floor := coherent.buffered.floor
      simp only [finDue,Bool.and_eq_true] at due
      rw [coherent.sized due.1.1] at offset
      change c.offset = h.stream.writeOffset at offset
      omega
  exact ⟨bounds.1,bounds.2,chunkBytesContiguous_spec coherent c (.inr bounds.1) bounds.2⟩

theorem fresh_clean (h : History) (fresh : Fresh h) : Clean h.stream := by
  obtain ⟨maxBuffered,rfl⟩ := fresh
  simp [Clean,SendStream.init]

theorem clean_run (h : History) (reached : System.Reaches Fresh step Safe h) : Clean h.stream :=
  reached.invariant_under Coherent (fun h => Clean h.stream) coherent_run fresh_clean
    (fun _ e coherent clean safe => clean_effect coherent clean safe (step_effect coherent e))

/-- Ten bytes sent, probed and sent again; the resend is lost, then the first packet is acknowledged. -/
def lateAck : List Event :=
  [.write [0,1,2,3,4,5,6,7,8,9],.send 1 1200,.probeRequeued 1,.send 2 1200,.lost 2,.acked 1].map
    (fun call => ⟨call,granting⟩)

/-- In a run of safe steps the pending ranges stay clean and every peeked chunk yields the bytes
written at its offset. With the memory it asks for, a step keeps them clean exactly when it is safe. -/
theorem pending_clean (h : History) (reached : System.Reaches Fresh step Safe h) :
    Clean h.stream ∧
    (∀ maxBytes c, h.stream.peekChunk maxBytes = some c → h.stream.baseOffset ≤ c.offset ∧
      h.stream.chunkBytesContiguous c = some ((h.written.drop c.offset).take c.length) ∧
      ((h.written.drop c.offset).take c.length).length = c.length) ∧
    ∀ e, e.grants = granting → (Clean (step h e).stream ↔ Safe h e) := by
  have coherent := coherent_run h reached
  have clean := clean_run h reached
  refine ⟨clean,?_,?_⟩
  · intro maxBytes c peeked
    obtain ⟨low,high,bytes⟩ := chunk_readable coherent clean peeked
    refine ⟨low,bytes,?_⟩
    rw [List.length_take,List.length_drop,coherent.buffered.size]
    omega
  · intro e granted
    exact ⟨safe_of_clean coherent granted,fun safe => clean_effect coherent clean safe (step_effect coherent e)⟩

/-- Without the condition the late acknowledgement moves the floor past the bytes queued again: the
next chunk starts below the floor, and reading its bytes traps. -/
theorem pending_below_floor :
    let h := System.run step {stream := SendStream.init defaultMaxBufferedSend} lateAck
    System.Reaches Fresh step (fun _ _ => True) h ∧ ¬ Clean h.stream ∧
      ∃ c, h.stream.peekChunk 1200 = some c ∧ c.offset < h.stream.baseOffset ∧ h.stream.chunkBytesContiguous c = none := by
  refine ⟨System.Reaches.run lateAck (.start ⟨_,rfl⟩) ⟨trivial,trivial,trivial,trivial,trivial,trivial,trivial⟩,
    by decide +kernel,⟨{offset := 0,length := 10,fin := false},?_,?_,?_⟩⟩
  · decide +kernel
  · decide +kernel
  · decide +kernel

/-- The first five steps of that run are safe; its last one is not. -/
theorem pending_clean_before :
    let h := System.run step {stream := SendStream.init defaultMaxBufferedSend} (lateAck.take 5)
    Clean h.stream ∧ ¬ Safe h ⟨.acked 1,granting⟩ := by
  intro h
  have reached : System.Reaches Fresh step Safe h := by
    refine System.Reaches.run (lateAck.take 5) (.start ⟨_,rfl⟩) ⟨trivial,trivial,?_,trivial,?_,trivial⟩
    · exact .inl fun _ _ => rfl
    · exact .inl fun _ _ => rfl
  obtain ⟨clean,_,iff⟩ := pending_clean h reached
  refine ⟨clean,?_⟩
  rw [← iff ⟨.acked 1,granting⟩ rfl]
  decide +kernel

end QuicZig.Conn.SendRun
