import QuicZig.Conn.SendRun

/-! No written byte is lost. While every allocation is served, a byte that is not
acknowledged is pending or in a chunk in flight that no probe has queued again, and
the FIN likewise; so the stream ends exactly when everything is acknowledged. -/
namespace QuicZig.Conn.SendRun
open Machine RangeList Spans SendStream

/-- Every allocation of the call is served. -/
def Granted (_ : History) (e : Event) : Prop := e.grants = granting

structure Conserved (h : History) : Prop where
  bytes : ∀ x < h.stream.writeOffset, h.stream.Acked x ∨ Covered h.stream.pending x ∨
    ∃ pn c, h.stream.inFlight.Holds pn c ∧ c.requeuedForProbe = false ∧ Carries c x
  fin : h.stream.finInFlight = true → h.stream.finAcked = false →
    ∃ pn c, h.stream.inFlight.Holds pn c ∧ c.requeuedForProbe = false ∧ c.fin = true
  finMarked : h.stream.finAcked = true → h.stream.finMarked = true
  chunkMarked : ∀ pn c, h.stream.inFlight.Holds pn c → c.fin = true → h.stream.finMarked = true
  acked : ∀ x, h.stream.Acked x ↔ ∃ c ∈ h.ackedChunks, Carries c x
  finAcked : h.stream.finAcked = true ↔ ∃ c ∈ h.ackedChunks, c.fin = true
  state : h.stream.state = .dataRecvd ↔ h.stream.finAcked = true ∧ h.stream.baseOffset = h.stream.writeOffset

theorem carries_range (c : Chunk) (x : Nat) : Carries c x ↔ (range c).offset ≤ x ∧ x < (range c).stop := Iff.rfl

theorem Removed.others {s : SendStream} {pn : Nat} {c : Chunk} {inFlight : InFlightMap} (sound : s.inFlight.Sound)
    (removed : Removed s pn c inFlight) {qn : Nat} {d : Chunk} (held : s.inFlight.Holds qn d) :
    inFlight.Holds qn d ∨ d = c := by
  by_cases same : qn = pn
  · subst same
    exact .inr (sound.unique held removed.held)
  · exact .inl ((removed.members _).mpr ⟨held,same⟩)

section
variable {h : History} (coherent : Coherent h) (conserved : Conserved h)
include conserved

theorem conserved_quiet {s : SendStream} (quiet : Quiet h.stream s) : Conserved {h with stream := s} := by
  obtain ⟨bytes,fin,finMarked,chunkMarked,acked,finAcked,state⟩ := conserved
  obtain ⟨⟨left,map,rfl⟩,_,_,_,alive⟩ := quiet
  have holds : ∀ pn c, map.Holds pn c ↔ h.stream.inFlight.Holds pn c := by
    intro pn c
    unfold InFlightMap.Holds
    rw [show map.alive = _ from alive]
  refine ⟨?_,?_,finMarked,?_,acked,finAcked,state⟩
  · intro x below
    rcases bytes x below with done | queued | ⟨pn,c,held,rest⟩
    · exact .inl done
    · exact .inr (.inl queued)
    · exact .inr (.inr ⟨pn,c,(holds pn c).mpr held,rest⟩)
  · intro set unacked
    obtain ⟨pn,c,held,rest⟩ := fin set unacked
    exact ⟨pn,c,(holds pn c).mpr held,rest⟩
  · exact fun pn c held => chunkMarked pn c ((holds pn c).mp held)

theorem Conserved.unfinished (unmarked : h.stream.finMarked = false) :
    h.stream.finAcked = false ∧ h.stream.state ≠ .dataRecvd := by
  have open' : h.stream.finAcked = false := by
    by_contra set
    simp [conserved.finMarked (by simpa using set)] at unmarked
  exact ⟨open',fun ended => by simp [(conserved.state.mp ended).1] at open'⟩

theorem conserved_wrote {data : List Byte} {n : Nat} {s : SendStream} (wrote : Wrote h.stream data n s) :
    Conserved {h with stream := s,written := h.written ++ data.take n} := by
  obtain ⟨open',before⟩ := conserved.unfinished wrote.unmarked
  obtain ⟨⟨left,ranges,state',rfl⟩,count,unmarked,_,_,_,covers,moved⟩ := wrote
  refine ⟨?_,conserved.fin,conserved.finMarked,conserved.chunkMarked,conserved.acked,conserved.finAcked,?_⟩
  · intro x below
    by_cases old : x < h.stream.writeOffset
    · rcases conserved.bytes x old with done | queued | flying
      · exact .inl done
      · exact .inr (.inl ((covers x).mpr (.inl queued)))
      · exact .inr (.inr flying)
    · exact .inr (.inl ((covers x).mpr (.inr ⟨by omega,below⟩)))
  · have after : state' ≠ .dataRecvd := by
      rcases moved with same | ⟨_,sending⟩
      · exact fun ended => before (same.symm.trans ended)
      · exact fun ended => by simp [ended] at sending
    exact ⟨fun ended => absurd ended after,fun final => by simp [open'] at final⟩

theorem conserved_finished {state : State} (unmarked : h.stream.finMarked = false)
    (moved : state = h.stream.state ∨ ((h.stream.state = .send ∨ h.stream.state = .ready) ∧ state = .dataSent)) :
    Conserved {h with stream := {h.stream with finMarked := true,finalSize := some h.stream.writeOffset,state := state}} := by
  obtain ⟨open',before⟩ := conserved.unfinished unmarked
  refine ⟨conserved.bytes,conserved.fin,fun _ => rfl,fun _ _ _ _ => rfl,conserved.acked,conserved.finAcked,?_⟩
  have after : state ≠ .dataRecvd := by
    rcases moved with same | ⟨_,sent⟩
    · exact same ▸ before
    · simp [sent]
  exact ⟨fun ended => absurd ended after,fun final => by simp [open'] at final⟩

theorem conserved_sent {pn : Nat} {c : Chunk} {s : SendStream} (plain : c.requeuedForProbe = false)
    (effect : SendEffect h.stream pn c s) : Conserved {h with stream := s} := by
  obtain ⟨bytes,fin,finMarked,chunkMarked,acked,finAcked,state⟩ := conserved
  obtain ⟨⟨map,ranges,flag,rfl⟩,fresh,members,covers,carried,_,final⟩ := effect
  have new : map.Holds pn c := (members _).mpr (.inl rfl)
  have old {qn : Nat} {d : Chunk} (held : h.stream.inFlight.Holds qn d) : map.Holds qn d := (members _).mpr (.inr held)
  refine ⟨?_,?_,finMarked,?_,acked,finAcked,state⟩
  · intro x below
    rcases bytes x below with done | queued | ⟨qn,d,held,rest⟩
    · exact .inl done
    · by_cases taken : Carries c x
      · exact .inr (.inr ⟨pn,c,new,plain,taken⟩)
      · exact .inr (.inl ((covers x).mpr ⟨queued,taken⟩))
    · exact .inr (.inr ⟨qn,d,old held,rest⟩)
  · intro set unacked
    by_cases carries : c.fin = true
    · exact ⟨pn,c,new,plain,carries⟩
    · obtain ⟨qn,d,held,rest⟩ := fin (by simpa [carries] using set) unacked
      exact ⟨qn,d,old held,rest⟩
  · intro qn d held set
    rcases (members _).mp held with equal | before
    · obtain ⟨rfl,rfl⟩ := Entry.mk.inj equal
      have due := (final set).1
      simp only [finDue,Bool.and_eq_true] at due
      exact due.1.1
    · exact chunkMarked qn d before set

theorem conserved_dropped {pn : Nat} {c : Chunk} {inFlight : InFlightMap} (sound : h.stream.inFlight.Sound)
    (removed : Removed h.stream pn c inFlight) (requeued : c.requeuedForProbe = true) :
    Conserved {h with stream := {h.stream with inFlight := inFlight}} := by
  obtain ⟨bytes,fin,finMarked,chunkMarked,acked,finAcked,state⟩ := conserved
  have others {qn : Nat} {d : Chunk} (held : h.stream.inFlight.Holds qn d) (plain : d.requeuedForProbe = false) :
      inFlight.Holds qn d := by
    rcases removed.others sound held with still | rfl
    · exact still
    · simp [plain] at requeued
  refine ⟨?_,?_,finMarked,fun qn d held => chunkMarked qn d ((removed.members _).mp held).1,acked,finAcked,state⟩
  · intro x below
    rcases bytes x below with done | queued | ⟨qn,d,held,plain,rest⟩
    · exact .inl done
    · exact .inr (.inl queued)
    · exact .inr (.inr ⟨qn,d,others held plain,plain,rest⟩)
  · intro set unacked
    obtain ⟨qn,d,held,plain,rest⟩ := fin set unacked
    exact ⟨qn,d,others held plain,plain,rest⟩

/-- A chunk is queued again, for a loss or for a probe: its bytes are pending unless they are acknowledged, and its FIN is
not in flight. -/
theorem conserved_again {c : Chunk} {inFlight : InFlightMap} {pending : List Range} {flag : Bool}
    (others : ∀ qn d, h.stream.inFlight.Holds qn d → inFlight.Holds qn d ∨ d = c)
    (marked : ∀ qn d, inFlight.Holds qn d → d.fin = true → h.stream.finMarked = true)
    (keeps : ∀ x, Covered h.stream.pending x ∨ ((range c).offset ≤ x ∧ x < (range c).stop) → ¬ h.stream.Acked x → Covered pending x) :
    Conserved {h with stream := {h.stream with
      pending := pending
      inFlight := inFlight
      probeRequeuedPending := flag
      finInFlight := if c.fin && !h.stream.finAcked then false else h.stream.finInFlight}} := by
  obtain ⟨bytes,fin,finMarked,_,acked,finAcked,state⟩ := conserved
  refine ⟨?_,?_,finMarked,marked,acked,finAcked,state⟩
  · intro x below
    by_cases done : h.stream.Acked x
    · exact .inl done
    · rcases bytes x below with done' | queued | ⟨qn,d,held,rest⟩
      · exact absurd done' done
      · exact .inr (.inl (keeps x (.inl queued) done))
      · rcases others qn d held with still | rfl
        · exact .inr (.inr ⟨qn,d,still,rest⟩)
        · exact .inr (.inl (keeps x (.inr rest.2) done))
  · intro set unacked
    by_cases carries : c.fin = true
    · simp [carries,show h.stream.finAcked = false from unacked] at set
    · obtain ⟨qn,d,held,rest⟩ := fin (by simpa [carries] using set) unacked
      rcases others qn d held with still | rfl
      · exact ⟨qn,d,still,rest⟩
      · exact absurd rest.2 carries

include coherent

theorem conserved_acked {pn : Nat} {c : Chunk} {inFlight : InFlightMap} {s : SendStream}
    (removed : Removed h.stream pn c inFlight) (buffered : Buffered h.written s)
    (effect : AckEffect {h.stream with inFlight := inFlight,finAcked := h.stream.finAcked || c.fin} (range c) (.ok ()) s) :
    Conserved {h with stream := s.maybeAdvanceState,ackedChunks := c::h.ackedChunks} := by
  have sound := coherent.inFlight
  obtain ⟨bytes,fin,finMarked,chunkMarked,acked,finAcked,state⟩ := conserved
  have frame := effect.frame
  obtain ⟨state',advanced,_,ended⟩ := maybeAdvanceState_spec s (by
    obtain ⟨_,_,_,_,_,rfl⟩ := frame
    exact coherent.running)
  have sets := effect.acked rfl
  have keeps := effect.keeps
  have up := effect.up
  have floor := buffered.floor
  rw [advanced]
  obtain ⟨left,base,above,ranges,flag,rfl⟩ := frame
  have marked : (h.stream.finAcked || c.fin) = true → h.stream.finMarked = true := by
    intro set
    rw [Bool.or_eq_true] at set
    exact set.elim finMarked (chunkMarked pn c removed.held)
  refine ⟨?_,?_,marked,?_,?_,?_,?_⟩
  · intro x below
    by_cases covered : Carries c x
    · exact .inl ((sets x).mpr (.inr covered))
    · rcases bytes x below with done | queued | ⟨qn,d,held,rest⟩
      · exact .inl ((sets x).mpr (.inl done))
      · exact .inr (.inl (keeps x queued covered))
      · rcases removed.others sound held with still | rfl
        · exact .inr (.inr ⟨qn,d,still,rest⟩)
        · exact absurd rest.2 covered
  · intro set unacked
    simp only [Bool.or_eq_false_iff] at unacked
    obtain ⟨qn,d,held,rest⟩ := fin set unacked.1
    rcases removed.others sound held with still | rfl
    · exact ⟨qn,d,still,rest⟩
    · simp [rest.2] at unacked
  · exact fun qn d held => chunkMarked qn d ((removed.members _).mp held).1
  · intro x
    rw [show (∃ d ∈ c::h.ackedChunks, Carries d x) ↔ Carries c x ∨ ∃ d ∈ h.ackedChunks, Carries d x by simp,← acked]
    refine (sets x).trans ?_
    rw [carries_range]
    exact or_comm
  · rw [show (∃ d ∈ c::h.ackedChunks, d.fin = true) ↔ c.fin = true ∨ ∃ d ∈ h.ackedChunks, d.fin = true by simp,← finAcked]
    simp only [Bool.or_eq_true]
    exact or_comm
  · change h.stream.baseOffset ≤ base at up
    change base ≤ h.stream.writeOffset at floor
    change state' = .dataRecvd ↔ (h.stream.finAcked || c.fin) = true ∧ base = h.stream.writeOffset
    rw [ended]
    constructor
    · rintro (before | ⟨final,mark,size⟩)
      · obtain ⟨final,whole⟩ := state.mp before
        exact ⟨by simp [final],by omega⟩
      · rw [coherent.sized mark] at size
        exact ⟨final,(Option.some.inj size).symm⟩
    · rintro ⟨final,whole⟩
      refine .inr ⟨final,marked final,?_⟩
      change h.stream.finalSize = some base
      rw [coherent.sized (marked final),whole]

theorem conserved_effect {h' : History} {e : Event} (granted : e.grants = granting) (effect : Effect h e h') : Conserved h' := by
  cases effect with
  | quiet idle quiet => exact conserved_quiet conserved quiet
  | wrote call wrote => exact conserved_wrote conserved wrote
  | finished call unmarked moved => exact conserved_finished conserved unmarked moved
  | sent call plain sound sorted effect => exact conserved_sent conserved plain effect
  | acked call removed buffered effect => exact conserved_acked coherent conserved removed buffered effect
  | ackFailed call removed buffered refused effect =>
    have served := refused (by rw [granted]; rfl)
    rw [granted] at served
    simp [granting] at served
  | dropped call removed requeued => exact conserved_dropped conserved coherent.inFlight removed requeued
  | lost call removed plain effect =>
    have keeps := effect.keeps rfl
    obtain ⟨ranges,rfl⟩ := effect.frame
    exact conserved_again conserved (fun qn d held => removed.others coherent.inFlight held)
      (fun qn d held => conserved.chunkMarked qn d ((removed.members _).mp held).1) keeps
  | lossFailed call removed plain refused early effect =>
    obtain ⟨k,denied⟩ := refused
    rw [granted] at denied
    simp [granting] at denied
  | probed call held plain sound members effect =>
    rename_i pn c map s flag
    have keeps := effect.keeps rfl
    obtain ⟨ranges,rfl⟩ := effect.frame
    refine conserved_again conserved (fun qn d held' => ?_) (fun qn d held' set => ?_) keeps
    · by_cases same : qn = pn
      · subst same
        exact .inr (coherent.inFlight.unique held' held)
      · exact .inl ((members _).mpr (.inr ⟨held',same⟩))
    · rcases (members _).mp held' with equal | ⟨before,_⟩
      · obtain ⟨_,rfl⟩ := Entry.mk.inj equal
        exact conserved.chunkMarked pn c held set
      · exact conserved.chunkMarked qn d before set
  | probeFailed call held plain refused early effect =>
    obtain ⟨k,denied⟩ := refused
    rw [granted] at denied
    simp [granting] at denied

end

theorem fresh_conserved (h : History) (fresh : Fresh h) : Conserved h := by
  obtain ⟨maxBuffered,rfl⟩ := fresh
  have empty : ∀ pn c, ¬ (SendStream.init maxBuffered).inFlight.Holds pn c := by
    simp [SendStream.init,InFlightMap.Holds,InFlightMap.alive,InFlightMap.entries]
  exact ⟨by simp [SendStream.init],by simp [SendStream.init],by simp [SendStream.init],
    fun pn c held => absurd held (empty pn c),by simp [SendStream.init,Acked],by simp [SendStream.init],by simp [SendStream.init]⟩

theorem conserved_run (h : History) (reached : System.Reaches Fresh step Granted h) : Conserved h :=
  reached.invariant_under Coherent Conserved coherent_run fresh_conserved
    (fun _ e coherent conserved granted => conserved_effect coherent conserved granted (step_effect coherent e))

/-- In a run whose allocations are served, every written byte and the FIN stay accounted for, and
the stream reaches its terminal state exactly when all of them are acknowledged. -/
theorem no_byte_lost (h : History) (reached : System.Reaches Fresh step Granted h) :
    (∀ x < h.stream.writeOffset, x < h.stream.baseOffset ∨ Covered h.stream.ackedAbove x ∨ Covered h.stream.pending x ∨
      ∃ pn c, h.stream.inFlight.getPtr pn = some c ∧ Carries c x) ∧
    (h.stream.finMarked = true → h.stream.finDue = true ∨ (∃ pn c, h.stream.inFlight.getPtr pn = some c ∧ c.fin = true) ∨
      h.stream.finAcked = true) ∧
    (h.stream.state = .dataRecvd ↔ h.stream.finMarked = true ∧
      (∀ x < h.stream.writeOffset, ∃ c ∈ h.ackedChunks, Carries c x) ∧ ∃ c ∈ h.ackedChunks, c.fin = true) := by
  have coherent := coherent_run h reached
  have conserved := conserved_run h reached
  refine ⟨?_,?_,?_⟩
  · intro x below
    rcases conserved.bytes x below with (floor | above) | queued | ⟨pn,c,held,_,carries⟩
    · exact .inl floor
    · exact .inr (.inl above)
    · exact .inr (.inr (.inl queued))
    · exact .inr (.inr (.inr ⟨pn,c,(InFlightMap.getPtr_iff coherent.inFlight pn c).mpr held,carries⟩))
  · intro marked
    cases acked : h.stream.finAcked with
    | true => exact .inr (.inr rfl)
    | false =>
      cases flying : h.stream.finInFlight with
      | true =>
        obtain ⟨pn,c,held,_,carries⟩ := conserved.fin flying acked
        exact .inr (.inl ⟨pn,c,(InFlightMap.getPtr_iff coherent.inFlight pn c).mpr held,carries⟩)
      | false => exact .inl (by simp [finDue,marked,flying,acked])
  · rw [conserved.state,conserved.finAcked]
    constructor
    · rintro ⟨final,whole⟩
      refine ⟨conserved.finMarked (conserved.finAcked.mpr final),?_,final⟩
      intro x below
      exact (conserved.acked x).mp (.inl (by omega))
    · rintro ⟨_,all,final⟩
      refine ⟨final,?_⟩
      by_contra short
      have floor := coherent.buffered.floor
      -- The byte at the floor is acknowledged, yet no range above the floor can hold it.
      rcases (conserved.acked _).mpr (all h.stream.baseOffset (by omega)) with below | above
      · exact lt_irrefl _ below
      · exact lt_irrefl _ (coherent.buffered.above _ above).1

/-- Three bytes and the FIN, sent in one packet, probed, and acknowledged. -/
def shortRun : List Event :=
  [.write [1,2,3],.finish,.send 0 1200,.probeRequeued 0,.acked 0].map (fun call => ⟨call,granting⟩)

theorem no_byte_lost_short : (System.run step {stream := SendStream.init 8} shortRun).stream.state = .dataRecvd ∧
    ∀ x < 3, ∃ c ∈ (System.run step {stream := SendStream.init 8} shortRun).ackedChunks, Carries c x := by
  have reached : System.Reaches Fresh step Granted (System.run step {stream := SendStream.init 8} shortRun) :=
    System.Reaches.run shortRun (.start ⟨8,rfl⟩) ⟨rfl,rfl,rfl,rfl,rfl,trivial⟩
  have ended : (System.run step {stream := SendStream.init 8} shortRun).stream.state = .dataRecvd := by decide +kernel
  exact ⟨ended,((no_byte_lost _ reached).2.2.mp ended).2.1⟩

end QuicZig.Conn.SendRun
