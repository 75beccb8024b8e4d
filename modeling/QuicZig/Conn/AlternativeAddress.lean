import QuicZig.Conn.EventQueue
import QuicZig.Conn.PeerCids
import QuicZig.Frame.Types

/-! The updates of a server's alternative addresses, from the call that announces one to the event that the client's
embedder polls, over a network that loses, reorders and repeats packets. -/
namespace QuicZig.Conn.AlternativeAddress
open Machine QuicZig.System
open Paths (Role)

inductive Update where
  | v4 (a : Frame.AlternativeAddress 4)
  | v6 (a : Frame.AlternativeAddress 16)
  deriving DecidableEq

def Update.statusSequenceNumber : Update → Nat
  | .v4 a => a.statusSequenceNumber
  | .v6 a => a.statusSequenceNumber

instance : Inhabited Update := ⟨.v4 ⟨false,false,0,⟨[0,0,0,0],rfl⟩,0⟩⟩

inductive Error where
  | notServerContext
  | alternativeAddressNotNegotiated
  | alternativeAddressSequenceExhausted
  | outOfMemory
  deriving DecidableEq

def maxAlternativeAddressEvents : Nat := 16

/-! The server. -/

structure Server where
  role : Role := .server
  peerSupports : Bool := true
  nextAlternativeAddressSequence : Nat := 0
  alternativeAddresses : List Update := []

namespace Server

def allocAlternativeAddressSequence (s : Server) : Except Error Nat × Server :=
  let seq := s.nextAlternativeAddressSequence
  if seq = maxU64 then (.error .alternativeAddressSequenceExhausted,s)
  else (.ok seq,{s with nextAlternativeAddressSequence := seq+1})

/-- Both calls, `update` being the frame of the one or the other for a sequence number. -/
def advertise (s : Server) (granted : Bool) (update : Nat → Update) : Except Error Nat × Server :=
  if s.role ≠ .server then (.error .notServerContext,s)
  else if !s.peerSupports then (.error .alternativeAddressNotNegotiated,s)
  else
    match s.allocAlternativeAddressSequence with
    | (.error e,s) => (.error e,s)
    | (.ok seq,s) =>
      if granted then (.ok seq,{s with alternativeAddresses := s.alternativeAddresses ++ [update seq]})
      else (.error .outOfMemory,s)

structure AdvertiseAlternativeAddressOptions where
  preferred : Bool := false
  retire : Bool := false

def advertiseAlternativeV4Address (s : Server) (granted : Bool) (address : Codec.Fixed 4) (port : Nat)
    (opts : AdvertiseAlternativeAddressOptions) : Except Error Nat × Server :=
  s.advertise granted fun seq => .v4 {
    preferred := opts.preferred
    retire := opts.retire
    statusSequenceNumber := seq
    address := address
    port := port}

def advertiseAlternativeV6Address (s : Server) (granted : Bool) (address : Codec.Fixed 16) (port : Nat)
    (opts : AdvertiseAlternativeAddressOptions) : Except Error Nat × Server :=
  s.advertise granted fun seq => .v6 {
    preferred := opts.preferred
    retire := opts.retire
    statusSequenceNumber := seq
    address := address
    port := port}

/-- The first update in the queue goes into a packet that has room for it. -/
def pack (s : Server) (fits : Bool) : Option Update × Server :=
  match s.alternativeAddresses with
  | [] => (none,s)
  | item::rest => if fits then (some item,{s with alternativeAddresses := rest}) else (none,s)

/-- The update of a lost packet is queued again, unless it is queued already. -/
def requeue (s : Server) (granted : Bool) (candidate : Update) : Except Error Unit × Server :=
  if candidate ∈ s.alternativeAddresses then (.ok (),s)
  else if granted then (.ok (),{s with alternativeAddresses := s.alternativeAddresses ++ [candidate]})
  else (.error .outOfMemory,s)

end Server

/-! The client. -/

/-- The event queues are allocated for the first event. -/
structure Client where
  highestAlternativeAddressSequenceSeen : Option Nat := none
  events : Option (EventQueue Update) := none

namespace Client

def acceptAltAddrSequence (c : Client) (seq : Nat) : Bool × Client :=
  if (c.highestAlternativeAddressSequenceSeen.map fun highest => decide (seq ≤ highest)).getD false then (false,c)
  else (true,{c with highestAlternativeAddressSequenceSeen := some seq})

def eventQueues (c : Client) (granted : Bool) : Option (EventQueue Update) × Client :=
  match c.events with
  | some queue => (some queue,c)
  | none => if granted then (some (.fresh maxAlternativeAddressEvents),
    {c with events := some (.fresh maxAlternativeAddressEvents)}) else (none,c)

/-- Both handlers. -/
def handleAlternativeAddress (c : Client) (granted : Bool) (u : Update) : Client :=
  match c.acceptAltAddrSequence u.statusSequenceNumber with
  | (false,c) => c
  | (true,c) =>
    match c.eventQueues granted with
    | (none,c) => c
    | (some queue,c) => {c with events := some (queue.push u)}

def pollEvent (c : Client) : Option Update × Client :=
  match c.events with
  | none => (none,c)
  | some queue => (queue.pop.1,{c with events := some queue.pop.2})

/-- The events that wait to be polled, oldest first. -/
def contents (c : Client) : List Update := (c.events.map EventQueue.contents).getD []

def Sound (c : Client) : Prop := ∀ q, c.events = some q → q.Sound ∧ q.cap = maxAlternativeAddressEvents

theorem eventQueues_spec {c : Client} (sound : c.Sound) (granted : Bool) :
    (∃ queue, (c.eventQueues granted).1 = some queue ∧ queue.Sound ∧ queue.cap = maxAlternativeAddressEvents ∧
      queue.contents = c.contents) ∨ (granted = false ∧ c.eventQueues granted = (none,c)) := by
  unfold eventQueues contents
  cases had : c.events with
  | some queue =>
    obtain ⟨ready,cap⟩ := sound queue had
    exact .inl ⟨queue,rfl,ready,cap,rfl⟩
  | none =>
    cases granted with
    | false => simp
    | true =>
      have stands := EventQueue.fresh_stands (T := Update) (show 0 < maxAlternativeAddressEvents by decide)
      exact .inl ⟨_,rfl,stands.sound,stands.cap,stands.contents⟩

theorem eventQueues_highest (c : Client) (granted : Bool) :
    (c.eventQueues granted).2.highestAlternativeAddressSequenceSeen = c.highestAlternativeAddressSequenceSeen := by
  unfold eventQueues
  cases c.events <;> cases granted <;> rfl

/-- An update not newer than what the client has seen changes nothing; a newer one goes to the end of the queue, if there is
one or it can be allocated. -/
theorem handleAlternativeAddress_spec {c : Client} (sound : c.Sound) (granted : Bool) (u : Update) :
    let after := c.handleAlternativeAddress granted u
    after.Sound ∧
      ((after = c ∧ ∃ h, c.highestAlternativeAddressSequenceSeen = some h ∧ u.statusSequenceNumber ≤ h) ∨
        (after.highestAlternativeAddressSequenceSeen = some u.statusSequenceNumber ∧
          (∀ h, c.highestAlternativeAddressSequenceSeen = some h → h < u.statusSequenceNumber) ∧
          (after.contents = EventQueue.latest maxAlternativeAddressEvents (c.contents ++ [u]) ∨
            (granted = false ∧ after.contents = c.contents)))) := by
  intro after
  have accepts : c.acceptAltAddrSequence u.statusSequenceNumber = (false,c) ∧
      (∃ h, c.highestAlternativeAddressSequenceSeen = some h ∧ u.statusSequenceNumber ≤ h) ∨
      c.acceptAltAddrSequence u.statusSequenceNumber = (true,{c with
        highestAlternativeAddressSequenceSeen := some u.statusSequenceNumber}) ∧
      ∀ h, c.highestAlternativeAddressSequenceSeen = some h → h < u.statusSequenceNumber := by
    unfold acceptAltAddrSequence
    cases c.highestAlternativeAddressSequenceSeen with
    | none => simp
    | some h =>
      by_cases old : u.statusSequenceNumber ≤ h
      · simp [old]
      · simp [old]
        omega
  rcases accepts with ⟨refused,old⟩ | ⟨accepted,newer⟩
  · have same : after = c := by
      change c.handleAlternativeAddress granted u = c
      unfold handleAlternativeAddress
      rw [refused]
    rw [same]
    exact ⟨sound,.inl ⟨rfl,old⟩⟩
  · generalize risen : ({c with highestAlternativeAddressSequenceSeen := some u.statusSequenceNumber} : Client) =
      c' at accepted
    have sound' : c'.Sound := risen ▸ sound
    have contents' : c'.contents = c.contents := risen ▸ rfl
    have whole : after = match c'.eventQueues granted with
        | (none,c) => c
        | (some queue,c) => {c with events := some (queue.push u)} := by
      change c.handleAlternativeAddress granted u = _
      unfold handleAlternativeAddress
      rw [accepted]
    have high : after.highestAlternativeAddressSequenceSeen = some u.statusSequenceNumber := by
      have kept := eventQueues_highest c' granted
      have start : c'.highestAlternativeAddressSequenceSeen = some u.statusSequenceNumber := risen ▸ rfl
      rw [whole]
      generalize c'.eventQueues granted = result at kept ⊢
      obtain ⟨queue | none,c''⟩ := result
      · exact kept.trans start
      · exact kept.trans start
    refine ⟨?_,.inr ⟨high,newer,?_⟩⟩
    · rcases eventQueues_spec sound' granted with ⟨queue,found,ready,cap,_⟩ | ⟨_,failed⟩
      · obtain ⟨pushed,size,_⟩ := EventQueue.push_spec ready u
        rw [whole]
        intro q same
        generalize c'.eventQueues granted = result at *
        obtain ⟨result,c''⟩ := result
        cases found
        cases same
        exact ⟨pushed,size.trans cap⟩
      · rw [whole,failed]
        exact sound'
    · rcases eventQueues_spec sound' granted with ⟨queue,found,ready,cap,contents⟩ | ⟨refused,failed⟩
      · have pushed := (EventQueue.push_spec ready u).2.2
        rw [cap,contents,contents'] at pushed
        refine .inl ?_
        rw [whole]
        generalize c'.eventQueues granted = result at *
        obtain ⟨result,c''⟩ := result
        cases found
        exact pushed
      · refine .inr ⟨refused,?_⟩
        rw [whole,failed]
        exact contents'

theorem pollEvent_spec {c : Client} (sound : c.Sound) :
    c.pollEvent.2.Sound ∧ c.pollEvent.1.toList ++ c.pollEvent.2.contents = c.contents ∧
      c.pollEvent.2.highestAlternativeAddressSequenceSeen = c.highestAlternativeAddressSequenceSeen := by
  unfold pollEvent contents
  cases had : c.events with
  | none => simpa [had] using sound
  | some queue =>
    obtain ⟨ready,cap⟩ := sound queue had
    obtain ⟨popped,size,first,rest⟩ := EventQueue.pop_spec ready
    refine ⟨?_,?_,rfl⟩
    · intro q same
      cases same
      exact ⟨popped,size.trans cap⟩
    · simp only [Option.map_some,Option.getD_some,first,rest]
      cases queue.contents <;> rfl

end Client

/-! The two ends and what is between them. -/

/-- `sent` are the updates of the packets that carry one, in the order of their numbers, and `outstanding` the packets neither
acknowledged nor lost. `advertised`, `delivered` and `polled` record the calls that succeeded, the packets that have arrived
and the events that the embedder has taken. -/
structure World where
  server : Server := {}
  client : Client := {}
  sent : List Update := []
  outstanding : List Nat := []
  advertised : List Update := []
  delivered : List Nat := []
  polled : List Update := []

inductive Event where
  | advertiseV4 (granted : Bool) (address : Codec.Fixed 4) (port : Nat) (opts : Server.AdvertiseAlternativeAddressOptions)
  | advertiseV6 (granted : Bool) (address : Codec.Fixed 16) (port : Nat) (opts : Server.AdvertiseAlternativeAddressOptions)
  | pack (fits : Bool)
  | lost (granted : Bool) (packet : Nat)
  /-- A probe timeout, or a migration, while the packet stays outstanding. -/
  | requeued (granted : Bool) (packet : Nat)
  | acked (packet : Nat)
  | arrives (granted : Bool) (packet : Nat)
  | poll

namespace World

/-- What an announcement leaves; the new update is the last of the queue. -/
def announced (w : World) (outcome : Except Error Nat × Server) : World :=
  match outcome.1 with
  | .error _ => {w with server := outcome.2}
  | .ok _ => {w with
    server := outcome.2
    advertised := w.advertised ++ outcome.2.alternativeAddresses.getLast?.toList}

def step (w : World) : Event → World
  | .advertiseV4 granted address port opts => w.announced (w.server.advertiseAlternativeV4Address granted address port opts)
  | .advertiseV6 granted address port opts => w.announced (w.server.advertiseAlternativeV6Address granted address port opts)
  | .pack fits =>
    match w.server.pack fits with
    | (none,server) => {w with server := server}
    | (some u,server) => {w with
      server := server
      sent := w.sent ++ [u]
      outstanding := w.outstanding ++ [w.sent.length]}
  | .lost granted packet =>
    match w.sent[packet]? with
    | none => w
    | some u => {w with
      server := (w.server.requeue granted u).2
      outstanding := w.outstanding.filter (· ≠ packet)}
  | .requeued granted packet =>
    match w.sent[packet]? with
    | none => w
    | some u => {w with server := (w.server.requeue granted u).2}
  | .acked packet => {w with outstanding := w.outstanding.filter (· ≠ packet)}
  | .arrives granted packet =>
    match w.sent[packet]? with
    | none => w
    | some u => {w with
      client := w.client.handleAlternativeAddress granted u
      delivered := packet::w.delivered}
  | .poll => {w with
    client := w.client.pollEvent.2
    polled := w.polled ++ w.client.pollEvent.1.toList}

/-- A packet is lost or acknowledged once, it is acknowledged only if it has arrived, and any packet that was sent may arrive
at any time and again. -/
def Allowed (w : World) : Event → Prop
  | .lost _ packet | .requeued _ packet => packet ∈ w.outstanding
  | .acked packet => packet ∈ w.outstanding ∧ packet ∈ w.delivered
  | .arrives _ packet => packet < w.sent.length
  | _ => True

instance (w : World) (event : Event) : Decidable (Allowed w event) :=
  match event with
  | .lost _ packet | .requeued _ packet => inferInstanceAs (Decidable (packet ∈ w.outstanding))
  | .acked packet => inferInstanceAs (Decidable (packet ∈ w.outstanding ∧ packet ∈ w.delivered))
  | .arrives _ packet => Nat.decLt packet w.sent.length
  | .advertiseV4 .. | .advertiseV6 .. | .pack _ | .poll => isTrue trivial

def Fresh (w : World) : Prop := ∃ role peerSupports, w = {server := {role := role,peerSupports := peerSupports}}

/-- What the embedder has got and what waits for it, oldest first. -/
def seen (w : World) : List Update := w.polled ++ w.client.contents

abbrev Rising (updates : List Update) : Prop := updates.Pairwise fun a b => a.statusSequenceNumber < b.statusSequenceNumber

structure Inv (w : World) : Prop where
  rising : Rising w.advertised
  below : ∀ u ∈ w.advertised, u.statusSequenceNumber < w.server.nextAlternativeAddressSequence
  pending : ∀ u ∈ w.server.alternativeAddresses, u ∈ w.advertised
  sent : ∀ u ∈ w.sent, u ∈ w.advertised
  outstanding : ∀ p ∈ w.outstanding, p < w.sent.length
  queue : w.client.Sound
  seen : Rising w.seen
  real : ∀ u ∈ w.seen, u ∈ w.advertised
  high : ∀ u ∈ w.seen, ∃ h, w.client.highestAlternativeAddressSequenceSeen = some h ∧ u.statusSequenceNumber ≤ h

/-- An announcement fails, or it gives its update the next number and the last place in the queue. -/
theorem advertise_spec (s : Server) (granted : Bool) (update : Nat → Update) :
    (∃ e, (s.advertise granted update).1 = .error e ∧
        (s.advertise granted update).2.alternativeAddresses = s.alternativeAddresses ∧
        s.nextAlternativeAddressSequence ≤ (s.advertise granted update).2.nextAlternativeAddressSequence) ∨
      s.advertise granted update = (.ok s.nextAlternativeAddressSequence,{s with
        nextAlternativeAddressSequence := s.nextAlternativeAddressSequence+1
        alternativeAddresses := s.alternativeAddresses ++ [update s.nextAlternativeAddressSequence]}) := by
  unfold Server.advertise Server.allocAlternativeAddressSequence
  by_cases client : s.role ≠ .server
  · simp [client]
  · by_cases deaf : s.peerSupports = true
    · by_cases spent : s.nextAlternativeAddressSequence = maxU64
      · simp [client,deaf,spent]
      · cases granted <;> simp [client,deaf,spent]
    · simp [client,deaf]

theorem rising_concat {updates : List Update} {u : Update} (rising : Rising updates)
    (newer : ∀ other ∈ updates, other.statusSequenceNumber < u.statusSequenceNumber) : Rising (updates ++ [u]) := by
  refine List.pairwise_append.mpr ⟨rising,by simp,?_⟩
  simpa using newer

theorem inv_announced {w : World} (inv : Inv w) (granted : Bool) {update : Nat → Update}
    (numbered : ∀ seq, (update seq).statusSequenceNumber = seq) : Inv (w.announced (w.server.advertise granted update)) := by
  rcases advertise_spec w.server granted update with ⟨e,failed,same,next⟩ | made
  · unfold announced
    rw [failed]
    exact {inv with
      below := fun u member => Nat.lt_of_lt_of_le (inv.below u member) next
      pending := fun u member => inv.pending u (same ▸ member)}
  · rw [made]
    have last : (w.server.alternativeAddresses ++ [update w.server.nextAlternativeAddressSequence]).getLast?.toList =
        [update w.server.nextAlternativeAddressSequence] := by simp
    simp only [announced,last]
    have keeps : ∀ u ∈ w.advertised, u ∈ w.advertised ++ [update w.server.nextAlternativeAddressSequence] :=
      fun u member => List.mem_append_left _ member
    exact {
      rising := rising_concat inv.rising fun u member => by rw [numbered]; exact inv.below u member
      below := by
        intro u member
        rcases List.mem_append.mp member with old | new
        · exact Nat.lt_succ_of_lt (inv.below u old)
        · rw [List.mem_singleton.mp new,numbered]
          exact Nat.lt_succ_self _
      pending := by
        intro u member
        rcases List.mem_append.mp member with old | new
        · exact keeps u (inv.pending u old)
        · exact List.mem_append_right _ new
      sent := fun u member => keeps u (inv.sent u member)
      outstanding := inv.outstanding
      queue := inv.queue
      seen := inv.seen
      real := fun u member => keeps u (inv.real u member)
      high := inv.high}

theorem requeue_mem {s : Server} {granted : Bool} {u other : Update}
    (member : other ∈ (s.requeue granted u).2.alternativeAddresses) :
    other ∈ s.alternativeAddresses ∨ other = u := by
  unfold Server.requeue at member
  split at member
  · exact .inl member
  · cases granted with
    | false => exact .inl member
    | true => simpa using member

theorem requeue_next (s : Server) (granted : Bool) (u : Update) :
    (s.requeue granted u).2.nextAlternativeAddressSequence = s.nextAlternativeAddressSequence := by
  unfold Server.requeue
  split
  · rfl
  · cases granted <;> rfl

theorem inv_arrives {w : World} (inv : Inv w) (granted : Bool) {u : Update} (known : u ∈ w.advertised) (packet : Nat) :
    Inv {w with client := w.client.handleAlternativeAddress granted u,delivered := packet::w.delivered} := by
  obtain ⟨queue,outcome⟩ := Client.handleAlternativeAddress_spec inv.queue granted u
  rcases outcome with ⟨same,_⟩ | ⟨high,newer,contents⟩
  · rw [same] at queue ⊢
    exact {inv with}
  · have above : ∀ other ∈ w.seen, other.statusSequenceNumber < u.statusSequenceNumber := by
      intro other member
      obtain ⟨h,had,le⟩ := inv.high other member
      exact Nat.lt_of_le_of_lt le (newer h had)
    have sub : (w.polled ++ (w.client.handleAlternativeAddress granted u).contents).Sublist (w.seen ++ [u]) := by
      rw [seen,List.append_assoc]
      refine List.Sublist.append_left ?_ _
      rcases contents with pushed | ⟨_,kept⟩
      · rw [pushed]
        exact List.drop_sublist _ _
      · rw [kept]
        exact List.sublist_append_left _ _
    exact {
      rising := inv.rising
      below := inv.below
      pending := inv.pending
      sent := inv.sent
      outstanding := inv.outstanding
      queue := queue
      seen := (rising_concat inv.seen above).sublist sub
      real := by
        intro other member
        rcases List.mem_append.mp (sub.subset member) with old | new
        · exact inv.real other old
        · rw [List.mem_singleton.mp new]
          exact known
      high := by
        intro other member
        refine ⟨_,high,?_⟩
        rcases List.mem_append.mp (sub.subset member) with old | new
        · exact Nat.le_of_lt (above other old)
        · rw [List.mem_singleton.mp new]}

theorem step_pack {w : World} {item : Update} {rest : List Update} (queued : w.server.alternativeAddresses = item::rest) :
    w.step (.pack true) = {w with
      server := {w.server with alternativeAddresses := rest}
      sent := w.sent ++ [item]
      outstanding := w.outstanding ++ [w.sent.length]} := by
  simp [step,Server.pack,queued]

theorem step_pack_none {w : World} {fits : Bool} (nothing : w.server.alternativeAddresses = [] ∨ fits = false) :
    w.step (.pack fits) = w := by
  rcases nothing with queued | rfl
  · simp [step,Server.pack,queued]
  · cases queued : w.server.alternativeAddresses <;> simp [step,Server.pack,queued]

theorem step_lost {w : World} {packet : Nat} {u : Update} (granted : Bool) (carried : w.sent[packet]? = some u) :
    w.step (.lost granted packet) = {w with
      server := (w.server.requeue granted u).2
      outstanding := w.outstanding.filter (· ≠ packet)} := by
  simp [step,carried]

theorem step_requeued {w : World} {packet : Nat} {u : Update} (granted : Bool) (carried : w.sent[packet]? = some u) :
    w.step (.requeued granted packet) = {w with server := (w.server.requeue granted u).2} := by
  simp [step,carried]

theorem step_arrives {w : World} {packet : Nat} {u : Update} (granted : Bool) (carried : w.sent[packet]? = some u) :
    w.step (.arrives granted packet) = {w with
      client := w.client.handleAlternativeAddress granted u
      delivered := packet::w.delivered} := by
  simp [step,carried]

theorem inv_step (w : World) (event : Event) (inv : Inv w) (allowed : Allowed w event) : Inv (w.step event) := by
  cases event with
  | advertiseV4 granted address port opts => exact inv_announced inv granted fun _ => rfl
  | advertiseV6 granted address port opts => exact inv_announced inv granted fun _ => rfl
  | pack fits =>
    cases queued : w.server.alternativeAddresses with
    | nil => exact (step_pack_none (.inl queued)).symm ▸ inv
    | cons item rest =>
      cases fits with
      | false => exact (step_pack_none (.inr rfl)).symm ▸ inv
      | true =>
        rw [step_pack queued]
        have known : item ∈ w.advertised := inv.pending item (by simp [queued])
        exact {
          rising := inv.rising
          below := inv.below
          pending := fun u member => inv.pending u (by rw [queued]; exact List.mem_cons_of_mem _ member)
          sent := by
            intro u member
            rcases List.mem_append.mp member with old | new
            · exact inv.sent u old
            · rw [List.mem_singleton.mp new]
              exact known
          outstanding := by
            intro p member
            simp only [List.length_append,List.length_singleton]
            rcases List.mem_append.mp member with old | new
            · exact Nat.lt_succ_of_lt (inv.outstanding p old)
            · rw [List.mem_singleton.mp new]
              exact Nat.lt_succ_self _
          queue := inv.queue
          seen := inv.seen
          real := inv.real
          high := inv.high}
  | lost granted packet =>
    cases carried : w.sent[packet]? with
    | none => simpa [step,carried] using inv
    | some u =>
      rw [step_lost granted carried]
      exact {inv with
        below := fun other member => by rw [requeue_next]; exact inv.below other member
        pending := fun other member => by
          rcases requeue_mem member with old | rfl
          · exact inv.pending other old
          · exact inv.sent other (List.mem_of_getElem? carried)
        outstanding := fun p member => inv.outstanding p (List.mem_filter.mp member).1}
  | requeued granted packet =>
    cases carried : w.sent[packet]? with
    | none => simpa [step,carried] using inv
    | some u =>
      rw [step_requeued granted carried]
      exact {inv with
        below := fun other member => by rw [requeue_next]; exact inv.below other member
        pending := fun other member => by
          rcases requeue_mem member with old | rfl
          · exact inv.pending other old
          · exact inv.sent other (List.mem_of_getElem? carried)}
  | acked packet =>
    exact {inv with outstanding := fun p member => inv.outstanding p (List.mem_filter.mp member).1}
  | arrives granted packet =>
    cases carried : w.sent[packet]? with
    | none => simpa [step,carried] using inv
    | some u =>
      rw [step_arrives granted carried]
      exact inv_arrives inv granted (inv.sent u (List.mem_of_getElem? carried)) packet
  | poll =>
    obtain ⟨queue,contents,high⟩ := Client.pollEvent_spec inv.queue
    have same : (w.step .poll).seen = w.seen := by
      change (w.polled ++ w.client.pollEvent.1.toList) ++ w.client.pollEvent.2.contents = w.polled ++ w.client.contents
      rw [List.append_assoc,contents]
    exact {inv with
      queue := queue
      seen := same ▸ inv.seen
      real := fun u member => inv.real u (same ▸ member)
      high := fun u member => by
        rw [show (w.step .poll).client.highestAlternativeAddressSequenceSeen = _ from high]
        exact inv.high u (same ▸ member)}

theorem fresh_inv (w : World) (fresh : Fresh w) : Inv w := by
  obtain ⟨role,peerSupports,rfl⟩ := fresh
  constructor <;> simp [Rising,World.seen,Client.contents,Client.Sound]

/-- Whatever is lost, reordered or repeated on the way: the events that the embedder polls have rising sequence numbers, and
each is an update that the server has announced. -/
theorem updates_polled_in_order {w : World} (reached : Reaches Fresh step Allowed w) :
    Rising w.polled ∧ ∀ u ∈ w.polled, u ∈ w.advertised := by
  have inv := reached.invariant Inv fresh_inv inv_step
  exact ⟨(List.pairwise_append.mp inv.seen).1,fun u member => inv.real u (List.mem_append_left _ member)⟩

/-- The allocations for the update of a lost packet and for the event queues succeed. -/
def Served : Event → Prop
  | .lost granted _ | .requeued granted _ | .arrives granted _ => granted = true
  | _ => True

instance (event : Event) : Decidable (Served event) :=
  match event with
  | .lost granted _ | .requeued granted _ | .arrives granted _ => inferInstanceAs (Decidable (granted = true))
  | .advertiseV4 .. | .advertiseV6 .. | .pack _ | .acked _ | .poll => isTrue trivial

/-- Where an update is that has been announced. -/
structure Traced (w : World) : Prop where
  kept : ∀ u ∈ w.advertised, u ∈ w.server.alternativeAddresses ∨ (∃ p ∈ w.outstanding, w.sent[p]? = some u) ∨
    ∃ p ∈ w.delivered, w.sent[p]? = some u
  arrived : ∀ p ∈ w.delivered, p < w.sent.length
  told : ∀ p ∈ w.delivered, ∀ u, w.sent[p]? = some u →
    ∃ h, w.client.highestAlternativeAddressSequenceSeen = some h ∧ u.statusSequenceNumber ≤ h
  last : ∀ h, w.client.highestAlternativeAddressSequenceSeen = some h → ∃ u, w.seen.getLast? = some u ∧
    u.statusSequenceNumber = h

theorem traced_announced {w : World} (traced : Traced w) (granted : Bool) (update : Nat → Update) :
    Traced (w.announced (w.server.advertise granted update)) := by
  rcases advertise_spec w.server granted update with ⟨e,failed,same,_⟩ | made
  · unfold announced
    rw [failed]
    exact {traced with kept := fun u member => by rw [same]; exact traced.kept u member}
  · rw [made]
    refine {traced with kept := fun u member => ?_}
    rcases List.mem_append.mp member with old | new
    · exact (traced.kept u old).imp_left fun queued => List.mem_append_left _ queued
    · exact .inl (List.mem_append_right _ (by simpa using new))

theorem requeue_keeps (s : Server) (u : Update) :
    u ∈ (s.requeue true u).2.alternativeAddresses ∧ ∀ other ∈ s.alternativeAddresses, other ∈
    (s.requeue true u).2.alternativeAddresses := by
  unfold Server.requeue
  split
  · rename_i queued
    exact ⟨queued,fun other member => member⟩
  · simp +contextual

theorem getLast?_latest {n : Nat} {list : List Update} {u : Update} (room : 0 < n) :
    (EventQueue.latest n (list ++ [u])).getLast? = some u := by
  unfold EventQueue.latest
  rw [List.drop_append_of_le_length]
  · simp
  · simp only [List.length_append,List.length_singleton]
    omega

theorem traced_step (w : World) (event : Event) (inv : Inv w) (traced : Traced w) (allowed : Allowed w event)
    (served : Served event) :
    Traced (w.step event) := by
  cases event with
  | advertiseV4 granted address port opts => exact traced_announced traced granted _
  | advertiseV6 granted address port opts => exact traced_announced traced granted _
  | pack fits =>
    cases queued : w.server.alternativeAddresses with
    | nil => exact (step_pack_none (.inl queued)).symm ▸ traced
    | cons item rest =>
      cases fits with
      | false => exact (step_pack_none (.inr rfl)).symm ▸ traced
      | true =>
        rw [step_pack queued]
        have earlier : ∀ p < w.sent.length, (w.sent ++ [item])[p]? = w.sent[p]? :=
          fun p less => List.getElem?_append_left less
        refine {traced with kept := fun u member => ?_,arrived := fun p member => ?_,told := fun p member u carried => ?_}
        · rcases traced.kept u member with pending | ⟨p,out,carried⟩ | ⟨p,in',carried⟩
          · rw [queued] at pending
            rcases List.mem_cons.mp pending with rfl | later
            · exact .inr (.inl ⟨w.sent.length,by simp,by simp⟩)
            · exact .inl later
          · exact .inr (.inl ⟨p,List.mem_append_left _ out,(earlier p (inv.outstanding p out)).trans carried⟩)
          · exact .inr (.inr ⟨p,in',(earlier p (traced.arrived p in')).trans carried⟩)
        · simp only [List.length_append,List.length_singleton]
          exact Nat.lt_succ_of_lt (traced.arrived p member)
        · exact traced.told p member u ((earlier p (traced.arrived p member)).symm.trans carried)
  | lost granted packet =>
    obtain rfl : granted = true := served
    cases carried : w.sent[packet]? with
    | none => simpa [step,carried] using traced
    | some u =>
      rw [step_lost true carried]
      obtain ⟨again,others⟩ := requeue_keeps w.server u
      refine {traced with kept := fun other member => ?_}
      rcases traced.kept other member with pending | ⟨p,out,there⟩ | in'
      · exact .inl (others other pending)
      · by_cases same : p = packet
        · subst same
          cases there.symm.trans carried
          exact .inl again
        · exact .inr (.inl ⟨p,List.mem_filter.mpr ⟨out,by simpa using same⟩,there⟩)
      · exact .inr (.inr in')
  | requeued granted packet =>
    obtain rfl : granted = true := served
    cases carried : w.sent[packet]? with
    | none => simpa [step,carried] using traced
    | some u =>
      rw [step_requeued true carried]
      exact {traced with kept := fun other member => (traced.kept other member).imp_left ((requeue_keeps w.server u).2 other)}
  | acked packet =>
    refine {traced with kept := fun other member => ?_}
    rcases traced.kept other member with pending | ⟨p,out,there⟩ | in'
    · exact .inl pending
    · by_cases same : p = packet
      · exact .inr (.inr ⟨p,same ▸ allowed.2,there⟩)
      · exact .inr (.inl ⟨p,List.mem_filter.mpr ⟨out,by simpa using same⟩,there⟩)
    · exact .inr (.inr in')
  | arrives granted packet =>
    obtain rfl : granted = true := served
    cases carried : w.sent[packet]? with
    | none => simpa [step,carried] using traced
    | some u =>
      rw [step_arrives true carried]
      have kept : ∀ other ∈ w.advertised, other ∈ w.server.alternativeAddresses ∨
        (∃ p ∈ w.outstanding, w.sent[p]? = some other) ∨
          ∃ p ∈ packet::w.delivered, w.sent[p]? = some other := fun other member =>
        (traced.kept other member).imp_right (Or.imp_right fun ⟨p,in',there⟩ => ⟨p,List.mem_cons_of_mem _ in',there⟩)
      have arrived : ∀ p ∈ packet::w.delivered, p < w.sent.length := List.forall_mem_cons.mpr ⟨allowed,traced.arrived⟩
      obtain ⟨_,⟨same,h,high,old⟩ | ⟨high,newer,contents⟩⟩ := Client.handleAlternativeAddress_spec inv.queue true u
      · rw [same]
        refine {traced with kept := kept,arrived := arrived,told := List.forall_mem_cons.mpr ⟨fun other there => ?_,traced.told⟩}
        cases carried.symm.trans there
        exact ⟨h,high,old⟩
      · have pushed := contents.resolve_right fun refused => Bool.noConfusion refused.1
        refine ⟨kept,arrived,List.forall_mem_cons.mpr ⟨fun other there => ?_,fun p in' other there => ?_⟩,fun h same => ?_⟩
        · cases carried.symm.trans there
          exact ⟨_,high,Nat.le_refl _⟩
        · obtain ⟨h,had,le⟩ := traced.told p in' other there
          exact ⟨_,high,Nat.le_of_lt (Nat.lt_of_le_of_lt le (newer h had))⟩
        · have newest : u.statusSequenceNumber = h := Option.some.inj (high.symm.trans same)
          refine ⟨u,?_,newest⟩
          have tail := @getLast?_latest maxAlternativeAddressEvents w.client.contents u (by decide)
          rw [← pushed] at tail
          change (w.polled ++ (w.client.handleAlternativeAddress true u).contents).getLast? = some u
          rw [List.getLast?_append,tail]
          rfl
  | poll =>
    obtain ⟨_,contents,high⟩ := Client.pollEvent_spec inv.queue
    have same : (w.step .poll).seen = w.seen := by
      change (w.polled ++ w.client.pollEvent.1.toList) ++ w.client.pollEvent.2.contents = w.polled ++ w.client.contents
      rw [List.append_assoc,contents]
    refine {traced with told := fun p member u carried => ?_,last := fun h known => ?_}
    · obtain ⟨h,had,le⟩ := traced.told p member u carried
      exact ⟨h,high.trans had,le⟩
    · rw [same]
      exact traced.last h (high.symm.trans known)

theorem fresh_traced (w : World) (fresh : Fresh w) : Traced w := by
  obtain ⟨role,peerSupports,rfl⟩ := fresh
  constructor <;> simp

/-- Where every allocation for a requeued update and for the events succeeds, no announced update is dropped on the way, and
the newest one is still queued, or in a packet that is neither acknowledged nor lost, or the last that the embedder sees. -/
theorem newest_update_last {w : World} (reached : Reaches Fresh step (fun w event => Allowed w event ∧ Served event) w) :
    (∀ u ∈ w.advertised, u ∈ w.server.alternativeAddresses ∨ (∃ p ∈ w.outstanding, w.sent[p]? = some u) ∨
      ∃ p ∈ w.delivered, w.sent[p]? = some u) ∧
    ∀ u, w.advertised.getLast? = some u →
      u ∈ w.server.alternativeAddresses ∨ (∃ p ∈ w.outstanding, w.sent[p]? = some u) ∨ w.seen.getLast? = some u := by
  have inv := (reached.relax fun _ _ both => both.1).invariant Inv fresh_inv inv_step
  have traced := reached.invariant_under Inv Traced
    (fun _ known => (known.relax fun _ _ both => both.1).invariant Inv fresh_inv inv_step) fresh_traced
    fun w event inv traced both => traced_step w event inv traced both.1 both.2
  refine ⟨traced.kept,fun u newest => ?_⟩
  obtain ⟨earlier,whole⟩ := List.getLast?_eq_some_iff.mp newest
  refine (traced.kept u (by simp [whole])).imp_right (Or.imp_right fun ⟨p,in',carried⟩ => ?_)
  obtain ⟨h,high,le⟩ := traced.told p in' u carried
  obtain ⟨v,last,same⟩ := traced.last h high
  have known := inv.real v (List.mem_of_getLast? last)
  have rising := inv.rising
  rw [whole] at known rising
  rcases List.mem_append.mp known with old | new
  · have less := (List.pairwise_append.mp rising).2.2 v old u (by simp)
    omega
  · rw [← List.mem_singleton.mp new]
    exact last

def first : Update := .v4 ⟨false,false,0,⟨[198,51,100,1],rfl⟩,4433⟩
def second : Update := .v4 ⟨true,false,1,⟨[198,51,100,2],rfl⟩,4433⟩

/-- Two announcements; the packet of the first one arrives after that of the second, and twice. -/
def overtaken : List Event :=
  [.advertiseV4 true ⟨[198,51,100,1],rfl⟩ 4433 {},.advertiseV4 true ⟨[198,51,100,2],rfl⟩ 4433 {preferred := true},.pack true,
    .pack true,.requeued true 0,.arrives true 1,.arrives true 0,.arrives true 0,.acked 1,.lost true 0,.poll]

theorem reached_overtaken : Reaches Fresh step (fun w event => Allowed w event ∧ Served event) (run step {} overtaken) :=
  Reaches.run overtaken (.start ⟨.server,true,rfl⟩) (by decide)

theorem updates_polled_in_order_overtaken :
    (run step {} overtaken).polled = [second] ∧ Rising (run step {} overtaken).polled :=
  ⟨by decide,(updates_polled_in_order (reached_overtaken.relax fun _ _ both => both.1)).1⟩

theorem newest_update_last_overtaken : (run step {} overtaken).seen.getLast? = some second := by
  rcases (newest_update_last reached_overtaken).2 second (by decide) with queued | ⟨p,out,_⟩ | last
  · exact absurd queued (by decide)
  · rw [show (run step {} overtaken).outstanding = [] by decide] at out
    cases out
  · exact last

end World

end QuicZig.Conn.AlternativeAddress
