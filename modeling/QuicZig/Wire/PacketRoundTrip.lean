import QuicZig.Wire.LongPacketRoundTrip
import QuicZig.Wire.ShortPacket

/-! Sealing and opening packets of every protected type, and the walk from one packet of a
datagram to the next. -/
namespace QuicZig.Wire.ShortPacket
open Machine BigEndian Codec Keystream Protection Header

namespace SealOptions

def first (opts : SealOptions) : Byte :=
  shortBits opts.quicBit opts.spinBit opts.reservedBits opts.keyPhase (PnLength.fromBytes opts.pnLen).toTwoBits

def number (opts : SealOptions) : List Byte := bigEndian opts.pnLen (PacketNumber.truncate opts.pn opts.pnLen)

def plain (opts : SealOptions) : List Byte := padded opts.payload opts.ptLen

end SealOptions

structure Sealed (opts : SealOptions) (packet : List Byte) (sample : Fixed 16) : Prop where
  short : opts.dcid.length ≤ maxCidLen
  least : 1 ≤ opts.pnLen
  most : opts.pnLen ≤ 4
  covered : opts.payload.length ≤ opts.ptLen
  sampled : 4 ≤ opts.pnLen+opts.ptLen
  taken : sampleAt (opts.number++ciphertext opts.keys opts.multipathPathId opts.pn
    (opts.first::(opts.dcid++opts.number)) opts.plain) 0 = .ok sample
  packet : packet = protectedBytes .short (opts.keys.headerProtectionMask sample) opts.first opts.dcid opts.number
    (ciphertext opts.keys opts.multipathPathId opts.pn (opts.first::(opts.dcid++opts.number)) opts.plain)

theorem ptLen_least {opts : SealOptions} (least : 1 ≤ opts.pnLen) (most : opts.pnLen ≤ 4) :
    opts.payload.length ≤ opts.ptLen ∧ 4 ≤ opts.pnLen+opts.ptLen := by
  unfold SealOptions.ptLen SealOptions.plainLen
  split_ifs <;> omega

theorem ptLen_total (opts : SealOptions) :
    1+opts.dcid.length+opts.pnLen+opts.ptLen+16 = max opts.padTo (1+opts.dcid.length+opts.pnLen+opts.plainLen+16) := by
  unfold SealOptions.ptLen SealOptions.fixedOverhead
  split_ifs <;> omega

theorem Sealed.size {opts : SealOptions} {packet : List Byte} {sample : Fixed 16} (made : Sealed opts packet sample) :
    packet.length = 1+opts.dcid.length+opts.pnLen+opts.ptLen+16 := by
  rw [made.packet,length_protectedBytes,length_ciphertext,SealOptions.plain,padded_length made.covered,SealOptions.number,
    length_bigEndian]
  omega

theorem seal1Rtt_sealed {opts : SealOptions} {room : Nat} {packet : List Byte} (ok : seal1Rtt opts room = .ok (some packet)) :
    ∃ sample, Sealed opts packet sample := by
  unfold seal1Rtt at ok
  split at ok
  · cases ok
  rename_i longDcid
  split at ok
  · cases ok
  rename_i pnLen
  split at ok
  · cases ok
  rename_i small
  obtain ⟨dcid,madeDcid,dcidBytes⟩ := LongPacket.fromSlice_ok longDcid
  rw [madeDcid] at ok
  dsimp only at ok
  have least : 1 ≤ opts.pnLen := by omega
  have most : opts.pnLen ≤ 4 := by omega
  obtain ⟨covered,sampled⟩ := ptLen_least least most
  have pnBytes := LongPacket.fromBytes_bytes least most
  have plainSize : opts.plain.length = opts.ptLen := padded_length covered
  have numberSize : opts.number.length = opts.pnLen := length_bigEndian _ _
  split at ok
  · cases ok
  rename_i header encoded
  have written : header = opts.first::(opts.dcid++opts.number) := by
    unfold encode at encoded
    dsimp only at encoded
    rw [emits_oneRtt _ [] [] room] at encoded
    split at encoded
    · cases encoded
      unfold SealOptions.first SealOptions.number
      dsimp only [layout]
      rw [dcidBytes,pnBytes]
    · cases encoded
  have behind : sealStaged opts header opts.plain room = .ok packet := by
    have staged (plain : List Byte) (same : plain = opts.plain)
        (ok : (sealStaged opts header plain room).map some = .ok (some packet)) :
        sealStaged opts header opts.plain room = .ok packet := by
      subst same
      cases here : sealStaged opts header opts.plain room with
      | error e => rw [here] at ok; cases ok
      | ok bytes =>
        rw [here] at ok
        cases ok
        rfl
    split at ok
    · rename_i exact
      refine staged opts.payload ?_ ok
      unfold SealOptions.plain padded
      rw [exact,Nat.sub_self]
      simp
    · split at ok
      · cases ok
      · rename_i plain staging
        refine staged plain ?_ ok
        unfold stagePadded at staging
        split at staging
        · cases staging
          rfl
        · cases staging
  obtain ⟨sample,taken,made⟩ := sealBehind_ok .short opts.keys opts.multipathPathId opts.pn opts.first opts.dcid
    (show 1 ≤ opts.number.length by omega) (by omega) (show 4 ≤ opts.number.length+opts.plain.length by omega)
    (show 1+opts.dcid.length+opts.number.length+opts.plain.length+16 ≤ room by omega)
  unfold sealStaged at behind
  rw [written,← numberSize,made] at behind
  cases behind
  exact ⟨sample,by omega,least,most,covered,sampled,taken,rfl⟩

theorem seal1Rtt_trap {opts : SealOptions} {room : Nat} (staged : opts.ptLen ≤ stagingLen) :
    seal1Rtt opts room ≠ .ok none := by
  have total (r : Except PacketError (List Byte)) : r.map some ≠ .ok none := by
    cases r <;> intro trap <;> cases trap
  intro trap
  unfold seal1Rtt stagePadded at trap
  simp only [if_pos staged] at trap
  repeat' split at trap
  all_goals first
    | exact total _ trap
    | cases trap

/-- The receiver that knows how long its connection IDs are finds what went into the packet. -/
theorem Sealed.opens {opts : SealOptions} {packet : List Byte} {sample : Fixed 16} (made : Sealed opts packet sample)
    (small : opts.pn < 2^62) {largestReceived : Nat} (near : InWindow opts.pn opts.pnLen largestReceived) {room : Nat}
    (fits : packet.length ≤ room) {mask : Option (Fixed 5)}
    (derived : ∀ known ∈ mask, known = opts.keys.headerProtectionMask sample) :
    open1Rtt room packet {
      dcidLen := opts.dcid.length
      keys := opts.keys
      largestReceived := largestReceived
      multipathPathId := opts.multipathPathId
      mask := mask} = .ok ⟨opts.pn,opts.keyPhase,opts.plain,opts.reservedBits⟩ := by
  obtain ⟨short,least,most,covered,sampled,taken,bytes⟩ := made
  have size : packet.length = 1+opts.dcid.length+opts.pnLen+opts.ptLen+16 :=
    Sealed.size ⟨short,least,most,covered,sampled,taken,bytes⟩
  have numberSize : opts.number.length = opts.pnLen := length_bigEndian _ _
  have pnBytes := LongPacket.fromBytes_bytes least most
  obtain ⟨_,_,_,reserved,keyPhase,pnBits⟩ := firstByte_fields.2.2.2 opts.quicBit opts.spinBit opts.reservedBits opts.keyPhase
    (PnLength.fromBytes opts.pnLen).toTwoBits
  obtain ⟨form,_⟩ := firstByte_fields.2.2.2 opts.quicBit opts.spinBit opts.reservedBits opts.keyPhase
    (PnLength.fromBytes opts.pnLen).toTwoBits
  obtain ⟨tail,sealing⟩ : ∃ tail, tail = ciphertext opts.keys opts.multipathPathId opts.pn
    (opts.first::(opts.dcid++opts.number)) opts.plain := ⟨_,rfl⟩
  rw [← sealing] at taken bytes
  obtain ⟨k,key⟩ := firstKey_short (opts.keys.headerProtectionMask sample)
  obtain ⟨hidden,hiddenBytes⟩ : ∃ hidden, hidden = Keystream.mask (fun a b : Byte => a ^^^ b)
    (pnKey (opts.keys.headerProtectionMask sample) opts.number.length) opts.number := ⟨_,rfl⟩
  have hiddenSize : hidden.length = opts.pnLen := by rw [hiddenBytes,length_mask,numberSize]
  have front : packet = (opts.first ^^^ UInt8.ofNat k)::(opts.dcid++(hidden++tail)) := by
    rw [bytes,protectedBytes,key,← hiddenBytes]
    simp [Keystream.mask]
  have sampledHere : sampleAt packet (1+opts.dcid.length) = .ok sample := by
    have split : packet = ((opts.first ^^^ UInt8.ofNat k)::opts.dcid)++(hidden++tail) := front
    rw [split,sampleAt_behind (by rw [List.length_cons]; omega),
      sampleAt_number (show hidden.length = opts.number.length by omega) (by omega)]
    exact taken
  have lowBits : (opts.first &&& (0x03 : Byte)).toNat+1 = opts.pnLen := by
    rw [← pnBytes]
    exact low_bits _ _ pnBits
  have unmasked : unmaskCopies packet (1+opts.dcid.length) (opts.keys.headerProtectionMask sample) =
      (opts.first,opts.pnLen,opts.number) := by
    have one : xorAt 0 (firstKey .short (opts.keys.headerProtectionMask sample)) (packet.take 1) = [opts.first] := by
      rw [front,key]
      show [(opts.first ^^^ UInt8.ofNat k) ^^^ UInt8.ofNat k] = [opts.first]
      rw [xor_xor]
    have number : xorAt 0 (pnKey (opts.keys.headerProtectionMask sample) opts.pnLen)
        ((packet.drop (1+opts.dcid.length)).take opts.pnLen) = opts.number := by
      rw [front,Nat.add_comm,List.drop_succ_cons,List.drop_left' rfl,List.take_left' hiddenSize,hiddenBytes,numberSize]
      simp only [xorAt,maskAt,List.take_zero,List.drop_zero,List.nil_append]
      exact mask_mask xor_xor _ _
    unfold unmaskCopies
    rw [one]
    dsimp only [List.headD_cons]
    rw [lowBits,number]
  have truncated : PacketNumber.readTruncated opts.number opts.pnLen = .ok (PacketNumber.truncate opts.pn opts.pnLen) := by
    have read := readTruncated_number opts.pn (PnLength.fromBytes opts.pnLen) []
    rw [pnBytes,List.append_nil] at read
    exact read
  have dcid : (packet.drop 1).take opts.dcid.length = opts.dcid := by
    rw [front,List.drop_succ_cons,List.drop_zero,List.take_left' rfl]
  have cipher : packet.drop (1+opts.dcid.length+opts.pnLen) = tail := by
    rw [front,← List.drop_drop,Nat.add_comm,List.drop_succ_cons,List.drop_left' rfl,List.drop_left' hiddenSize]
  have chosen : mask.getD (opts.keys.headerProtectionMask sample) = opts.keys.headerProtectionMask sample := by
    cases mask with
    | none => rfl
    | some known => exact derived known rfl
  have shortForm : ¬ ((opts.first ^^^ UInt8.ofNat k) &&& (0x80 : Byte) ≠ 0) := by
    rw [masked_short]
    exact fun wrong => wrong form
  unfold open1Rtt
  rw [front]
  dsimp only
  rw [if_neg shortForm,if_neg (by omega),← front,if_neg (by unfold sampleLen; omega),sampledHere]
  dsimp only
  rw [chosen,unmasked]
  dsimp only
  rw [truncated]
  dsimp only
  rw [decode_window least most small near]
  dsimp only
  rw [dcid,cipher]
  unfold openPayloadWithKeys
  have opened := opts.keys.aead.opens room (nonceFor opts.keys.iv opts.multipathPathId opts.pn)
    (opts.first::(opts.dcid++opts.number)) opts.plain (by rw [SealOptions.plain,padded_length covered]; omega)
  rw [sealing,ciphertext,opened]
  dsimp only
  have phase : decide (opts.first &&& (0x04 : Byte) ≠ 0) = opts.keyPhase := keyPhase
  have bits : bitsAt 4 opts.first 3 = opts.reservedBits := reserved
  rw [phase,bits]

end QuicZig.Wire.ShortPacket

namespace QuicZig.Wire
open Machine Codec Protection Header LongPacket ShortPacket

/-- A call of one of the three functions that seal a packet with a long header. -/
inductive LongSeal where
  | initial (opts : InitialSealOptions)
  | longPn (kind : PnTailKind) (opts : LongPnSealOptions)

namespace LongSeal

def sealing : LongSeal → Nat → Except PacketError (List Byte)
  | .initial opts => sealInitial opts
  | .longPn .zeroRtt opts => sealZeroRtt opts
  | .longPn .handshake opts => sealHandshake opts

/-- The function that opens such a packet, with the same keys. -/
def opening (s : LongSeal) (room : Nat) (src : List Byte) (largestReceived : Nat) :
    Except PacketError LongOpenResult × List Byte :=
  match s with
  | .initial opts => openInitial room src opts.keys largestReceived
  | .longPn .zeroRtt opts => openZeroRtt room src opts.keys largestReceived
  | .longPn .handshake opts => openHandshake room src opts.keys largestReceived

def unpadded : LongSeal → Nat
  | .initial opts => opts.totalSize opts.plainSizes
  | .longPn _ opts => opts.totalSize

def padTo : LongSeal → Nat
  | .initial opts => opts.padTo
  | .longPn _ _ => 0

def version : LongSeal → UInt32
  | .initial opts => opts.version
  | .longPn _ opts => opts.version

def pn : LongSeal → Nat
  | .initial opts => opts.pn
  | .longPn _ opts => opts.pn

def pnLen : LongSeal → Nat
  | .initial opts => opts.pnLen
  | .longPn _ opts => opts.pnLen

def quicBit : LongSeal → Fin 2
  | .initial opts => opts.quicBit
  | .longPn _ opts => opts.quicBit

/-- The packet number, the IDs, the token and the bits of the call, and its payload with nothing but zeros behind it. -/
def Gives (result : LongOpenResult) : LongSeal → Prop
  | .initial opts => result.pn = opts.pn ∧ result.dcid.bytes = opts.dcid ∧ result.scid.bytes = opts.scid ∧
      result.token = opts.token ∧ result.reservedBits = opts.reservedBits ∧
      ∃ zeros, result.payload = opts.payload++List.replicate zeros 0
  | .longPn _ opts => result.pn = opts.pn ∧ result.dcid.bytes = opts.dcid ∧ result.scid.bytes = opts.scid ∧
      result.token = [] ∧ result.reservedBits = 0 ∧ ∃ zeros, result.payload = opts.payload++List.replicate zeros 0

theorem sealing_longPn (kind : PnTailKind) (opts : LongPnSealOptions) : (longPn kind opts).sealing = sealLongPn opts kind := by
  cases kind <;> rfl

theorem opening_longPn (kind : PnTailKind) (opts : LongPnSealOptions) (room : Nat) (src : List Byte) (largestReceived : Nat) :
    (longPn kind opts).opening room src largestReceived =
      openLongHeader room src opts.keys largestReceived kind.longType := by
  cases kind <;> rfl

theorem size {s : LongSeal} {room : Nat} {packet : List Byte} (ok : s.sealing room = .ok packet) :
    packet.length = max s.padTo s.unpadded := by
  cases s with
  | initial opts =>
    obtain ⟨_,_,_,_,_,_,_,least,most,staged,size,_⟩ := sealInitial_sealed ok
    rw [size]
    exact (sizes_planned least most staged).2.2.2
  | longPn kind opts =>
    rw [sealing_longPn] at ok
    obtain ⟨_,_,_,_,_,_,_,_,size,_⟩ := sealLongPn_sealed ok
    exact size.trans (Nat.zero_max _).symm

theorem peeked {s : LongSeal} {room : Nat} {packet : List Byte} (ok : s.sealing room = .ok packet) (known : s.version ≠ 0)
    (rest : List Byte) : peekPacketLen (packet++rest) = some packet.length := by
  have nonzero {v : UInt32} (some : v ≠ 0) : v.toNat ≠ 0 := fun zero => some (UInt32.toNat_inj.mp zero)
  cases s with
  | initial opts =>
    obtain ⟨_,_,_,_,_,_,_,_,_,_,_,made⟩ := sealInitial_sealed ok
    exact made.peek (nonzero known) (by simp [InitialSealOptions.contents]) rest
  | longPn kind opts =>
    rw [sealing_longPn] at ok
    obtain ⟨_,_,_,_,_,_,_,_,_,made⟩ := sealLongPn_sealed ok
    exact made.peek (nonzero known) (by cases kind <;> simp [LongPnSealOptions.contents,PnTailKind.longType]) rest

/-- The receiver's side of a seal: the call returns what went in, and unmasks the packet in its place. -/
theorem opened {s : LongSeal} {room : Nat} {packet : List Byte} (ok : s.sealing room = .ok packet) (small : s.pn < 2^62)
    {largestReceived : Nat} (near : InWindow s.pn s.pnLen largestReceived) {buffer : Nat} (fits : packet.length ≤ buffer)
    (rest : List Byte) : ∃ result byte0 after, s.opening buffer (packet++rest) largestReceived =
      (.ok result,byte0::(after++rest)) ∧ s.Gives result ∧ result.bytesConsumed = packet.length ∧
      after.length+1 = packet.length ∧ bitsAt 2 byte0 6 = s.quicBit := by
  cases s with
  | initial opts =>
    obtain ⟨dcid,scid,_,_,_,dcidBytes,scidBytes,least,most,_,_,made⟩ := sealInitial_sealed ok
    have size := made.size
    unfold Contents.lengthValue at size
    have window : InWindow opts.pn (PnLength.fromBytes opts.pnLen).bytes largestReceived := by
      rw [fromBytes_bytes least most]
      exact near
    obtain ⟨after,length,opened⟩ := made.opens small window (show _ ≤ buffer by omega) rest
    exact ⟨_,_,after,opened,⟨rfl,dcidBytes,scidBytes,rfl,rfl,_,rfl⟩,rfl,length,(Contents.first_fields _).2.2.1⟩
  | longPn kind opts =>
    rw [sealing_longPn] at ok
    obtain ⟨dcid,scid,_,_,dcidBytes,scidBytes,least,most,_,made⟩ := sealLongPn_sealed ok
    have size := made.size
    unfold Contents.lengthValue at size
    have window : InWindow opts.pn (PnLength.fromBytes opts.pnLen).bytes largestReceived := by
      rw [fromBytes_bytes least most]
      exact near
    obtain ⟨after,length,opened⟩ := made.opens small window (show _ ≤ buffer by omega) rest
    rw [opening_longPn]
    exact ⟨_,_,after,opened,⟨rfl,dcidBytes,scidBytes,rfl,rfl,_,rfl⟩,rfl,length,(Contents.first_fields _).2.2.1⟩

theorem nonempty {s : LongSeal} {room : Nat} {packet : List Byte} (ok : s.sealing room = .ok packet) : packet ≠ [] := by
  have size := size ok
  have some : 0 < s.unpadded := by
    cases s with
    | initial opts =>
      simp only [unpadded,InitialSealOptions.totalSize,InitialSealOptions.fixedLen]
      omega
    | longPn kind opts =>
      simp only [unpadded,LongPnSealOptions.totalSize]
      omega
  intro none
  rw [none,List.length_nil] at size
  omega

end LongSeal

def starts : Nat → List (List Byte) → List Nat
  | _,[] => []
  | pos,packet::rest => pos::starts (pos+packet.length) rest

/-- The positions that a walk by `peekPacketLen` visits. -/
def walkPeek : Nat → Nat → List Byte → List Nat
  | 0,_,_ => []
  | fuel+1,pos,s =>
    if s = [] then []
    else
      match peekPacketLen s with
      | none => [pos]
      | some len => pos::walkPeek fuel (pos+len) (s.drop len)

/-- A receiver's call for one packet: the buffer for its plaintext and the largest number received before. -/
structure Call where
  sent : LongSeal
  buffer : Nat
  largestReceived : Nat

/-- The positions that a walk by the bytes consumed visits, with one call for each packet, in the datagram that the
calls before have changed. -/
def walkOpen : Nat → List Call → List Byte → List Nat
  | _,[],_ => []
  | pos,call::calls,s =>
    match call.sent.opening call.buffer s call.largestReceived with
    | (.error _,_) => [pos]
    | (.ok result,s) => pos::walkOpen (pos+result.bytesConsumed) calls (s.drop result.bytesConsumed)

def Call.Receives (call : Call) (packet : List Byte) : Prop :=
  (∃ room, call.sent.sealing room = .ok packet) ∧ call.sent.pn < 2^62 ∧
    InWindow call.sent.pn call.sent.pnLen call.largestReceived ∧ packet.length ≤ call.buffer

theorem walkPeek_starts {items : List (LongSeal × List Byte)}
    (made : ∀ item ∈ items, item.1.version ≠ 0 ∧ ∃ room, item.1.sealing room = .ok item.2) (pos fuel : Nat)
    (enough : items.length ≤ fuel) : walkPeek fuel pos (items.flatMap (·.2)) = starts pos (items.map (·.2)) := by
  induction items generalizing pos fuel with
  | nil => cases fuel <;> rfl
  | cons item rest ih =>
    obtain ⟨known,room,ok⟩ := made item List.mem_cons_self
    cases fuel with
    | zero => cases enough
    | succ fuel =>
      have later := ih (fun other member => made other (List.mem_cons_of_mem _ member)) (pos+item.2.length) fuel
        (Nat.le_of_succ_le_succ enough)
      have some : item.2++rest.flatMap (·.2) ≠ [] := by simp [LongSeal.nonempty ok]
      rw [List.flatMap_cons,walkPeek,if_neg some,LongSeal.peeked ok known]
      dsimp only
      rw [List.drop_left' rfl,later]
      rfl

theorem walkOpen_starts {items : List (Call × List Byte)} (made : ∀ item ∈ items, item.1.Receives item.2) (pos : Nat) :
    walkOpen pos (items.map (·.1)) (items.flatMap (·.2)) = starts pos (items.map (·.2)) := by
  induction items generalizing pos with
  | nil => rfl
  | cons item rest ih =>
    obtain ⟨⟨room,ok⟩,small,near,fits⟩ := made item List.mem_cons_self
    have later := ih (fun other member => made other (List.mem_cons_of_mem _ member)) (pos+item.2.length)
    obtain ⟨result,byte0,after,opened,_,consumed,length,_⟩ := LongSeal.opened ok small near fits (rest.flatMap (·.2))
    have behind : (byte0::(after++rest.flatMap (·.2))).drop item.2.length = rest.flatMap (·.2) := by
      rw [← length,List.drop_succ_cons,List.drop_left' rfl]
    rw [List.flatMap_cons,List.map_cons,walkOpen,opened]
    dsimp only
    rw [consumed,behind,later]
    rfl

/-- A sealed packet has the size that was asked for, opens to what went in whatever follows it, and tells its length without
keys; both walks over a datagram visit the packets and nothing else; a failed open leaves the input as it was. -/
theorem sealed_packets_open :
    (∀ (s : LongSeal) room packet, s.sealing room = .ok packet → packet.length = max s.padTo s.unpadded ∧
      (s.version ≠ 0 → ∀ rest, peekPacketLen (packet++rest) = some packet.length) ∧
      ∀ largestReceived buffer, s.pn < 2^62 → InWindow s.pn s.pnLen largestReceived → packet.length ≤ buffer →
        ∀ rest, ∃ result src, s.opening buffer (packet++rest) largestReceived = (.ok result,src) ∧ s.Gives result ∧
          result.bytesConsumed = packet.length ∧ bitsAt 2 (src.headD 0) 6 = s.quicBit) ∧
    (∀ (opts : SealOptions) room, opts.ptLen ≤ ShortPacket.stagingLen → seal1Rtt opts room ≠ .ok none) ∧
    (∀ (opts : SealOptions) room packet, seal1Rtt opts room = .ok (some packet) →
      packet.length = max opts.padTo (1+opts.dcid.length+opts.pnLen+opts.plainLen+16) ∧
      ∀ largestReceived buffer, opts.pn < 2^62 → InWindow opts.pn opts.pnLen largestReceived → packet.length ≤ buffer →
        ∃ zeros, open1Rtt buffer packet {
          dcidLen := opts.dcid.length
          keys := opts.keys
          largestReceived := largestReceived
          multipathPathId := opts.multipathPathId} =
            .ok ⟨opts.pn,opts.keyPhase,opts.payload++List.replicate zeros 0,opts.reservedBits⟩) ∧
    (∀ items : List (LongSeal × List Byte),
      (∀ item ∈ items, item.1.version ≠ 0 ∧ ∃ room, item.1.sealing room = .ok item.2) → ∀ fuel ≥ items.length,
        walkPeek fuel 0 (items.flatMap (·.2)) = starts 0 (items.map (·.2))) ∧
    (∀ items : List (Call × List Byte), (∀ item ∈ items, item.1.Receives item.2) →
      walkOpen 0 (items.map (·.1)) (items.flatMap (·.2)) = starts 0 (items.map (·.2))) ∧
    ∀ room src keys largestReceived expectedType e,
      (openLongHeader room src keys largestReceived expectedType).1 = .error e →
        (openLongHeader room src keys largestReceived expectedType).2 = src := by
  refine ⟨?_,fun opts room staged => seal1Rtt_trap staged,?_,?_,?_,?_⟩
  · intro s room packet ok
    refine ⟨LongSeal.size ok,LongSeal.peeked ok,?_⟩
    intro largestReceived buffer small near fits rest
    obtain ⟨result,byte0,after,opened,gives,consumed,_,quic⟩ := LongSeal.opened ok small near fits rest
    exact ⟨result,_,opened,gives,consumed,quic⟩
  · intro opts room packet ok
    obtain ⟨sample,made⟩ := seal1Rtt_sealed ok
    refine ⟨made.size.trans (ptLen_total opts),?_⟩
    intro largestReceived buffer small near fits
    exact ⟨_,made.opens small near fits (fun known none => by cases none)⟩
  · intro items made fuel enough
    exact walkPeek_starts made 0 fuel enough
  · intro items made
    exact walkOpen_starts made 0
  · intro room src keys largestReceived expectedType e failed
    exact openLongHeader_restores failed

/-- An AEAD that hides nothing: the tag is sixteen zeros. -/
def plainAead : Aead where
  sealing _ _ plain := plain++List.replicate 16 0
  tryOpen room _ _ cipher :=
    if cipher.length ≤ room ∧ cipher.drop (cipher.length-16) = List.replicate 16 0 then some (cipher.take (cipher.length-16))
    else none
  tagged _ _ plain := by simp
  opens room _ _ plain fits := by
    have size : (plain++List.replicate 16 (0 : Byte)).length = plain.length+16 := by simp
    rw [size,Nat.add_sub_cancel,List.drop_left' rfl,List.take_left' rfl,if_pos ⟨fits,rfl⟩]

def plainKeys : PacketKeys where
  suite := .aes128GcmSha256
  iv := ⟨List.replicate 12 0,rfl⟩
  aead := plainAead
  headerProtectionMask sample := ⟨sample.bytes.take 5,by rw [List.length_take,sample.exact]; rfl⟩

/-- An Initial packet with one PING, a token of one byte and padding up to 64 bytes. -/
def paddedInitial : InitialSealOptions :=
  {dcid := [1,2],scid := [],token := [7],pn := 5,payload := [1],keys := plainKeys,padTo := 64,pnLengthOverride := some 2}

def pingPacket (opts : InitialSealOptions) : List Byte := ((sealInitial opts 64).toOption).getD []

theorem sealed_packets_open_padded : (pingPacket paddedInitial).length = 64 ∧
    peekPacketLen (pingPacket paddedInitial++[0x40,0]) = some 64 ∧
    ∃ result src, openInitial 64 (pingPacket paddedInitial++[0x40,0]) plainKeys 3 = (.ok result,src) ∧ result.pn = 5 := by
  obtain ⟨size,peek,opens⟩ := sealed_packets_open.1 (.initial paddedInitial) 64 (pingPacket paddedInitial) rfl
  have long : (pingPacket paddedInitial).length = 64 := size.trans rfl
  obtain ⟨result,src,opened,gives,_⟩ := opens 3 64 (by decide) ⟨by decide,by decide⟩ (by omega) [0x40,0]
  exact ⟨long,(peek (by decide) [0x40,0]).trans (congrArg some long),result,src,opened,gives.1⟩

/-- A packet of version 0 can be sealed and opened, but its first bytes read as a version negotiation. -/
theorem version_zero_unseen : ¬ ∀ (s : LongSeal) room packet, s.sealing room = .ok packet →
    ∀ rest, peekPacketLen (packet++rest) = some packet.length := by
  intro all
  have seen := all (.initial {paddedInitial with version := 0}) 64 (pingPacket {paddedInitial with version := 0}) rfl []
  revert seen
  decide

end QuicZig.Wire
