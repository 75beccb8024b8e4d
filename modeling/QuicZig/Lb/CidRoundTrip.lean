import Mathlib.Data.List.Nodup
import QuicZig.Lb.Cid

/-! What a balancer decodes is what the server minted, in each of the three modes. -/
namespace QuicZig.Lb.Cid
open Machine BigEndian Nonces
open FourPass (Block aesBlockSize)

/-- Decryption accepts the keys that encryption accepts and undoes it. -/
def Aes128.Inverts (aes : Aes128) : Prop := ∀ key encryptBlock, aes.init key = some encryptBlock →
  ∃ decryptBlock, aes.initDecrypt key = some decryptBlock ∧ ∀ b, decryptBlock (encryptBlock b) = b

structure LbConfig.Valid (cfg : LbConfig) : Prop where
  active : cfg.configId.val ≤ 6
  serverId : 1 ≤ cfg.serverId.length
  nonce : 4 ≤ cfg.nonceLen
  together : cfg.combined ≤ 19

/-- A factory as `init` leaves it and `mint` keeps it. -/
structure Factory.Ready (aes : Aes128) (factory : Factory) : Prop where
  validated : factory.cfg.validate = .ok ()
  keyed : ∀ key, factory.cfg.key = some key → aes.init key = factory.aes ∧ factory.aes ≠ none
  counted : factory.cfg.key ≠ none → ∃ counter, factory.nonceCounter = some counter ∧ counter.Sized ∧
    counter.nonceLen = factory.cfg.nonceLen

theorem validate_valid {self : LbConfig} (validated : self.validate = .ok ()) : self.Valid := by
  unfold LbConfig.validate at validated
  split at validated
  · cases validated
  · split at validated
    · cases validated
    · split at validated
      · cases validated
      · split at validated
        · cases validated
        · rename_i active serverId nonce together
          refine ⟨Nat.le_of_not_lt active,by omega,?_,Nat.le_of_not_lt together⟩
          unfold minNonceLen at nonce
          omega

theorem LbConfig.Valid.admitted {self : LbConfig} (valid : self.Valid) (other : self.combined ≠ 16) :
    FourPass.Admitted self.combined := by
  obtain ⟨-,serverId,nonce,together⟩ := valid
  refine ⟨?_,together,other⟩
  unfold LbConfig.combined
  omega

theorem LbConfig.cidLength_eq (self : LbConfig) : self.cidLength = self.combined+1 := by
  unfold LbConfig.cidLength LbConfig.combined
  omega

theorem init_ready {aes : Aes128} {cfg : LbConfig} {draw : Draw} {self : Factory}
    (built : Factory.init aes cfg draw = .ok self) :
    self.Ready aes ∧ self.cfg = cfg := by
  unfold Factory.init at built
  split at built
  · cases built
  · rename_i validated
    unfold Factory.initUnchecked at built
    split at built
    · rename_i plain
      cases built
      exact ⟨⟨validated,fun key keyed => absurd (plain.symm.trans keyed) nofun,fun keyed => absurd plain keyed⟩,rfl⟩
    · rename_i key keyed
      split at built
      · cases built
      · rename_i encryptBlock accepted
        split at built
        · cases built
        · rename_i counter drawn
          cases built
          refine ⟨⟨validated,fun other same => ?_,fun _ => ⟨counter,rfl,initRandom_sized drawn⟩⟩,rfl⟩
          cases keyed.symm.trans same
          exact ⟨accepted,nofun⟩

/-! ### The first octet -/

theorem octet_configId (c : Fin 8) (low : Byte) :
    firstOctetConfigId ((UInt8.ofNat c.val &&& 0x07) <<< 5 ||| (low &&& 0x1F)) = UInt8.ofNat c.val :=
  @every_byte (fun low => ∀ c : Fin 8, firstOctetConfigId ((UInt8.ofNat c.val &&& 0x07) <<< 5 ||| (low &&& 0x1F)) =
    UInt8.ofNat c.val)
    (by decide +kernel) low c

theorem composeFirstOctet_configId {self : Factory} {draw : Draw} {octet : Byte}
    (composed : self.composeFirstOctet draw = .ok octet) :
    firstOctetConfigId octet = UInt8.ofNat self.cfg.configId.val := by
  unfold Factory.composeFirstOctet at composed
  split at composed
  · cases composed
    exact octet_configId _ _
  · split at composed
    · cases composed
    · cases composed
      exact octet_configId _ _

theorem composeFirstOctet_ok {self : Factory} {draw : Draw} (random : self.cfg.encodeLength = true ∨ draw ≠ none) :
    ∃ octet, self.composeFirstOctet draw = .ok octet := by
  unfold Factory.composeFirstOctet
  split
  · exact ⟨_,rfl⟩
  · rename_i plain
    cases draw with
    | none => exact absurd rfl (random.resolve_left plain)
    | some draw => exact ⟨_,rfl⟩

/-! ### The body -/

theorem plaintextBlock_bytes (b : Block) : plaintextBlock b.bytes = some b := dif_pos b.size

/-- The three modes differ in what they make of the body. -/
structure Body (factory : Factory) (aes : Aes128) (nonce body : List Byte) : Prop where
  size : body.length = factory.cfg.combined
  plaintext : plaintextOf aes factory.cfg body = some (.ok (factory.cfg.serverId ++ nonce))

/-- A body behind the first octet. -/
def headed (self : Factory) (room : Nat) (draw : Draw) (body : List Byte) : Minted :=
  if room < self.cfg.cidLength then some (.error .bufferTooSmall)
  else
    match self.composeFirstOctet draw with
    | .error e => some (.error e)
    | .ok octet => some (.ok (octet::body))

theorem assemblePlaintext_eq {aes : Aes128} {self : Factory} (plain : self.cfg.key = none) (room : Nat) {nonce : List Byte}
    (sized : nonce.length = self.cfg.nonceLen) (draw : Draw) :
    ∃ body, self.assemblePlaintext room nonce draw = headed self room draw body ∧ Body self aes nonce body := by
  have size : (self.cfg.serverId ++ nonce).length = self.cfg.combined := by
    rw [List.length_append,sized]
    rfl
  refine ⟨self.cfg.serverId ++ nonce,rfl,size,?_⟩
  unfold plaintextOf
  rw [plain,← size,List.take_length]

theorem assembleSinglePass_eq {aes : Aes128} {self : Factory} {key : Key} (keyed : self.cfg.key = some key)
    {encryptBlock : Block → Block} (accepted : aes.init key = some encryptBlock) (held : self.aes = some encryptBlock) (single : self.cfg.combined = 16)
    (inverts : aes.Inverts) (room : Nat) {nonce : List Byte} (sized : nonce.length = self.cfg.nonceLen) (draw : Draw) :
    ∃ body, self.assembleSinglePass room nonce draw = headed self room draw body ∧ Body self aes nonce body := by
  have size : (self.cfg.serverId ++ nonce).length = aesBlockSize := by
    rw [List.length_append,sized]
    exact single
  have block : plaintextBlock (self.cfg.serverId ++ nonce) = some ⟨self.cfg.serverId ++ nonce,size⟩ := dif_pos size
  obtain ⟨decryptBlock,accepted,undoes⟩ := inverts key encryptBlock accepted
  refine ⟨(encryptBlock ⟨_,size⟩).bytes,?_,(encryptBlock _).size.trans single.symm,?_⟩
  · unfold Factory.assembleSinglePass headed
    cases self.composeFirstOctet draw <;> rw [block,held]
  · unfold plaintextOf
    rw [keyed]
    dsimp only
    rw [if_pos single,accepted]
    dsimp only
    rw [List.take_of_length_le (encryptBlock _).size.le,plaintextBlock_bytes,Option.map_some,undoes]

theorem assembleFourPass_eq {aes : Aes128} {self : Factory} {key : Key} (keyed : self.cfg.key = some key)
    {encryptBlock : Block → Block} (accepted : aes.init key = some encryptBlock) (held : self.aes = some encryptBlock)
    (admitted : FourPass.Admitted self.cfg.combined)
    (room : Nat) {nonce : List Byte} (sized : nonce.length = self.cfg.nonceLen) (draw : Draw) :
    ∃ body, self.assembleFourPass room nonce draw = headed self room draw body ∧ Body self aes nonce body := by
  have size : (self.cfg.serverId ++ nonce).length = self.cfg.combined := by
    rw [List.length_append,sized]
    rfl
  obtain ⟨ciphertext,encrypted,length,decrypted⟩ := FourPass.decrypt_encrypt encryptBlock (size.symm ▸ admitted)
  refine ⟨ciphertext,?_,length.trans size,?_⟩
  · unfold Factory.assembleFourPass headed
    cases self.composeFirstOctet draw <;> simp only [held,encrypted]
  · unfold plaintextOf
    rw [keyed]
    dsimp only
    rw [if_neg admitted.2.2,accepted]
    dsimp only
    rw [List.take_of_length_le (length.trans size).le,decrypted]

/-- In its mode, an `assemble` puts the first octet before a body that decodes. -/
theorem mintWithNonce_eq {aes : Aes128} {self : Factory} (ready : self.Ready aes)
    (inverts : modeForConfig self.cfg = .aesSinglePass → aes.Inverts) (room : Nat) {nonce : List Byte}
    (sized : nonce.length = self.cfg.nonceLen) (draw : Draw) :
    ∃ body, self.mintWithNonce room nonce draw = headed self room draw body ∧ Body self aes nonce body := by
  unfold Factory.mintWithNonce
  rw [if_neg (not_not_intro sized)]
  unfold modeForConfig at inverts ⊢
  cases keyed : self.cfg.key with
  | none =>
    rw [if_pos rfl]
    exact assemblePlaintext_eq keyed room sized draw
  | some key =>
    rw [keyed,if_neg nofun] at inverts
    rw [if_neg nofun]
    obtain ⟨accepted,present⟩ := ready.keyed key keyed
    obtain ⟨encryptBlock,held⟩ := Option.ne_none_iff_exists'.mp present
    by_cases single : self.cfg.combined = 16
    · rw [if_pos single] at inverts ⊢
      exact assembleSinglePass_eq keyed (accepted.trans held) held single (inverts rfl) room sized draw
    · rw [if_neg single]
      exact assembleFourPass_eq keyed (accepted.trans held) held ((validate_valid ready.validated).admitted single)
        room sized draw

theorem decode_headed {aes : Aes128} {self : Factory} (validated : self.cfg.validate = .ok ()) {draw : Draw} {octet : Byte}
    (composed : self.composeFirstOctet draw = .ok octet) {nonce body : List Byte} (sized : nonce.length = self.cfg.nonceLen)
    (behind : Body self aes nonce body) :
    decode aes (octet::body) self.cfg = some (.ok ⟨UInt8.ofNat self.cfg.configId.val,self.cfg.serverId,nonce⟩) := by
  obtain ⟨size,plaintext⟩ := behind
  have active : (UInt8.ofNat self.cfg.configId.val).toNat ≠ unroutableConfigId := by
    rw [UInt8.toNat_ofNat_of_lt' (self.cfg.configId.isLt.trans (by decide))]
    exact ((validate_valid validated).active.trans_lt (Nat.lt_succ_self 6)).ne
  unfold decode
  rw [validated]
  dsimp only
  rw [if_neg (by rw [List.length_cons,size,LbConfig.cidLength_eq]; exact Nat.lt_irrefl _),List.getD_cons_zero,
    composeFirstOctet_configId composed,if_neg active,List.drop_one,List.tail_cons,plaintext]
  dsimp only
  have together : (self.cfg.serverId ++ nonce).length = self.cfg.combined := by
    rw [List.length_append,sized]
    rfl
  rw [List.take_left,List.take_of_length_le together.le,List.drop_left]

/-- An id is minted where there is room for it and its random bits are drawn. -/
theorem headed_ok {self : Factory} {room : Nat} (fits : self.cfg.cidLength ≤ room) {draw : Draw}
    (random : self.cfg.encodeLength = true ∨ draw ≠ none) (body : List Byte) :
    ∃ octet, headed self room draw body = some (.ok (octet::body)) := by
  obtain ⟨octet,composed⟩ := composeFirstOctet_ok random
  refine ⟨octet,?_⟩
  unfold headed
  rw [if_neg (Nat.not_lt_of_le fits),composed]

theorem headed_eq_ok {self : Factory} {room : Nat} {draw : Draw} {body cid : List Byte}
    (minted : headed self room draw body = some (.ok cid)) :
    ∃ octet, self.composeFirstOctet draw = .ok octet ∧ cid = octet::body := by
  unfold headed at minted
  split at minted
  · cases minted
  · split at minted
    · cases minted
    · rename_i octet composed
      cases minted
      exact ⟨octet,composed,rfl⟩

theorem headed_returns (self : Factory) (room : Nat) (draw : Draw) (body : List Byte) :
    headed self room draw body ≠ none := by
  unfold headed
  split
  · exact nofun
  · split
    · exact nofun
    · exact nofun

theorem decode_mintWithNonce {aes : Aes128} {self : Factory} (ready : self.Ready aes)
    (inverts : modeForConfig self.cfg = .aesSinglePass → aes.Inverts) {room : Nat} {nonce : List Byte}
    (sized : nonce.length = self.cfg.nonceLen) {draw : Draw} {cid : List Byte}
    (minted : self.mintWithNonce room nonce draw = some (.ok cid)) :
    cid.length = self.cfg.cidLength ∧
      decode aes cid self.cfg = some (.ok ⟨UInt8.ofNat self.cfg.configId.val,self.cfg.serverId,nonce⟩) := by
  obtain ⟨body,same,behind⟩ := mintWithNonce_eq ready inverts room sized draw
  obtain ⟨octet,composed,rfl⟩ := headed_eq_ok (same ▸ minted)
  refine ⟨?_,decode_headed ready.validated composed sized behind⟩
  rw [List.length_cons,behind.size,LbConfig.cidLength_eq]

/-! ### Runs of `mint` -/

def Factory.mints : Factory → List (Nat × Draws) → List (List Byte)
  | _,[] => []
  | self,(room,draws)::calls =>
    match self.mint room draws with
    | (some (.ok cid),self) => cid::self.mints calls
    | (_,self) => self.mints calls

theorem mint_counted {aes : Aes128} {self : Factory} (ready : self.Ready aes) (keyed : self.cfg.key ≠ none)
    (room : Nat) (draws : Draws) :
    ∃ counter, self.nonceCounter = some counter ∧ counter.Sized ∧ counter.nonceLen = self.cfg.nonceLen ∧
      ((∃ e, next counter = .error e ∧ self.mint room draws = (some (.error .nonceExhausted),self)) ∨
        ∃ nonce after, next counter = .ok (nonce,after) ∧
          self.mint room draws = ({self with nonceCounter := some after}.mintWithNonce room nonce draws.octet,
            {self with nonceCounter := some after})) := by
  obtain ⟨counter,held,sized,len⟩ := ready.counted keyed
  refine ⟨counter,held,sized,len,?_⟩
  have mode : modeForConfig self.cfg = .aesSinglePass ∨ modeForConfig self.cfg = .aesFourPass := by
    unfold modeForConfig
    rw [if_neg keyed]
    split
    · exact .inl rfl
    · exact .inr rfl
  cases drawn : next counter with
  | error e =>
    have counted (assemble : Factory → Nat → List Byte → Draw → Minted) :
        self.mintCounted assemble room draws = (some (.error .nonceExhausted),self) := by
      unfold Factory.mintCounted
      rw [held]
      dsimp only
      rw [drawn]
    refine .inl ⟨e,rfl,?_⟩
    unfold Factory.mint Factory.mintSinglePass Factory.mintFourPass
    rw [counted,counted]
    rcases mode with mode | mode
    · rw [mode]
    · rw [mode]
  | ok out =>
    obtain ⟨nonce,after⟩ := out
    have counted (assemble : Factory → Nat → List Byte → Draw → Minted) : self.mintCounted assemble room draws =
        (assemble {self with nonceCounter := some after} room nonce draws.octet,{self with nonceCounter := some after}) := by
      unfold Factory.mintCounted
      rw [held]
      dsimp only
      rw [drawn]
    have size := (next_spec sized drawn).2.2.1.trans len
    refine .inr ⟨nonce,after,rfl,?_⟩
    unfold Factory.mint Factory.mintWithNonce Factory.mintSinglePass Factory.mintFourPass
    rw [counted,counted,if_neg (not_not_intro size)]
    rcases mode with mode | mode
    · rw [mode]
    · rw [mode]

theorem Factory.Ready.counts {aes : Aes128} {self : Factory} (ready : self.Ready aes) {counter after : NonceCounter}
    (sized : counter.Sized) (len : counter.nonceLen = self.cfg.nonceLen) {nonce : List Byte}
    (drawn : next counter = .ok (nonce,after)) : Factory.Ready aes {self with nonceCounter := some after} :=
  have kept := next_spec sized drawn
  ⟨ready.validated,ready.keyed,fun _ => ⟨after,rfl,kept.1,kept.2.1.trans len⟩⟩

theorem mint_returns {aes : Aes128} {self : Factory} (ready : self.Ready aes)
    (inverts : modeForConfig self.cfg = .aesSinglePass → aes.Inverts) (room : Nat) (draws : Draws) :
    (self.mint room draws).1 ≠ none := by
  cases keyed : self.cfg.key with
  | none =>
    have mode : modeForConfig self.cfg = .plaintext := if_pos keyed
    unfold Factory.mint Factory.mintPlaintext
    rw [mode]
    dsimp only
    split
    · exact nofun
    · rename_i draw _
      obtain ⟨body,same,-⟩ := @assemblePlaintext_eq aes self keyed room _ (length_fillBytes draw _) draws.octet
      rw [same]
      exact headed_returns _ _ _ _
  | some key =>
    obtain ⟨counter,held,sized,len,⟨e,-,minted⟩ | ⟨nonce,after,drawn,minted⟩⟩ :=
      mint_counted ready (keyed ▸ nofun) room draws
    · rw [minted]
      exact nofun
    · rw [minted]
      have ready' := ready.counts sized len drawn
      obtain ⟨body,same,-⟩ := mintWithNonce_eq ready' inverts room ((next_spec sized drawn).2.2.1.trans len) draws.octet
      rw [same]
      exact headed_returns _ _ _ _

theorem mints_decode {aes : Aes128} {self : Factory} (ready : self.Ready aes) (keyed : self.cfg.key ≠ none)
    (inverts : modeForConfig self.cfg = .aesSinglePass → aes.Inverts) {counter : NonceCounter}
    (held : self.nonceCounter = some counter) (calls : List (Nat × Draws)) :
    ∃ nonces : List (List Byte), nonces.Sublist (yields calls.length counter) ∧
      (self.mints calls).map (fun cid => decode aes cid self.cfg) =
        nonces.map fun nonce => some (.ok ⟨UInt8.ofNat self.cfg.configId.val,self.cfg.serverId,nonce⟩) := by
  induction calls generalizing self counter with
  | nil => exact ⟨[],List.Sublist.refl _,rfl⟩
  | cons call calls ih =>
    obtain ⟨room,draws⟩ := call
    obtain ⟨counter',held',sized,len,⟨e,drawn,minted⟩ | ⟨nonce,after,drawn,minted⟩⟩ := mint_counted ready keyed room draws
    · cases held.symm.trans held'
      obtain ⟨nonces,sub,same⟩ := ih ready keyed inverts held
      refine ⟨nonces,?_,?_⟩
      · rw [List.length_cons,yields,drawn]
        exact sub
      · unfold Factory.mints
        rw [minted]
        exact same
    · cases held.symm.trans held'
      have size := (next_spec sized drawn).2.2.1.trans len
      have ready' := ready.counts sized len drawn
      obtain ⟨nonces,sub,same⟩ := ih ready' keyed inverts rfl
      have skips : ∃ nonces : List (List Byte), nonces.Sublist (nonce::yields calls.length after) ∧
          ({self with nonceCounter := some after}.mints calls).map (fun cid => decode aes cid self.cfg) =
            nonces.map fun nonce => some (.ok ⟨UInt8.ofNat self.cfg.configId.val,self.cfg.serverId,nonce⟩) :=
        ⟨nonces,sub.cons nonce,same⟩
      rw [List.length_cons]
      unfold yields Factory.mints
      rw [drawn,minted]
      dsimp only
      cases out : Factory.mintWithNonce {self with nonceCounter := some after} room nonce draws.octet with
      | none => exact skips
      | some result =>
        cases result with
        | error e => exact skips
        | ok cid =>
          refine ⟨nonce::nonces,sub.cons_cons nonce,?_⟩
          rw [List.map_cons,List.map_cons,(decode_mintWithNonce ready' inverts size out).2]
          exact congrArg _ same

/-- A factory of a valid configuration: what is minted for a nonce decodes to the configured ids and that nonce, the passes
undo one another in both orders, distinct nonces have distinct ids, and no run of `mint` under a key repeats an id. -/
theorem minted_ids {aes : Aes128} {cfg : LbConfig} {draw : Draw} {factory : Factory}
    (built : Factory.init aes cfg draw = .ok factory)
    (inverts : modeForConfig cfg = .aesSinglePass → aes.Inverts) :
    (∀ room nonce draw, nonce.length = cfg.nonceLen → cfg.cidLength ≤ room → (cfg.encodeLength = true ∨ draw ≠ none) →
      ∃ cid, factory.mintWithNonce room nonce draw = some (.ok cid) ∧ cid.length = cfg.cidLength ∧
        decode aes cid cfg = some (.ok ⟨UInt8.ofNat cfg.configId.val,cfg.serverId,nonce⟩)) ∧
    (∀ encryptBlock input, input.length = cfg.combined → cfg.combined ≠ 16 →
      (∃ out, FourPass.encrypt encryptBlock input = .ok out ∧ FourPass.decrypt encryptBlock out = .ok input) ∧
        ∃ out, FourPass.decrypt encryptBlock input = .ok out ∧ FourPass.encrypt encryptBlock out = .ok input) ∧
    (∀ room room' nonce nonce' draw draw' cid cid', nonce.length = cfg.nonceLen → nonce'.length = cfg.nonceLen →
    nonce ≠ nonce' →
      factory.mintWithNonce room nonce draw = some (.ok cid) → factory.mintWithNonce room' nonce' draw' = some (.ok cid') →
        cid ≠ cid') ∧
    (cfg.key ≠ none → ∀ calls, (factory.mints calls).Nodup ∧ ∀ cid ∈ factory.mints calls,
      ∃ nonce, decode aes cid cfg = some (.ok ⟨UInt8.ofNat cfg.configId.val,cfg.serverId,nonce⟩)) ∧
    ∀ counter : NonceCounter, counter.Sized → ∀ calls, (yields calls counter).Nodup := by
  obtain ⟨ready,same⟩ := init_ready built
  subst same
  refine ⟨fun room nonce draw sized fits random => ?_,fun encryptBlock input length other => ?_,?_,fun keyed calls => ?_,
    fun counter sized calls => (yields_from calls sized).2⟩
  · obtain ⟨body,same,-⟩ := mintWithNonce_eq ready inverts room sized draw
    obtain ⟨octet,minted⟩ := headed_ok fits random body
    have minted := same.trans minted
    exact ⟨_,minted,decode_mintWithNonce ready inverts sized minted⟩
  · have admitted := length.symm ▸ (validate_valid ready.validated).admitted other
    obtain ⟨ciphertext,encrypted,-,back⟩ := FourPass.decrypt_encrypt encryptBlock admitted
    obtain ⟨plaintext,decrypted,-,forth⟩ := FourPass.encrypt_decrypt encryptBlock admitted
    exact ⟨⟨ciphertext,encrypted,back⟩,plaintext,decrypted,forth⟩
  · intro room room' nonce nonce' draw draw' cid cid' sized sized' distinct minted minted' equal
    have first := (decode_mintWithNonce ready inverts sized minted).2
    have second := (decode_mintWithNonce ready inverts sized' minted').2
    rw [equal,second] at first
    cases first
    exact distinct rfl
  · obtain ⟨counter,held,sized,-⟩ := ready.counted keyed
    obtain ⟨nonces,sub,decoded⟩ := mints_decode ready keyed inverts held calls
    have apart : nonces.Nodup := sub.nodup (yields_from calls.length sized).2
    constructor
    · apply List.Nodup.of_map fun cid => decode aes cid factory.cfg
      rw [decoded]
      apply apart.map
      intro nonce nonce' equal
      cases equal
      rfl
    · intro cid there
      have there := List.mem_map_of_mem (f := fun cid => decode aes cid factory.cfg) there
      rw [decoded] at there
      obtain ⟨nonce,-,equal⟩ := List.mem_map.mp there
      exact ⟨nonce,equal.symm⟩

def knownKey : Key := ⟨[0x8f,0x95,0xf0,0x92,0x45,0x76,0x5f,0x80,0x25,0x69,0x34,0xe5,0x0c,0x66,0x20,0x7f],rfl⟩

def knownServerId : List Byte := [0xed,0x79,0x3a,0x51,0xd4,0x9b,0x8f,0x5f]

def knownNonce : List Byte := [0xee,0x08,0x0d,0xbf,0x48,0xc0,0xd1,0xe5]

def knownBody : Block := ⟨[0x4d,0xd2,0xd0,0x5a,0x7b,0x0d,0xe9,0xb2,0xb9,0x90,0x7a,0xfb,0x5e,0xcf,0x8c,0xc3],rfl⟩

def knownBlock (b : Block) : Block :=
  if b = ⟨knownServerId ++ knownNonce,rfl⟩ then knownBody else if b = knownBody then ⟨knownServerId ++ knownNonce,rfl⟩ else b

def knownAes : Aes128 where
  init _ := some knownBlock
  initDecrypt _ := some knownBlock

def knownConfig : LbConfig where
  configId := 2
  serverId := knownServerId
  nonceLen := 8
  key := some knownKey

theorem knownBlock_knownBlock (b : Block) : knownBlock (knownBlock b) = b := by
  unfold knownBlock
  split_ifs with first second third <;> simp_all [knownBody,knownServerId,knownNonce]

theorem knownAes_inverts : knownAes.Inverts := by
  intro key encryptBlock accepted
  cases accepted
  exact ⟨knownBlock,rfl,knownBlock_knownBlock⟩

/-- The known answer of the single pass. -/
theorem minted_ids_known : ∃ factory, Factory.init knownAes knownConfig (some fun _ => 0) = .ok factory ∧
    factory.mintWithNonce 17 knownNonce none = some (.ok (0x50::knownBody.bytes)) ∧
    decode knownAes (0x50::knownBody.bytes) knownConfig = some (.ok ⟨2,knownServerId,knownNonce⟩) := by
  have built : ∃ factory, Factory.init knownAes knownConfig (some fun _ => 0) = .ok factory := ⟨_,rfl⟩
  obtain ⟨factory,built⟩ := built
  obtain ⟨cid,minted,-,decoded⟩ := (minted_ids built fun _ => knownAes_inverts).1 17 knownNonce none rfl (by decide)
    (.inl rfl)
  have answer : some (.ok cid) = (some (.ok (0x50::knownBody.bytes)) : Minted) := by
    rw [← minted]
    cases built
    rfl
  cases answer
  exact ⟨factory,built,minted,decoded⟩

end QuicZig.Lb.Cid
