import QuicZig.Tls.Values

/-! Decoding a blob is reading distinct, well-formed triples; encoding writes
such triples, and reading them gives the parameters back. -/
namespace QuicZig.Tls.TransportParams
open Machine BigEndian Codec Wire

/-- The mask and the list hold the ids of the triples read so far. -/
structure Seen (done : List Triple) (seenKnown : Nat) (seenUnknown : List Nat) : Prop where
  known : ∀ k : Known, seenKnown.testBit k.bit = true ↔ k.id ∈ done.map Triple.id
  unknown : ∀ id, Known.ofId id = none → (id ∈ seenUnknown ↔ id ∈ done.map Triple.id)

theorem mask_bit (mask bit : Nat) : mask &&& (1 <<< bit) ≠ 0 ↔ mask.testBit bit = true := by
  rw [Nat.one_shiftLeft,Nat.and_two_pow]
  cases mask.testBit bit <;> simp

theorem Seen.known_next {done : List Triple} {seenKnown : Nat} {seenUnknown : List Nat} {t : Triple} {k : Known}
    (seen : Seen done seenKnown seenUnknown) (known : Known.ofId t.id = some k) :
    Seen (t::done) (seenKnown ||| (1 <<< k.bit)) seenUnknown := by
  have named := ofId_some known
  constructor
  · intro j
    rw [Nat.testBit_or,Nat.one_shiftLeft,Nat.testBit_two_pow,Bool.or_eq_true,seen.known j,List.map_cons,List.mem_cons,
      decide_eq_true_eq,or_comm]
    apply or_congr_left
    constructor
    · intro same
      rw [← bit_injective same,named]
    · intro same
      rw [← named] at same
      have again := congrArg Known.ofId same
      rw [ofId_id,ofId_id] at again
      rw [Option.some.inj again]
  · intro id unknown
    rw [seen.unknown id unknown,List.map_cons,List.mem_cons]
    have other : id ≠ t.id := by
      intro same
      rw [same,known] at unknown
      cases unknown
    simp [other]

theorem Seen.unknown_next {done : List Triple} {seenKnown : Nat} {seenUnknown : List Nat} {t : Triple}
    (seen : Seen done seenKnown seenUnknown) (unknown : Known.ofId t.id = none) :
    Seen (t::done) seenKnown (seenUnknown ++ [t.id]) := by
  constructor
  · intro j
    rw [seen.known j,List.map_cons,List.mem_cons]
    simp [ofId_none unknown j]
  · intro id other
    rw [List.mem_append,seen.unknown id other,List.mem_singleton,List.map_cons,List.mem_cons,or_comm]

theorem loop_next {done : List Triple} {seenKnown : Nat} {seenUnknown : List Nat} {t : Triple} {src rest : List Byte}
    (seen : Seen done seenKnown seenUnknown) (some : src ≠ []) (read : readTriple src = .ok (t,rest)) (budget : Nat)
    (p : Params) :
    ∃ seenKnown' seenUnknown', Seen (t::done) seenKnown' seenUnknown' ∧
      decodeLoop (budget+1) p seenKnown seenUnknown src =
        if t.id ∈ done.map Triple.id then .error .duplicateParameter
        else
          match setOne p t.id t.value with
          | .error e => .error e
          | .ok p' => decodeLoop budget p' seenKnown' seenUnknown' rest := by
  cases src with
  | nil => exact absurd rfl some
  | cons first tail =>
    rw [decodeLoop,read]
    dsimp only
    cases known : Known.ofId t.id with
    | none =>
      refine ⟨_,_,seen.unknown_next known,?_⟩
      have listed := seen.unknown t.id known
      by_cases twice : t.id ∈ done.map Triple.id
      · rw [if_pos twice]
        exact if_pos (listed.mpr twice)
      · rw [if_neg twice]
        exact if_neg fun there => twice (listed.mp there)
    | some k =>
      refine ⟨_,_,seen.known_next known,?_⟩
      have listed := (mask_bit seenKnown k.bit).trans (seen.known k)
      rw [ofId_some known] at listed
      by_cases twice : t.id ∈ done.map Triple.id
      · rw [if_pos twice]
        exact if_pos (listed.mpr twice)
      · rw [if_neg twice]
        exact if_neg fun there => twice (listed.mp there)

/-- The loop accepts the triples that are few, distinct and well formed, and nothing else. -/
theorem loop_spells {triples : List Triple} {src : List Byte} (spells : SpellsTriples triples src) {done : List Triple}
    {seenKnown budget : Nat} {seenUnknown : List Nat} (seen : Seen done seenKnown seenUnknown) (p : Params) :
    decodeLoop budget (assemble (valuesOf done)) seenKnown seenUnknown src = .ok p ↔
      triples.length ≤ budget ∧ (triples.map Triple.id).Nodup ∧ (∀ t ∈ triples, t.id ∉ done.map Triple.id) ∧
        (∀ t ∈ triples, ValidTriple t) ∧ p = assemble (valuesOf (triples.reverse ++ done)) := by
  induction spells generalizing done seenKnown budget seenUnknown with
  | nil =>
    rw [decodeLoop]
    simp [eq_comm]
  | @cons t triples first later spellsFirst rest ih =>
    have some : first ++ later ≠ [] := by
      intro none
      exact spellsFirst.ne_nil (List.append_eq_nil_iff.mp none).1
    cases budget with
    | zero =>
      cases src : first ++ later with
      | nil => exact absurd src some
      | cons b more => simp [decodeLoop]
    | succ budget =>
      obtain ⟨seenKnown',seenUnknown',next,turn⟩ := loop_next seen some (spellsFirst.reads later trivial) budget
        (assemble (valuesOf done))
      rw [turn]
      by_cases repeated : t.id ∈ done.map Triple.id
      · rw [if_pos repeated]
        constructor
        · nofun
        · intro accepted
          exact absurd repeated (accepted.2.2.1 t List.mem_cons_self)
      · rw [if_neg repeated]
        cases set : setOne (assemble (valuesOf done)) t.id t.value with
        | error e =>
          constructor
          · nofun
          · intro accepted
            obtain ⟨p',taken⟩ := (setOne_valid (assemble (valuesOf done)) t).mpr (accepted.2.2.2.1 t List.mem_cons_self)
            rw [set] at taken
            cases taken
        | ok p' =>
          have valid := (setOne_valid _ t).mp ⟨p',set⟩
          rw [setOne_assemble set]
          dsimp only
          rw [ih next]
          have order : (t::triples).reverse ++ done = triples.reverse ++ (t::done) := by simp
          simp only [order,List.length_cons,List.map_cons,List.nodup_cons,List.mem_cons,not_or,forall_eq_or_imp,List.mem_map]
          grind

theorem loop_reads {src : List Byte} {budget seenKnown : Nat} {seenUnknown : List Nat} {p p' : Params}
    (ok : decodeLoop budget p seenKnown seenUnknown src = .ok p') : ∃ triples, SpellsTriples triples src := by
  induction budget generalizing src p seenKnown seenUnknown with
  | zero =>
    cases src with
    | nil => exact ⟨[],.nil⟩
    | cons first tail => cases ok
  | succ budget ih =>
    cases src with
    | nil => exact ⟨[],.nil⟩
    | cons first tail =>
      rw [decodeLoop] at ok
      split at ok
      · cases ok
      rename_i t rest read
      obtain ⟨used,whole,spells⟩ := accepts_triple _ _ _ read
      have later : ∃ triples, SpellsTriples triples rest := by
        split at ok
        · split at ok
          · cases ok
          split at ok
          · cases ok
          exact ih ok
        · split at ok
          · cases ok
          split at ok
          · cases ok
          exact ih ok
      obtain ⟨triples,spellsRest⟩ := later
      rw [whole]
      exact ⟨t::triples,.cons spells spellsRest⟩

theorem decode_iff (src : List Byte) (p : Params) : decode src = .ok p ↔ ∃ triples, SpellsTriples triples src ∧
    triples.length ≤ maxTransportParameters ∧ (triples.map Triple.id).Nodup ∧ (∀ t ∈ triples, ValidTriple t) ∧
      p = assemble (valuesOf triples) := by
  have empty : Seen [] 0 [] := ⟨by simp,by simp⟩
  have reversed (triples : List Triple) (distinct : (triples.map Triple.id).Nodup) :
      valuesOf triples = valuesOf (triples.reverse ++ []) := by
    rw [List.append_nil]
    exact valuesOf_congr distinct ((List.reverse_perm triples).symm.filter _)
  unfold decode
  change decodeLoop maxTransportParameters (assemble (valuesOf [])) 0 [] src = .ok p ↔ _
  constructor
  · intro ok
    obtain ⟨triples,spells⟩ := loop_reads ok
    obtain ⟨few,distinct,_,valid,made⟩ := (loop_spells spells empty p).mp ok
    exact ⟨triples,spells,few,distinct,valid,by rw [made,← reversed triples distinct]⟩
  · intro accepted
    obtain ⟨triples,spells,few,distinct,valid,rfl⟩ := accepted
    exact (loop_spells spells empty _).mpr ⟨few,distinct,by simp,valid,by rw [← reversed triples distinct]⟩

/-- The value that `emit` writes for a parameter. -/
def emitted (p : Params) (k : Known) : Option (List Byte) := (p.shape k).map Shape.value

structure InBounds (p : Params) : Prop where
  ackDelayExponent : p.ackDelayExponent ≤ 20
  maxAckDelay : p.maxAckDelayMs < 2^14
  activeConnectionIdLimit : 2 ≤ p.activeConnectionIdLimit

/-- Every number that `emit` writes fits a varint. -/
def VarintsFit (p : Params) : Prop := ∀ k v, p.shape k = some (.varintParam v) → v ≤ Varint.maxValue

section Fields
variable {p : Params} {k : Known} {α : Type} {parse : List Byte → Except Error α}

theorem field_emitIf [DecidableEq α] {shape : Shape} {v default : α} (here : p.shape k = emitIf (v ≠ default) shape)
    (back : p.shape k = some shape → parse shape.value = .ok v) : (field (emitted p) k parse).getD default = v := by
  unfold field emitted
  unfold emitIf at here
  by_cases same : v = default
  · rw [here,same]
    simp
  · have present : p.shape k = some shape := by simpa [same] using here
    rw [present]
    simp [back present,Except.toOption]

theorem field_map {o : Option α} {shape : α → Shape} (here : p.shape k = o.map shape)
    (back : ∀ a, p.shape k = some (shape a) → parse (shape a).value = .ok a) : field (emitted p) k parse = o := by
  unfold field emitted
  cases o with
  | none =>
    rw [here]
    rfl
  | some a =>
    rw [here]
    simp [back a here,Except.toOption]

theorem field_flag {b : Bool} (here : p.shape k = emitIf b .flag) : (field (emitted p) k flagOf).getD false = b := by
  unfold field emitted
  rw [here]
  cases b <;> rfl

theorem parse_varint {v : Nat} (fits : VarintsFit p) (here : p.shape k = some (.varintParam v)) :
    decodeVarintValue (Shape.value (.varintParam v)) = .ok v :=
  decodeVarintValue_ok.mpr (Varint.emits_minimal v (fits k v here)).2.1

theorem parse_bounded {v : Nat} {bound : Nat → Bool} (fits : VarintsFit p) (here : p.shape k = some (.varintParam v))
    (holds : bound v = true) : boundedOf bound (Shape.value (.varintParam v)) = .ok v :=
  boundedOf_ok.mpr ⟨(Varint.emits_minimal v (fits k v here)).2.1,holds⟩

theorem field_versions (p : Params) : (field (emitted p) .versionInformation versionsOf).getD {} = p.compatibleVersions := by
  unfold field emitted
  rw [Params.shape]
  by_cases none : p.compatibleVersions.list = []
  · rw [none]
    exact CompatibleVersions.ext none.symm
  · have positive := List.length_pos_of_ne_nil none
    have length := length_versionBytes p.compatibleVersions.list
    have some : versionBytes p.compatibleVersions.list ≠ [] := by
      intro empty
      rw [empty,List.length_nil] at length
      omega
    have parsed : versionsOf (versionBytes p.compatibleVersions.list) = .ok p.compatibleVersions :=
      versionsOf_ok.mpr ⟨some,rfl⟩
    simp [emitIf,positive,Shape.value,parsed,Except.toOption]

theorem field_pathId (fits : VarintsFit p) :
    (field (emitted p) .initialMaxPathId (boundedOf (· ≤ maxU32))).map UInt32.ofNat = p.initialMaxPathId := by
  have back : field (emitted p) .initialMaxPathId (boundedOf (· ≤ maxU32)) = p.initialMaxPathId.map UInt32.toNat := by
    cases here : p.initialMaxPathId with
    | none =>
      unfold field emitted
      rw [Params.shape,here]
      rfl
    | some m =>
      have shape : p.shape .initialMaxPathId = some (.varintParam m.toNat) := by
        rw [Params.shape,here]
        rfl
      have small : m.toNat ≤ maxU32 := by
        have bound := m.toNat_lt
        unfold maxU32
        omega
      have parsed : boundedOf (· ≤ maxU32) (Shape.value (.varintParam m.toNat)) = .ok m.toNat :=
        parse_bounded fits shape (by simpa using small)
      unfold field emitted
      rw [shape]
      simp [parsed,Except.toOption]
  rw [back,Option.map_map]
  simp [Function.comp_def]

end Fields

theorem assemble_emitted (p : Params) (bounds : InBounds p) (fits : VarintsFit p) : assemble (emitted p) = p := by
  have varint {k : Known} {v default : Nat} (here : p.shape k = emitIf (v ≠ default) (.varintParam v)) :
      (field (emitted p) k decodeVarintValue).getD default = v := field_emitIf here (parse_varint fits)
  have cid {k : Known} {o : Option ConnId} (here : p.shape k = o.map fun cid => .bytesParam cid.bytes) :
      field (emitted p) k cidOf = o := field_map here (fun cid _ => cidOf_ok.mpr rfl)
  apply Params.ext
  · exact cid rfl
  · exact varint rfl
  · exact field_map rfl (fun token _ => tokenOf_ok.mpr rfl)
  · exact varint rfl
  · exact varint rfl
  · exact varint rfl
  · exact varint rfl
  · exact varint rfl
  · exact varint rfl
  · exact varint rfl
  · exact field_emitIf rfl (fun here => parse_bounded fits here (by simpa using bounds.ackDelayExponent))
  · exact field_emitIf rfl (fun here => parse_bounded fits here (by simpa using bounds.maxAckDelay))
  · exact field_flag rfl
  · exact field_map rfl (fun addr _ => decodePreferredAddress_ok.mpr rfl)
  · exact field_emitIf rfl (fun here => parse_bounded fits here (by simpa using bounds.activeConnectionIdLimit))
  · exact cid rfl
  · exact cid rfl
  · exact field_versions p
  · exact varint rfl
  · exact field_map rfl (fun v here => parse_varint fits here)
  · exact field_flag rfl
  · exact field_pathId fits
  · exact field_flag rfl

theorem mem_emit {p : Params} {k : Known} {shape : Shape} : (k,shape) ∈ p.emit ↔ p.shape k = some shape := by
  have member : k ∈ emitOrder := by
    cases k <;> decide
  unfold Params.emit
  simp only [List.mem_filterMap,Option.map_eq_some_iff,Prod.mk.injEq]
  constructor
  · intro found
    obtain ⟨j,_,other,here,rfl,rfl⟩ := found
    exact here
  · intro here
    exact ⟨k,member,shape,here,rfl,rfl⟩

theorem emit_sublist (p : Params) : (p.emit.map Prod.fst).Sublist emitOrder := by
  unfold Params.emit
  induction emitOrder with
  | nil => exact List.Sublist.slnil
  | cons k rest ih =>
    cases here : p.shape k with
    | none =>
      rw [List.filterMap_cons_none (by simp [here])]
      exact ih.cons k
    | some shape =>
      rw [List.filterMap_cons_some (b := (k,shape)) (by simp [here]),List.map_cons]
      exact ih.cons_cons k

theorem emit_few (p : Params) : (p.emit.map tripleOf).length ≤ maxTransportParameters := by
  have few := (emit_sublist p).length_le
  have all : emitOrder.length ≤ maxTransportParameters := by decide
  rw [List.length_map] at few ⊢
  exact Nat.le_trans few all

theorem emit_distinct (p : Params) : ((p.emit.map tripleOf).map Triple.id).Nodup := by
  have keys : (p.emit.map Prod.fst).Nodup := (emit_sublist p).nodup (by decide)
  have ids : (p.emit.map tripleOf).map Triple.id = (p.emit.map Prod.fst).map Known.id := by
    rw [List.map_map,List.map_map]
    rfl
  rw [ids]
  apply keys.map
  intro j k same
  have again := congrArg Known.ofId same
  rw [ofId_id,ofId_id] at again
  exact Option.some.inj again

theorem valuesOf_emit (p : Params) : valuesOf (p.emit.map tripleOf) = emitted p := by
  funext k
  apply Option.ext
  intro value
  rw [valuesOf_some (emit_distinct p),emitted,Option.map_eq_some_iff,List.mem_map]
  constructor
  · intro found
    obtain ⟨⟨j,shape⟩,member,made⟩ := found
    obtain ⟨ids,carried⟩ := Triple.mk.inj made
    have again := congrArg Known.ofId ids
    rw [ofId_id,ofId_id] at again
    obtain rfl := Option.some.inj again
    exact ⟨shape,mem_emit.mp member,carried⟩
  · intro here
    obtain ⟨shape,here,rfl⟩ := here
    exact ⟨⟨k,shape⟩,mem_emit.mpr here,rfl⟩

theorem emitIf_some {present : Bool} {shape other : Shape} (here : emitIf present shape = some other) :
    present = true ∧ shape = other := by
  cases present with
  | false => cases here
  | true => exact ⟨rfl,Option.some.inj here⟩

theorem emit_valid {p : Params} (bounds : InBounds p) (fits : VarintsFit p) {k : Known} {shape : Shape}
    (here : p.shape k = some shape) : ValidValue k shape.value := by
  have spells {v : Nat} (here : p.shape k = some (.varintParam v)) : Varint.Spells (Varint.minimal v) v :=
    (Varint.emits_minimal v (fits k v here)).2.1
  have number {present : Bool} {v : Nat} (form : emitIf present (.varintParam v) = some shape) :
      shape = .varintParam v ∧ Varint.Spells (Varint.minimal v) v := by
    obtain ⟨_,rfl⟩ := emitIf_some form
    exact ⟨rfl,spells here⟩
  cases k with
  | originalDestinationConnectionId | initialSourceConnectionId | retrySourceConnectionId =>
    obtain ⟨cid,_,rfl⟩ := Option.map_eq_some_iff.mp here
    exact cid.short
  | statelessResetToken =>
    obtain ⟨token,_,rfl⟩ := Option.map_eq_some_iff.mp here
    exact token.exact
  | disableActiveMigration | greaseQuicBit | alternativeAddress =>
    obtain ⟨_,rfl⟩ := emitIf_some here
    exact rfl
  | preferredAddress =>
    obtain ⟨addr,_,rfl⟩ := Option.map_eq_some_iff.mp here
    exact ⟨addr,rfl⟩
  | versionInformation =>
    obtain ⟨many,rfl⟩ := emitIf_some here
    refine ⟨p.compatibleVersions,?_,rfl⟩
    intro none
    have length := length_versionBytes p.compatibleVersions.list
    rw [Shape.value] at none
    rw [none] at length
    simp only [List.length_nil] at length
    simp only [gt_iff_lt,decide_eq_true_eq] at many
    omega
  | ackDelayExponent =>
    obtain ⟨rfl,spelled⟩ := number here
    exact ⟨_,spelled,bounds.ackDelayExponent⟩
  | maxAckDelay =>
    obtain ⟨rfl,spelled⟩ := number here
    exact ⟨_,spelled,bounds.maxAckDelay⟩
  | activeConnectionIdLimit =>
    obtain ⟨rfl,spelled⟩ := number here
    exact ⟨_,spelled,bounds.activeConnectionIdLimit⟩
  | initialMaxPathId =>
    obtain ⟨m,_,rfl⟩ := Option.map_eq_some_iff.mp here
    have bound := m.toNat_lt
    refine ⟨_,spells here,?_⟩
    unfold maxU32
    omega
  | minAckDelay =>
    obtain ⟨v,_,rfl⟩ := Option.map_eq_some_iff.mp here
    exact ⟨_,spells here⟩
  | maxIdleTimeout | maxUdpPayloadSize | initialMaxData | initialMaxStreamDataBidiLocal | initialMaxStreamDataBidiRemote
  | initialMaxStreamDataUni | initialMaxStreamsBidi | initialMaxStreamsUni | maxDatagramFrameSize =>
    obtain ⟨rfl,spelled⟩ := number here
    exact ⟨_,spelled⟩

theorem countAll_ok {entries : List (Known × Shape)} :
    (∃ n, countAll entries = .ok n) ↔ ∀ k shape, (k,shape) ∈ entries → ∃ n, countSink k.id shape = .ok n := by
  induction entries with
  | nil => simp [countAll]
  | cons entry rest ih =>
    obtain ⟨k,shape⟩ := entry
    rw [countAll]
    cases first : countSink k.id shape with
    | error e =>
      constructor
      · rintro ⟨n,counted⟩
        cases counted
      · intro all
        obtain ⟨n,counted⟩ := all k shape List.mem_cons_self
        rw [first] at counted
        cases counted
    | ok n =>
      have now (j : Known) (other : Shape) : (j,other) ∈ (k,shape)::rest → (∃ n, countSink j.id other = .ok n) ↔
          (j,other) ∈ rest → ∃ n, countSink j.id other = .ok n := by
        rw [List.mem_cons]
        constructor
        · exact fun all member => all (.inr member)
        · intro all member
          rcases member with same | member
          · cases same
            exact ⟨n,first⟩
          · exact all member
      dsimp only
      rw [forall₂_congr now,← ih]
      cases countAll rest <;> simp

theorem encodedLen_fits {p : Params} {n : Nat} (ok : p.encodedLen = .ok n) : VarintsFit p := by
  intro k v here
  obtain ⟨m,counted⟩ := countAll_ok.mp ⟨n,ok⟩ k _ (mem_emit.mpr here)
  rw [countSink] at counted
  split at counted
  · cases counted
  rename_i fits
  rw [Varint.encodedLen_zero] at fits
  exact Nat.not_lt.mp fits

theorem id_fits (k : Known) : k.id ≤ Varint.maxValue := by
  cases k <;> decide

theorem encodedLen_ok {p : Params} (fits : VarintsFit p) : ∃ n, p.encodedLen = .ok n := by
  apply countAll_ok.mpr
  intro k shape member
  have here := mem_emit.mp member
  have small {length : Nat} (short : length ≤ 100) : ∃ n, fieldEncodedLen k.id length = .ok n :=
    fieldEncodedLen_fits (id_fits k) (Nat.le_trans short (by decide))
  have number {v : Nat} (here : p.shape k = some (.varintParam v)) : ∃ n, countSink k.id (.varintParam v) = .ok n := by
    rw [countSink,if_neg (by rw [Varint.encodedLen_zero]; exact Nat.not_lt.mpr (fits k v here))]
    apply small
    unfold Varint.encodedLen
    split_ifs <;> decide
  have optional {present : Bool} {v : Nat} (form : emitIf present (.varintParam v) = some shape) :
      ∃ n, countSink k.id shape = .ok n := by
    obtain ⟨_,rfl⟩ := emitIf_some form
    exact number here
  have cid (cid : ConnId) : ∃ n, fieldEncodedLen k.id cid.bytes.length = .ok n :=
    small (Nat.le_trans cid.short (by decide))
  cases k with
  | originalDestinationConnectionId | initialSourceConnectionId | retrySourceConnectionId =>
    obtain ⟨value,_,rfl⟩ := Option.map_eq_some_iff.mp here
    exact cid value
  | statelessResetToken =>
    obtain ⟨token,_,rfl⟩ := Option.map_eq_some_iff.mp here
    rw [countSink,token.exact]
    exact small (by decide)
  | disableActiveMigration | greaseQuicBit | alternativeAddress =>
    obtain ⟨_,rfl⟩ := emitIf_some here
    exact small (by decide)
  | preferredAddress =>
    obtain ⟨addr,_,rfl⟩ := Option.map_eq_some_iff.mp here
    have short := addr.connectionId.short
    rw [countSink]
    apply small
    unfold preferredAddressValueLen preferredAddressFixedLen ConnId.len
    unfold maxCidLen at short
    omega
  | versionInformation =>
    obtain ⟨many,rfl⟩ := emitIf_some here
    have few := p.compatibleVersions.few
    have some : p.compatibleVersions.list.length ≠ 0 := by
      intro none
      simp [none] at many
    rw [countSink,versionListValueLen,if_neg some,if_neg (Nat.not_lt.mpr few)]
    apply small
    unfold maxCompatibleVersions at few
    omega
  | initialMaxPathId | minAckDelay =>
    obtain ⟨v,_,rfl⟩ := Option.map_eq_some_iff.mp here
    exact number here
  | maxIdleTimeout | maxUdpPayloadSize | initialMaxData | initialMaxStreamDataBidiLocal | initialMaxStreamDataBidiRemote
  | initialMaxStreamDataUni | initialMaxStreamsBidi | initialMaxStreamsUni | maxDatagramFrameSize
  | ackDelayExponent | maxAckDelay | activeConnectionIdLimit => exact optional here

section Made
variable {values : Known → Option (List Byte)} {k : Known} {α : Type} {parse : List Byte → Except Error α}

theorem field_some {a : α} (here : field values k parse = some a) : ∃ value, parse value = .ok a := by
  obtain ⟨value,_,parsed⟩ := Option.bind_eq_some_iff.mp here
  cases made : parse value with
  | error e =>
    rw [made] at parsed
    cases parsed
  | ok b =>
    rw [made] at parsed
    cases parsed
    exact ⟨value,made⟩

theorem field_default {P : α → Prop} {default : α} (start : P default) (each : ∀ value a, parse value = .ok a → P a) :
    P ((field values k parse).getD default) := by
  cases here : field values k parse with
  | none => exact start
  | some a =>
    obtain ⟨value,parsed⟩ := field_some here
    exact each value a parsed

end Made

theorem assemble_inBounds (values : Known → Option (List Byte)) : InBounds (assemble values) := by
  constructor
  · exact field_default (P := fun v => v ≤ 20) (by decide) (fun _ _ parsed => by simpa using (boundedOf_ok.mp parsed).2)
  · exact field_default (P := fun v => v < 2^14) (by decide) (fun _ _ parsed => by simpa using (boundedOf_ok.mp parsed).2)
  · exact field_default (P := fun v => 2 ≤ v) (by decide) (fun _ _ parsed => by simpa using (boundedOf_ok.mp parsed).2)

theorem assemble_fits (values : Known → Option (List Byte)) : VarintsFit (assemble values) := by
  have varint {k : Known} {default v : Nat} (small : default ≤ Varint.maxValue)
      (here : emitIf ((field values k decodeVarintValue).getD default ≠ default)
        (.varintParam ((field values k decodeVarintValue).getD default)) = some (.varintParam v)) : v ≤ Varint.maxValue := by
    obtain ⟨_,same⟩ := emitIf_some here
    cases same
    exact field_default (P := fun v => v ≤ Varint.maxValue) small
      (fun _ _ parsed => (decodeVarintValue_ok.mp parsed).bounds.1)
  have bounded {k : Known} {bound : Nat → Bool} {default v : Nat} (small : default ≤ Varint.maxValue)
      (here : emitIf ((field values k (boundedOf bound)).getD default ≠ default)
        (.varintParam ((field values k (boundedOf bound)).getD default)) = some (.varintParam v)) : v ≤ Varint.maxValue := by
    obtain ⟨_,same⟩ := emitIf_some here
    cases same
    exact field_default (P := fun v => v ≤ Varint.maxValue) small
      (fun _ _ parsed => (boundedOf_ok.mp parsed).1.bounds.1)
  intro k v here
  cases k with
  | originalDestinationConnectionId | initialSourceConnectionId | retrySourceConnectionId | statelessResetToken
  | preferredAddress =>
    obtain ⟨_,_,same⟩ := Option.map_eq_some_iff.mp here
    cases same
  | disableActiveMigration | greaseQuicBit | alternativeAddress | versionInformation =>
    obtain ⟨_,same⟩ := emitIf_some here
    cases same
  | initialMaxPathId =>
    obtain ⟨m,_,same⟩ := Option.map_eq_some_iff.mp here
    cases same
    have bound := m.toNat_lt
    exact Nat.le_trans (Nat.le_of_lt bound) (by decide)
  | minAckDelay =>
    obtain ⟨value,found,same⟩ := Option.map_eq_some_iff.mp here
    cases same
    obtain ⟨_,parsed⟩ := field_some found
    exact (decodeVarintValue_ok.mp parsed).bounds.1
  | maxIdleTimeout | maxUdpPayloadSize | initialMaxData | initialMaxStreamDataBidiLocal | initialMaxStreamDataBidiRemote
  | initialMaxStreamDataUni | initialMaxStreamsBidi | initialMaxStreamsUni | maxDatagramFrameSize =>
    exact varint (by decide) here
  | ackDelayExponent | maxAckDelay | activeConnectionIdLimit => exact bounded (by decide) here

theorem encode_decode {p : Params} (bounds : InBounds p) (fits : VarintsFit p) : ∃ n bytes, p.encodedLen = .ok n ∧
    bytes.length = n ∧ Emits (.codec .bufferTooSmall) p.encode bytes ∧ decode bytes = .ok p := by
  obtain ⟨n,counted⟩ := encodedLen_ok fits
  obtain ⟨bytes,writes,spells,length⟩ := entries_emit counted
  refine ⟨n,bytes,counted,length,writes,?_⟩
  apply (decode_iff bytes p).mpr
  refine ⟨_,spells,emit_few p,emit_distinct p,?_,?_⟩
  · intro t member k known
    obtain ⟨⟨j,shape⟩,written,rfl⟩ := List.mem_map.mp member
    rw [tripleOf,ofId_id] at known
    cases known
    exact emit_valid bounds fits (mem_emit.mp written)
  · rw [valuesOf_emit,assemble_emitted p bounds fits]

def knownTriples (triples : List Triple) : List Triple := triples.filter fun t => (Known.ofId t.id).isSome

/-- A blob that `decode` accepts: few triples with distinct ids, and good values under the known ones. -/
structure WellFormed (triples : List Triple) : Prop where
  few : triples.length ≤ maxTransportParameters
  distinct : (triples.map Triple.id).Nodup
  valid : ∀ t ∈ triples, ValidTriple t

theorem decode_known {triples others : List Triple} {src : List Byte} (spells : SpellsTriples others src)
    (wellFormed : WellFormed triples) (few : others.length ≤ maxTransportParameters)
    (distinct : (others.map Triple.id).Nodup) (same : (knownTriples triples).Perm (knownTriples others)) :
    decode src = .ok (assemble (valuesOf triples)) := by
  apply (decode_iff src _).mpr
  refine ⟨others,spells,few,distinct,?_,?_⟩
  · intro t member k known
    have kept : t ∈ knownTriples others := List.mem_filter.mpr ⟨member,by rw [known]; rfl⟩
    exact wellFormed.valid t (List.mem_filter.mp (same.mem_iff.mpr kept)).1 k known
  · rw [valuesOf_congr wellFormed.distinct same]

/-- Encoding and decoding transport parameters. Encoding writes the counted number of bytes, or fails in a
smaller buffer, and decoding them gives the parameters back; what was decoded can be encoded and decoded again;
a blob is accepted exactly when it is a sequence of few, distinct, well-formed triples; and neither the order of
the triples nor those with unknown ids change the outcome. -/
theorem params_round_trip :
    (∀ p : Params, InBounds p → (∃ room bytes, p.encode room = .ok bytes) → ∃ n bytes, p.encodedLen = .ok n ∧
      bytes.length = n ∧ (∀ room, p.encode room = if n ≤ room then .ok bytes else .error (.codec .bufferTooSmall)) ∧
      decode bytes = .ok p) ∧
    (∀ src p, decode src = .ok p → ∃ room bytes, p.encode room = .ok bytes ∧ decode bytes = .ok p) ∧
    (∀ src, (∃ p, decode src = .ok p) ↔ ∃ triples, SpellsTriples triples src ∧ WellFormed triples) ∧
    (∀ triples others src src', SpellsTriples triples src → SpellsTriples others src' → WellFormed triples →
      others.length ≤ maxTransportParameters → (others.map Triple.id).Nodup →
      (knownTriples triples).Perm (knownTriples others) → decode src' = decode src) := by
  refine ⟨?_,?_,?_,?_⟩
  · intro p bounds accepted
    obtain ⟨room,bytes,wrote⟩ := accepted
    obtain ⟨n,counted⟩ := entries_count wrote
    obtain ⟨n,bytes,counted,length,writes,decoded⟩ := encode_decode bounds (encodedLen_fits counted)
    subst length
    exact ⟨_,bytes,counted,rfl,writes,decoded⟩
  · intro src p accepted
    obtain ⟨triples,_,_,_,_,rfl⟩ := (decode_iff src p).mp accepted
    obtain ⟨n,bytes,_,_,writes,decoded⟩ := encode_decode (assemble_inBounds _) (assemble_fits _)
    exact ⟨bytes.length,bytes,by rw [writes,if_pos (Nat.le_refl _)],decoded⟩
  · intro src
    constructor
    · intro accepted
      obtain ⟨p,accepted⟩ := accepted
      obtain ⟨triples,spells,few,distinct,valid,_⟩ := (decode_iff src p).mp accepted
      exact ⟨triples,spells,⟨few,distinct,valid⟩⟩
    · intro spelled
      obtain ⟨triples,spells,few,distinct,valid⟩ := spelled
      exact ⟨_,(decode_iff src _).mpr ⟨triples,spells,few,distinct,valid,rfl⟩⟩
  · intro triples others src src' spells spells' wellFormed few distinct same
    have first : decode src = .ok (assemble (valuesOf triples)) :=
      (decode_iff src _).mpr ⟨triples,spells,wellFormed.few,wellFormed.distinct,wellFormed.valid,rfl⟩
    rw [first]
    exact decode_known spells' wellFormed few distinct same

theorem params_round_trip_credit : ∃ n bytes, Params.encodedLen {initialMaxData := 1000} = .ok n ∧ bytes.length = n ∧
    (∀ room, Params.encode {initialMaxData := 1000} room = if n ≤ room then .ok bytes else .error (.codec .bufferTooSmall)) ∧
    decode bytes = .ok {initialMaxData := 1000} :=
  params_round_trip.1 {initialMaxData := 1000} ⟨by decide,by decide,by decide⟩ ⟨10,_,rfl⟩

end QuicZig.Tls.TransportParams
