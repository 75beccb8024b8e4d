import QuicZig.Tls.RoundTrip

/-! The envelope in which a client keeps a session ticket together with the transport parameters of its server. -/
namespace QuicZig.Tls.ResumptionState
open Machine BigEndian Codec TransportParams

inductive Error where
  | bufferTooSmall
  | invalidFormat
  | unsupportedVersion
  | invalidFlags
  | valueTooLarge
  | trailingBytes
  | transportParams (error : TransportParams.Error)
  deriving DecidableEq, Repr

structure Decoded where
  sessionTicket : List Byte
  transportParams : Params
  deriving DecidableEq, Repr

/-- The bytes of `QZRS`. -/
def magic : List Byte := [81,90,82,83]
def version : Byte := 1
def flags : Byte := 0
def headerLen : Nat := 4+1+1+4+4

def encodedLen (sessionTicket : List Byte) (params : Params) : Except Error Nat :=
  if sessionTicket.length > maxU32 then .error .valueTooLarge
  else
    match params.encodedLen with
    | .error e => .error (.transportParams e)
    | .ok paramsLen => if paramsLen > maxU32 then .error .valueTooLarge else .ok (headerLen+sessionTicket.length+paramsLen)

def header (ticketLen paramsLen : Nat) : List Byte :=
  magic ++ [version,flags] ++ bigEndian 4 ticketLen ++ bigEndian 4 paramsLen

def encode (sessionTicket : List Byte) (params : Params) : Writer Error := fun room =>
  match params.encodedLen with
  | .error e => .error (.transportParams e)
  | .ok paramsLen =>
    if sessionTicket.length > maxU32 then .error .valueTooLarge
    else if paramsLen > maxU32 then .error .valueTooLarge
    else if room < headerLen+sessionTicket.length+paramsLen then .error .bufferTooSmall
    else
      match params.encode paramsLen with
      | .error e => .error (.transportParams e)
      | .ok written => .ok (header sessionTicket.length paramsLen ++ sessionTicket ++ written)

/-- `src[at..at+4]` as a number. -/
def readU32 (src : List Byte) (at' : Nat) : Nat := ofBigEndian 0 ((src.drop at').take 4)

def decode (src : List Byte) : Except Error Decoded :=
  if src.length < headerLen then .error .invalidFormat
  else if src.take 4 ≠ magic then .error .invalidFormat
  else if src[4]? ≠ some version then .error .unsupportedVersion
  else if src[5]? ≠ some flags then .error .invalidFlags
  else
    let ticketLen := readU32 src 6
    let paramsLen := readU32 src 10
    match checkedAdd headerLen ticketLen with
    | none => .error .invalidFormat
    | some ticketEnd =>
      match checkedAdd ticketEnd paramsLen with
      | none => .error .invalidFormat
      | some total =>
        if src.length < total then .error .invalidFormat
        else if src.length > total then .error .trailingBytes
        else
          match TransportParams.decode ((src.drop ticketEnd).take paramsLen) with
          | .error e => .error (.transportParams e)
          | .ok params => .ok ⟨(src.drop headerLen).take ticketLen,params⟩

def envelope (ticket blob : List Byte) : List Byte := header ticket.length blob.length ++ ticket ++ blob

theorem length_header (ticketLen paramsLen : Nat) : (header ticketLen paramsLen).length = headerLen := by
  simp [header,magic,headerLen]

theorem length_envelope (ticket blob : List Byte) : (envelope ticket blob).length = headerLen+ticket.length+blob.length := by
  simp [envelope,length_header,Nat.add_assoc]

theorem header_split (ticketLen paramsLen : Nat) (tail : List Byte) : header ticketLen paramsLen ++ tail =
    magic ++ ([version,flags] ++ (bigEndian 4 ticketLen ++ (bigEndian 4 paramsLen ++ tail))) := by
  simp only [header,List.append_assoc]

theorem readU32_bigEndian {before after : List Byte} {value at' : Nat} (place : before.length = at')
    (fits : value ≤ maxU32) :
    readU32 (before ++ (bigEndian 4 value ++ after)) at' = value := by
  rw [readU32,List.drop_left' place,List.take_left' (length_bigEndian 4 value),ofBigEndian_bigEndian,
    Nat.mod_eq_of_lt (Nat.lt_of_le_of_lt fits (by decide)),Nat.zero_mul,Nat.zero_add]

theorem readU32_le (src : List Byte) (at' : Nat) : readU32 src at' ≤ maxU32 := by
  have bound := ofBigEndian_lt ((src.drop at').take 4)
  have size : ((src.drop at').take 4).length ≤ 4 := List.length_take_le _ _
  exact Nat.le_sub_one_of_lt (Nat.lt_of_lt_of_le bound (Nat.pow_le_pow_right (by decide) size))

theorem checkedAdd_small {a b : Nat} (fits : a+b ≤ maxU64) : checkedAdd a b = some (a+b) := if_pos fits

theorem decode_header {ticketLen paramsLen : Nat} (few : ticketLen ≤ maxU32) (few' : paramsLen ≤ maxU32) (tail : List Byte) :
    decode (header ticketLen paramsLen ++ tail) =
      if tail.length < ticketLen+paramsLen then .error .invalidFormat
      else if tail.length > ticketLen+paramsLen then .error .trailingBytes
      else match TransportParams.decode ((tail.drop ticketLen).take paramsLen) with
        | .error e => .error (.transportParams e)
        | .ok params => .ok ⟨tail.take ticketLen,params⟩ := by
  have size : (header ticketLen paramsLen ++ tail).length = headerLen+tail.length := by rw [List.length_append,length_header]
  have start : (header ticketLen paramsLen ++ tail).take 4 = magic := by
    rw [header_split]
    exact List.take_left' rfl
  have versions : (header ticketLen paramsLen ++ tail)[4]? = some version := by
    rw [header_split]
    rfl
  have mark : (header ticketLen paramsLen ++ tail)[5]? = some flags := by
    rw [header_split]
    rfl
  have ticket : readU32 (header ticketLen paramsLen ++ tail) 6 = ticketLen := by
    rw [header_split,← List.append_assoc magic]
    exact readU32_bigEndian rfl few
  have params : readU32 (header ticketLen paramsLen ++ tail) 10 = paramsLen := by
    rw [header_split,← List.append_assoc magic,← List.append_assoc (magic ++ _)]
    exact readU32_bigEndian (by simp [magic]) few'
  have rest : ∀ n, (header ticketLen paramsLen ++ tail).drop (headerLen+n) = tail.drop n := fun n => by
    rw [← List.drop_drop,List.drop_left' (length_header _ _)]
  have body : (header ticketLen paramsLen ++ tail).drop headerLen = tail := List.drop_left' (length_header _ _)
  have room : headerLen+ticketLen+paramsLen ≤ maxU64 := by
    unfold headerLen maxU64
    unfold maxU32 at few few'
    omega
  unfold decode
  simp only [size,start,versions,mark,ticket,params,checkedAdd_small (Nat.le_trans (Nat.le_add_right _ paramsLen) room),
    checkedAdd_small room,rest,body,ne_eq,not_true_eq_false,if_false,Nat.add_assoc,Nat.add_lt_add_iff_left,gt_iff_lt,
    Nat.not_lt.mpr (Nat.le_add_right headerLen tail.length)]

theorem header_of_decode {src : List Byte} {d : Decoded} (accepted : decode src = .ok d) :
    ∃ ticketLen paramsLen tail, ticketLen ≤ maxU32 ∧ paramsLen ≤ maxU32 ∧ src = header ticketLen paramsLen ++ tail := by
  unfold decode at accepted
  split at accepted
  · cases accepted
  split at accepted
  · cases accepted
  split at accepted
  · cases accepted
  split at accepted
  · cases accepted
  rename_i long start versions mark
  rw [Classical.not_not] at start versions mark
  refine ⟨readU32 src 6,readU32 src 10,src.drop headerLen,readU32_le src 6,readU32_le src 10,?_⟩
  obtain ⟨within,version'⟩ := List.getElem?_eq_some_iff.mp versions
  obtain ⟨within',flags'⟩ := List.getElem?_eq_some_iff.mp mark
  have bytes : ∀ n, n+4 ≤ headerLen → bigEndian 4 (readU32 src n) = (src.drop n).take 4 := fun n inside => by
    have size : ((src.drop n).take 4).length = 4 := by
      rw [List.length_take,List.length_drop]
      omega
    have same := bigEndian_ofBigEndian ((src.drop n).take 4) 0
    rw [size] at same
    exact same
  calc src = src.take 4 ++ src.drop 4 := (List.take_append_drop 4 src).symm
    _ = magic ++ (version::flags::src.drop 6) := by
      rw [start,List.drop_eq_getElem_cons within,List.drop_eq_getElem_cons within',version',flags']
    _ = magic ++ (version::flags::((src.drop 6).take 4 ++ ((src.drop 10).take 4 ++ src.drop headerLen))) := by
      rw [show src.drop headerLen = (src.drop 10).drop 4 by rw [List.drop_drop]; rfl,List.take_append_drop,
        show src.drop 10 = (src.drop 6).drop 4 by rw [List.drop_drop],List.take_append_drop]
    _ = header (readU32 src 6) (readU32 src 10) ++ src.drop headerLen := by
      rw [header_split,bytes 6 (by decide),bytes 10 (by decide)]
      rfl

theorem decode_iff (src : List Byte) (d : Decoded) : decode src = .ok d ↔ ∃ blob, d.sessionTicket.length ≤ maxU32 ∧
    blob.length ≤ maxU32 ∧ src = envelope d.sessionTicket blob ∧ TransportParams.decode blob = .ok d.transportParams := by
  constructor
  · intro accepted
    obtain ⟨ticketLen,paramsLen,tail,few,few',rfl⟩ := header_of_decode accepted
    rw [decode_header few few'] at accepted
    split at accepted
    · cases accepted
    split at accepted
    · cases accepted
    have size : tail.length = ticketLen+paramsLen := by omega
    have ticket : (tail.take ticketLen).length = ticketLen := List.length_take_of_le (by omega)
    have blob : (tail.drop ticketLen).length = paramsLen := by
      rw [List.length_drop]
      omega
    rw [List.take_of_length_le (Nat.le_of_eq blob)] at accepted
    cases read : TransportParams.decode (tail.drop ticketLen) with
    | error e =>
      rw [read] at accepted
      cases accepted
    | ok params =>
      rw [read] at accepted
      cases accepted
      refine ⟨tail.drop ticketLen,by rw [ticket]; exact few,by rw [blob]; exact few',?_,read⟩
      rw [envelope,ticket,blob,List.append_assoc,List.take_append_drop]
  · rintro ⟨blob,few,few',rfl,read⟩
    rw [envelope,List.append_assoc,decode_header few few',List.length_append,if_neg (Nat.lt_irrefl _),
      if_neg (Nat.lt_irrefl _),List.drop_left,List.take_length,read,List.take_left]

/-- The envelope of a ticket and parameters: encoding writes the counted bytes, or fails in a smaller buffer, and decoding gives
both back; the accepted sources are the envelopes, each of one ticket and one blob of parameters; less than an envelope
and more than one are refused. -/
theorem state_round_trip :
    (∀ ticket p, InBounds p → (∃ room bytes, encode ticket p room = .ok bytes) →
    ∃ bytes, encodedLen ticket p = .ok bytes.length ∧
      (∀ room, encode ticket p room = if bytes.length ≤ room then .ok bytes else .error .bufferTooSmall) ∧
      decode bytes = .ok ⟨ticket,p⟩) ∧
    (∀ src d, decode src = .ok d ↔ ∃ blob, d.sessionTicket.length ≤ maxU32 ∧ blob.length ≤ maxU32 ∧
      src = envelope d.sessionTicket blob ∧ TransportParams.decode blob = .ok d.transportParams) ∧
    (∀ src d, decode src = .ok d → (∀ n < src.length, decode (src.take n) = .error .invalidFormat) ∧
      ∀ more ≠ [], decode (src ++ more) = .error .trailingBytes) := by
  refine ⟨?_,decode_iff,?_⟩
  · rintro ticket p bounds ⟨room,bytes,wrote⟩
    cases counted : p.encodedLen with
    | error e => simp [encode,counted] at wrote
    | ok paramsLen =>
      obtain ⟨n,blob,counted',length,writes,read⟩ := TransportParams.encode_decode bounds (encodedLen_fits counted)
      cases counted.symm.trans counted'
      have fits : ticket.length ≤ maxU32 ∧ paramsLen ≤ maxU32 := by
        simp only [encode,counted] at wrote
        split at wrote
        · cases wrote
        split at wrote
        · cases wrote
        omega
      have whole : p.encode paramsLen = .ok blob := by rw [writes,if_pos (Nat.le_of_eq length)]
      have size := length_envelope ticket blob
      refine ⟨envelope ticket blob,?_,fun room => ?_,(decode_iff _ _).mpr ⟨blob,fits.1,length ▸ fits.2,rfl,read⟩⟩
      · rw [size,encodedLen,if_neg (Nat.not_lt.mpr fits.1),counted]
        simp only [if_neg (Nat.not_lt.mpr fits.2),length]
      · rw [size,length]
        simp only [encode,counted,gt_iff_lt,if_neg (Nat.not_lt.mpr fits.1),if_neg (Nat.not_lt.mpr fits.2),whole]
        by_cases small : room < headerLen+ticket.length+paramsLen
        · rw [if_pos small,if_neg (Nat.not_le.mpr small)]
        · rw [if_neg small,if_pos (Nat.not_lt.mp small),envelope,length]
  · intro src d accepted
    obtain ⟨blob,few,few',rfl,_⟩ := (decode_iff src d).mp accepted
    constructor
    · intro n short
      rw [length_envelope] at short
      by_cases headless : n < headerLen
      · exact if_pos (Nat.lt_of_le_of_lt (List.length_take_le _ _) headless)
      · rw [envelope,List.append_assoc,List.take_append,List.take_of_length_le (by rw [length_header]; omega),length_header,
          decode_header few few',if_pos (by rw [List.length_take,List.length_append]; omega)]
    · intro more some
      have longer := List.length_pos_iff.mpr some
      rw [envelope,List.append_assoc,List.append_assoc,decode_header few few',
        if_neg (by simp only [List.length_append]; omega),if_pos (by simp only [List.length_append]; omega)]

theorem state_round_trip_credit : ∃ bytes, encodedLen [7,7,7] {initialMaxData := 1000} = .ok bytes.length ∧
    (∀ room, encode [7,7,7] {initialMaxData := 1000} room =
      if bytes.length ≤ room then .ok bytes else .error .bufferTooSmall) ∧
    decode bytes = .ok ⟨[7,7,7],{initialMaxData := 1000}⟩ :=
  state_round_trip.1 [7,7,7] {initialMaxData := 1000} ⟨by decide,by decide,by decide⟩ ⟨40,_,rfl⟩

end QuicZig.Tls.ResumptionState
