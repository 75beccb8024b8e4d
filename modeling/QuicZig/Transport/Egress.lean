import QuicZig.Transport.UdpBatch

/-! Batches on their way out: each is one offloaded send, or its segments one by one where the socket rejects that. What
arrives is compared with what the polls of each pass have answered. -/
namespace QuicZig.Transport
open Machine Chunks
open Conn.AddressToken (Address)

inductive SendError where
  | connectionRefused
  | connectionResetByPeer
  | hostUnreachable
  | networkUnreachable
  | messageOversize
  | other
  deriving DecidableEq

inductive SendDisposition where
  | tolerate
  | disableOffload
  deriving DecidableEq

def classifySendError : SendError → SendDisposition
  | .connectionRefused | .connectionResetByPeer | .hostUnreachable | .networkUnreachable | .messageOversize => .tolerate
  | .other => .disableOffload

inductive Wire (Dest : Type) where
  | plain (dest : Dest) (data : List Byte)
  | offloaded (dest : Dest) (data : List Byte) (stride : Nat)
  deriving DecidableEq

/-- The policies of a role and its socket. A send is given all that is then on the wire, itself last. -/
structure Ctx (Dest : Type) where
  resolve : Option Address → Option Dest
  send : List (Wire Dest) → Bool
  sendMany : List (Wire Dest) → Option SendError

/-- `passes` is what the polls of each pass have answered. -/
structure Drain (Dest : Type) where
  active : Bool
  conn : Connection
  buf : List Byte
  wire : List (Wire Dest) := []
  passes : List (List Polled) := []

inductive Outcome where
  | returned
  | pollFailed
  | sendFailed
  deriving DecidableEq

section
variable {Dest : Type} (ctx : Ctx Dest)

def sendPlain (wire : List (Wire Dest)) (dest : Dest) (data : List Byte) : List (Wire Dest) × Bool :=
  let sent := wire ++ [.plain dest data]
  if ctx.send sent then (sent,true) else (wire,false)

/-- The segments of a rejected batch, from `off` on. -/
def reship (dest : Dest) (buf : List Byte) (totalLen segSize : Nat) : Nat → Nat → List (Wire Dest) → List (Wire Dest) × Bool
  | 0,_,wire => (wire,true)
  | fuel+1,off,wire =>
    if off < totalLen then
      let stop := min (off+segSize) totalLen
      match sendPlain ctx wire dest ((buf.take stop).drop off) with
      | (wire,false) => (wire,false)
      | (wire,true) => reship dest buf totalLen segSize fuel stop wire
    else (wire,true)

/-- The sends of a batch proper, its carry left aside. -/
def ship (dest : Dest) (filled : GsoBatch) (d : Drain Dest) : Drain Dest × Bool :=
  if filled.count = 1 then
    let (wire,sent) := sendPlain ctx d.wire dest (d.buf.take filled.totalLen)
    ({d with wire := wire},sent)
  else
    let sent := d.wire ++ [.offloaded dest (d.buf.take filled.totalLen) filled.segSize]
    match ctx.sendMany sent with
    | none => ({d with wire := sent},true)
    | some e =>
      match classifySendError e with
      | .tolerate => (d,true)
      | .disableOffload =>
        let (wire,sent) := reship ctx dest d.buf filled.totalLen filled.segSize filled.totalLen 0 d.wire
        ({d with active := false,wire := wire},sent)

/-- One turn of the loop; with no outcome it goes round again. -/
def pass (maxSegments : Nat) (d : Drain Dest) : Drain Dest × Option Outcome :=
  match fillGsoBatch {d.conn with trace := []} d.buf maxSegments with
  | (.error .poll,buf,c) => ({d with conn := c,buf := buf,passes := d.passes ++ [c.trace]},some .pollFailed)
  | (.ok filled,buf,c) =>
    let d := {d with
      conn := c
      buf := buf
      passes := d.passes ++ [c.trace]}
    if filled.count = 0 then (d,some .returned)
    else
      match ctx.resolve filled.dest with
      | none => (d,some .returned)
      | some dest =>
        match ship ctx dest filled d with
        | (d,false) => (d,some .sendFailed)
        | (d,true) =>
          if filled.hasCarry then
            match ctx.resolve filled.carryTo with
            | none => (d,some .returned)
            | some dest =>
              let (wire,sent) := sendPlain ctx d.wire dest ((d.buf.drop filled.carryOffset).take filled.carryLen)
              ({d with wire := wire},if sent then none else some .sendFailed)
          else (d,none)

def drainLoop (maxSegments : Nat) : Nat → Drain Dest → Drain Dest × Option Outcome
  | 0,d => (d,none)
  | fuel+1,d =>
    if d.active then
      match pass ctx maxSegments d with
      | (d,some outcome) => (d,some outcome)
      | (d,none) => drainLoop maxSegments fuel d
    else (d,some .returned)

/-- Every turn but the last takes an answer. -/
def drainGso (conn : Connection) (gsoBuf : List Byte) (maxSegments : Nat) : Drain Dest × Option Outcome :=
  drainLoop ctx maxSegments (conn.answers.length+1) {active := true,conn := conn,buf := gsoBuf}

end

/-! What arrives and what was due. -/

def Wire.pieces {Dest : Type} : Wire Dest → List (List Byte)
  | .plain _ data => [data]
  | .offloaded _ data stride => if stride ≠ 0 ∧ data.length > stride then cut stride data else [data]

def Wire.dest {Dest : Type} : Wire Dest → Dest
  | .plain dest _ => dest
  | .offloaded dest _ _ => dest

/-- The datagrams that arrive, each with its destination. -/
def arrived {Dest : Type} (wire : List (Wire Dest)) : List (Option Dest × List Byte) :=
  wire.flatMap fun w => w.pieces.map fun data => (some w.dest,data)

def polled (trace : List Polled) : List Datagram :=
  trace.filterMap fun p =>
    match p with
    | .out d => some d
    | _ => none

/-- The datagrams that the polls have answered, each with where it is to go. -/
def due {Dest : Type} (ctx : Ctx Dest) (trace : List Polled) : List (Option Dest × List Byte) :=
  (polled trace).map fun d => (ctx.resolve d.dest,d.bytes)

/-- No poll behind the first datagram of a pass fails, a datagram for another destination than the first one's has one,
and none of several datagrams for the same destination is empty. -/
def Faultless : List Polled → Prop
  | .out first::rest =>
    .failed ∉ rest ∧ ∀ d, .out d ∈ rest → (d.dest ≠ first.dest → d.dest ≠ none) ∧
      (d.dest = first.dest → first.bytes ≠ [] ∧ d.bytes ≠ [])
  | _ => True

/-- The message that the receiving socket makes of a send. -/
def Wire.message {Dest Ecn : Type} (w : Wire Dest) (source : Address) (ecn : Ecn) : IncomingMessage Ecn :=
  match w with
  | .plain _ data => {source := source,data := data,ecn := ecn}
  | .offloaded _ data stride => {source := source,data := data,gro := some stride,ecn := ecn}

theorem message_yields {Dest Ecn : Type} (w : Wire Dest) (source : Address) (ecn notEct : Ecn) (ecnActive : Bool) :
    ∃ out, IngressIterator.Yields {msgs := [w.message source ecn],options := ⟨ecnActive,true⟩,notEct := notEct} out ∧
      out.map (·.data) = w.pieces := by
  have yields := IngressIterator.yields_carved
    {msgs := [w.message source ecn],options := ⟨ecnActive,true⟩,notEct := notEct} rfl
  refine ⟨_,yields,?_⟩
  simp only [List.drop_zero,List.zipIdx_singleton,List.flatMap_cons,List.flatMap_nil,List.append_nil,
    IngressIterator.carved,List.map_map]
  refine Eq.trans (map_fst_marked _) ?_
  cases w with
  | plain dest data => rfl
  | offloaded dest data stride =>
    simp only [Wire.message,Wire.pieces,IngressIterator.pieces,IngressIterator.strideOf,if_true,Bool.false_eq_true,if_false]
    by_cases long : stride ≠ 0 ∧ data.length > stride
    · rw [if_pos long,Option.filter_some,if_pos (by simpa using long)]
    · rw [if_neg long,Option.filter_some,if_neg (by simpa using long)]

/-! The accounts of a pass. -/

/-- The resolver finds a destination, plain sends succeed, and an offloaded send succeeds or is rejected. -/
structure Reliable {Dest : Type} (ctx : Ctx Dest) : Prop where
  resolves : ∀ to', ∃ dest, ctx.resolve to' = some dest
  delivers : ∀ wire, ctx.send wire = true
  rejects : ∀ wire e, ctx.sendMany wire = some e → classifySendError e = .disableOffload

/-- The pieces are the segments, unless one of several segments is empty; then they are fewer. -/
def Kept (segments pieces : List (List Byte)) : Prop :=
  ((segments.length = 1 ∨ ∀ s ∈ segments, s ≠ []) → pieces = segments) ∧
    (segments.length ≠ 1 → (∃ s ∈ segments, s = []) → pieces.length < segments.length)

theorem cut_kept {stride : Nat} {segments : List (List Byte)} (strided : Strided stride segments)
    (several : 1 < segments.length) :
    Kept segments (cut stride segments.flatten) := by
  refine ⟨?_,fun _ => (length_cut_flatten strided).2 (by omega)⟩
  rintro (single | real)
  · omega
  · cases segments with
    | nil => exact absurd several (by simp)
    | cons first rest =>
      cases rest with
      | nil => exact absurd several (by simp)
      | cons next rest =>
        have positive : 0 < stride := strided.tail.1 ▸ List.length_pos_iff.mpr (real _ List.mem_cons_self)
        exact cut_flatten positive strided real

theorem pieces_kept {Dest : Type} (dest : Dest) {stride : Nat} {segments : List (List Byte)}
    (strided : Strided stride segments)
    (several : 1 < segments.length) : Kept segments (Wire.offloaded dest segments.flatten stride).pieces := by
  change Kept segments (if stride ≠ 0 ∧ segments.flatten.length > stride then cut stride segments.flatten else
    [segments.flatten])
  by_cases long : stride ≠ 0 ∧ segments.flatten.length > stride
  · rw [if_pos long]
    exact cut_kept strided several
  · rw [if_neg long]
    refine ⟨?_,fun _ _ => several⟩
    rintro (single | real)
    · omega
    · refine absurd ?_ long
      cases segments with
      | nil => exact absurd several (by simp)
      | cons first rest =>
        cases rest with
        | nil => exact absurd several (by simp)
        | cons next rest =>
          have head := List.length_pos_iff.mpr (real first List.mem_cons_self)
          have second := List.length_pos_iff.mpr (real next (by simp))
          have stride := strided.tail.1
          simp only [List.flatten_cons,List.length_append]
          omega

section
variable {Dest : Type} {ctx : Ctx Dest}

theorem sendPlain_reliable (reliable : Reliable ctx) (wire : List (Wire Dest)) (dest : Dest) (data : List Byte) :
    sendPlain ctx wire dest data = (wire ++ [.plain dest data],true) := by
  unfold sendPlain
  exact if_pos (reliable.delivers _)

theorem reship_reliable (reliable : Reliable ctx) (dest : Dest) (buf : List Byte) {totalLen segSize : Nat} (fuel off : Nat)
    (wire : List (Wire Dest)) (length : (buf.take totalLen).length = totalLen) (stride : segSize = 0 → totalLen = 0)
    (enough : totalLen-off ≤ fuel) :
    reship ctx dest buf totalLen segSize fuel off wire =
      (wire ++ (cut segSize ((buf.take totalLen).drop off)).map (.plain dest),true) := by
  induction fuel generalizing off wire with
  | zero =>
    rw [List.drop_eq_nil_of_le (by omega),cut_nil]
    simp [reship]
  | succ fuel ih =>
    unfold reship
    dsimp only
    by_cases more : off < totalLen
    · have positive : 0 < segSize := by omega
      have data : (buf.take totalLen).drop off ≠ [] := by
        rw [← List.length_pos_iff,List.length_drop,length]
        omega
      have piece : (buf.take (min (off+segSize) totalLen)).drop off = ((buf.take totalLen).drop off).take segSize := by
        rw [← List.take_take,List.drop_take,Nat.add_sub_cancel_left]
      have rest : ((buf.take totalLen).drop off).drop segSize = (buf.take totalLen).drop (min (off+segSize) totalLen) := by
        rw [List.drop_drop]
        rcases Nat.le_total (off+segSize) totalLen with within | beyond
        · rw [Nat.min_eq_left within]
        · rw [Nat.min_eq_right beyond,List.drop_eq_nil_of_le (by omega),List.drop_eq_nil_of_le (by omega)]
      rw [if_pos more,sendPlain_reliable reliable,piece,cut_cons positive data,rest,List.map_cons]
      dsimp only
      rw [ih _ _ (by omega),List.append_assoc]
      rfl
    · rw [if_neg more,List.drop_eq_nil_of_le (by omega),cut_nil]
      simp

theorem arrived_append (a b : List (Wire Dest)) : arrived (a ++ b) = arrived a ++ arrived b := List.flatMap_append

theorem arrived_plain (dest : Dest) (pieces : List (List Byte)) :
    arrived (pieces.map (.plain dest)) = pieces.map fun data => (some dest,data) := by
  induction pieces with
  | nil => rfl
  | cons piece rest ih => exact congrArg ((some dest,piece)::·) ih

theorem ship_reliable (reliable : Reliable ctx) (dest : Dest) (filled : GsoBatch) (d : Drain Dest) {to' : Option Address}
    {segments : List (List Byte)} (packed : Packed filled d.buf to' segments) (some' : segments ≠ []) :
    ∃ new pieces active, ship ctx dest filled d = ({d with active := active,wire := d.wire ++ new},true) ∧
      arrived new = pieces.map (fun data => (some dest,data)) ∧ Kept segments pieces := by
  have positive := List.length_pos_iff.mpr some'
  unfold ship
  by_cases single : filled.count = 1
  · have one : segments.length = 1 := packed.count ▸ single
    obtain ⟨s,rfl⟩ := List.length_eq_one_iff.mp one
    have bytes : d.buf.take filled.totalLen = s := by simpa using packed.bytes
    refine ⟨[.plain dest s],[s],d.active,?_,rfl,fun _ => rfl,fun several => absurd rfl several⟩
    rw [if_pos single,sendPlain_reliable reliable,bytes]
  · have several : 1 < segments.length := by
      have count := packed.count
      omega
    rw [if_neg single]
    dsimp only
    cases sent : ctx.sendMany (d.wire ++ [.offloaded dest (d.buf.take filled.totalLen) filled.segSize]) with
    | none =>
      refine ⟨[.offloaded dest (d.buf.take filled.totalLen) filled.segSize],
        (Wire.offloaded dest (d.buf.take filled.totalLen) filled.segSize).pieces,d.active,rfl,?_,?_⟩
      · simp [arrived,Wire.dest]
      · rw [packed.bytes]
        exact pieces_kept dest packed.stride several
    | some e =>
      have length : (d.buf.take filled.totalLen).length = filled.totalLen := by rw [packed.bytes,packed.total]
      have stride : filled.segSize = 0 → filled.totalLen = 0 := by
        intro zero
        have none := packed.stride
        rw [zero] at none
        rw [packed.total,strided_zero none]
        rfl
      dsimp only
      rw [reliable.rejects _ _ sent]
      dsimp only
      rw [reship_reliable reliable dest d.buf filled.totalLen 0 d.wire length stride (by omega),List.drop_zero,packed.bytes]
      exact ⟨_,_,false,rfl,arrived_plain dest _,cut_kept packed.stride several⟩

theorem Kept.length_le {segments pieces : List (List Byte)} (kept : Kept segments pieces) :
    pieces.length ≤ segments.length := by
  by_cases whole : segments.length = 1 ∨ ∀ s ∈ segments, s ≠ []
  · rw [kept.1 whole]
  · obtain ⟨several,empty⟩ := not_or.mp whole
    refine Nat.le_of_lt (kept.2 several ?_)
    simpa using empty

/-- A pass without a fault brings all that was due, and another one less than that. -/
def Accounts (ctx : Ctx Dest) (new : List (Wire Dest)) (trace : List Polled) : Prop :=
  (Faultless trace → arrived new = due ctx trace) ∧ (¬Faultless trace → (arrived new).length < (due ctx trace).length)

theorem due_append (ctx : Ctx Dest) (a b : List Polled) : due ctx (a ++ b) = due ctx a ++ due ctx b := by
  unfold due polled
  rw [List.filterMap_append,List.map_append]

theorem due_segments (ctx : Ctx Dest) (to' : Option Address) (segments : List (List Byte)) :
    due ctx (segments.map fun s => .out ⟨to',s⟩) = segments.map fun s => (ctx.resolve to',s) := by
  unfold due polled
  rw [List.filterMap_map]
  induction segments with
  | nil => rfl
  | cons s rest ih => exact congrArg ((ctx.resolve to',s)::·) ih

/-- What makes the pass of a batch faultless. -/
def Ending.Faultless : Ending → Prop
  | .failed => False
  | .carry d => d.dest ≠ none
  | _ => True

theorem faultless_batch (first : Datagram) (more : List (List Byte)) (ending : Ending)
    (apart : ∀ d, ending = .carry d → d.dest ≠ first.dest) :
    Faultless (.out first::(more.map fun s => .out ⟨first.dest,s⟩) ++ ending.answers) ↔
      ending.Faultless ∧ ((first.bytes::more).length = 1 ∨ ∀ s ∈ first.bytes::more, s ≠ []) := by
  change (Polled.failed ∉ _ ∧ ∀ d, _) ↔ _
  constructor
  · rintro ⟨alive,each⟩
    refine ⟨?_,?_⟩
    · cases ending with
      | stopped => trivial
      | idle => trivial
      | failed => exact alive (by simp [Ending.answers])
      | carry d => exact (each d (by simp [Ending.answers])).1 (apart d rfl)
    · cases more with
      | nil => exact .inl rfl
      | cons next rest =>
        refine .inr fun s member => ?_
        have whole : ∀ s ∈ next::rest, first.bytes ≠ [] ∧ s ≠ [] := fun s member =>
          (each ⟨first.dest,s⟩ (List.mem_append_left _ (List.mem_map_of_mem member))).2 rfl
        rcases List.mem_cons.mp member with rfl | later
        · exact (whole next List.mem_cons_self).1
        · exact (whole s later).2
  · rintro ⟨ended,whole⟩
    refine ⟨?_,fun d member => ?_⟩
    · intro member
      rcases List.mem_append.mp member with inside | last
      · obtain ⟨s,_,same⟩ := List.mem_map.mp inside
        cases same
      · cases ending <;> simp [Ending.answers,Ending.Faultless] at last ended
    · rcases List.mem_append.mp member with inside | last
      · obtain ⟨s,found,same⟩ := List.mem_map.mp inside
        cases same
        refine ⟨fun other => absurd rfl other,fun _ => ?_⟩
        rcases whole with single | real
        · rw [List.length_cons,Nat.add_eq_right] at single
          rw [List.eq_nil_of_length_eq_zero single] at found
          cases found
        · exact ⟨real _ List.mem_cons_self,real _ (List.mem_cons_of_mem _ found)⟩
      · cases ending with
        | stopped => cases last
        | idle => simp [Ending.answers] at last
        | failed => simp [Ending.answers] at last
        | carry other =>
          cases List.mem_singleton.mp last
          exact ⟨fun _ => ended,fun same => absurd same (apart d rfl)⟩

theorem batch_accounts {first : Datagram} {more pieces : List (List Byte)} {ending : Ending}
    {new behind : List (Wire Dest)} {dest : Dest}
    (resolved : ctx.resolve first.dest = some dest) (apart : ∀ d, ending = .carry d → d.dest ≠ first.dest)
    (front : arrived new = pieces.map fun data => (some dest,data)) (kept : Kept (first.bytes::more) pieces)
    (faultless : ending.Faultless → arrived behind = due ctx ending.answers)
    (faulty : ¬ending.Faultless → (arrived behind).length < (due ctx ending.answers).length) :
    Accounts ctx (new ++ behind) (.out first::(more.map fun s => .out ⟨first.dest,s⟩) ++ ending.answers) := by
  have segments := due_segments ctx first.dest (first.bytes::more)
  have whole : due ctx (.out first::(more.map fun s => .out ⟨first.dest,s⟩) ++ ending.answers) =
      (first.bytes::more).map (fun data => (some dest,data)) ++ due ctx ending.answers := by
    rw [due_append,← resolved]
    exact congrArg (· ++ due ctx ending.answers) segments
  refine ⟨fun good => ?_,fun bad => ?_⟩
  · obtain ⟨ended,real⟩ := (faultless_batch first more ending apart).mp good
    rw [arrived_append,front,kept.1 real,faultless ended,whole]
  · rw [arrived_append,front,whole,List.length_append,List.length_append,List.length_map,List.length_map]
    have most := kept.length_le
    by_cases ended : ending.Faultless
    · have empty := fun real => bad ((faultless_batch first more ending apart).mpr ⟨ended,real⟩)
      obtain ⟨several,none⟩ := not_or.mp empty
      have fewer := kept.2 several (by simpa only [not_forall,not_not,exists_prop] using none)
      rw [faultless ended]
      omega
    · have last := faulty ended
      omega

theorem pass_accounts (reliable : Reliable ctx) (maxSegments : Nat) (d : Drain Dest) {next : Drain Dest}
    {outcome : Option Outcome}
    (run : pass ctx maxSegments d = (next,outcome)) :
    ∃ new trace, next.wire = d.wire ++ new ∧ next.passes = d.passes ++ [trace] ∧ Accounts ctx new trace ∧
      (outcome = none → next.conn.answers.length < d.conn.answers.length) := by
  unfold pass at run
  generalize filling : fillGsoBatch {d.conn with trace := []} d.buf maxSegments = result at run
  obtain ⟨result,buf,after⟩ := result
  obtain ⟨opens,_,fewer⟩ := fillGsoBatch_opens _ _ _ rfl filling
  dsimp only at fewer
  generalize traced : after.trace = trace at opens
  cases opens with
  | quiet silent empty =>
    dsimp only at run
    rw [if_pos empty] at run
    cases run
    refine ⟨[],after.trace,by simp,rfl,?_,fun none => nomatch none⟩
    rw [traced]
    rcases silent with rfl | rfl <;> exact ⟨fun _ => rfl,fun bad => absurd trivial bad⟩
  | failed =>
    cases run
    refine ⟨[],after.trace,by simp,rfl,?_,fun none => nomatch none⟩
    rw [traced]
    exact ⟨fun _ => rfl,fun bad => absurd trivial bad⟩
  | batch first more ending fills =>
    obtain ⟨dest,resolved⟩ := reliable.resolves first.dest
    have sends : ∀ filled : GsoBatch, Packed filled buf first.dest (first.bytes::more) →
        filled.count ≠ 0 ∧ ctx.resolve filled.dest = some dest ∧ ∃ new pieces active,
          ship ctx dest filled {d with conn := after,buf := buf,passes := d.passes ++ [after.trace]} =
            ({d with
              active := active
              conn := after
              buf := buf
              wire := d.wire ++ new
              passes := d.passes ++ [after.trace]},true) ∧
          arrived new = pieces.map (fun data => (some dest,data)) ∧ Kept (first.bytes::more) pieces := by
      intro filled packed
      refine ⟨?_,packed.dest ▸ resolved,?_⟩
      · rw [packed.count]
        simp
      · exact ship_reliable reliable dest filled {d with conn := after,buf := buf,passes := d.passes ++ [after.trace]}
          packed (by simp)
    cases fills with
    | failed =>
      cases run
      refine ⟨[],after.trace,by simp,rfl,?_,fun none => nomatch none⟩
      rw [traced]
      refine ⟨fun good => absurd good ?_,fun _ => by simp [arrived,due,polled]⟩
      rw [faultless_batch first more .failed (fun d same => nomatch same)]
      exact fun good => good.1
    | @stopped batch _ packed alone =>
      obtain ⟨counted,target,new,pieces,active,shipped,front,kept⟩ := sends batch packed
      have single : batch.hasCarry = false := by rw [GsoBatch.hasCarry,alone]; rfl
      dsimp only at run
      rw [if_neg counted,target] at run
      dsimp only at run
      rw [shipped] at run
      dsimp only at run
      rw [single,if_neg Bool.false_ne_true] at run
      cases run
      refine ⟨new,after.trace,rfl,rfl,?_,fun _ => fewer batch rfl counted⟩
      rw [traced,← List.append_nil new]
      exact batch_accounts resolved (fun d same => nomatch same) front kept (fun _ => rfl) (fun bad => absurd trivial bad)
    | @idle batch _ packed alone =>
      obtain ⟨counted,target,new,pieces,active,shipped,front,kept⟩ := sends batch packed
      have single : batch.hasCarry = false := by rw [GsoBatch.hasCarry,alone]; rfl
      dsimp only at run
      rw [if_neg counted,target] at run
      dsimp only at run
      rw [shipped] at run
      dsimp only at run
      rw [single,if_neg Bool.false_ne_true] at run
      cases run
      refine ⟨new,after.trace,rfl,rfl,?_,fun _ => fewer batch rfl counted⟩
      rw [traced,← List.append_nil new]
      exact batch_accounts resolved (fun d same => nomatch same) front kept (fun _ => rfl) (fun bad => absurd trivial bad)
    | @carry batch _ last packed apart other behind =>
      obtain ⟨counted,target,new,pieces,active,shipped,front,kept⟩ := sends batch packed
      have alone : ∀ d, Ending.carry last = .carry d → d.dest ≠ first.dest := by
        rintro d ⟨⟩
        exact apart
      dsimp only at run
      rw [if_neg counted,target] at run
      dsimp only at run
      rw [shipped] at run
      dsimp only at run
      cases known : last.dest with
      | none =>
        -- The carry is dropped: a batch without an address for it counts as one without a carry.
        have single : batch.hasCarry = false := by rw [GsoBatch.hasCarry,other,known]; rfl
        rw [single,if_neg Bool.false_ne_true] at run
        cases run
        refine ⟨new,after.trace,rfl,rfl,?_,fun _ => fewer batch rfl counted⟩
        rw [traced,← List.append_nil new]
        exact batch_accounts resolved alone front kept (fun good => absurd known good) (fun _ => Nat.zero_lt_one)
      | some address =>
        have double : batch.hasCarry = true := by rw [GsoBatch.hasCarry,other,known]; rfl
        obtain ⟨carryDest,found⟩ := reliable.resolves last.dest
        rw [double,if_pos rfl,other,found] at run
        dsimp only at run
        rw [sendPlain_reliable reliable,behind] at run
        cases run
        refine ⟨new ++ [.plain carryDest last.bytes],after.trace,List.append_assoc _ _ _,rfl,?_,fun _ => fewer batch
          rfl counted⟩
        rw [traced]
        refine batch_accounts resolved alone front kept (fun _ => ?_) (fun bad => absurd ?_ bad)
        · change [(some carryDest,last.bytes)] = [(ctx.resolve last.dest,last.bytes)]
          rw [found]
        · change last.dest ≠ none
          rw [known]
          simp

/-! The whole drain. -/

/-- The wire and the passes of a drain as they have come about. -/
structure Balanced (ctx : Ctx Dest) (wire : List (Wire Dest)) (passes : List (List Polled)) : Prop where
  whole : (∀ p ∈ passes, Faultless p) → arrived wire = passes.flatMap (due ctx)
  most : (arrived wire).length ≤ (passes.flatMap (due ctx)).length
  fewer : (∃ p ∈ passes, ¬Faultless p) → (arrived wire).length < (passes.flatMap (due ctx)).length

theorem Accounts.length_le {new : List (Wire Dest)} {trace : List Polled} (accounts : Accounts ctx new trace) :
    (arrived new).length ≤ (due ctx trace).length := by
  by_cases good : Faultless trace
  · rw [accounts.1 good]
  · exact Nat.le_of_lt (accounts.2 good)

theorem Balanced.pass {wire new : List (Wire Dest)} {passes : List (List Polled)} {trace : List Polled}
    (balanced : Balanced ctx wire passes) (accounts : Accounts ctx new trace) : Balanced ctx (wire ++ new)
    (passes ++ [trace]) := by
  have sum : (passes ++ [trace]).flatMap (due ctx) = passes.flatMap (due ctx) ++ due ctx trace := by simp
  have last := accounts.length_le
  have most := balanced.most
  refine ⟨fun good => ?_,?_,?_⟩
  · rw [sum,arrived_append,balanced.whole fun p member => good p (List.mem_append_left _ member),
      accounts.1 (good trace (by simp))]
  · rw [sum,arrived_append,List.length_append,List.length_append]
    omega
  · rintro ⟨p,member,bad⟩
    rw [sum,arrived_append,List.length_append,List.length_append]
    rcases List.mem_append.mp member with before | here
    · have fewer := balanced.fewer ⟨p,before,bad⟩
      omega
    · rw [List.mem_singleton.mp here] at bad
      have fewer := accounts.2 bad
      omega

theorem drainLoop_balanced (reliable : Reliable ctx) (maxSegments fuel : Nat) (d : Drain Dest)
    (enough : d.conn.answers.length < fuel) (balanced : Balanced ctx d.wire d.passes) :
    ∃ last outcome, drainLoop ctx maxSegments fuel d = (last,some outcome) ∧ Balanced ctx last.wire last.passes := by
  induction fuel generalizing d with
  | zero => exact absurd enough (Nat.not_lt_zero _)
  | succ fuel ih =>
    unfold drainLoop
    cases active : d.active with
    | false => exact ⟨d,.returned,rfl,balanced⟩
    | true =>
      rw [if_pos rfl]
      generalize run : pass ctx maxSegments d = result
      obtain ⟨next,outcome⟩ := result
      obtain ⟨new,trace,wire,passes,accounts,fewer⟩ := pass_accounts reliable maxSegments d run
      have after : Balanced ctx next.wire next.passes := by
        rw [wire,passes]
        exact balanced.pass accounts
      cases outcome with
      | some outcome => exact ⟨next,outcome,rfl,after⟩
      | none => exact ih next (by have := fewer rfl; omega) after

/-- A drain ends, and what arrives is what the polls have answered, datagram by datagram, exactly when no pass has a fault. -/
theorem drained_exactly_when_faultless (reliable : Reliable ctx) (conn : Connection) (gsoBuf : List Byte)
    (maxSegments : Nat) :
    ∃ d outcome, drainGso ctx conn gsoBuf maxSegments = (d,some outcome) ∧
      (∀ w ∈ d.wire, ∀ (source : Address) (ecnActive : Bool), ∃ out,
        IngressIterator.Yields {msgs := [w.message source ()],options := ⟨ecnActive,true⟩,notEct := ()} out ∧ out.map
        (·.data) = w.pieces) ∧
      (arrived d.wire = d.passes.flatMap (due ctx) ↔ ∀ p ∈ d.passes, Faultless p) := by
  have start : Balanced ctx [] [] := ⟨fun _ => rfl,Nat.le_refl _,fun ⟨_,member,_⟩ => nomatch member⟩
  obtain ⟨d,outcome,run,balanced⟩ := drainLoop_balanced reliable maxSegments (conn.answers.length+1)
    {active := true,conn := conn,buf := gsoBuf} (Nat.lt_succ_self _) start
  refine ⟨d,outcome,run,fun w _ source ecnActive => message_yields w source () () ecnActive,?_,balanced.whole⟩
  intro same p member
  by_contra bad
  have fewer := balanced.fewer ⟨p,member,bad⟩
  rw [same] at fewer
  exact Nat.lt_irrefl _ fewer

end

/-- A poll that has one datagram to give, where there is room for it. -/
def Answer.of (d : Datagram) : Answer where
  answer room := if d.bytes.length ≤ room then .out d else .idle
  fits room d' same := by
    split at same
    · cases same
      assumption
    · cases same

def Answer.failing : Answer := ⟨fun _ => .failed,fun _ _ same => nomatch same⟩

def peer : Address := .ipv4 ⟨[192,0,2,1],rfl⟩ 4433
def probed : Address := .ipv4 ⟨[192,0,2,2],rfl⟩ 4433

/-- A role that falls back to the peer; the socket rejects offloaded sends. -/
def rejecting : Ctx Address where
  resolve to' := some (to'.getD peer)
  send _ := true
  sendMany _ := some .other

theorem rejecting_reliable : Reliable rejecting where
  resolves _ := ⟨_,rfl⟩
  delivers _ := rfl
  rejects _ _ same := by
    cases same
    rfl

def threeDatagrams : Connection where
  pmtu _ := 2
  answers := [.of ⟨none,[1,2]⟩,.of ⟨none,[3,4]⟩,.of ⟨none,[5]⟩]

theorem three_datagrams_arrive :
    arrived (drainGso rejecting threeDatagrams (List.replicate 8 0) 4).1.wire =
      (drainGso rejecting threeDatagrams (List.replicate 8 0) 4).1.passes.flatMap (due rejecting) := by
  obtain ⟨d,outcome,run,_,exactly⟩ := drained_exactly_when_faultless rejecting_reliable threeDatagrams (List.replicate 8 0) 4
  have passes : d.passes = [[.out ⟨none,[1,2]⟩,.out ⟨none,[3,4]⟩,.out ⟨none,[5]⟩]] := by
    rw [← show (drainGso rejecting threeDatagrams (List.replicate 8 0) 4).1 = d from congrArg Prod.fst run]
    rfl
  rw [run]
  refine exactly.mpr fun p member => ?_
  rw [passes] at member
  rw [List.mem_singleton.mp member]
  simp [Faultless]

def probedThenPeer : Connection where
  pmtu _ := 2
  answers := [.of ⟨some probed,[1,2]⟩,.of ⟨none,[3,4]⟩]

def failingLater : Connection where
  pmtu _ := 2
  answers := [.of ⟨none,[1,2]⟩,.failing]

/-- A datagram for the current peer behind one for another address is polled and never sent, and a failed poll takes the
datagram before it along. -/
theorem polled_never_sent :
    (arrived (drainGso rejecting probedThenPeer (List.replicate 8 0) 4).1.wire = [(some probed,[1,2])] ∧
      (drainGso rejecting probedThenPeer (List.replicate 8 0) 4).1.passes.flatMap (due rejecting) =
        [(some probed,[1,2]),(some peer,[3,4])]) ∧
    (arrived (drainGso rejecting failingLater (List.replicate 8 0) 4).1.wire = [] ∧
      (drainGso rejecting failingLater (List.replicate 8 0) 4).1.passes.flatMap (due rejecting) = [(some peer,[1,2])]) :=
  ⟨⟨rfl,rfl⟩,rfl,rfl⟩

end QuicZig.Transport
