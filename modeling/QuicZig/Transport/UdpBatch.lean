import QuicZig.Conn.AddressToken
import QuicZig.Library.Chunks
import QuicZig.Library.Ring

/-! Datagrams packed into one send and cut out of one receive. A batch is filled from what the
connection's polls answer; each answer depends on the room that the poll is given. -/
namespace QuicZig.Transport
open Machine Chunks
open Conn.AddressToken (Address)

/-- `none` is the connection's current peer. -/
structure Datagram where
  dest : Option Address
  bytes : List Byte
  deriving DecidableEq

inductive Polled where
  | failed
  | idle
  | out (d : Datagram)
  deriving DecidableEq

/-- What one poll answers: a datagram is no longer than the buffer that the poll is given. -/
structure Answer where
  answer : Nat → Polled
  fits : ∀ room d, answer room = .out d → d.bytes.length ≤ room

/-- The connection as its polls to come. The path's MTU may be another one before each of them; `trace` is what the
polls of the current batch have answered. -/
structure Connection where
  pmtu : Nat → Nat
  answers : List Answer
  trace : List Polled := []

namespace Connection

def currentPmtu (c : Connection) : Nat := c.pmtu c.answers.length

def pollDatagram (c : Connection) (room : Nat) : Polled × Connection :=
  match c.answers with
  | [] => (.idle,{c with trace := c.trace ++ [.idle]})
  | a::rest => (a.answer room,{c with answers := rest,trace := c.trace ++ [a.answer room]})

end Connection

structure GsoBatch where
  segSize : Nat := 0
  count : Nat := 0
  totalLen : Nat := 0
  dest : Option Address := none
  carryOffset : Nat := 0
  carryLen : Nat := 0
  carryTo : Option Address := none
  deriving DecidableEq

def GsoBatch.hasCarry (b : GsoBatch) : Bool := b.carryTo.isSome

inductive PollError where
  | poll
  deriving DecidableEq

def destEql (a b : Option Address) : Bool :=
  match a,b with
  | none,none => true
  | none,some _ => false
  | some _,none => false
  | some a,some b => decide (a = b)

abbrev Filled := Except PollError GsoBatch × List Byte × Connection

/-- The polls behind the first one, each given a slice of the stride's length. -/
def fillLoop (seg : Nat) : Nat → GsoBatch → List Byte → Connection → Filled
  | 0,batch,buf,c => (.ok batch,buf,c)
  | left+1,batch,buf,c =>
    let off := batch.totalLen
    if off+seg > buf.length then (.ok batch,buf,c)
    else
      match c.pollDatagram seg with
      | (.failed,c) => (.error .poll,buf,c)
      | (.idle,c) => (.ok batch,buf,c)
      | (.out d,c) =>
        let buf := Ring.store buf off d.bytes
        if destEql batch.dest d.dest then
          let batch := {batch with
            totalLen := batch.totalLen+d.bytes.length
            count := batch.count+1}
          if d.bytes.length < seg then (.ok batch,buf,c) else fillLoop seg left batch buf c
        else
          (.ok {batch with
            carryOffset := off
            carryLen := d.bytes.length
            carryTo := d.dest},buf,c)

def fillGsoBatch (c : Connection) (buf : List Byte) (maxSegments : Nat) : Filled :=
  if maxSegments = 0 ∨ buf.length = 0 then (.ok {},buf,c)
  else
    let pmtuCap := min c.currentPmtu buf.length
    if pmtuCap = 0 then (.ok {},buf,c)
    else
      match c.pollDatagram buf.length with
      | (.failed,c) => (.error .poll,buf,c)
      | (.idle,c) => (.ok {},buf,c)
      | (.out first,c) =>
        let buf := Ring.store buf 0 first.bytes
        let batch := {dest := first.dest,totalLen := first.bytes.length,count := 1,segSize := first.bytes.length}
        if first.bytes.length > pmtuCap then (.ok batch,buf,c)
        else fillLoop first.bytes.length (maxSegments-1) batch buf c

/-! The receiving side. -/

/-- `gro` is the stride that the control buffer reports, and `ecn` the codepoint that it carries. -/
structure IncomingMessage (Ecn : Type) where
  source : Address
  data : List Byte
  trunc : Bool := false
  gro : Option Nat := none
  ecn : Ecn

structure IngressOptions where
  ecnActive : Bool
  groActive : Bool

structure IngressDatagram (Ecn : Type) where
  data : List Byte
  source : Address
  ecn : Ecn
  msgIndex : Nat
  lastInMessage : Bool

structure Split (Ecn : Type) where
  data : List Byte
  source : Address
  ecn : Ecn
  off : Nat := 0
  seg : Nat
  index : Nat

/-- `notEct` is the codepoint of a message without one. The split in progress is `cur`. -/
structure IngressIterator (Ecn : Type) where
  msgs : List (IncomingMessage Ecn)
  options : IngressOptions
  notEct : Ecn
  nextMsg : Nat := 0
  cur : Option (Split Ecn) := none

section
variable {Ecn : Type}

namespace IngressIterator

/-- The next piece of a split; a split ends with its last piece. -/
def advance (s : Split Ecn) : IngressDatagram Ecn × Option (Split Ecn) :=
  let stop := min (s.off+s.seg) s.data.length
  let last := decide (stop = s.data.length)
  ({data := (s.data.take stop).drop s.off,source := s.source,ecn := s.ecn,msgIndex := s.index,lastInMessage := last},
    if last then none else some {s with off := stop})

def ecnOf (it : IngressIterator Ecn) (msg : IncomingMessage Ecn) : Ecn := if it.options.ecnActive then msg.ecn else it.notEct

def strideOf (it : IngressIterator Ecn) (msg : IncomingMessage Ecn) : Option Nat :=
  if it.options.groActive then msg.gro.filter fun seg => decide (seg ≠ 0 ∧ msg.data.length > seg) else none

/-- The loop over the messages from `nextMsg` on, `left` of them. -/
def openNext (it : IngressIterator Ecn) : Nat → Nat → Option (IngressDatagram Ecn × IngressIterator Ecn)
  | 0,_ => none
  | left+1,index =>
    match it.msgs[index]? with
    | none => none
    | some msg =>
      if msg.trunc then openNext it left (index+1)
      else
        match it.strideOf msg with
        | some seg =>
          let (out,cur) := advance {data := msg.data,source := msg.source,ecn := it.ecnOf msg,seg := seg,index := index}
          some (out,{it with nextMsg := index+1,cur := cur})
        | none =>
          some ({data := msg.data,source := msg.source,ecn := it.ecnOf msg,msgIndex := index,lastInMessage := true},
            {it with nextMsg := index+1})

def next (it : IngressIterator Ecn) : Option (IngressDatagram Ecn × IngressIterator Ecn) :=
  match it.cur with
  | some s =>
    let (out,cur) := advance s
    some (out,{it with cur := cur})
  | none => it.openNext (it.msgs.length-it.nextMsg) it.nextMsg

inductive Yields : IngressIterator Ecn → List (IngressDatagram Ecn) → Prop where
  | done {it : IngressIterator Ecn} (last : it.next = none) : Yields it []
  | more {it after : IngressIterator Ecn} {d : IngressDatagram Ecn} {rest : List (IngressDatagram Ecn)}
      (first : it.next = some (d,after)) (later : Yields after rest) : Yields it (d::rest)

end IngressIterator

end

theorem destEql_iff (a b : Option Address) : destEql a b = true ↔ a = b := by
  cases a <;> cases b <;> simp [destEql]

/-! What a fill packs. -/

/-- The batch's part of the buffer is `segments` back to back, the last of which may be short. -/
structure Packed (batch : GsoBatch) (buf : List Byte) (dest : Option Address) (segments : List (List Byte)) : Prop where
  count : batch.count = segments.length
  total : batch.totalLen = segments.flatten.length
  bytes : buf.take batch.totalLen = segments.flatten
  stride : Strided batch.segSize segments
  dest : batch.dest = dest

/-- How a fill ends behind its last segment. -/
inductive Ending where
  | stopped
  | idle
  | failed
  | carry (d : Datagram)

def Ending.answers : Ending → List Polled
  | .stopped => []
  | .idle => [.idle]
  | .failed => [.failed]
  | .carry d => [.out d]

inductive Fills (dest : Option Address) (segments : List (List Byte)) :
    Ending → Except PollError GsoBatch → List Byte → Prop where
  | stopped {batch : GsoBatch} {buf : List Byte} (packed : Packed batch buf dest segments) (alone : batch.carryTo = none) :
      Fills dest segments .stopped (.ok batch) buf
  | idle {batch : GsoBatch} {buf : List Byte} (packed : Packed batch buf dest segments) (alone : batch.carryTo = none) :
      Fills dest segments .idle (.ok batch) buf
  | failed {buf : List Byte} : Fills dest segments .failed (.error .poll) buf
  | carry {batch : GsoBatch} {buf : List Byte} {d : Datagram} (packed : Packed batch buf dest segments)
      (apart : d.dest ≠ dest) (other : batch.carryTo = d.dest)
      (behind : (buf.drop batch.carryOffset).take batch.carryLen = d.bytes) :
      Fills dest segments (.carry d) (.ok batch) buf

theorem take_store (buf : List Byte) (off : Nat) (data : List Byte) (inside : off ≤ buf.length) :
    (Ring.store buf off data).take off = buf.take off := by
  unfold Ring.store
  rw [List.append_assoc,List.take_left' (by rw [List.length_take]; omega)]

theorem take_store_behind (buf : List Byte) (off : Nat) (data : List Byte) (inside : off ≤ buf.length) :
    (Ring.store buf off data).take (off+data.length) = buf.take off ++ data := by
  unfold Ring.store
  rw [List.take_left' (by rw [List.length_append,List.length_take]; omega)]

theorem drop_store (buf : List Byte) (off : Nat) (data : List Byte) (inside : off ≤ buf.length) :
    ((Ring.store buf off data).drop off).take data.length = data := by
  unfold Ring.store
  rw [List.append_assoc,List.drop_left' (by rw [List.length_take]; omega),List.take_left' rfl]

theorem Packed.extend {batch : GsoBatch} {buf : List Byte} {dest : Option Address} {segments : List (List Byte)}
    (packed : Packed batch buf dest segments) (full : ∀ s ∈ segments, s.length = batch.segSize) (data : List Byte)
    (short : data.length ≤ batch.segSize) (inside : batch.totalLen ≤ buf.length) :
    Packed {batch with totalLen := batch.totalLen+data.length,count := batch.count+1}
      (Ring.store buf batch.totalLen data) dest (segments ++ [data]) where
  count := by simp [packed.count]
  total := by simp [packed.total]
  bytes := by
    change (Ring.store buf batch.totalLen data).take (batch.totalLen+data.length) = _
    rw [take_store_behind _ _ _ inside,packed.bytes]
    simp
  stride := strided_concat full short
  dest := packed.dest

theorem fillLoop_fills (left : Nat) (batch : GsoBatch) (buf : List Byte) (c : Connection) (dest : Option Address)
    (segments : List (List Byte)) (packed : Packed batch buf dest segments) (full : ∀ s ∈ segments, s.length = batch.segSize)
    (inside : batch.totalLen ≤ buf.length) (alone : batch.carryTo = none)
    {result : Except PollError GsoBatch} {filled : List Byte} {after : Connection}
    (run : fillLoop batch.segSize left batch buf c = (result,filled,after)) :
    ∃ more ending, after.trace = c.trace ++ (more.map fun s => .out ⟨dest,s⟩) ++ ending.answers ∧
      Fills dest (segments ++ more) ending result filled ∧ after.answers.length ≤ c.answers.length := by
  induction left generalizing batch buf c segments with
  | zero =>
    cases run
    exact ⟨[],.stopped,by simp [Ending.answers],by simpa using .stopped packed alone,Nat.le_refl _⟩
  | succ left ih =>
    unfold fillLoop at run
    dsimp only at run
    by_cases exhausted : batch.totalLen+batch.segSize > buf.length
    · rw [if_pos exhausted] at run
      cases run
      exact ⟨[],.stopped,by simp [Ending.answers],by simpa using .stopped packed alone,Nat.le_refl _⟩
    · rw [if_neg exhausted] at run
      unfold Connection.pollDatagram at run
      cases polls : c.answers with
      | nil =>
        rw [polls] at run
        cases run
        exact ⟨[],.idle,by simp [Ending.answers],by simpa using .idle packed alone,by simp⟩
      | cons a rest =>
        rw [polls] at run
        dsimp only at run
        cases answered : a.answer batch.segSize with
        | failed =>
          rw [answered] at run
          cases run
          exact ⟨[],.failed,by simp [Ending.answers],.failed,by simp⟩
        | idle =>
          rw [answered] at run
          cases run
          exact ⟨[],.idle,by simp [Ending.answers],by simpa using .idle packed alone,by simp⟩
        | out d =>
          have short := a.fits _ _ answered
          rw [answered] at run
          dsimp only at run
          by_cases same : batch.dest = d.dest
          · rw [if_pos ((destEql_iff _ _).mpr same)] at run
            have again := packed.extend full d.bytes short inside
            have this : d = ⟨dest,d.bytes⟩ := by
              rw [← packed.dest,same]
            by_cases last : d.bytes.length < batch.segSize
            · rw [if_pos last] at run
              cases run
              refine ⟨[d.bytes],.stopped,?_,.stopped again alone,by simp⟩
              simp only [Ending.answers,List.map_cons,List.map_nil,List.append_nil,← this]
            · rw [if_neg last] at run
              have length := Ring.length_store buf batch.totalLen d.bytes (by omega)
              obtain ⟨more,ending,trace,fills,fewer⟩ := ih
                {batch with totalLen := batch.totalLen+d.bytes.length,count := batch.count+1} _ _ _ again
                (by
                  intro s member
                  rcases List.mem_append.mp member with old | new
                  · exact full s old
                  · rw [List.mem_singleton.mp new]
                    exact Nat.le_antisymm short (Nat.le_of_not_lt last))
                (by rw [length]; change batch.totalLen+d.bytes.length ≤ _; omega) alone run
              refine ⟨d.bytes::more,ending,?_,by simpa using fills,by simp at fewer ⊢; omega⟩
              rw [trace]
              simp only [List.map_cons,List.append_assoc,List.cons_append,List.nil_append,← this]
          · rw [if_neg (fun equal => same ((destEql_iff _ _).mp equal))] at run
            cases run
            refine ⟨[],.carry d,by simp [Ending.answers],?_,by simp⟩
            rw [List.append_nil]
            refine .carry ⟨packed.count,packed.total,?_,packed.stride,packed.dest⟩ ?_ rfl ?_
            · change (Ring.store buf batch.totalLen d.bytes).take batch.totalLen = _
              rw [take_store _ _ _ inside,packed.bytes]
            · rw [← packed.dest]
              exact fun equal => same equal.symm
            · exact drop_store _ _ _ inside

/-- What a whole fill hands back: nothing, an error, or a batch that its first datagram opens. -/
inductive Opens : List Polled → Except PollError GsoBatch → List Byte → Prop where
  | quiet {trace : List Polled} {batch : GsoBatch} {buf : List Byte} (silent : trace = [] ∨ trace =
    [.idle]) (empty : batch.count = 0) :
      Opens trace (.ok batch) buf
  | failed {buf : List Byte} : Opens [.failed] (.error .poll) buf
  | batch {result : Except PollError GsoBatch} {buf : List Byte} (first : Datagram) (more : List (List Byte))
    (ending : Ending)
      (fills : Fills first.dest (first.bytes::more) ending result buf) :
      Opens (.out first::(more.map fun s => .out ⟨first.dest,s⟩) ++ ending.answers) result buf

theorem fillGsoBatch_opens (c : Connection) (buf : List Byte) (maxSegments : Nat) (fresh : c.trace = [])
    {result : Except PollError GsoBatch} {filled : List Byte} {after : Connection}
    (run : fillGsoBatch c buf maxSegments = (result,filled,after)) :
    Opens after.trace result filled ∧ after.answers.length ≤ c.answers.length ∧
      (∀ batch, result = .ok batch → batch.count ≠ 0 → after.answers.length < c.answers.length) := by
  unfold fillGsoBatch at run
  dsimp only at run
  by_cases useless : maxSegments = 0 ∨ buf.length = 0
  · rw [if_pos useless] at run
    cases run
    exact ⟨.quiet (.inl fresh) rfl,Nat.le_refl _,fun _ same some => absurd (by cases same; rfl) some⟩
  rw [if_neg useless] at run
  by_cases closed : min c.currentPmtu buf.length = 0
  · rw [if_pos closed] at run
    cases run
    exact ⟨.quiet (.inl fresh) rfl,Nat.le_refl _,fun _ same some => absurd (by cases same; rfl) some⟩
  rw [if_neg closed] at run
  unfold Connection.pollDatagram at run
  cases polls : c.answers with
  | nil =>
    rw [polls] at run
    cases run
    exact ⟨.quiet (.inr (by rw [fresh]; rfl)) rfl,by simp,fun _ same some => absurd (by cases same; rfl) some⟩
  | cons a rest =>
    rw [polls] at run
    dsimp only at run
    cases answered : a.answer buf.length with
    | failed =>
      rw [answered] at run
      cases run
      refine ⟨?_,by simp,fun _ same => nomatch same⟩
      rw [fresh]
      exact .failed
    | idle =>
      rw [answered] at run
      cases run
      exact ⟨.quiet (.inr (by rw [fresh]; rfl)) rfl,by simp,fun _ same some => absurd (by cases same; rfl) some⟩
    | out first =>
      have room := a.fits _ _ answered
      rw [answered] at run
      dsimp only at run
      have packed : Packed {dest := first.dest,totalLen := first.bytes.length,count := 1,segSize := first.bytes.length}
          (Ring.store buf 0 first.bytes) first.dest [first.bytes] := by
        refine ⟨rfl,by simp,?_,⟨by simp,by simp⟩,rfl⟩
        change (Ring.store buf 0 first.bytes).take first.bytes.length = _
        have stored := take_store_behind buf 0 first.bytes (Nat.zero_le _)
        simpa using stored
      by_cases probe : first.bytes.length > min c.currentPmtu buf.length
      · rw [if_pos probe] at run
        cases run
        refine ⟨?_,by simp,by simp⟩
        rw [fresh]
        exact .batch first [] .stopped (.stopped packed rfl)
      · rw [if_neg probe] at run
        have length := Ring.length_store buf 0 first.bytes (by omega)
        obtain ⟨more,ending,trace,fills,fewer⟩ := fillLoop_fills _ _ _ _ _ _ packed (by simp)
          (by rw [length]; exact room) rfl run
        simp only [fresh,List.nil_append] at trace
        dsimp only at fewer
        refine ⟨?_,by simp; omega,fun _ _ _ => by simp; omega⟩
        rw [trace]
        exact .batch first more ending fills

/-! What the receiving iterator yields. -/

section
variable {Ecn : Type}

def marked : List (List Byte) → List (List Byte × Bool)
  | [] => []
  | [piece] => [(piece,true)]
  | piece::next::rest => (piece,false)::marked (next::rest)

theorem map_fst_marked (pieces : List (List Byte)) : (marked pieces).map Prod.fst = pieces := by
  induction pieces with
  | nil => rfl
  | cons piece rest ih =>
    cases rest with
    | nil => rfl
    | cons next rest => exact congrArg (piece::·) ih

namespace IngressIterator

def pieces (it : IngressIterator Ecn) (msg : IncomingMessage Ecn) : List (List Byte) :=
  if msg.trunc then []
  else
    match it.strideOf msg with
    | some seg => cut seg msg.data
    | none => [msg.data]

def carved (it : IngressIterator Ecn) (msg : IncomingMessage Ecn) (index : Nat) : List (IngressDatagram Ecn) :=
  (marked (it.pieces msg)).map fun piece =>
    {data := piece.1,source := msg.source,ecn := it.ecnOf msg,msgIndex := index,lastInMessage := piece.2}

theorem advance_last (s : Split Ecn) (last : s.data.length ≤ s.off+s.seg) :
    advance s = ({data := s.data.drop s.off,source := s.source,ecn := s.ecn,msgIndex := s.index,lastInMessage := true},
    none) := by
  unfold advance
  simp [Nat.min_eq_right last]

theorem advance_more (s : Split Ecn) (more : s.off+s.seg < s.data.length) :
    advance s = ({data := (s.data.drop s.off).take s.seg,source := s.source,ecn := s.ecn,msgIndex := s.index,lastInMessage := false},
      some {s with off := s.off+s.seg}) := by
  have apart : s.off+s.seg ≠ s.data.length := by omega
  unfold advance
  simp [Nat.min_eq_left (Nat.le_of_lt more),apart,List.drop_take]

theorem next_split (it : IngressIterator Ecn) (s : Split Ecn) :
    ({it with cur := some s} : IngressIterator Ecn).next = some ((advance s).1,{it with cur := (advance s).2}) := rfl

theorem next_idle (it : IngressIterator Ecn) (idle : it.cur = none) :
    it.next = it.openNext (it.msgs.length-it.nextMsg) it.nextMsg := by
  unfold next
  rw [idle]

theorem Yields.congr {it other : IngressIterator Ecn} {out : List (IngressDatagram Ecn)} (same : it.next = other.next)
    (yields : Yields other out) : Yields it out := by
  cases yields with
  | done last => exact .done (same.trans last)
  | more first later => exact .more (same.trans first) later

theorem split_yields (it : IngressIterator Ecn) (s : Split Ecn) (positive : 0 < s.seg) (inside : s.off < s.data.length)
    (later : List (IngressDatagram Ecn)) (behind : Yields {it with cur := none} later) :
    Yields {it with cur := some s} (((marked (cut s.seg (s.data.drop s.off))).map fun piece =>
      {data := piece.1,source := s.source,ecn := s.ecn,msgIndex := s.index,lastInMessage := piece.2}) ++ later) := by
  induction left : s.data.length-s.off using Nat.strong_induction_on generalizing s with
  | _ n ih =>
    have some : s.data.drop s.off ≠ [] := by
      rw [← List.length_pos_iff,List.length_drop]
      omega
    have opening := next_split it s
    rw [cut_cons positive some,List.drop_drop]
    by_cases last : s.data.length ≤ s.off+s.seg
    · rw [advance_last s last] at opening
      rw [List.drop_eq_nil_of_le last,cut_nil,List.take_of_length_le (by rw [List.length_drop]; omega)]
      exact .more opening behind
    · have more : s.off+s.seg < s.data.length := Nat.lt_of_not_le last
      rw [advance_more s more] at opening
      have fewer : s.data.length-(s.off+s.seg) < n := by omega
      have again := ih _ fewer {s with off := s.off+s.seg} positive more rfl
      have rest : s.data.drop (s.off+s.seg) ≠ [] := by
        rw [← List.length_pos_iff,List.length_drop]
        omega
      dsimp only at again
      rw [cut_cons positive rest] at again ⊢
      exact .more opening again

theorem openNext_place (it : IngressIterator Ecn) (place left index : Nat) :
    ({it with nextMsg := place} : IngressIterator Ecn).openNext left index = it.openNext left index := by
  induction left generalizing index with
  | zero => rfl
  | succ left ih =>
    unfold openNext
    dsimp only
    cases it.msgs[index]? with
    | none => rfl
    | some msg =>
      dsimp only
      split
      · exact ih (index+1)
      · rfl

/-- From a place between two messages on, the iterator yields the pieces of every message that is not truncated. -/
theorem yields_carved (it : IngressIterator Ecn) (idle : it.cur = none) :
    Yields it (((it.msgs.drop it.nextMsg).zipIdx it.nextMsg).flatMap fun (msg,index) => it.carved msg index) := by
  induction left : it.msgs.length-it.nextMsg generalizing it with
  | zero =>
    rw [List.drop_eq_nil_of_le (by omega)]
    exact .done (by rw [next_idle it idle,left]; rfl)
  | succ n ih =>
    have inside : it.nextMsg < it.msgs.length := by omega
    have here : it.msgs[it.nextMsg]? = some it.msgs[it.nextMsg] := List.getElem?_eq_getElem inside
    have fewer : it.msgs.length-(it.nextMsg+1) = n := by omega
    have later := ih {it with nextMsg := it.nextMsg+1} idle fewer
    have opening := next_idle it idle
    rw [left,openNext,here] at opening
    rw [List.drop_eq_getElem_cons inside,List.zipIdx_cons,List.flatMap_cons]
    generalize it.msgs[it.nextMsg] = msg at opening
    dsimp only at opening later ⊢
    unfold carved pieces
    by_cases trunc : msg.trunc = true
    · rw [if_pos trunc] at opening ⊢
      refine .congr ?_ later
      rw [opening,next_idle {it with nextMsg := it.nextMsg+1} idle]
      dsimp only
      rw [fewer]
      exact (openNext_place it _ _ _).symm
    · rw [if_neg trunc] at opening ⊢
      cases stride : it.strideOf msg with
      | none =>
        rw [stride] at opening
        exact .more opening later
      | some seg =>
        rw [stride] at opening
        have positive : 0 < seg ∧ 0 < msg.data.length := by
          unfold strideOf at stride
          split at stride
          · obtain ⟨_,bound⟩ := Option.filter_eq_some_iff.mp stride
            simp only [decide_eq_true_eq] at bound
            omega
          · cases stride
        refine .congr ?_ (split_yields {it with nextMsg := it.nextMsg+1}
          {data := msg.data,source := msg.source,ecn := it.ecnOf msg,seg := seg,index := it.nextMsg} positive.1
            positive.2 _ ?_)
        · rw [opening,next_split]
        · have same : ({it with nextMsg := it.nextMsg+1} : IngressIterator Ecn) =
              {it with nextMsg := it.nextMsg+1,cur := none} := by rw [← idle]
          rw [← same]
          exact later

end IngressIterator

end

end QuicZig.Transport
