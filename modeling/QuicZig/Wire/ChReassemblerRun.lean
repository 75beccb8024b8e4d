import QuicZig.Wire.ChReassembler
import QuicZig.Library.System
import Mathlib.Tactic.IntervalCases

/-! The pieces of a ClientHello over whole runs: what the table covers, when the declared length is
there, and which bytes come back. -/
namespace QuicZig.Wire.ChReassembler
open Machine QuicZig.Frame RangeList Spans

theorem slice?_some {bytes : List Byte} {start stop : Nat} (order : start ≤ stop) (within : stop ≤ bytes.length) :
    slice? bytes start stop = some ((bytes.take stop).drop start) := if_pos ⟨order,within⟩

theorem getElem?_slice? (bytes : List Byte) (start stop i : Nat) :
    ((bytes.take stop).drop start)[i]? = if start+i < stop then bytes[start+i]? else none := by
  rw [List.getElem?_drop,List.getElem?_take]

namespace Reassembler

theorem absorb_swallow {merged : Segment} {segs : List Segment} (above : ∀ s ∈ segs, merged.offset ≤ s.offset) :
    absorb merged segs = swallow merged segs := by
  induction segs generalizing merged with
  | nil => rfl
  | cons s segs ih =>
    unfold absorb swallow
    by_cases touches : s.offset ≤ merged.stop
    · rw [if_pos touches,if_pos touches,Nat.min_eq_right (above s List.mem_cons_self),Nat.max_comm]
      exact ih fun next member => above next (List.mem_cons_of_mem _ member)
    · rw [if_neg touches,if_neg touches]

theorem absorb_fewer (merged : Segment) (segs : List Segment) : (absorb merged segs).2.length ≤ segs.length := by
  induction segs generalizing merged with
  | nil => exact Nat.le_refl _
  | cons s segs ih =>
    unfold absorb
    split
    · exact Nat.le_trans (ih _) (Nat.le_succ _)
    · exact Nat.le_refl _

/-- The table of a fixed size takes what the list that grows would, while there is room. -/
theorem insertSegment_merge {segs : List Segment} (sorted : Sorted segs) {off stop : Nat} (proper : off < stop) :
    insertSegment segs off stop =
      match insertMerge (decide (segs.length < maxSegments)) segs ⟨off,stop⟩ with
      | (.ok (),list) => .ok list
      | (.error _,_) => .error .invalid := by
  unfold insertSegment insertMerge
  rw [if_neg (by simpa using proper)]
  have whole : segs.takeWhile (·.stop < off) ++ segs.dropWhile (·.stop < off) = segs := List.takeWhile_append_dropWhile
  have upper : Sorted (segs.dropWhile (·.stop < off)) := by
    rw [← whole] at sorted
    exact ((separated_append _ _).mp sorted).2.1
  dsimp only
  generalize segs.dropWhile (·.stop < off) = after at upper
  cases after with
  | nil =>
    unfold absorb
    dsimp only
    rw [if_pos rfl]
    by_cases full : segs.length ≥ maxSegments
    · rw [if_pos full,decide_eq_false (Nat.not_lt.mpr full)]
      rfl
    · rw [if_neg full,decide_eq_true (Nat.not_le.mp full)]
      rfl
  | cons first rest =>
    obtain ⟨real,gap,tail⟩ := (separated_cons first rest).mp upper
    dsimp only
    unfold absorb
    by_cases touches : first.offset ≤ stop
    · have above : ∀ s ∈ rest, (⟨min first.offset off,max first.stop stop⟩ : Segment).offset ≤ s.offset := by
        intro s member
        have far := gap s member
        exact Nat.le_trans (Nat.min_le_left _ _) (by omega)
      have fewer := absorb_fewer ⟨min first.offset off,max first.stop stop⟩ rest
      rw [if_pos touches,if_neg (Nat.not_lt.mpr touches)]
      dsimp only
      rw [if_neg (by rw [List.length_cons]; omega),absorb_swallow above]
    · rw [if_neg touches,if_pos (Nat.not_le.mp touches)]
      dsimp only
      rw [if_pos rfl]
      by_cases full : segs.length ≥ maxSegments
      · rw [if_pos full,decide_eq_false (Nat.not_lt.mpr full)]
        rfl
      · rw [if_neg full,decide_eq_true (Nat.not_le.mp full)]
        rfl

theorem insertSegment_spec {segs list : List Segment} (sorted : Sorted segs) {off stop : Nat} (proper : off < stop)
    (done : insertSegment segs off stop = .ok list) :
    Sorted list ∧ ∀ x, Covered list x ↔ Covered segs x ∨ (off ≤ x ∧ x < stop) := by
  rw [insertSegment_merge sorted proper] at done
  have spec := insertMerge_spec (decide (segs.length < maxSegments)) segs ⟨off,stop⟩ sorted
  generalize insertMerge _ _ _ = out at done spec
  obtain ⟨_ | _,list'⟩ := out
  · nomatch done
  · cases done
    exact spec rfl

/-- Where a merge would need room for one more, the list would be one longer. -/
theorem insertMerge_grows {segs : List Segment} {new : Segment} {error : AllocError}
    (failed : (insertMerge false segs new).1 = .error error) :
    (insertMerge true segs new).1 = .ok () ∧ (insertMerge true segs new).2.length = segs.length+1 := by
  unfold insertMerge at failed ⊢
  have whole := congrArg List.length (@List.takeWhile_append_dropWhile _ (fun r : Segment => decide (r.stop < new.offset)) segs)
  rw [List.length_append] at whole
  by_cases empty : new.offset ≥ new.stop
  · rw [if_pos empty] at failed
    nomatch failed
  rw [if_neg empty] at failed ⊢
  dsimp only at failed ⊢
  generalize segs.dropWhile (fun r => decide (r.stop < new.offset)) = after at failed whole
  cases after with
  | nil =>
    refine ⟨rfl,?_⟩
    rw [if_pos rfl,List.length_append,List.length_singleton,← whole]
    rfl
  | cons first rest =>
    dsimp only at failed ⊢
    by_cases apart : first.offset > new.stop
    · rw [if_pos apart]
      refine ⟨rfl,?_⟩
      rw [if_pos rfl,List.length_append,List.length_cons,← whole]
      rfl
    · rw [if_neg apart] at failed
      nomatch failed

theorem insertSegment_error {segs : List Segment} (sorted : Sorted segs) {off stop : Nat} (proper : off < stop) {e : Error}
    (refused : insertSegment segs off stop = .error e) : e = .invalid ∧ ∃ list, Sorted list ∧
      (∀ x, Covered list x ↔ Covered segs x ∨ (off ≤ x ∧ x < stop)) ∧ maxSegments < list.length := by
  rw [insertSegment_merge sorted proper] at refused
  cases out : insertMerge (decide (segs.length < maxSegments)) segs ⟨off,stop⟩ with
  | mk result list =>
    rw [out] at refused
    cases result with
    | ok => nomatch refused
    | error error =>
      cases refused
      have failed : (insertMerge (decide (segs.length < maxSegments)) segs ⟨off,stop⟩).1 = .error error := congrArg Prod.fst out
      obtain ⟨none,_⟩ := insertMerge_error _ _ _ _ failed
      have full := of_decide_eq_false none
      rw [none] at failed
      obtain ⟨ok,longer⟩ := insertMerge_grows failed
      obtain ⟨sorted',covers⟩ := insertMerge_spec true segs ⟨off,stop⟩ sorted ok
      exact ⟨rfl,_,sorted',covers,by omega⟩

/-- The bytes that the segments cover are within the buffer, and the frontier is the first byte that is not covered. -/
structure Sound (r : Reassembler) : Prop where
  sorted : Sorted r.segs
  within : ∀ x, Covered r.segs x → x < r.dst.length
  reached : ∀ x < r.contigEnd, Covered r.segs x
  open' : ¬Covered r.segs r.contigEnd
  declared : ∀ want, r.declaredLen = some want → want ≤ r.dst.length

theorem Sound.stops {r : Reassembler} (sound : r.Sound) {s : Segment} (member : s ∈ r.segs) : s.stop ≤ r.dst.length := by
  have proper := sound.sorted.proper s member
  have last := sound.within (s.stop-1) ⟨s,member,by omega,by omega⟩
  omega

theorem overlapsAndDiffers_spec {dst : List Byte} {off : Nat} {data : List Byte} {segs : List Segment}
    (stops : ∀ s ∈ segs, s.stop ≤ dst.length) (proper : ∀ s ∈ segs, s.offset < s.stop) (some' : 0 < data.length) :
    ∃ differs, overlapsAndDiffers dst off data segs = some differs ∧
      (differs = true ↔ ∃ x, Covered segs x ∧ off ≤ x ∧ x < off+data.length ∧ dst[x]? ≠ data[x-off]?) := by
  induction segs with
  | nil =>
    refine ⟨false,rfl,⟨nofun,?_⟩⟩
    rintro ⟨x,⟨s,member,_⟩,_⟩
    nomatch member
  | cons s segs ih =>
    obtain ⟨differs,same,iff⟩ := ih (fun s member => stops s (List.mem_cons_of_mem _ member))
      fun s member => proper s (List.mem_cons_of_mem _ member)
    have real := proper s List.mem_cons_self
    have room := stops s List.mem_cons_self
    unfold overlapsAndDiffers
    by_cases apart : s.offset ≥ off+data.length ∨ s.stop ≤ off
    · rw [if_pos apart]
      refine ⟨differs,same,iff.trans (exists_congr fun x => ?_)⟩
      rw [covered_cons]
      constructor
      · exact fun ⟨covered,rest⟩ => ⟨.inr covered,rest⟩
      · rintro ⟨inside | covered,low,high,rest⟩
        · omega
        · exact ⟨covered,low,high,rest⟩
    rw [if_neg apart]
    dsimp only
    rw [slice?_some (by omega) (by omega),slice?_some (by omega) (by omega)]
    dsimp only
    have pointwise : (dst.take (min s.stop (off+data.length))).drop (max s.offset off) ≠
        (data.take (min s.stop (off+data.length)-off)).drop (max s.offset off-off) ↔
        ∃ x, (s.offset ≤ x ∧ x < s.stop) ∧ off ≤ x ∧ x < off+data.length ∧ dst[x]? ≠ data[x-off]? := by
      rw [Ne,List.ext_getElem?_iff,not_forall]
      constructor
      · rintro ⟨i,apart⟩
        rw [getElem?_slice?,getElem?_slice?] at apart
        by_cases inside : max s.offset off+i < min s.stop (off+data.length)
        · rw [if_pos inside,if_pos (by omega)] at apart
          refine ⟨max s.offset off+i,⟨by omega,by omega⟩,by omega,by omega,?_⟩
          rwa [show max s.offset off+i-off = max s.offset off-off+i by omega]
        · rw [if_neg inside,if_neg (by omega)] at apart
          exact absurd rfl apart
      · rintro ⟨x,⟨low,high⟩,low',high',apart⟩
        refine ⟨x-max s.offset off,?_⟩
        rw [getElem?_slice?,getElem?_slice?,if_pos (by omega),if_pos (by omega)]
        rwa [show max s.offset off+(x-max s.offset off) = x by omega,
          show max s.offset off-off+(x-max s.offset off) = x-off by omega]
    by_cases differ : (dst.take (min s.stop (off+data.length))).drop (max s.offset off) ≠
        (data.take (min s.stop (off+data.length)-off)).drop (max s.offset off-off)
    · rw [if_pos differ]
      obtain ⟨x,inside,rest⟩ := pointwise.mp differ
      exact ⟨true,rfl,⟨fun _ => ⟨x,(covered_cons _ _ _).mpr (.inl inside),rest⟩,fun _ => rfl⟩⟩
    · rw [if_neg differ]
      refine ⟨differs,same,iff.trans ⟨fun ⟨x,covered,rest⟩ => ⟨x,(covered_cons _ _ _).mpr (.inr covered),rest⟩,?_⟩⟩
      rintro ⟨x,covered,rest⟩
      rcases (covered_cons _ _ _).mp covered with inside | covered
      · exact absurd (pointwise.mpr ⟨x,inside,rest⟩) differ
      · exact ⟨x,covered,rest⟩

theorem advanceContig_spec {r : Reassembler} (sorted : Sorted r.segs) (reached : ∀ x < r.contigEnd, Covered r.segs x) :
    ∃ stop, r.advanceContig = {r with contigEnd := stop} ∧ (∀ x < stop, Covered r.segs x) ∧ ¬Covered r.segs stop := by
  obtain ⟨dst,contigEnd,declaredLen,segs⟩ := r
  dsimp only at sorted reached
  unfold advanceContig
  cases segs with
  | nil => exact ⟨contigEnd,rfl,reached,covers_nil _⟩
  | cons s rest =>
    have apart := sorted.gap_after List.mem_cons_self
    have inFirst : ∀ x, s.offset ≤ x → x < s.stop → Covered (s::rest) x := fun x low high => (covered_cons _ _ _).mpr (.inl ⟨low,high⟩)
    dsimp only
    by_cases start : s.offset ≠ 0
    · rw [if_pos start]
      have none : ¬Covered (s::rest) 0 := by
        intro covered
        rcases (covered_cons _ _ _).mp covered with inside | later
        · omega
        · have far := sorted.beyond later
          omega
      have zero : contigEnd = 0 := by
        by_contra some'
        exact none (reached 0 (by omega))
      exact ⟨contigEnd,rfl,reached,zero ▸ none⟩
    rw [if_neg start]
    have zero : s.offset = 0 := not_not.mp start
    by_cases further : s.stop > contigEnd
    · rw [if_pos further]
      exact ⟨s.stop,rfl,fun x below => inFirst x (by omega) below,apart⟩
    · rw [if_neg further]
      have same : contigEnd = s.stop := by
        by_contra other
        exact apart (reached s.stop (by omega))
      exact ⟨contigEnd,rfl,reached,same ▸ apart⟩

def Within (cr : Crypto) (x : Nat) : Prop := cr.offset ≤ x ∧ x < cr.offset+cr.data.length

def byteAt (cr : Crypto) (x : Nat) : Option Byte := cr.data[x-cr.offset]?

def Fits (r : Reassembler) (cr : Crypto) : Prop := cr.offset+cr.data.length ≤ r.dst.length ∧ cr.offset+cr.data.length ≤ maxU64

/-- A byte of the frame is there already, with another value. -/
def Conflicts (r : Reassembler) (cr : Crypto) : Prop := ∃ x, Covered r.segs x ∧ Within cr x ∧ r.dst[x]? ≠ byteAt cr x

inductive Took (r : Reassembler) (cr : Crypto) : Except Error Unit → Reassembler → Prop
  | empty (none : cr.data.length = 0) : Took r cr (.ok ()) r
  | large (some' : 0 < cr.data.length) (long : ¬Fits r cr) : Took r cr (.error .overflow) r
  | conflict (some' : 0 < cr.data.length) (fits : Fits r cr) (conflicts : Conflicts r cr) : Took r cr (.error .invalid) r
  | full (fits : Fits r cr) (agrees : ¬Conflicts r cr) (list : List Segment) (sorted : Sorted list)
      (covers : ∀ x, Covered list x ↔ Covered r.segs x ∨ Within cr x) (many : maxSegments < list.length) :
      Took r cr (.error .invalid) {r with dst := Ring.store r.dst cr.offset cr.data}
  | placed (fits : Fits r cr) (agrees : ¬Conflicts r cr) (segs : List Segment) (stop : Nat) (sorted : Sorted segs)
      (covers : ∀ x, Covered segs x ↔ Covered r.segs x ∨ Within cr x) (reached : ∀ x < stop, Covered segs x)
      (open' : ¬Covered segs stop) (out : Except Error Unit) (after : Reassembler)
      (locked : lockDeclared ⟨Ring.store r.dst cr.offset cr.data,stop,r.declaredLen,segs⟩ = some (out,after)) : Took r cr out after

theorem lockDeclared_some {r : Reassembler} (room : r.contigEnd ≥ 4 → 4 ≤ r.dst.length) : ∃ out after, r.lockDeclared = some (out,after) := by
  unfold lockDeclared
  by_cases due : r.declaredLen = none ∧ r.contigEnd ≥ 4
  · rw [if_pos due]
    match r.dst,room due.2 with
    | b0::b1::b2::b3::_,_ =>
      dsimp only
      split
      · exact ⟨_,_,rfl⟩
      split
      · exact ⟨_,_,rfl⟩
      · exact ⟨_,_,rfl⟩
  · rw [if_neg due]
    exact ⟨_,_,rfl⟩

theorem getElem?_store {r : Reassembler} {cr : Crypto} (fits : Fits r cr) (x : Nat) :
    (Ring.store r.dst cr.offset cr.data)[x]? = if cr.offset ≤ x ∧ x < cr.offset+cr.data.length then byteAt cr x else r.dst[x]? :=
  Ring.getElem?_store _ _ _ _ fits.1

theorem acceptCrypto_took {r : Reassembler} (sound : r.Sound) (cr : Crypto) :
    ∃ out after, r.acceptCrypto cr = some (out,after) ∧ Took r cr out after := by
  unfold acceptCrypto
  by_cases none : cr.data.length = 0
  · rw [if_pos none]
    exact ⟨_,_,rfl,.empty none⟩
  rw [if_neg none]
  by_cases word : cr.offset+cr.data.length > maxU64
  · rw [if_pos word]
    exact ⟨_,_,rfl,.large (by omega) fun fits => absurd word (Nat.not_lt.mpr fits.2)⟩
  rw [if_neg word]
  by_cases long : cr.offset+cr.data.length > r.dst.length
  · rw [if_pos long]
    exact ⟨_,_,rfl,.large (by omega) fun fits => absurd long (Nat.not_lt.mpr fits.1)⟩
  rw [if_neg long]
  have fits : Fits r cr := ⟨Nat.not_lt.mp long,Nat.not_lt.mp word⟩
  obtain ⟨differs,same,iff⟩ := @overlapsAndDiffers_spec r.dst cr.offset cr.data r.segs (fun s member => sound.stops member)
    (fun s member => sound.sorted.proper s member) (by omega)
  rw [same]
  cases differs with
  | true =>
    obtain ⟨x,covered,low,high,apart⟩ := iff.mp rfl
    exact ⟨_,_,rfl,.conflict (by omega) fits ⟨x,covered,⟨low,high⟩,apart⟩⟩
  | false =>
    have agrees : ¬Conflicts r cr := fun ⟨x,covered,inside,apart⟩ =>
      nomatch iff.mpr ⟨x,covered,inside.1,inside.2,apart⟩
    dsimp only
    cases put : insertSegment r.segs cr.offset (cr.offset+cr.data.length) with
    | error e =>
      obtain ⟨rfl,list,sorted,covers,many⟩ := insertSegment_error sound.sorted (by omega) put
      exact ⟨_,_,rfl,.full fits agrees list sorted covers many⟩
    | ok segs =>
      obtain ⟨sorted,covers⟩ := insertSegment_spec sound.sorted (by omega) put
      obtain ⟨stop,moved,reached,open'⟩ := @advanceContig_spec
        ⟨Ring.store r.dst cr.offset cr.data,r.contigEnd,r.declaredLen,segs⟩ sorted
        fun x below => (covers x).mpr (.inl (sound.reached x below))
      have size : (Ring.store r.dst cr.offset cr.data).length = r.dst.length := Ring.length_store _ _ _ fits.1
      obtain ⟨out,after,locked⟩ := @lockDeclared_some ⟨Ring.store r.dst cr.offset cr.data,stop,r.declaredLen,segs⟩ (by
        intro far
        have third := (covers 3).mp (reached 3 far)
        rw [size]
        rcases third with covered | inside
        · exact sound.within 3 covered
        · exact Nat.lt_of_lt_of_le inside.2 fits.1)
      refine ⟨out,after,?_,.placed fits agrees segs stop sorted covers reached open' out after locked⟩
      dsimp only
      rw [moved]
      exact locked

/-- The lock changes the declared length at most, and takes it from the first bytes. -/
theorem lockDeclared_spec {r after : Reassembler} {out : Except Error Unit} (locked : r.lockDeclared = some (out,after)) :
    ∃ declared, after = {r with declaredLen := declared} ∧
      (declared = r.declaredLen ∧ (out = .ok () → r.declaredLen = none → r.contigEnd < 4) ∨
        ∃ b1 b2 b3 rest, r.dst = tlsMsgTypeClientHello::b1::b2::b3::rest ∧ declared = some (declaredLength b1 b2 b3) ∧
          declaredLength b1 b2 b3 ≤ r.dst.length) := by
  unfold lockDeclared at locked
  by_cases due : r.declaredLen = none ∧ r.contigEnd ≥ 4
  · rw [if_pos due] at locked
    split at locked
    · rename_i b0 b1 b2 b3 rest bytes
      split at locked
      · cases locked
        exact ⟨_,rfl,.inl ⟨rfl,nofun⟩⟩
      rename_i type
      split at locked
      · cases locked
        exact ⟨_,rfl,.inl ⟨rfl,nofun⟩⟩
      rename_i fits
      cases locked
      exact ⟨_,rfl,.inr ⟨b1,b2,b3,rest,not_not.mp type ▸ bytes,rfl,Nat.not_lt.mp fits⟩⟩
    · nomatch locked
  · rw [if_neg due] at locked
    cases locked
    exact ⟨_,rfl,.inl ⟨rfl,fun _ none => Nat.not_le.mp fun far => due ⟨none,far⟩⟩⟩

theorem Took.length {r after : Reassembler} {cr : Crypto} {out : Except Error Unit} (took : Took r cr out after) :
    after.dst.length = r.dst.length := by
  cases took with
  | empty => rfl
  | large => rfl
  | conflict => rfl
  | full fits => exact Ring.length_store _ _ _ fits.1
  | placed fits _ _ _ _ _ _ _ _ _ locked =>
    obtain ⟨declared,rfl,_⟩ := lockDeclared_spec locked
    exact Ring.length_store _ _ _ fits.1

theorem Took.keeps {r after : Reassembler} {cr : Crypto} {out : Except Error Unit} (took : Took r cr out after) {x : Nat}
    (covered : Covered r.segs x) : Covered after.segs x ∧ after.dst[x]? = r.dst[x]? := by
  have stored : ∀ (fits : Fits r cr) (agrees : ¬Conflicts r cr), (Ring.store r.dst cr.offset cr.data)[x]? = r.dst[x]? := by
    intro fits agrees
    rw [getElem?_store fits]
    split
    · rename_i inside
      by_contra apart
      exact agrees ⟨x,covered,inside,fun same => apart same.symm⟩
    · rfl
  cases took with
  | empty => exact ⟨covered,rfl⟩
  | large => exact ⟨covered,rfl⟩
  | conflict => exact ⟨covered,rfl⟩
  | full fits agrees => exact ⟨covered,stored fits agrees⟩
  | placed fits agrees _ _ _ covers _ _ _ _ locked =>
    obtain ⟨declared,rfl,_⟩ := lockDeclared_spec locked
    exact ⟨(covers x).mpr (.inl covered),stored fits agrees⟩

theorem Took.sound {r after : Reassembler} {cr : Crypto} {out : Except Error Unit} (took : Took r cr out after)
    (sound : r.Sound) : after.Sound := by
  cases took with
  | empty => exact sound
  | large => exact sound
  | conflict => exact sound
  | full fits =>
    have size : (Ring.store r.dst cr.offset cr.data).length = r.dst.length := Ring.length_store _ _ _ fits.1
    exact ⟨sound.sorted,fun x covered => size ▸ sound.within x covered,sound.reached,sound.open',
      fun want there => size ▸ sound.declared want there⟩
  | placed fits _ _ _ sorted covers reached open' _ _ locked =>
    have size : (Ring.store r.dst cr.offset cr.data).length = r.dst.length := Ring.length_store _ _ _ fits.1
    obtain ⟨declared,rfl,cases⟩ := lockDeclared_spec locked
    refine ⟨sorted,fun x covered => ?_,reached,open',fun want there => ?_⟩
    · dsimp only
      rw [size]
      rcases (covers x).mp covered with old | inside
      · exact sound.within x old
      · exact Nat.lt_of_lt_of_le inside.2 fits.1
    · dsimp only at there ⊢
      rcases cases with ⟨same,_⟩ | ⟨b1,b2,b3,rest,_,new,within⟩
      · rw [size]
        exact sound.declared want (same ▸ there)
      · rw [new] at there
        cases there
        exact within

/-- A frame that is taken has its bytes in the buffer, and adds them to those that are there. -/
theorem Took.placed_ok {r after : Reassembler} {cr : Crypto} (took : Took r cr (.ok ()) after) :
    (∀ x, Covered after.segs x ↔ Covered r.segs x ∨ Within cr x) ∧ ∀ x, Within cr x → after.dst[x]? = byteAt cr x := by
  cases took with
  | empty none =>
    have outside : ∀ x, ¬Within cr x := fun x inside => by
      have low := inside.1
      have high := inside.2
      omega
    exact ⟨fun x => ⟨.inl,fun both => both.resolve_right (outside x)⟩,fun x inside => absurd inside (outside x)⟩
  | placed fits _ _ _ _ covers _ _ _ _ locked =>
    obtain ⟨declared,rfl,_⟩ := lockDeclared_spec locked
    refine ⟨covers,fun x inside => ?_⟩
    dsimp only
    rw [getElem?_store fits]
    exact if_pos inside

theorem Took.conflicting {r after : Reassembler} {cr : Crypto} {out : Except Error Unit} (took : Took r cr out after)
    (fits : Fits r cr) (conflicts : Conflicts r cr) : out = .error .invalid := by
  cases took with
  | empty none =>
    obtain ⟨x,_,inside,_⟩ := conflicts
    have low := inside.1
    have high := inside.2
    omega
  | large _ long => exact absurd fits long
  | conflict => rfl
  | full => rfl
  | placed _ agrees => exact absurd conflicts agrees

/-! ### Payloads -/

def takeAll (r : Reassembler) : List QuicZig.Frame → Option (Except Error Unit × Reassembler)
  | [] => some (.ok (),r)
  | f::frames =>
    match r.acceptFrame f with
    | none => none
    | some (.error e,r) => some (.error e,r)
    | some (.ok (),r) => takeAll r frames

/-- The loop takes the frames that can be read, and fails at the end where one cannot. -/
theorem walk_frames {fuel : Nat} {payload : List Byte} (enough : payload.length ≤ fuel) (r : Reassembler) :
    walk fuel payload r = match takeAll r (framesOf payload).1 with
      | none => none
      | some (.error e,r) => some (.error e,r)
      | some (.ok (),r) => if (framesOf payload).2.isSome then some (.error .invalid,r) else some (.ok (),r) := by
  induction fuel generalizing payload r with
  | zero =>
    rw [List.eq_nil_of_length_eq_zero (Nat.le_zero.mp enough)]
    rfl
  | succ fuel ih =>
    unfold walk
    by_cases done : payload = []
    · rw [if_pos done,done]
      rfl
    rw [if_neg done]
    cases read : decode payload with
    | error e =>
      have whole : framesOf payload = ([],some e) := by
        cases payload with
        | nil => exact absurd rfl done
        | cons first tail =>
          rw [framesOf,List.length_cons,framesWithin,if_neg (List.cons_ne_nil _ _),read]
      rw [whole]
      rfl
    | ok d =>
      obtain ⟨_,_,_,some'⟩ := decode_accepts read
      have shorter : (payload.drop d.bytesConsumed).length ≤ fuel := by
        rw [List.length_drop]
        omega
      rw [framesOf_cons read]
      dsimp only
      unfold takeAll
      rcases r.acceptFrame d.frame with _ | ⟨_ | _,after⟩
      · rfl
      · rfl
      · exact ih shorter after

def crypto? : QuicZig.Frame → Option Crypto
  | .crypto cr => some cr
  | _ => none

def cryptos (frames : List QuicZig.Frame) : List Crypto := frames.filterMap crypto?

theorem acceptFrame_spec {r : Reassembler} (sound : r.Sound) (f : QuicZig.Frame) : ∃ out after,
    r.acceptFrame f = some (out,after) ∧ ((∃ cr, f = .crypto cr ∧ Took r cr out after) ∨ crypto? f = none ∧ after = r) := by
  cases f with
  | crypto cr =>
    obtain ⟨out,after,done,took⟩ := acceptCrypto_took sound cr
    exact ⟨out,after,done,.inl ⟨cr,rfl,took⟩⟩
  | _ => exact ⟨_,_,rfl,.inr ⟨rfl,rfl⟩⟩

theorem cryptos_crypto (cr : Crypto) (frames : List QuicZig.Frame) : cryptos (.crypto cr::frames) = cr::cryptos frames :=
  List.filterMap_cons_some rfl

theorem cryptos_other {f : QuicZig.Frame} (other : crypto? f = none) (frames : List QuicZig.Frame) :
    cryptos (f::frames) = cryptos frames := List.filterMap_cons_none other

structure TookAll (r : Reassembler) (frames : List QuicZig.Frame) (out : Except Error Unit) (after : Reassembler) : Prop where
  sound : after.Sound
  length : after.dst.length = r.dst.length
  keeps : ∀ x, Covered r.segs x → Covered after.segs x ∧ after.dst[x]? = r.dst[x]?
  covers : out = .ok () → ∀ x, Covered after.segs x ↔ Covered r.segs x ∨ ∃ cr ∈ cryptos frames, Within cr x
  bytes : out = .ok () → ∀ cr ∈ cryptos frames, ∀ x, Within cr x → after.dst[x]? = byteAt cr x

theorem takeAll_spec {r : Reassembler} (sound : r.Sound) (frames : List QuicZig.Frame) :
    ∃ out after, takeAll r frames = some (out,after) ∧ TookAll r frames out after := by
  induction frames generalizing r with
  | nil =>
    refine ⟨_,_,rfl,sound,rfl,fun x covered => ⟨covered,rfl⟩,fun _ x => ⟨.inl,fun both => both.resolve_right ?_⟩,fun _ => nofun⟩
    rintro ⟨cr,member,_⟩
    nomatch member
  | cons f frames ih =>
    obtain ⟨out,mid,done,case⟩ := acceptFrame_spec sound f
    have sound' : mid.Sound := by
      rcases case with ⟨cr,_,took⟩ | ⟨_,rfl⟩
      · exact took.sound sound
      · exact sound
    have length : mid.dst.length = r.dst.length := by
      rcases case with ⟨cr,_,took⟩ | ⟨_,rfl⟩
      · exact took.length
      · rfl
    have keeps : ∀ x, Covered r.segs x → Covered mid.segs x ∧ mid.dst[x]? = r.dst[x]? := by
      intro x covered
      rcases case with ⟨cr,_,took⟩ | ⟨_,rfl⟩
      · exact took.keeps covered
      · exact ⟨covered,rfl⟩
    unfold takeAll
    rw [done]
    cases out with
    | error e => exact ⟨_,_,rfl,sound',length,keeps,nofun,nofun⟩
    | ok =>
      obtain ⟨out,after,done',all⟩ := ih sound'
      refine ⟨out,after,done',all.sound,all.length.trans length,fun x covered => ?_,fun ok x => ?_,fun ok cr member x inside => ?_⟩
      · obtain ⟨covered',same⟩ := keeps x covered
        obtain ⟨covered'',same'⟩ := all.keeps x covered'
        exact ⟨covered'',same'.trans same⟩
      · rw [all.covers ok x]
        rcases case with ⟨cr,rfl,took⟩ | ⟨none,rfl⟩
        · rw [took.placed_ok.1 x,cryptos_crypto]
          simp only [List.mem_cons,exists_eq_or_imp,or_assoc]
        · rw [cryptos_other none]
      · rcases case with ⟨first,rfl,took⟩ | ⟨none,rfl⟩
        · rw [cryptos_crypto] at member
          rcases List.mem_cons.mp member with rfl | member
          · have covered := (took.placed_ok.1 x).mpr (.inr inside)
            exact (all.keeps x covered).2.trans (took.placed_ok.2 x inside)
          · exact all.bytes ok cr member x inside
        · rw [cryptos_other none] at member
          exact all.bytes ok cr member x inside

theorem takeAll_append {r mid : Reassembler} {first second : List QuicZig.Frame} (done : takeAll r first = some (.ok (),mid)) :
    takeAll r (first ++ second) = takeAll mid second := by
  induction first generalizing r with
  | nil =>
    cases done
    rfl
  | cons f first ih =>
    rw [List.cons_append]
    rw [takeAll] at done ⊢
    cases took : r.acceptFrame f with
    | none =>
      rw [took] at done
      nomatch done
    | some out =>
      rw [took] at done
      obtain ⟨_ | _,after⟩ := out
      · nomatch done
      · exact ih done

theorem feed_frames {r : Reassembler} (roomy : maxClientHelloBytes ≤ r.dst.length) (payload : List Byte) :
    r.feed payload = match takeAll r (framesOf payload).1 with
      | none => none
      | some (.error e,r) => some (.error e,r)
      | some (.ok (),r) =>
        if (framesOf payload).2.isSome then some (.error .invalid,r)
        else if r.isComplete then
          match r.declaredLen with
          | none => none
          | some want =>
            match slice? r.dst 0 want with
            | none => none
            | some clientHello => some (.ok (some clientHello),r)
        else some (.ok none,r) := by
  unfold feed
  rw [if_neg (Nat.not_lt.mpr roomy),walk_frames (Nat.le_refl _)]
  rcases takeAll r (framesOf payload).1 with _ | ⟨_ | _,after⟩
  · rfl
  · rfl
  · dsimp only
    by_cases failed : (framesOf payload).2.isSome = true
    · rw [if_pos failed,if_pos failed]
    · rw [if_neg failed]
      exact (if_neg failed).symm

/-- Every read is within the buffer, and what is returned is a front part of it. -/
theorem feed_spec {r : Reassembler} (sound : r.Sound) (payload : List Byte) : ∃ out after, r.feed payload = some (out,after) ∧
    after.Sound ∧ after.dst.length = r.dst.length ∧
      ∀ clientHello, out = .ok (some clientHello) → clientHello <+: after.dst := by
  by_cases roomy : maxClientHelloBytes ≤ r.dst.length
  · rw [feed_frames roomy]
    obtain ⟨out,after,done,all⟩ := takeAll_spec sound (framesOf payload).1
    rw [done]
    cases out with
    | error e => exact ⟨_,_,rfl,all.sound,all.length,nofun⟩
    | ok =>
      dsimp only
      split
      · exact ⟨_,_,rfl,all.sound,all.length,nofun⟩
      split
      · rename_i complete
        unfold isComplete at complete
        cases declared : after.declaredLen with
        | none =>
          rw [declared] at complete
          nomatch complete
        | some want =>
          dsimp only
          rw [slice?_some (Nat.zero_le _) (all.sound.declared want declared)]
          refine ⟨_,_,rfl,all.sound,all.length,?_⟩
          rintro _ ⟨⟩
          exact List.take_prefix _ _
      · exact ⟨_,_,rfl,all.sound,all.length,nofun⟩
  · unfold feed
    rw [if_pos (Nat.not_le.mp roomy)]
    exact ⟨_,_,rfl,sound,rfl,nofun⟩

end Reassembler

/-- A reassembler, and the CRYPTO frames of the payloads that it has taken. -/
structure History where
  r : Reassembler
  got : List Crypto := []

inductive Event where
  | feed (payload : List Byte)
  | reset

namespace History
open Reassembler

def cryptosOf (payload : List Byte) : List Crypto := cryptos (framesOf payload).1

def step (h : History) : Event → History
  | .reset => ⟨h.r.reset,[]⟩
  | .feed payload =>
    match h.r.feed payload with
    | none => h
    | some (.error _,r) => {h with r := r}
    | some (.ok _,r) => ⟨r,h.got ++ cryptosOf payload⟩

/-- The segments are sorted with a gap between any two, and within the buffer. -/
def Tidy (h : History) : Prop :=
  Sorted h.r.segs ∧ (∀ s ∈ h.r.segs, s.stop ≤ h.r.dst.length) ∧ ∀ want, h.r.declaredLen = some want → want ≤ h.r.dst.length

/-- No read leaves the buffer, and what is returned is a front part of it. -/
def Inside (h : History) : Event → Prop
  | .reset => True
  | .feed payload => ∃ out after, h.r.feed payload = some (out,after) ∧ after.dst.length = h.r.dst.length ∧
      ∀ clientHello, out = .ok (some clientHello) → clientHello <+: after.dst

/-- A frame that disagrees with an earlier one on a byte, in this payload or in another, makes the payload invalid. -/
def Contradicted (h : History) : Event → Prop
  | .reset => True
  | .feed payload => ∀ before cr later mid, (framesOf payload).1 = before ++ .crypto cr::later →
      h.r.takeAll before = some (.ok (),mid) → Fits h.r cr →
      (∃ old ∈ h.got ++ cryptos before, ∃ x, Within old x ∧ Within cr x ∧ byteAt old x ≠ byteAt cr x) →
      ∃ after, h.r.feed payload = some (.error .invalid,after)

/-- The bytes of the frames that have been taken are in the buffer. -/
structure Agreed (h : History) : Prop where
  sound : h.r.Sound
  roomy : maxClientHelloBytes ≤ h.r.dst.length
  bytes : ∀ cr ∈ h.got, ∀ x, Within cr x → Covered h.r.segs x ∧ h.r.dst[x]? = byteAt cr x

theorem Agreed.reset {h : History} (agreed : h.Agreed) : (h.step .reset).Agreed :=
  ⟨⟨separated_nil,fun x covered => absurd covered (covers_nil x),fun x below => absurd below (Nat.not_lt_zero x),covers_nil 0,nofun⟩,
    agreed.roomy,nofun⟩

theorem feed_cases {h : History} (agreed : h.Agreed) (payload : List Byte) :
    ∃ out mid, h.r.takeAll (framesOf payload).1 = some (out,mid) ∧ TookAll h.r (framesOf payload).1 out mid ∧
      ∃ answer, h.r.feed payload = some (answer,mid) ∧
        ((∃ e, answer = .error e) ∨ out = .ok () ∧ (framesOf payload).2 = none ∧
          answer = .ok (if mid.isComplete then mid.declaredLen.map mid.dst.take else none)) ∧
        (∀ e, out = .error e → answer = .error e) := by
  obtain ⟨out,mid,done,all⟩ := takeAll_spec agreed.sound (framesOf payload).1
  refine ⟨out,mid,done,all,?_⟩
  rw [feed_frames agreed.roomy,done]
  cases out with
  | error e => exact ⟨_,rfl,.inl ⟨e,rfl⟩,fun e same => by cases same; rfl⟩
  | ok =>
    dsimp only
    by_cases failed : (framesOf payload).2.isSome = true
    · rw [if_pos failed]
      exact ⟨_,rfl,.inl ⟨_,rfl⟩,nofun⟩
    rw [if_neg failed]
    have readable : (framesOf payload).2 = none := Option.not_isSome_iff_eq_none.mp failed
    by_cases complete : mid.isComplete = true
    · rw [if_pos complete,if_pos complete]
      cases declared : mid.declaredLen with
      | none =>
        unfold isComplete at complete
        rw [declared] at complete
        nomatch complete
      | some want =>
        dsimp only
        rw [slice?_some (Nat.zero_le _) (all.sound.declared want declared)]
        exact ⟨_,rfl,.inr ⟨rfl,readable,rfl⟩,nofun⟩
    · rw [if_neg complete,if_neg complete]
      exact ⟨_,rfl,.inr ⟨rfl,readable,rfl⟩,nofun⟩

theorem step_agreed (h : History) (event : Event) (agreed : h.Agreed) : (h.step event).Agreed := by
  cases event with
  | reset => exact agreed.reset
  | feed payload =>
    obtain ⟨out,mid,done,all,answer,fed,cases,_⟩ := feed_cases agreed payload
    have old : ∀ cr ∈ h.got, ∀ x, Within cr x → Covered mid.segs x ∧ mid.dst[x]? = byteAt cr x := by
      intro cr member x inside
      obtain ⟨covered,same⟩ := agreed.bytes cr member x inside
      obtain ⟨covered',same'⟩ := all.keeps x covered
      exact ⟨covered',same'.trans same⟩
    have roomy : maxClientHelloBytes ≤ mid.dst.length := Nat.le_trans agreed.roomy (Nat.le_of_eq all.length.symm)
    unfold step
    dsimp only
    rw [fed]
    rcases cases with ⟨e,rfl⟩ | ⟨rfl,_,rfl⟩
    · exact ⟨all.sound,roomy,old⟩
    · refine ⟨all.sound,roomy,fun cr member x inside => ?_⟩
      rcases List.mem_append.mp member with member | member
      · exact old cr member x inside
      · exact ⟨(all.covers rfl x).mpr (.inr ⟨cr,member,inside⟩),all.bytes rfl cr member x inside⟩

theorem contradicted (h : History) (event : Event) (agreed : h.Agreed) : h.Contradicted event := by
  cases event with
  | reset => exact trivial
  | feed payload =>
    intro before cr later mid split done fits ⟨old,member,x,held,inside,apart⟩
    obtain ⟨out,mid',done',all⟩ := takeAll_spec agreed.sound before
    rw [done] at done'
    cases done'
    have there : Covered mid.segs x ∧ mid.dst[x]? = byteAt old x := by
      rcases List.mem_append.mp member with member | member
      · obtain ⟨covered,same⟩ := agreed.bytes old member x held
        obtain ⟨covered',same'⟩ := all.keeps x covered
        exact ⟨covered',same'.trans same⟩
      · exact ⟨(all.covers rfl x).mpr (.inr ⟨old,member,held⟩),all.bytes rfl old member x held⟩
    obtain ⟨out,after,took,spec⟩ := acceptCrypto_took all.sound cr
    have fits' : Fits mid cr := ⟨all.length ▸ fits.1,fits.2⟩
    have refused := spec.conflicting fits' ⟨x,there.1,inside,fun same => apart (there.2.symm.trans same)⟩
    subst refused
    obtain ⟨out',mid',whole,_,answer,fed,_,failed⟩ := feed_cases agreed payload
    rw [split,takeAll_append done,takeAll,show mid.acceptFrame (.crypto cr) = _ from took] at whole
    cases whole
    exact ⟨_,fed.trans (by rw [failed _ rfl])⟩

/-! ### One ClientHello -/

/-- A handshake message of the length that its header declares. -/
def IsClientHello (ch : List Byte) : Prop := ∃ b1 b2 b3 rest, ch = tlsMsgTypeClientHello::b1::b2::b3::rest ∧
  declaredLength b1 b2 b3 = ch.length ∧ ch.length ≤ maxClientHelloBytes

def Held (frames : List Crypto) (x : Nat) : Prop := ∃ cr ∈ frames, Within cr x

instance (frames : List Crypto) (x : Nat) : Decidable (Held frames x) :=
  inferInstanceAs (Decidable (∃ cr ∈ frames, cr.offset ≤ x ∧ x < cr.offset+cr.data.length))

/-- The bytes at which a segment of what frames hold begins. -/
def starts (n : Nat) (frames : List Crypto) : List Nat :=
  (List.range n).filter fun x => Held frames x ∧ (x = 0 ∨ ¬Held frames (x-1))

def Carried (ch : List Byte) : QuicZig.Frame → Prop
  | .crypto cr => ∀ x, Within cr x → x < ch.length ∧ byteAt cr x = ch[x]?
  | .padding _ | .ping | .ack _ | .pathAck _ => True
  | _ => False

/-- A payload with frames of one ClientHello, after none of which more segments are held than there is room for. -/
def Carries (ch : List Byte) (h : History) : Event → Prop
  | .reset => True
  | .feed payload => (framesOf payload).2 = none ∧ (∀ f ∈ (framesOf payload).1, Carried ch f) ∧
      ∀ front, front <+: cryptosOf payload → (starts ch.length (h.got ++ front)).length ≤ maxSegments

/-- The whole ClientHello when all of it is there, and nothing before. -/
def Answers (ch : List Byte) (h : History) : Event → Prop
  | .reset => True
  | .feed payload => ∃ after, h.r.feed payload =
      some (.ok (if ∀ x < ch.length, Held (h.got ++ cryptosOf payload) x then some ch else none),after)

theorem held_append (first second : List Crypto) (x : Nat) : Held (first ++ second) x ↔ Held first x ∨ Held second x := by
  simp only [Held,List.mem_append,or_and_right,exists_or]

theorem length_starts {segs : List Segment} (sorted : Sorted segs) {frames : List Crypto} {n : Nat}
    (covers : ∀ x, Covered segs x ↔ Held frames x) (within : ∀ x, Held frames x → x < n) :
    segs.length = (starts n frames).length := by
  have once : (segs.map Range.offset).Nodup := by
    refine List.Pairwise.map _ (fun left right order => ?_) (List.Pairwise.and_mem.mp sorted.ordered)
    have proper := sorted.proper left order.1
    omega
  rw [← @List.length_map _ _ segs Range.offset]
  refine List.Perm.length_eq ((List.perm_ext_iff_of_nodup once (List.nodup_range.filter _)).mpr fun x => ?_)
  rw [List.mem_filter,List.mem_range,decide_eq_true_iff,List.mem_map]
  constructor
  · rintro ⟨s,member,rfl⟩
    have covered := sorted.covered_of_mem member
    refine ⟨within _ ((covers _).mp covered),(covers _).mp covered,?_⟩
    by_cases zero : s.offset = 0
    · exact .inl zero
    refine .inr fun held => ?_
    obtain ⟨other,member',low,high⟩ := (covers _).mpr held
    have real := sorted.proper s member
    -- The other segment reaches the start of this one, so that they are not apart.
    have order := List.pairwise_iff_getElem.mp sorted.ordered
    obtain ⟨i,hi,rfl⟩ := List.getElem_of_mem member
    obtain ⟨j,hj,rfl⟩ := List.getElem_of_mem member'
    rcases Nat.lt_trichotomy i j with before | same | after
    · have apart := order i j hi hj before
      omega
    · subst same
      omega
    · have apart := order j i hj hi after
      omega
  · rintro ⟨_,held,start⟩
    obtain ⟨s,member,low,high⟩ := (covers x).mpr held
    refine ⟨s,member,?_⟩
    rcases start with zero | gap
    · omega
    · by_contra other
      exact gap ((covers _).mp ⟨s,member,by omega,by omega⟩)

/-- A reassembler with the bytes that frames of a ClientHello carry. -/
structure Partial (ch : List Byte) (got : List Crypto) (r : Reassembler) : Prop where
  sound : r.Sound
  roomy : maxClientHelloBytes ≤ r.dst.length
  covers : ∀ x, Covered r.segs x ↔ Held got x
  bytes : ∀ x, Covered r.segs x → x < ch.length ∧ r.dst[x]? = ch[x]?
  declared : ∀ want, r.declaredLen = some want → want = ch.length
  early : r.declaredLen = none → r.contigEnd < 4

theorem lock_hello {ch : List Byte} (hello : IsClientHello ch) {r : Reassembler} (roomy : maxClientHelloBytes ≤ r.dst.length)
    (bytes : ∀ x < r.contigEnd, r.dst[x]? = ch[x]?) (declared : ∀ want, r.declaredLen = some want → want = ch.length) :
    ∃ declared, r.lockDeclared = some (.ok (),{r with declaredLen := declared}) ∧
      (∀ want, declared = some want → want = ch.length) ∧ (declared = none → r.contigEnd < 4) := by
  obtain ⟨b1,b2,b3,rest,rfl,length,most⟩ := hello
  unfold lockDeclared
  by_cases due : r.declaredLen = none ∧ r.contigEnd ≥ 4
  · rw [if_pos due]
    have first : ∀ x < 4, r.dst[x]? = (tlsMsgTypeClientHello::b1::b2::b3::rest)[x]? := fun x below => bytes x (by omega)
    obtain ⟨dst,contigEnd,declaredLen,segs⟩ := r
    match dst with
    | [] => nomatch first 0 (by omega)
    | [_] => nomatch first 1 (by omega)
    | [_,_] => nomatch first 2 (by omega)
    | [_,_,_] => nomatch first 3 (by omega)
    | c0::c1::c2::c3::more =>
      cases first 0 (by omega)
      cases first 1 (by omega)
      cases first 2 (by omega)
      cases first 3 (by omega)
      dsimp only
      rw [if_neg (not_not.mpr rfl),if_neg (by rw [length]; exact Nat.not_lt.mpr (Nat.le_trans most roomy))]
      exact ⟨_,rfl,fun want same => (Option.some.inj same).symm.trans length,nofun⟩
  · rw [if_neg due]
    exact ⟨r.declaredLen,rfl,declared,fun none => Nat.not_le.mp fun far => due ⟨none,far⟩⟩

theorem Partial.crypto {ch : List Byte} (hello : IsClientHello ch) {got : List Crypto} {r : Reassembler} (has : Partial ch got r)
    {cr : Crypto} (carried : ∀ x, Within cr x → x < ch.length ∧ byteAt cr x = ch[x]?)
    (few : (starts ch.length (got ++ [cr])).length ≤ maxSegments) :
    ∃ after, r.acceptCrypto cr = some (.ok (),after) ∧ Partial ch (got ++ [cr]) after := by
  obtain ⟨out,after,done,took⟩ := acceptCrypto_took has.sound cr
  have most : ch.length ≤ maxClientHelloBytes := by
    obtain ⟨_,_,_,_,_,_,most⟩ := hello
    exact most
  have single : ∀ x, Held [cr] x ↔ Within cr x := fun x => by simp [Held]
  have roomy' : maxClientHelloBytes ≤ after.dst.length := Nat.le_trans has.roomy (Nat.le_of_eq took.length.symm)
  have sound' := took.sound has.sound
  have kept := fun x => @Took.keeps _ _ _ _ took x
  rw [done]
  cases took with
  | empty none =>
    refine ⟨_,rfl,has.sound,has.roomy,fun x => ?_,has.bytes,has.declared,has.early⟩
    rw [held_append,single,has.covers]
    refine ⟨.inl,fun both => both.resolve_right fun inside => ?_⟩
    have low := inside.1
    have high := inside.2
    omega
  | large some' long =>
    have last := (carried (cr.offset+cr.data.length-1) ⟨by omega,by omega⟩).1
    have room := has.roomy
    have word : maxClientHelloBytes ≤ maxU64 := by decide
    exact absurd ⟨by omega,by omega⟩ long
  | conflict some' fits conflicts =>
    obtain ⟨x,covered,inside,apart⟩ := conflicts
    exact absurd ((has.bytes x covered).2.trans (carried x inside).2.symm) apart
  | full fits agrees list sorted covers many =>
    have same : ∀ x, Covered list x ↔ Held (got ++ [cr]) x := fun x => by
      rw [covers,held_append,single,has.covers]
    have length := length_starts sorted same fun x held => by
      rcases (covers x).mp ((same x).mpr held) with covered | inside
      · exact (has.bytes x covered).1
      · exact (carried x inside).1
    omega
  | placed fits agrees segs stop sorted covers reached open' out after locked =>
    have bytes : ∀ x, Covered segs x → x < ch.length ∧ (Ring.store r.dst cr.offset cr.data)[x]? = ch[x]? := by
      intro x covered
      rw [getElem?_store fits]
      split
      · rename_i inside
        exact carried x inside
      · rename_i outside
        exact has.bytes x (((covers x).mp covered).resolve_right outside)
    have size : (Ring.store r.dst cr.offset cr.data).length = r.dst.length := Ring.length_store _ _ _ fits.1
    obtain ⟨declared,locked',own,early⟩ := @lock_hello ch hello ⟨Ring.store r.dst cr.offset cr.data,stop,r.declaredLen,segs⟩
      (Nat.le_trans has.roomy (Nat.le_of_eq size.symm)) (fun x below => (bytes x (reached x below)).2) has.declared
    rw [locked] at locked'
    cases locked'
    refine ⟨_,rfl,sound',roomy',fun x => ?_,bytes,own,early⟩
    rw [held_append,single,← has.covers]
    exact covers x

theorem Partial.all {ch : List Byte} (hello : IsClientHello ch) {got : List Crypto} {r : Reassembler} (has : Partial ch got r)
    {frames : List QuicZig.Frame} (carried : ∀ f ∈ frames, Carried ch f)
    (few : ∀ front, front <+: cryptos frames → (starts ch.length (got ++ front)).length ≤ maxSegments) :
    ∃ after, r.takeAll frames = some (.ok (),after) ∧ Partial ch (got ++ cryptos frames) after := by
  induction frames generalizing got r with
  | nil => exact ⟨r,rfl,(List.append_nil got).symm ▸ has⟩
  | cons f frames ih =>
    have rest := fun g member => carried g (List.mem_cons_of_mem f member)
    have here := carried f List.mem_cons_self
    rw [takeAll]
    cases other : crypto? f with
    | none =>
      have skipped : r.acceptFrame f = some (.ok (),r) := by
        cases f <;> first | exact here.elim | rfl | nomatch other
      rw [skipped]
      rw [cryptos_other other] at few ⊢
      exact ih has rest few
    | some cr =>
      have same : f = .crypto cr := by
        cases f <;> cases other
        rfl
      subst same
      rw [cryptos_crypto] at few ⊢
      obtain ⟨mid,took,has'⟩ := has.crypto hello here (few [cr] (List.prefix_append [cr] (cryptos frames)))
      rw [show r.acceptFrame (.crypto cr) = _ from took]
      obtain ⟨after,done,has''⟩ := ih has' rest fun front begins => by
        rw [List.append_assoc]
        exact few (cr::front) (List.cons_prefix_cons.mpr ⟨rfl,begins⟩)
      exact ⟨after,done,by rwa [List.append_assoc] at has''⟩

theorem Partial.complete {ch : List Byte} (hello : IsClientHello ch) {got : List Crypto} {r : Reassembler} (has : Partial ch got r) :
    (if r.isComplete then r.declaredLen.map r.dst.take else none) = if ∀ x < ch.length, Held got x then some ch else none := by
  have long : 4 ≤ ch.length := by
    obtain ⟨b1,b2,b3,rest,rfl,_⟩ := hello
    simp
  by_cases whole : ∀ x < ch.length, Held got x
  · have far : ch.length ≤ r.contigEnd := by
      by_contra short
      exact has.sound.open' ((has.covers _).mpr (whole _ (Nat.not_le.mp short)))
    cases declared : r.declaredLen with
    | none =>
      have early := has.early declared
      omega
    | some want =>
      have same := has.declared want declared
      subst same
      have complete : r.isComplete = true := by
        unfold isComplete
        rw [declared]
        exact decide_eq_true far
      rw [if_pos whole,if_pos complete]
      refine congrArg some (List.ext_getElem? fun x => ?_)
      rw [List.getElem?_take]
      split
      · rename_i below
        exact (has.bytes x ((has.covers x).mpr (whole x below))).2
      · rename_i past
        exact (List.getElem?_eq_none (Nat.not_lt.mp past)).symm
  · have incomplete : ¬r.isComplete = true := by
      intro complete
      unfold isComplete at complete
      cases declared : r.declaredLen with
      | none =>
        rw [declared] at complete
        nomatch complete
      | some want =>
        rw [declared] at complete
        have same := has.declared want declared
        subst same
        have far : ch.length ≤ r.contigEnd := of_decide_eq_true complete
        exact whole fun x below => (has.covers x).mp (has.sound.reached x (Nat.lt_of_lt_of_le below far))
    rw [if_neg whole,if_neg incomplete]

theorem step_answers {ch : List Byte} (hello : IsClientHello ch) {h : History} {event : Event}
    (has : Partial ch h.got h.r) (carries : h.Carries ch event) :
    Partial ch (h.step event).got (h.step event).r ∧ h.Answers ch event := by
  cases event with
  | reset =>
    refine ⟨⟨⟨separated_nil,fun x covered => absurd covered (covers_nil x),fun x below => absurd below (Nat.not_lt_zero x),
      covers_nil 0,nofun⟩,has.roomy,fun x => ?_,fun x covered => absurd covered (covers_nil x),nofun,
      fun _ => Nat.zero_lt_succ 3⟩,trivial⟩
    refine ⟨fun covered => absurd covered (covers_nil x),?_⟩
    rintro ⟨cr,member,_⟩
    nomatch member
  | feed payload =>
    obtain ⟨readable,carried,few⟩ := carries
    obtain ⟨after,done,has'⟩ := has.all hello carried few
    have complete : _ = if ∀ x < ch.length, Held (h.got ++ cryptosOf payload) x then some ch else none := has'.complete hello
    have fed : h.r.feed payload = some (.ok (if ∀ x < ch.length, Held (h.got ++ cryptosOf payload) x then some ch else none),after) := by
      rw [← complete,feed_frames has.roomy,done,readable]
      dsimp only
      rw [if_neg nofun]
      by_cases complete : after.isComplete = true
      · rw [if_pos complete,if_pos complete]
        cases declared : after.declaredLen with
        | none =>
          unfold isComplete at complete
          rw [declared] at complete
          nomatch complete
        | some want =>
          dsimp only
          rw [slice?_some (Nat.zero_le _) (has'.sound.declared want declared)]
          rfl
      · rw [if_neg complete,if_neg complete]
    refine ⟨?_,after,fed⟩
    unfold step
    dsimp only
    rw [fed]
    exact has'

theorem sound_init (dst : List Byte) : (Reassembler.init dst).Sound :=
  ⟨separated_nil,fun x covered => absurd covered (covers_nil x),fun x below => absurd below (Nat.not_lt_zero x),covers_nil 0,nofun⟩

theorem partial_init (ch : List Byte) {dst : List Byte} (roomy : maxClientHelloBytes ≤ dst.length) :
    Partial ch [] (Reassembler.init dst) := by
  refine ⟨sound_init dst,roomy,fun x => ?_,fun x covered => absurd covered (covers_nil x),nofun,fun _ => Nat.zero_lt_succ 3⟩
  refine ⟨fun covered => absurd covered (covers_nil x),?_⟩
  rintro ⟨cr,member,_⟩
  nomatch member

theorem step_sound (h : History) (event : Event) (sound : h.r.Sound) : (h.step event).r.Sound ∧ h.Inside event := by
  cases event with
  | reset => exact ⟨sound_init h.r.dst,trivial⟩
  | feed payload =>
    obtain ⟨out,after,fed,sound',length,front⟩ := feed_spec sound payload
    refine ⟨?_,out,after,fed,length,front⟩
    unfold step
    dsimp only
    rw [fed]
    cases out with
    | error => exact sound'
    | ok => exact sound'

/-- The reassembler over every run: it stays within its buffer, a contradiction is found, and a ClientHello comes back whole
at the payload that completes it. -/
theorem reassembles (dst : List Byte) (events : List Event) :
    System.Throughout Tidy step ⟨.init dst,[]⟩ events ∧ System.Admits step Inside ⟨.init dst,[]⟩ events ∧
      (maxClientHelloBytes ≤ dst.length → System.Admits step Contradicted ⟨.init dst,[]⟩ events ∧
        ∀ ch, IsClientHello ch → System.Admits step (Carries ch) ⟨.init dst,[]⟩ events →
          System.Admits step (Answers ch) ⟨.init dst,[]⟩ events) := by
  have always : System.Admits step (fun _ _ => True) ⟨.init dst,[]⟩ events :=
    System.Admits.of_forall (fun _ _ => trivial) _
  refine ⟨?_,.under (fun h event sound _ => (step_sound h event sound).1) (fun h event sound _ => (step_sound h event sound).2)
    (sound_init dst) always,fun roomy => ⟨?_,fun ch hello carries => ?_⟩⟩
  · refine System.Throughout.of_reaches (fun h reached => ?_) (.start rfl) always
    have sound := System.Reaches.invariant (fun h => h.r.Sound) (fun h (start : ⟨.init dst,[]⟩ = h) => start ▸ sound_init dst)
      (fun h event sound _ => (step_sound h event sound).1) reached
    exact ⟨sound.sorted,fun s member => sound.stops member,sound.declared⟩
  · exact .under (fun h event agreed _ => step_agreed h event agreed) (fun h event agreed _ => contradicted h event agreed)
      ⟨sound_init dst,roomy,nofun⟩ always
  · exact @System.Admits.under _ _ step (Carries ch) (fun h => Partial ch h.got h.r) (Answers ch)
      (fun h event has carries => (step_answers hello has carries).1)
      (fun h event has carries => (step_answers hello has carries).2) _ _ (partial_init ch roomy) carries

/-- Two payloads, the second half first. -/
def backwards : List Event := [.feed [0x06,3,2,1,7],.feed [0x00,0x00,0x06,0,3,1,0,0,0x01]]

theorem reassembles_backwards :
    System.Admits step (Answers [1,0,0,1,7]) ⟨.init (List.replicate 4096 0),[]⟩ backwards := by
  have few : ∀ (h : History) (front : List Crypto), (starts [1,0,0,1,7].length (h.got ++ front)).length ≤ maxSegments :=
    fun h front => Nat.le_trans (List.length_filter_le _ _) (by decide)
  refine ((reassembles (List.replicate 4096 0) backwards).2.2 (Nat.le_of_eq List.length_replicate.symm)).2 [1,0,0,1,7] ⟨0,0,1,[7],rfl,rfl,by decide⟩
    ⟨⟨rfl,fun f member => ?_,fun front _ => few _ front⟩,⟨rfl,fun f member => ?_,fun front _ => few _ front⟩,trivial⟩
  · rw [show (framesOf [0x06,3,2,1,7]).1 = [.crypto ⟨3,[1,7]⟩] from rfl,List.mem_singleton] at member
    subst member
    intro x inside
    have low : 3 ≤ x := inside.1
    have high : x < 5 := inside.2
    interval_cases x <;> exact ⟨by decide,rfl⟩
  · rw [show (framesOf [0x00,0x00,0x06,0,3,1,0,0,0x01]).1 = [.padding ⟨2⟩,.crypto ⟨0,[1,0,0]⟩,.ping] from rfl] at member
    simp only [List.mem_cons,List.not_mem_nil,or_false] at member
    rcases member with rfl | rfl | rfl
    · exact trivial
    · intro x inside
      have high : x < 3 := Nat.lt_of_lt_of_eq inside.2 (Nat.zero_add 3)
      interval_cases x <;> exact ⟨by decide,rfl⟩
    · exact trivial

/-- A frame of another kind makes the payload invalid, although the whole ClientHello is in it. -/
theorem handshakeDone_spoils : IsClientHello [1,0,0,1,7] ∧
    framesOf [0x06,0,5,1,0,0,1,7,0x1e] = ([.crypto ⟨0,[1,0,0,1,7]⟩,.handshakeDone],none) ∧
    ∃ after, (Reassembler.init (List.replicate 4096 0)).feed [0x06,0,5,1,0,0,1,7,0x1e] = some (.error .invalid,after) := by
  have hello : IsClientHello [1,0,0,1,7] := ⟨0,0,1,[7],rfl,rfl,by decide⟩
  have frames : framesOf [0x06,0,5,1,0,0,1,7,0x1e] = ([.crypto ⟨0,[1,0,0,1,7]⟩,.handshakeDone],none) := rfl
  have roomy : maxClientHelloBytes ≤ (Reassembler.init (List.replicate 4096 0)).dst.length := Nat.le_of_eq List.length_replicate.symm
  obtain ⟨after,took,_⟩ := @Partial.crypto _ hello _ _ (partial_init [1,0,0,1,7] roomy) ⟨0,[1,0,0,1,7]⟩ (fun x inside => by
    have high : x < 5 := Nat.lt_of_lt_of_eq inside.2 (Nat.zero_add 5)
    interval_cases x <;> exact ⟨by decide,rfl⟩) (Nat.le_trans (List.length_filter_le _ _) (by decide))
  refine ⟨hello,frames,after,?_⟩
  rw [feed_frames roomy,frames]
  dsimp only
  rw [takeAll,show (Reassembler.init (List.replicate 4096 0)).acceptFrame (.crypto ⟨0,[1,0,0,1,7]⟩) = _ from took]
  rfl

end History
end QuicZig.Wire.ChReassembler
