import QuicZig.Conn.SendStream

/-! What each operation of a send stream does to its four parts. The byte sets
are read off the range lists; every lemma also says which fields it leaves. -/
namespace QuicZig.Conn
open Machine RangeList Spans

namespace SendStream

/-- The bytes acknowledged so far. -/
def Acked (s : SendStream) (x : Nat) : Prop := x < s.baseOffset ∨ Covered s.ackedAbove x

def Carries (c : Chunk) (x : Nat) : Prop := c.offset ≤ x ∧ x < c.offset + c.length

structure Buffered (written : List Byte) (s : SendStream) : Prop where
  bytes : s.bytes.Sound
  size : written.length = s.writeOffset
  floor : s.baseOffset ≤ s.writeOffset
  contents : s.bytes.contents = written.drop s.baseOffset
  sorted : Sorted s.ackedAbove
  above : ∀ x, Covered s.ackedAbove x → s.baseOffset < x ∧ x < s.writeOffset

theorem Buffered.live {written : List Byte} {s : SendStream} (buffered : Buffered written s) :
    s.bytes.live = s.writeOffset-s.baseOffset := by
  rw [← SendByteBuffer.length_contents,buffered.contents,List.length_drop,buffered.size]

theorem Buffered.acked_lt {written : List Byte} {s : SendStream} (buffered : Buffered written s) {x : Nat}
    (acked : s.Acked x) : x < s.writeOffset := by
  rcases acked with below | above
  · exact below.trans_le buffered.floor
  · exact (buffered.above x above).2

theorem Buffered.transfer {written : List Byte} {s after : SendStream} (buffered : Buffered written s)
    (bytes : after.bytes = s.bytes) (base : after.baseOffset = s.baseOffset) (write : after.writeOffset = s.writeOffset)
    (above : after.ackedAbove = s.ackedAbove) : Buffered written after := by
  refine ⟨bytes ▸ buffered.bytes,write ▸ buffered.size,?_,?_,above ▸ buffered.sorted,?_⟩
  · rw [base,write]
    exact buffered.floor
  · rw [bytes,base]
    exact buffered.contents
  · rw [above,base,write]
    exact buffered.above

theorem advanceFloor_spec {written : List Byte} {s : SendStream} (bytes : s.bytes.Sound)
    (size : written.length = s.writeOffset) (contents : s.bytes.contents = written.drop s.baseOffset)
    (newFloor : Nat) (up : s.baseOffset ≤ newFloor) (within : newFloor ≤ s.writeOffset) :
    ∃ left, s.advanceFloor newFloor = {s with bytes := left,baseOffset := newFloor} ∧ left.Sound ∧
      left.contents = written.drop newFloor := by
  unfold advanceFloor
  dsimp only
  split
  · have same : newFloor = s.baseOffset := by omega
    exact ⟨s.bytes,by rw [same],bytes,by rw [same]; exact contents⟩
  · have live : newFloor-s.baseOffset ≤ s.bytes.live := by
      rw [← SendByteBuffer.length_contents,contents,List.length_drop]
      omega
    obtain ⟨sound,rest⟩ := s.bytes.discardPrefix_spec _ bytes live
    refine ⟨_,rfl,sound,?_⟩
    rw [rest,contents,List.drop_drop]
    congr 1
    omega

theorem absorb_spec {written : List Byte} (above : List Range) (s : SendStream) (bytes : s.bytes.Sound)
    (size : written.length = s.writeOffset) (contents : s.bytes.contents = written.drop s.baseOffset)
    (floor : s.baseOffset ≤ s.writeOffset) (sorted : Sorted above) (inside : ∀ x, Covered above x → x < s.writeOffset) :
    ∃ left base rest, s.absorb above = {s with bytes := left,baseOffset := base,ackedAbove := rest} ∧
      Buffered written (s.absorb above) ∧ s.baseOffset ≤ base ∧
      ∀ x, (s.absorb above).Acked x ↔ x < s.baseOffset ∨ Covered above x := by
  induction above generalizing s with
  | nil =>
    exact ⟨s.bytes,s.baseOffset,[],rfl,⟨bytes,size,floor,contents,separated_nil,by simp [absorb]⟩,le_rfl,by
      simp [absorb,Acked]⟩
  | cons first rest ih =>
    obtain ⟨proper,gap,tail⟩ := (separated_cons first rest).mp sorted
    have last := inside (first.stop-1) ((covered_cons _ _ _).mpr (.inl ⟨by omega,by omega⟩))
    have later : ∀ x, Covered rest x → x < s.writeOffset := fun x covered => inside x ((covered_cons _ _ _).mpr (.inr covered))
    unfold absorb
    split
    · rename_i touches
      split
      · obtain ⟨left,moved,sound,same⟩ := advanceFloor_spec bytes size contents first.stop (by omega) (by omega)
        rw [moved]
        obtain ⟨left',base,kept,equal,buffered,up,acked⟩ := ih {s with bytes := left,baseOffset := first.stop}
          sound size same (by change first.stop ≤ s.writeOffset; omega) tail later
        refine ⟨left',base,kept,equal,buffered,le_trans (by change s.baseOffset ≤ first.stop; omega) up,?_⟩
        intro x
        rw [acked,covered_cons]
        change x < first.stop ∨ _ ↔ _
        constructor
        · rintro (below | covered)
          · by_cases x < s.baseOffset
            · exact .inl ‹_›
            · exact .inr (.inl ⟨by omega,below⟩)
          · exact .inr (.inr covered)
        · rintro (below | ⟨_,below⟩ | covered)
          · exact .inl (by omega)
          · exact .inl below
          · exact .inr covered
      · obtain ⟨left',base,kept,equal,buffered,up,acked⟩ := ih s bytes size contents floor tail later
        refine ⟨left',base,kept,equal,buffered,up,?_⟩
        intro x
        rw [acked,covered_cons]
        constructor
        · rintro (below | covered)
          · exact .inl below
          · exact .inr (.inr covered)
        · rintro (below | ⟨_,below⟩ | covered)
          · exact .inl below
          · exact .inl (by omega)
          · exact .inr covered
    · rename_i apart
      refine ⟨s.bytes,s.baseOffset,first::rest,rfl,⟨bytes,size,floor,contents,sorted,?_⟩,le_rfl,fun x => Iff.rfl⟩
      intro x covered
      refine ⟨?_,inside x covered⟩
      rcases (covered_cons _ _ _).mp covered with ⟨low,_⟩ | covered
      · change s.baseOffset < x
        omega
      · have := sorted.beyond covered
        change s.baseOffset < x
        omega

theorem recordAcked_spec {written : List Byte} {s : SendStream} (buffered : Buffered written s) (granted : Bool)
    (r : Range) (within : r.stop ≤ s.writeOffset) :
    (∃ left base above, (s.recordAcked granted r).2 = {s with bytes := left,baseOffset := base,ackedAbove := above}) ∧
      Buffered written (s.recordAcked granted r).2 ∧ s.baseOffset ≤ (s.recordAcked granted r).2.baseOffset ∧
      ((s.recordAcked granted r).1 = .ok () → ∀ x, (s.recordAcked granted r).2.Acked x ↔
        s.Acked x ∨ (r.offset ≤ x ∧ x < r.stop)) ∧
      ((s.recordAcked granted r).1 ≠ .ok () → (s.recordAcked granted r).2 = s) ∧
      (granted = true → (s.recordAcked granted r).1 = .ok ()) := by
  unfold recordAcked
  dsimp only
  split
  · rename_i known
    refine ⟨⟨s.bytes,s.baseOffset,s.ackedAbove,rfl⟩,buffered,le_rfl,fun _ x => ?_,fun _ => rfl,fun _ => rfl⟩
    constructor
    · exact .inl
    · rintro (acked | ⟨low,high⟩)
      · exact acked
      · exact .inl (show x < s.baseOffset by omega)
  rename_i fresh
  split
  · rename_i gap
    have start : max r.offset s.baseOffset = r.offset := by omega
    rw [start] at fresh gap ⊢
    cases result : (insertMerge granted s.ackedAbove ⟨r.offset,r.stop⟩).1 with
    | ok _ =>
      obtain ⟨sorted,covers⟩ := insertMerge_spec granted s.ackedAbove ⟨r.offset,r.stop⟩ buffered.sorted result
      refine ⟨⟨s.bytes,s.baseOffset,_,rfl⟩,⟨buffered.bytes,buffered.size,buffered.floor,buffered.contents,sorted,?_⟩,
        le_rfl,fun _ x => ?_,by simp [ofAlloc],by simp [ofAlloc]⟩
      · intro x covered
        rcases (covers x).mp covered with old | ⟨low,high⟩
        · exact buffered.above x old
        · exact ⟨lt_of_lt_of_le gap low,lt_of_lt_of_le high within⟩
      · change x < s.baseOffset ∨ Covered _ x ↔ (x < s.baseOffset ∨ Covered _ x) ∨ _
        rw [covers]
        tauto
    | error e =>
      obtain ⟨refused,same⟩ := insertMerge_error granted s.ackedAbove _ e result
      rw [same]
      refine ⟨⟨s.bytes,s.baseOffset,s.ackedAbove,rfl⟩,buffered,le_rfl,?_,fun _ => rfl,by simp [refused]⟩
      cases e
      simp [ofAlloc]
  · rename_i touches
    have low : r.offset ≤ s.baseOffset := by omega
    obtain ⟨left,moved,sound,same⟩ := advanceFloor_spec buffered.bytes buffered.size buffered.contents r.stop
      (by omega) within
    rw [moved]
    obtain ⟨left',base,rest,equal,buffered',up,acked⟩ := absorb_spec s.ackedAbove
      {s with bytes := left,baseOffset := r.stop} sound buffered.size same within buffered.sorted
      (fun x covered => (buffered.above x covered).2)
    refine ⟨⟨left',base,rest,equal⟩,buffered',?_,fun _ x => ?_,by simp,fun _ => rfl⟩
    · rw [equal]
      exact le_trans (by change s.baseOffset ≤ r.stop; omega) up
    · rw [acked]
      change x < r.stop ∨ Covered _ x ↔ (x < s.baseOffset ∨ Covered _ x) ∨ _
      constructor
      · rintro (below | covered)
        · by_cases x < s.baseOffset
          · exact .inl (.inl ‹_›)
          · exact .inr ⟨by omega,below⟩
        · exact .inl (.inr covered)
      · rintro ((below | covered) | ⟨_,below⟩)
        · exact .inl (by omega)
        · exact .inr covered
        · exact .inl below

theorem ofAlloc_error {result : Except AllocError Unit} {e : Error} (failed : ofAlloc result = .error e) :
    e = .outOfMemory := by
  cases result with
  | ok _ => simp [ofAlloc] at failed
  | error cause =>
    cases cause
    simpa [ofAlloc] using failed.symm

theorem recordAcked_error {granted : Bool} {s : SendStream} {r : Range} {e : Error}
    (failed : (s.recordAcked granted r).1 = .error e) : e = .outOfMemory := by
  unfold recordAcked at failed
  dsimp only at failed
  split at failed
  · simp at failed
  split at failed
  · exact ofAlloc_error failed
  · simp at failed

structure AckEffect (s : SendStream) (r : Range) (result : Except Error Unit) (after : SendStream) : Prop where
  frame : ∃ left base above pending flag,
    after = {s with bytes := left,baseOffset := base,ackedAbove := above,pending := pending,probeRequeuedPending := flag}
  up : s.baseOffset ≤ after.baseOffset
  sorted : Sorted after.pending
  shrinks : ∀ x, Covered after.pending x → Covered s.pending x
  keeps : ∀ x, Covered s.pending x → ¬ (r.offset ≤ x ∧ x < r.stop) → Covered after.pending x
  scrubs : s.probeRequeuedPending = true → result = .ok () → ∀ x, Covered after.pending x → ¬ (r.offset ≤ x ∧ x < r.stop)
  unscrubbed : s.probeRequeuedPending = false → after.pending = s.pending
  acked : result = .ok () → ∀ x, after.Acked x ↔ s.Acked x ∨ (r.offset ≤ x ∧ x < r.stop)
  failed : result ≠ .ok () → ∀ x, after.Acked x ↔ s.Acked x
  memory : ∀ e, result = .error e → e = .outOfMemory

theorem recordAcked_effect {written : List Byte} {s : SendStream} (buffered : Buffered written s)
    (pending : List Range) (flag : Bool) (sorted : Sorted pending) (granted : Bool) (r : Range)
    (within : r.stop ≤ s.writeOffset) (shrinks : ∀ x, Covered pending x → Covered s.pending x)
    (keeps : ∀ x, Covered s.pending x → ¬ (r.offset ≤ x ∧ x < r.stop) → Covered pending x)
    (scrubs : s.probeRequeuedPending = true → ∀ x, Covered pending x → ¬ (r.offset ≤ x ∧ x < r.stop))
    (unscrubbed : s.probeRequeuedPending = false → pending = s.pending) :
    let outcome := {s with pending := pending,probeRequeuedPending := flag}.recordAcked granted r
    AckEffect s r outcome.1 outcome.2 ∧ Buffered written outcome.2 ∧ (granted = true → outcome.1 = .ok ()) := by
  intro outcome
  have buffered' : Buffered written {s with pending := pending,probeRequeuedPending := flag} :=
    buffered.transfer rfl rfl rfl rfl
  obtain ⟨⟨left,base,above,frame⟩,buffered'',up,acked,failed,ok⟩ := recordAcked_spec buffered' granted r within
  have pending' : outcome.2.pending = pending := congrArg SendStream.pending frame
  refine ⟨⟨⟨left,base,above,pending,flag,frame⟩,up,pending' ▸ sorted,?_,?_,?_,?_,acked,?_,?_⟩,buffered'',ok⟩
  · rw [pending']
    exact shrinks
  · rw [pending']
    exact keeps
  · rw [pending']
    exact fun set _ => scrubs set
  · rw [pending']
    exact unscrubbed
  · intro error x
    rw [failed error]
    exact Iff.rfl
  · exact fun e => recordAcked_error

theorem markAcked_spec {written : List Byte} {s : SendStream} (buffered : Buffered written s) (sorted : Sorted s.pending)
    (grants : Allocator) (r : Range) (within : r.stop ≤ s.writeOffset) :
    AckEffect s r (s.markAcked grants r).1 (s.markAcked grants r).2 ∧ Buffered written (s.markAcked grants r).2 ∧
      (grants 0 = true → grants 1 = true → (s.markAcked grants r).1 = .ok ()) := by
  unfold markAcked
  split
  · rename_i scrub
    simp only [Bool.and_eq_true,Bool.not_eq_true'] at scrub
    obtain ⟨sorted',covers⟩ := removeRange_spec (grants 0) s.pending r sorted
    have granted := removeRange_granted s.pending r
    cases outcome : removeRange (grants 0) s.pending r with
    | mk result pending =>
    rw [outcome] at sorted' covers
    cases result with
    | error e =>
      refine ⟨⟨⟨s.bytes,s.baseOffset,s.ackedAbove,pending,s.probeRequeuedPending,rfl⟩,le_rfl,sorted',?_,?_,by simp,
        by simp [scrub.1],by simp,fun _ x => Iff.rfl,fun e equal => (Except.error.inj equal).symm⟩,
        buffered.transfer rfl rfl rfl rfl,?_⟩
      · exact fun x covered => ((covers x).mp covered).1
      · exact fun x covered _ => (covers x).mpr ⟨covered,by simp⟩
      · intro grant
        rw [grant] at outcome
        rw [outcome] at granted
        simp at granted
    | ok _ =>
      obtain ⟨effect,buffered',ok⟩ := recordAcked_effect buffered pending (!pending.isEmpty) sorted' (grants 1) r within
        (fun x covered => ((covers x).mp covered).1) (fun x covered outside => (covers x).mpr ⟨covered,fun _ => outside⟩)
        (fun _ x covered => ((covers x).mp covered).2 rfl) (by simp [scrub.1])
      exact ⟨effect,buffered',fun _ => ok⟩
  · rename_i still
    have empty : s.probeRequeuedPending = true → s.pending = [] := by
      intro set
      simpa [set] using still
    obtain ⟨effect,buffered',ok⟩ := recordAcked_effect buffered s.pending s.probeRequeuedPending sorted (grants 1) r within
      (fun x covered => covered) (fun x covered _ => covered) (by intro set x covered; simp [empty set] at covered)
      (fun _ => rfl)
    exact ⟨effect,buffered',fun _ => ok⟩

theorem removeAcked_spec (grants : Allocator) (low high : Nat) (acked : List Range) (ordered : Sorted acked)
    (pending : List Range) (sorted : Sorted pending) (n : Nat) :
    Sorted (removeAcked grants low high pending n acked).2 ∧
      (∀ x, Covered (removeAcked grants low high pending n acked).2 x → Covered pending x) ∧
      (∀ x, Covered pending x → ¬ Covered acked x → Covered (removeAcked grants low high pending n acked).2 x) ∧
      ((removeAcked grants low high pending n acked).1 = .ok () → ∀ x, low ≤ x → x < high →
        Covered (removeAcked grants low high pending n acked).2 x → ¬ Covered acked x) ∧
      ((∀ k, n ≤ k → grants k = true) → (removeAcked grants low high pending n acked).1 = .ok ()) := by
  induction acked generalizing pending n with
  | nil => exact ⟨sorted,fun x => id,fun x covered _ => covered,by simp,fun _ => rfl⟩
  | cons first rest ih =>
    obtain ⟨proper,gap,tail⟩ := (separated_cons first rest).mp ordered
    have beyond : ∀ x, Covered rest x → first.stop < x := fun x covered => ordered.beyond covered
    unfold removeAcked
    split
    · obtain ⟨sorted',shrinks,keeps,clears,granted⟩ := ih tail pending sorted (n+1)
      refine ⟨sorted',shrinks,?_,?_,fun all => granted (fun k later => all k (by omega))⟩
      · intro x covered outside
        exact keeps x covered (fun inside => outside ((covered_cons _ _ _).mpr (.inr inside)))
      · intro ok x above below covered inside
        rcases (covered_cons _ _ _).mp inside with ⟨_,stop⟩ | later
        · omega
        · exact clears ok x above below covered later
    split
    · refine ⟨sorted,fun x => id,fun x covered _ => covered,?_,fun _ => rfl⟩
      intro _ x above below covered inside
      rcases (covered_cons _ _ _).mp inside with ⟨start,_⟩ | later
      · omega
      · have := beyond x later
        omega
    · obtain ⟨sorted',covers⟩ := removeRange_spec (grants n) pending first sorted
      cases outcome : removeRange (grants n) pending first with
      | mk result pending' =>
      rw [outcome] at sorted' covers
      cases result with
      | error e =>
        refine ⟨sorted',fun x covered => ((covers x).mp covered).1,fun x covered _ => (covers x).mpr ⟨covered,by simp⟩,
          by simp,?_⟩
        intro all
        have granted := removeRange_granted pending first
        rw [all n le_rfl] at outcome
        rw [outcome] at granted
        simp at granted
      | ok _ =>
        obtain ⟨sorted'',shrinks,keeps,clears,granted⟩ := ih tail pending' sorted' (n+1)
        refine ⟨sorted'',fun x covered => ((covers x).mp (shrinks x covered)).1,?_,?_,
          fun all => granted (fun k later => all k (by omega))⟩
        · intro x covered outside
          rw [covered_cons,not_or] at outside
          exact keeps x ((covers x).mpr ⟨covered,fun _ => outside.1⟩) outside.2
        · intro ok x above below covered inside
          rcases (covered_cons _ _ _).mp inside with here | later
          · exact ((covers x).mp (shrinks x covered)).2 rfl here
          · exact clears ok x above below covered later

/-- Queueing the unacknowledged part of `r` again. -/
structure RequeueEffect (s : SendStream) (r : Range) (result : Except Error Unit) (after : SendStream) : Prop where
  frame : ∃ pending, after = {s with pending := pending}
  sorted : Sorted after.pending
  grows : ∀ x, Covered after.pending x → Covered s.pending x ∨ (r.offset ≤ x ∧ x < r.stop ∧ s.baseOffset ≤ x)
  exact : result = .ok () → ∀ x, Covered after.pending x → Covered s.pending x ∨ (r.offset ≤ x ∧ x < r.stop ∧ ¬ s.Acked x)
  keeps : result = .ok () → ∀ x, Covered s.pending x ∨ (r.offset ≤ x ∧ x < r.stop) → ¬ s.Acked x → Covered after.pending x
  memory : ∀ e, result = .error e → e = .outOfMemory
  /-- A failure loses no byte that still has to be sent. -/
  retains : ∀ x, Covered s.pending x → ¬ s.Acked x → Covered after.pending x

theorem addUnackedPending_spec {written : List Byte} {s : SendStream} (buffered : Buffered written s)
    (sorted : Sorted s.pending) (grants : Allocator) (r : Range) :
    RequeueEffect s r (s.addUnackedPending grants r).1 (s.addUnackedPending grants r).2 ∧
      ((∀ k, 1 ≤ k → grants k = true) → (s.addUnackedPending grants r).1 = .ok () ∨ (s.addUnackedPending grants r).2 = s) ∧
      ((∀ k, grants k = true) → (s.addUnackedPending grants r).1 = .ok ()) := by
  unfold addUnackedPending
  dsimp only
  split
  · rename_i none
    refine ⟨⟨⟨s.pending,rfl⟩,sorted,fun x => .inl,fun _ x => .inl,?_,by simp,fun x covered _ => covered⟩,fun _ => .inl rfl,
      fun _ => rfl⟩
    intro _ x either fresh
    rcases either with covered | ⟨low,high⟩
    · exact covered
    · exact absurd (Or.inl (show x < s.baseOffset by omega)) fresh
  rename_i some
  unfold addPending
  have inserted := insertMerge_spec (grants 0) s.pending ⟨max r.offset s.baseOffset,r.stop⟩ sorted
  have refused := insertMerge_error (grants 0) s.pending ⟨max r.offset s.baseOffset,r.stop⟩
  cases outcome : insertMerge (grants 0) s.pending ⟨max r.offset s.baseOffset,r.stop⟩ with
  | mk result pending =>
  rw [outcome] at inserted refused
  cases result with
  | error e =>
    obtain ⟨denied,same⟩ := refused e rfl
    obtain rfl : pending = s.pending := same
    cases e
    refine ⟨⟨⟨s.pending,rfl⟩,sorted,fun x => .inl,by simp [ofAlloc],by simp [ofAlloc],
      fun e equal => (Except.error.inj equal).symm,fun x covered _ => covered⟩,fun _ => .inr rfl,?_⟩
    intro all
    simp [all 0] at denied
  | ok _ =>
    obtain ⟨sorted',covers⟩ := inserted rfl
    obtain ⟨sorted'',shrinks,keeps,clears,granted⟩ := removeAcked_spec grants (max r.offset s.baseOffset) r.stop
      s.ackedAbove buffered.sorted pending sorted' 1
    simp only [ofAlloc]
    cases outcome' : removeAcked grants (max r.offset s.baseOffset) r.stop pending 1 s.ackedAbove with
    | mk result' pending' =>
    rw [outcome'] at sorted'' shrinks keeps clears granted
    have grown : ∀ x, Covered pending' x → Covered s.pending x ∨ (max r.offset s.baseOffset ≤ x ∧ x < r.stop) :=
      fun x covered => (covers x).mp (shrinks x covered)
    have retained : ∀ x, Covered s.pending x → ¬ s.Acked x → Covered pending' x :=
      fun x covered fresh => keeps x ((covers x).mpr (.inl covered)) (fun above => fresh (.inr above))
    refine ⟨⟨⟨pending',rfl⟩,sorted'',?_,?_,?_,fun e => ofAlloc_error,retained⟩,?_,?_⟩
    · intro x covered
      rcases grown x covered with old | ⟨low,high⟩
      · exact .inl old
      · exact .inr ⟨by omega,high,by omega⟩
    · intro ok x covered
      rcases grown x covered with old | ⟨low,high⟩
      · exact .inl old
      · have done : result' = .ok () := by
          cases result' with
          | ok _ => rfl
          | error e => cases e; simp at ok
        refine .inr ⟨by omega,high,?_⟩
        rintro (below | above)
        · omega
        · exact clears done x low high covered above
    · intro _ x either fresh
      refine keeps x ((covers x).mpr ?_) (fun above => fresh (.inr above))
      rcases either with old | ⟨low,high⟩
      · exact .inl old
      · have above : s.baseOffset ≤ x := Nat.le_of_not_lt (fun below => fresh (.inl below))
        exact .inr ⟨by change max r.offset s.baseOffset ≤ x; omega,high⟩
    · intro all
      have done : result' = .ok () := granted all
      rw [done]
      exact .inl rfl
    · intro all
      have done : result' = .ok () := granted (fun k _ => all k)
      rw [done]

theorem requeue_spec {written : List Byte} {s : SendStream} (buffered : Buffered written s)
    (sorted : Sorted s.pending) (grants : Allocator) (c : Chunk) :
    RequeueEffect s ⟨c.offset,c.offset+c.length⟩ (s.requeue grants c).1 (s.requeue grants c).2 ∧
      ((∀ k, 1 ≤ k → grants k = true) → (s.requeue grants c).1 = .ok () ∨ (s.requeue grants c).2 = s) ∧
      ((∀ k, grants k = true) → (s.requeue grants c).1 = .ok ()) := by
  unfold requeue
  split
  · exact addUnackedPending_spec buffered sorted grants ⟨c.offset,c.offset+c.length⟩
  · refine ⟨⟨⟨s.pending,rfl⟩,sorted,fun x => .inl,fun _ x => .inl,?_,by simp,fun x covered _ => covered⟩,fun _ => .inl rfl,
      fun _ => rfl⟩
    intro _ x either _
    rcases either with covered | ⟨low,high⟩
    · exact covered
    · change x < c.offset+c.length at high
      change c.offset ≤ x at low
      omega

/-- What sending the chunk `c` in packet `pn` does: it leaves the pending bytes for the in-flight map. -/
structure SendEffect (s : SendStream) (pn : Nat) (c : Chunk) (after : SendStream) : Prop where
  frame : ∃ inFlight pending flag, after = {s with
    inFlight := inFlight,pending := pending,probeRequeuedPending := flag,finInFlight := s.finInFlight || c.fin}
  fresh : ∀ d, ¬ s.inFlight.Holds pn d
  inFlight : ∀ e, e ∈ after.inFlight.alive ↔ e = ⟨pn,c⟩ ∨ e ∈ s.inFlight.alive
  pending : ∀ x, Covered after.pending x ↔ Covered s.pending x ∧ ¬ Carries c x
  carried : ∀ x, Carries c x → Covered s.pending x
  nonempty : 0 < c.length ∨ c.fin = true
  fin : c.fin = true → s.finDue = true ∧ s.finalSize = some (c.offset+c.length)

/-- A send that is refused touches nothing but spare room in the in-flight map. -/
structure Refused (s after : SendStream) : Prop where
  frame : ∃ inFlight, after = {s with inFlight := inFlight}
  same : after.inFlight.alive = s.inFlight.alive

theorem peekChunk_spec {s : SendStream} {maxBytes : Nat} {c : Chunk} (sorted : Sorted s.pending)
    (peeked : s.peekChunk maxBytes = some c) :
    c.requeuedForProbe = false ∧ c.dead = false ∧
      ((∃ r rest, s.pending = r::rest ∧ c.offset = r.offset ∧ c.offset+c.length ≤ r.stop ∧
          c.fin = (s.finDue && (s.finalSize == some (c.offset+c.length)))) ∨
        (s.pending = [] ∧ s.finDue = true ∧ c.offset = s.finalSize.getD 0 ∧ c.length = 0 ∧ c.fin = true)) := by
  unfold peekChunk at peeked
  split at peeked
  · simp at peeked
  split at peeked
  · rename_i none
    split at peeked
    · rename_i due
      obtain rfl := Option.some.inj peeked
      exact ⟨rfl,rfl,.inr ⟨none,due,rfl,rfl,rfl⟩⟩
    · simp at peeked
  · rename_i r rest some
    obtain rfl := Option.some.inj peeked
    have proper := sorted.proper r (by simp [some])
    exact ⟨rfl,rfl,.inl ⟨r,rest,some,rfl,by dsimp only; omega,rfl⟩⟩

theorem takePending_spec {s : SendStream} (sorted : Sorted s.pending) {r : Range} {rest : List Range} {c : Chunk}
    (head : s.pending = r::rest) (offset : c.offset = r.offset) (stop : c.offset+c.length ≤ r.stop) (long : 0 < c.length) :
    ∃ pending flag, s.takePending c = (.ok (),{s with pending := pending,probeRequeuedPending := flag}) ∧
      Sorted pending ∧ (∀ x, Covered pending x ↔ Covered s.pending x ∧ ¬ Carries c x) ∧
      ∀ x, Carries c x → Covered s.pending x := by
  rw [head] at sorted
  obtain ⟨proper,gap,tail⟩ := (separated_cons r rest).mp sorted
  have beyond : ∀ x, Covered rest x → r.stop < x := fun x covered => sorted.beyond covered
  have carried : ∀ x, Carries c x → Covered s.pending x := by
    rintro x ⟨low,high⟩
    rw [head,covered_cons]
    exact .inl ⟨by omega,by omega⟩
  unfold takePending
  rw [if_pos long]
  simp only [head]
  rw [if_neg (by simp [offset]),if_neg (by omega)]
  split
  · rename_i whole
    refine ⟨rest,_,rfl,tail,?_,head ▸ carried⟩
    intro x
    have := beyond x
    rw [covered_cons]
    unfold Carries
    grind
  · rename_i partly
    refine ⟨_,s.probeRequeuedPending,rfl,?_,?_,head ▸ carried⟩
    · exact (separated_cons _ _).mpr ⟨by change c.offset+c.length < r.stop; omega,gap,tail⟩
    · intro x
      have := beyond x
      rw [covered_cons,covered_cons]
      unfold Carries
      grind

theorem storeSent_spec {s : SendStream} {pn : Nat} {c : Chunk}
    (fin : c.fin = true → s.finInFlight = false ∧ s.finAcked = false ∧ s.finalSize = some (c.offset+c.length)) :
    s.storeSent pn c = (.ok (),{s with
      finInFlight := s.finInFlight || c.fin,inFlight := s.inFlight.putAssumeCapacityNoClobber pn c}) := by
  unfold storeSent
  split
  · rename_i set
    obtain ⟨idle,open',size⟩ := fin set
    simp [idle,open',size,set]
  · rename_i bare
    simp [bare]

theorem recordSent_peeked {s : SendStream}
    (sorted : Sorted s.pending) (sound : s.inFlight.Sound) (within : ∀ x, Covered s.pending x → x < s.writeOffset)
    (sized : s.finMarked = true → s.finalSize = some s.writeOffset) (granted : Bool) (pn maxBytes : Nat) (c : Chunk)
    (peeked : s.peekChunk maxBytes = some c) :
    (s.recordSent granted pn c).2.inFlight.Sound ∧ Sorted (s.recordSent granted pn c).2.pending ∧
      (((s.recordSent granted pn c).1 = .ok () ∧ SendEffect s pn c (s.recordSent granted pn c).2) ∨
        ((s.recordSent granted pn c).1 ≠ .ok () ∧ Refused s (s.recordSent granted pn c).2)) := by
  obtain ⟨plain,living,shape⟩ := peekChunk_spec sorted peeked
  unfold recordSent
  split
  · exact ⟨sound,sorted,.inr ⟨by simp,⟨s.inFlight,rfl⟩,rfl⟩⟩
  rename_i unknown
  have fresh : ∀ d, ¬ s.inFlight.Holds pn d := by
    intro d held
    exact unknown ((InFlightMap.contains_iff sound pn).mpr ⟨d,held⟩)
  obtain ⟨sound',alive,room⟩ := InFlightMap.ensureUnusedCapacity_spec granted s.inFlight 1 sound
  cases reserve : s.inFlight.ensureUnusedCapacity granted 1 with
  | mk result inFlight =>
  rw [reserve] at sound' alive room
  cases result with
  | error e => exact ⟨sound',sorted,.inr ⟨by simp,⟨inFlight,rfl⟩,alive⟩⟩
  | ok _ =>
    have room := room rfl
    have fresh' : ∀ d, ¬ inFlight.Holds pn d := by
      intro d
      unfold InFlightMap.Holds
      rw [alive]
      exact fresh d
    obtain ⟨sound'',members⟩ := InFlightMap.put_spec sound' pn c (by rw [alive]; exact room) fresh'
    have same : ({c with dead := false} : Chunk) = c := by
      cases c
      simp_all
    rw [same,alive] at members
    have unsent : s.finDue = true → s.finMarked = true ∧ s.finInFlight = false ∧ s.finAcked = false := by
      intro due
      simpa [finDue,and_assoc] using due
    rcases shape with ⟨r,rest,some,offset,stop,fin⟩ | ⟨none,due,offset,length,fin⟩
    · have ranges := sorted
      rw [some] at ranges
      obtain ⟨proper,gap,tail⟩ := (separated_cons r rest).mp ranges
      have beyond : ∀ x, Covered rest x → r.stop < x := fun x covered => ranges.beyond covered
      have first := within r.offset (by rw [some,covered_cons]; exact .inl ⟨le_rfl,proper⟩)
      have final : c.fin = true → s.finDue = true ∧ s.finalSize = Option.some (c.offset+c.length) := by
        intro set
        simpa [fin] using set
      by_cases long : 0 < c.length
      · obtain ⟨pending,flag,taken,sorted',covers,carried⟩ :=
          takePending_spec (s := {s with inFlight := inFlight}) sorted some offset stop long
        dsimp only
        rw [taken]
        dsimp only
        rw [storeSent_spec (s := {s with inFlight := inFlight,pending := pending,probeRequeuedPending := flag})
          (fun set => ⟨(unsent (final set).1).2.1,(unsent (final set).1).2.2,(final set).2⟩)]
        exact ⟨sound'',sorted',.inl ⟨rfl,⟨_,_,_,rfl⟩,fresh,members,covers,carried,.inl long,final⟩⟩
      · have zero : c.length = 0 := by omega
        have bare : c.fin = false := by
          by_contra set
          obtain ⟨due,size⟩ := final (by simpa using set)
          rw [sized (unsent due).1] at size
          have := Option.some.inj size
          omega
        have taken : ({s with inFlight := inFlight} : SendStream).takePending c =
            (.error .invalidChunk,{s with inFlight := inFlight}) := by
          simp [takePending,zero,bare]
        dsimp only
        rw [taken]
        exact ⟨sound',sorted,.inr ⟨by simp,⟨inFlight,rfl⟩,alive⟩⟩
    · obtain ⟨marked,idle,open'⟩ := unsent due
      have size : s.finalSize = some (c.offset+c.length) := by
        rw [offset,length,sized marked]
        rfl
      have taken : ({s with inFlight := inFlight} : SendStream).takePending c = (.ok (),{s with inFlight := inFlight}) := by
        simp [takePending,length,fin]
      dsimp only
      rw [taken]
      dsimp only
      rw [storeSent_spec (s := {s with inFlight := inFlight}) (fun _ => ⟨idle,open',size⟩)]
      have empty : ∀ x, ¬ Carries c x := by
        rintro x ⟨low,high⟩
        omega
      refine ⟨sound'',sorted,.inl ⟨rfl,⟨_,_,_,rfl⟩,fresh,members,?_,?_,.inr fin,fun _ => ⟨due,size⟩⟩⟩
      · exact fun x => ⟨fun covered => ⟨covered,empty x⟩,And.left⟩
      · exact fun x carries => absurd carries (empty x)

end SendStream
end QuicZig.Conn
