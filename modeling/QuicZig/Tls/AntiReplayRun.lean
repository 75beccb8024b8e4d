import QuicZig.Tls.AntiReplay
import QuicZig.Library.System
import Mathlib.Data.List.Nodup
import Mathlib.Data.List.Pairwise

/-! The replay cache against the list that it stands for: each id once in the ring and in the map,
an answer of `fresh` just when no young entry has the id, and a restored cache like the one stored. -/
namespace QuicZig.Tls.AntiReplay
open Machine QuicZig.Ring BigEndian

namespace Tracker

/-- The ring is within its block, and the block within the limit. -/
structure Ringed (t : Tracker) : Prop where
  head : t.entriesHead < t.entries.length
  fits : t.entriesLen ≤ t.entries.length
  cap : t.entries.length ≤ t.options.maxEntries

/-- The map has the ids of the ring with their times, and the ring each id once. -/
structure Matched (t : Tracker) : Prop where
  once : (t.live.map Entry.id).Nodup
  seen : ∀ id insertedAtUs, t.seen id = some insertedAtUs ↔ ⟨id,insertedAtUs⟩ ∈ t.live

structure Sound (t : Tracker) : Prop where
  ringed : t.Ringed
  matched : t.Matched

/-- What an operation leaves besides the entries. -/
structure Frame (t after : Tracker) : Prop where
  options : after.options = t.options
  clock : after.lastObservedNowUs = t.lastObservedNowUs

theorem Frame.refl (t : Tracker) : Frame t t := ⟨rfl,rfl⟩

theorem Frame.trans {t u v : Tracker} (first : Frame t u) (second : Frame u v) : Frame t v :=
  ⟨second.options.trans first.options,second.clock.trans first.clock⟩

theorem length_live (t : Tracker) : t.live.length = t.entriesLen := length_window _ _ _

theorem live_cons {t : Tracker} (some : t.entriesLen ≠ 0) : t.live = t.entryAt 0::t.live.tail := by
  obtain ⟨n,size⟩ := Nat.exists_eq_succ_of_ne_zero some
  unfold live
  rw [size]
  unfold window
  rw [List.range_succ_eq_map,List.map_cons,List.tail_cons]
  rfl

theorem dropHead_live (t : Tracker) : t.dropHead.live = t.live.tail := by
  unfold dropHead live
  rw [← List.drop_one,drop_window]
  rfl

theorem Sound.dropHead {t : Tracker} (sound : t.Sound) (some : t.entriesLen ≠ 0) : t.dropHead.Sound := by
  obtain ⟨⟨head,fits,cap⟩,⟨once,seen⟩⟩ := sound
  refine ⟨⟨Nat.mod_lt _ (by omega),Nat.le_trans (Nat.sub_le _ _) fits,cap⟩,?_,fun id insertedAtUs => ?_⟩
  · rw [dropHead_live]
    rw [live_cons some,List.map_cons] at once
    exact (List.nodup_cons.mp once).2
  · rw [dropHead_live]
    have whole := live_cons some
    rw [whole,List.map_cons,List.nodup_cons] at once
    have first : t.seen (t.entryAt 0).id = Option.some (t.entryAt 0).insertedAtUs := by
      rw [seen,whole]
      exact List.mem_cons_self
    have rest : ∀ at_us, (⟨id,at_us⟩ : Entry) ∈ t.live.tail → id ≠ (t.entryAt 0).id := fun at_us member same =>
      once.1 (same ▸ List.mem_map_of_mem (f := Entry.id) member)
    unfold Tracker.dropHead
    dsimp only
    by_cases same : id = (t.entryAt 0).id
    · rw [if_pos ⟨same,first⟩]
      exact ⟨nofun,fun member => absurd same (rest _ member)⟩
    · rw [if_neg fun both => same both.1,seen,whole,List.mem_cons]
      refine ⟨fun member => member.resolve_left fun eq => same (congrArg Entry.id eq),.inr⟩

theorem dropHead_frame (t : Tracker) : Frame t t.dropHead := ⟨rfl,rfl⟩

theorem rewind_live (t : Tracker) : t.rewind.live = t.live := by
  unfold rewind
  split
  · rename_i none
    unfold live
    rw [none]
    rfl
  · rfl

theorem rewind_frame (t : Tracker) : Frame t t.rewind := by
  unfold rewind
  split <;> exact ⟨rfl,rfl⟩

theorem Ringed.rewind {t : Tracker} (ringed : t.Ringed) : t.rewind.Ringed := by
  unfold Tracker.rewind
  split
  · exact ⟨Nat.lt_of_le_of_lt (Nat.zero_le _) ringed.head,ringed.fits,ringed.cap⟩
  · exact ringed

theorem rewind_seen (t : Tracker) : t.rewind.seen = t.seen := by
  unfold rewind
  split <;> rfl

theorem Matched.same {t after : Tracker} (matched : t.Matched) (live : after.live = t.live) (seen : after.seen = t.seen) :
    after.Matched := by
  obtain ⟨once,same⟩ := matched
  constructor
  · rw [live]
    exact once
  · rw [live,seen]
    exact same

theorem Sound.rewind {t : Tracker} (sound : t.Sound) : t.rewind.Sound :=
  ⟨sound.ringed.rewind,sound.matched.same (rewind_live t) (rewind_seen t)⟩

theorem pruneLoop_spec (nowUs fuel : Nat) {t : Tracker} (sound : t.Sound) (enough : t.entriesLen ≤ fuel) :
    (pruneLoop nowUs fuel t).Sound ∧ Frame t (pruneLoop nowUs fuel t) ∧
      (pruneLoop nowUs fuel t).live = t.live.dropWhile (fun e => !t.young nowUs e.insertedAtUs) := by
  induction fuel generalizing t with
  | zero =>
    have none : t.live = [] := List.length_eq_zero_iff.mp ((length_live t).trans (Nat.le_zero.mp enough))
    refine ⟨sound,.refl t,?_⟩
    rw [none]
    exact none
  | succ fuel ih =>
    unfold pruneLoop
    by_cases none : t.entriesLen = 0
    · rw [if_pos none]
      refine ⟨sound,.refl t,?_⟩
      rw [List.length_eq_zero_iff.mp ((length_live t).trans none)]
      rfl
    rw [if_neg none]
    by_cases young : t.young nowUs (t.entryAt 0).insertedAtUs = true
    · rw [if_pos young]
      refine ⟨sound,.refl t,?_⟩
      rw [live_cons none,List.dropWhile_cons_of_neg (by rw [young]; nofun)]
    · rw [if_neg young]
      obtain ⟨after,frame,live⟩ := ih (sound.dropHead none) (Nat.sub_le_of_le_add enough)
      refine ⟨after,(dropHead_frame t).trans frame,?_⟩
      rw [live,dropHead_live]
      conv_rhs => rw [live_cons none,List.dropWhile_cons_of_pos (by simpa using young)]
      rfl

theorem pruneStale_spec {t : Tracker} (sound : t.Sound) (nowUs : Nat) :
    (t.pruneStale nowUs).Sound ∧ Frame t (t.pruneStale nowUs) ∧
      (t.pruneStale nowUs).live = t.live.dropWhile (fun e => !t.young nowUs e.insertedAtUs) := by
  obtain ⟨after,frame,live⟩ := pruneLoop_spec nowUs t.entriesLen sound (Nat.le_refl _)
  exact ⟨after.rewind,frame.trans (rewind_frame _),(rewind_live _).trans live⟩

theorem evictOldest_spec {t : Tracker} (sound : t.Sound) :
    t.evictOldest.Sound ∧ Frame t t.evictOldest ∧ t.evictOldest.live = t.live.tail := by
  unfold evictOldest
  by_cases none : t.entriesLen = 0
  · rw [if_pos none,List.length_eq_zero_iff.mp ((length_live t).trans none)]
    exact ⟨sound,.refl t,rfl⟩
  · rw [if_neg none,rewind_live,dropHead_live]
    exact ⟨(sound.dropHead none).rewind,(dropHead_frame t).trans (rewind_frame _),rfl⟩

theorem ensureRingCapacity_spec {t after : Tracker} (ringed : t.Ringed) {granted : Bool} {minCap : Nat}
    (done : t.ensureRingCapacity granted minCap = .ok after) : after.Ringed ∧ Frame t after ∧ after.live = t.live ∧
      after.seen = t.seen ∧ after.entriesLen = t.entriesLen ∧ min t.options.maxEntries minCap ≤ after.entries.length := by
  obtain ⟨head,fits,cap⟩ := ringed
  unfold ensureRingCapacity at done
  dsimp only at done
  by_cases small : minCap ≤ t.entries.length
  · rw [if_pos small] at done
    cases done
    exact ⟨⟨head,fits,cap⟩,.refl t,rfl,rfl,rfl,by omega⟩
  rw [if_neg small] at done
  by_cases full : min t.options.maxEntries minCap ≤ t.entries.length
  · rw [if_pos full] at done
    cases done
    exact ⟨⟨head,fits,cap⟩,.refl t,rfl,rfl,rfl,full⟩
  rw [if_neg full] at done
  cases granted with
  | false => nomatch done
  | true =>
    cases done
    have size : (t.live ++ List.replicate (min t.options.maxEntries minCap-t.entriesLen) default).length =
        min t.options.maxEntries minCap := by
      rw [List.length_append,length_live,List.length_replicate]
      omega
    refine ⟨⟨?_,?_,?_⟩,⟨rfl,rfl⟩,?_,rfl,rfl,?_⟩
    · change 0 < (t.live ++ _).length
      omega
    · change t.entriesLen ≤ (t.live ++ _).length
      omega
    · change (t.live ++ _).length ≤ t.options.maxEntries
      omega
    · change window (t.live ++ _) 0 t.entriesLen = t.live
      rw [← length_live t]
      exact window_prefix _ _
    · change _ ≤ (t.live ++ _).length
      omega

theorem ensureRingCapacity_error {t : Tracker} {granted : Bool} {minCap : Nat} {e : Error}
    (refused : t.ensureRingCapacity granted minCap = .error e) : e = .outOfMemory ∧ granted = false := by
  unfold ensureRingCapacity at refused
  dsimp only at refused
  split at refused
  · nomatch refused
  split at refused
  · nomatch refused
  split at refused
  · rename_i none
    cases refused
    exact ⟨rfl,none⟩
  · nomatch refused

theorem ensureRingSlot_spec {t after : Tracker} (ringed : t.Ringed) {granted : Bool}
    (done : t.ensureRingSlot granted = .ok after) : after.Ringed ∧ Frame t after ∧ after.live = t.live ∧
      after.seen = t.seen ∧ (after.entriesLen < after.entries.length ∨ after.options.maxEntries ≤ after.entries.length) := by
  unfold ensureRingSlot at done
  dsimp only at done
  by_cases room : t.entriesLen < t.entries.length ∨ t.entries.length ≥ t.options.maxEntries
  · rw [if_pos room] at done
    cases done
    exact ⟨ringed,.refl t,rfl,rfl,room⟩
  rw [if_neg room] at done
  obtain ⟨after',frame,live,seen,size,large⟩ := ensureRingCapacity_spec ringed done
  refine ⟨after',frame,live,seen,.inl ?_⟩
  obtain ⟨head,fits,cap⟩ := ringed
  rw [size]
  split at large <;> omega

theorem ensureRingSlot_error {t : Tracker} {granted : Bool} {e : Error} (refused : t.ensureRingSlot granted = .error e) :
    e = .outOfMemory ∧ granted = false := by
  unfold ensureRingSlot at refused
  dsimp only at refused
  split at refused
  · nomatch refused
  · exact ensureRingCapacity_error refused

theorem push_live {t : Tracker} (room : t.entriesLen < t.entries.length) (e : Entry) :
    (t.pushEntryAssumeCapacity e).live = t.live ++ [e] := window_push _ _ _ _ room

theorem Ringed.push {t : Tracker} (ringed : t.Ringed) (room : t.entriesLen < t.entries.length) (e : Entry) :
    (t.pushEntryAssumeCapacity e).Ringed := by
  obtain ⟨head,_,cap⟩ := ringed
  unfold pushEntryAssumeCapacity
  constructor
  · rwa [List.length_set]
  · rw [List.length_set]
    exact room
  · rwa [List.length_set]

theorem length_shiftDown (head n j : Nat) (entries : List Entry) : (shiftDown head n j entries).length = entries.length := by
  induction n generalizing j entries with
  | zero => rfl
  | succ n ih =>
    rw [shiftDown,ih,List.length_set]

theorem peek_shiftDown (head n j i : Nat) {entries : List Entry} (within : j+n < entries.length) (bound : i < entries.length) :
    peek (shiftDown head n j entries) head i = if j ≤ i ∧ i < j+n then peek entries head (i+1) else peek entries head i := by
  induction n generalizing j entries with
  | zero => rw [shiftDown,if_neg (by omega)]
  | succ n ih =>
    rw [shiftDown,ih (j+1) (by rw [List.length_set]; omega) (by rwa [List.length_set])]
    by_cases inside : j+1 ≤ i ∧ i < j+1+n
    · rw [if_pos inside,if_pos (by omega),peek_set _ _ _ _ _ (by omega) (by omega),if_neg (by omega)]
    · rw [if_neg inside,peek_set _ _ _ _ _ (by omega) bound]
      by_cases same : j = i
      · rw [if_pos same,if_pos (by omega),same]
      · rw [if_neg same,if_neg (by omega)]

theorem window_shiftDown (head count i : Nat) {entries : List Entry} (inside : i < count) (fits : count ≤ entries.length) :
    window (shiftDown head (count-1-i) i entries) head (count-1) = (window entries head count).eraseIdx i := by
  apply List.ext_getElem
  · rw [length_window,List.length_eraseIdx_of_lt (by rwa [length_window]),length_window]
  · intro k left right
    rw [length_window] at left
    rw [getElem_window,peek_shiftDown _ _ _ _ (by omega) (by omega),List.getElem_eraseIdx]
    by_cases before : k < i
    · rw [dif_pos before,if_neg (by omega),getElem_window]
    · rw [dif_neg before,if_pos (by omega),getElem_window]

theorem eraseIdx_once {entries : List Entry} (once : (entries.map Entry.id).Nodup) {id : Id} {i : Nat}
    (found : entries.findIdx? (·.id = id) = some i) : entries.eraseIdx i = entries.filter (·.id ≠ id) := by
  induction entries generalizing i with
  | nil => nomatch found
  | cons e entries ih =>
    obtain ⟨alone,once⟩ := List.nodup_cons.mp once
    rw [List.findIdx?_cons] at found
    by_cases same : e.id = id
    · rw [if_pos (by simpa using same)] at found
      cases found
      rw [List.filter_cons_of_neg (by simpa using same),List.eraseIdx_cons_zero,List.filter_eq_self.mpr]
      intro other member
      refine decide_eq_true fun eq => alone ?_
      rw [same,← eq]
      exact List.mem_map_of_mem member
    · rw [if_neg (by simpa using same)] at found
      obtain ⟨k,at',rfl⟩ := Option.map_eq_some_iff.mp found
      rw [List.eraseIdx_cons_succ,ih once at',List.filter_cons_of_pos (by simpa using same)]

theorem removeFromRing_spec {t : Tracker} (ringed : t.Ringed) (once : (t.live.map Entry.id).Nodup) (id : Id) :
    (t.removeFromRing id).Ringed ∧ Frame t (t.removeFromRing id) ∧ (t.removeFromRing id).seen = t.seen ∧
      (t.removeFromRing id).live = t.live.filter (·.id ≠ id) ∧
      (t.removeFromRing id).entries.length = t.entries.length := by
  unfold removeFromRing
  cases found : t.live.findIdx? (·.id = id) with
  | none =>
    refine ⟨ringed,.refl t,rfl,(List.filter_eq_self.mpr fun e member => ?_).symm,rfl⟩
    simpa using List.findIdx?_eq_none_iff.mp found e member
  | some i =>
    obtain ⟨head,fits,cap⟩ := ringed
    have inside : i < t.entriesLen := by
      rw [← length_live t]
      exact (List.findIdx?_eq_some_iff_findIdx_eq.mp found).1
    dsimp only
    have whole : (Tracker.mk t.options (shiftDown t.entriesHead (t.entriesLen-1-i) i t.entries) t.entriesHead (t.entriesLen-1)
        t.seen t.lastObservedNowUs).Ringed := by
      refine ⟨?_,?_,?_⟩ <;> simp only [length_shiftDown] <;> omega
    have frame := rewind_frame ⟨t.options,shiftDown t.entriesHead (t.entriesLen-1-i) i t.entries,t.entriesHead,t.entriesLen-1,
      t.seen,t.lastObservedNowUs⟩
    refine ⟨whole.rewind,⟨frame.options,frame.clock⟩,rewind_seen _,?_,?_⟩
    · rw [rewind_live,← eraseIdx_once once found]
      exact window_shiftDown _ _ _ inside fits
    · unfold rewind
      split <;> exact length_shiftDown _ _ _ _

def Held (t : Tracker) (id : Id) (nowUs : Nat) : Prop := ∃ e ∈ t.live, e.id = id ∧ t.young nowUs e.insertedAtUs = true

theorem held_iff {t : Tracker} (matched : t.Matched) (id : Id) (nowUs : Nat) :
    (t.seen id).any (t.young nowUs) = true ↔ t.Held id nowUs := by
  rw [Option.any_eq_true_iff_get]
  constructor
  · rintro ⟨there,young⟩
    exact ⟨⟨id,_⟩,(matched.seen _ _).mp (Option.some_get there).symm,rfl,young⟩
  · rintro ⟨⟨_,insertedAtUs⟩,member,rfl,young⟩
    have there := (matched.seen _ _).mpr member
    exact ⟨Option.isSome_of_eq_some there,by rwa [Option.get_of_eq_some _ there]⟩

/-- The entries that a time leaves at the head. -/
def unexpired (t : Tracker) (nowUs : Nat) : List Entry := t.live.dropWhile (fun e => !t.young nowUs e.insertedAtUs)

def roomFor (limit : Nat) (entries : List Entry) : List Entry := if entries.length ≥ limit then entries.tail else entries

inductive Consumed (grants : Allocator) (t : Tracker) (id : Id) (nowUs : Nat) : Except Error Verdict → Tracker → Prop
  | replay (held : t.Held id nowUs) : Consumed grants t id nowUs (.ok .replay) t
  | refused (after : Tracker) (new : ¬t.Held id nowUs) (refused : grants 0 = false ∨ grants 1 = false) (sound : after.Sound)
    (frame : Frame t after) (live : after.live = t.unexpired nowUs) : Consumed grants t id nowUs (.error .outOfMemory) after
  | fresh (after : Tracker) (new : ¬t.Held id nowUs) (sound : after.Sound) (frame : Frame t after)
    (live : after.live = roomFor t.options.maxEntries ((t.unexpired nowUs).filter (·.id ≠ id)) ++ [⟨id,nowUs⟩]) :
    Consumed grants t id nowUs (.ok .fresh) after

def forget (t : Tracker) (id : Id) : Tracker :=
  if (t.seen id).isSome then {t with seen := fun other => if other = id then none else t.seen other}.removeFromRing id else t

theorem forget_spec {t : Tracker} (sound : t.Sound) (id : Id) : (t.forget id).Sound ∧ Frame t (t.forget id) ∧
    (t.forget id).live = t.live.filter (·.id ≠ id) ∧ (t.forget id).entries.length = t.entries.length := by
  unfold forget
  by_cases there : (t.seen id).isSome = true
  · rw [if_pos there]
    obtain ⟨ringed,frame,seen,live,size⟩ := @removeFromRing_spec
      {t with seen := fun other => if other = id then none else t.seen other} ⟨sound.ringed.head,sound.ringed.fits,sound.ringed.cap⟩
      sound.matched.once id
    refine ⟨⟨ringed,⟨?_,fun other insertedAtUs => ?_⟩⟩,⟨frame.options,frame.clock⟩,live,size⟩
    · rw [live]
      exact sound.matched.once.sublist (List.filter_sublist.map _)
    · rw [live,seen,List.mem_filter]
      dsimp only
      by_cases same : other = id
      · rw [if_pos same]
        refine ⟨nofun,fun ⟨_,kept⟩ => ?_⟩
        exact absurd same (of_decide_eq_true kept)
      · rw [if_neg same]
        rw [sound.matched.seen]
        exact ⟨fun member => ⟨member,by simpa using same⟩,And.left⟩
  · rw [if_neg there]
    refine ⟨sound,.refl t,(List.filter_eq_self.mpr fun e member => ?_).symm,rfl⟩
    have apart : e.id ≠ id := by
      rintro rfl
      exact there (Option.isSome_of_eq_some ((sound.matched.seen _ _).mpr member))
    simpa using apart

/-- An id that the ring does not have, with its time. -/
def remember (t : Tracker) (id : Id) (insertedAtUs : Nat) : Tracker :=
  {t.pushEntryAssumeCapacity ⟨id,insertedAtUs⟩ with seen := fun other => if other = id then some insertedAtUs else t.seen other}

theorem remember_spec {t : Tracker} (sound : t.Sound) (id : Id) (insertedAtUs : Nat) (room : t.entriesLen < t.entries.length)
    (new : ∀ e ∈ t.live, e.id ≠ id) : (t.remember id insertedAtUs).Sound ∧ Frame t (t.remember id insertedAtUs) ∧
      (t.remember id insertedAtUs).live = t.live ++ [⟨id,insertedAtUs⟩] := by
  have live : (t.remember id insertedAtUs).live = t.live ++ [⟨id,insertedAtUs⟩] := push_live room _
  have ringed := sound.ringed.push room ⟨id,insertedAtUs⟩
  refine ⟨⟨⟨ringed.head,ringed.fits,ringed.cap⟩,⟨?_,fun other at_us => ?_⟩⟩,⟨rfl,rfl⟩,live⟩
  · rw [live,List.map_append,List.nodup_append]
    refine ⟨sound.matched.once,List.nodup_singleton _,fun old member last single => ?_⟩
    obtain ⟨e,there,rfl⟩ := List.mem_map.mp member
    rw [List.map_singleton,List.mem_singleton] at single
    rw [single]
    exact new e there
  · rw [live,List.mem_append,List.mem_singleton]
    unfold remember
    dsimp only
    by_cases same : other = id
    · rw [if_pos same,Option.some_inj]
      constructor
      · rintro rfl
        exact .inr (same ▸ rfl)
      · rintro (member | eq)
        · exact absurd same (new _ member)
        · exact (congrArg Entry.insertedAtUs eq).symm
    · rw [if_neg same,sound.matched.seen]
      exact ⟨.inl,fun member => member.resolve_right fun eq => same (congrArg Entry.id eq)⟩

theorem evictOldest_size (t : Tracker) : t.evictOldest.entries.length = t.entries.length := by
  unfold evictOldest rewind
  split
  · rfl
  · split <;> rfl

def spare (t : Tracker) : Tracker := if t.entriesLen ≥ t.options.maxEntries then t.evictOldest else t

theorem spare_spec {t : Tracker} (sound : t.Sound)
    (room : t.entriesLen < t.entries.length ∨ t.options.maxEntries ≤ t.entries.length) :
    t.spare.Sound ∧ Frame t t.spare ∧ t.spare.live = roomFor t.options.maxEntries t.live ∧
      t.spare.entriesLen < t.spare.entries.length := by
  obtain ⟨head,fits,cap⟩ := sound.ringed
  unfold spare roomFor
  rw [length_live]
  by_cases full : t.entriesLen ≥ t.options.maxEntries
  · rw [if_pos full,if_pos full]
    obtain ⟨after,frame,live⟩ := evictOldest_spec sound
    have size := congrArg List.length live
    rw [length_live,List.length_tail,length_live] at size
    refine ⟨after,frame,live,?_⟩
    rw [evictOldest_size,size]
    omega
  · rw [if_neg full,if_neg full]
    exact ⟨sound,.refl t,rfl,by omega⟩

theorem consume_spec {t : Tracker} (sound : t.Sound) (grants : Allocator) (id : Id) (nowUs : Nat) :
    Consumed grants t id nowUs (t.consume grants id nowUs).1 (t.consume grants id nowUs).2 := by
  unfold consume
  by_cases held : (t.seen id).any (t.young nowUs) = true
  · rw [if_pos held]
    exact .replay ((held_iff sound.matched id nowUs).mp held)
  rw [if_neg held]
  have new := fun h => held ((held_iff sound.matched id nowUs).mpr h)
  obtain ⟨pruned,frame,live⟩ := pruneStale_spec sound nowUs
  generalize t.pruneStale nowUs = t1 at pruned frame live
  dsimp only
  by_cases grant : grants 0 = false
  · rw [if_pos grant]
    exact .refused t1 new (.inl grant) pruned frame live
  rw [if_neg grant]
  cases slot : t1.ensureRingSlot (grants 1) with
  | error e =>
    obtain ⟨rfl,refused⟩ := ensureRingSlot_error slot
    exact .refused t1 new (.inr refused) pruned frame live
  | ok t2 =>
    change Consumed grants t id nowUs (.ok .fresh) ((t2.forget id).spare.remember id nowUs)
    obtain ⟨ringed,frame2,live2,seen2,room⟩ := ensureRingSlot_spec pruned.ringed slot
    have sound2 : t2.Sound := ⟨ringed,pruned.matched.same live2 seen2⟩
    obtain ⟨sound3,frame3,live3,size3⟩ := forget_spec sound2 id
    have few : (t2.forget id).entriesLen ≤ t2.entriesLen := by
      rw [← length_live,← length_live,live3]
      exact List.length_filter_le _ _
    obtain ⟨sound4,frame4,live4,space⟩ := spare_spec sound3 (by rw [size3,frame3.options]; omega)
    rw [live3,live2,live,frame3.options,frame2.options,frame.options] at live4
    have apart : ∀ e ∈ (t2.forget id).spare.live, e.id ≠ id := by
      intro e member
      rw [live4] at member
      have kept : e ∈ (t.unexpired nowUs).filter (·.id ≠ id) := by
        unfold roomFor at member
        split at member
        · exact List.mem_of_mem_tail member
        · exact member
      simpa using (List.mem_filter.mp kept).2
    obtain ⟨sound5,frame5,live5⟩ := remember_spec sound4 id nowUs space apart
    rw [live4] at live5
    exact .fresh _ new sound5 (frame.trans (frame2.trans (frame3.trans (frame4.trans frame5)))) live5

/-- The fields fit the words that they are stored in. -/
structure Sized (t : Tracker) : Prop where
  maxEntries : t.options.maxEntries ≤ maxU64
  maxAge : t.options.maxAgeUs ≤ maxU64
  clock : t.lastObservedNowUs ≤ maxU64
  times : ∀ e ∈ t.live, e.insertedAtUs ≤ maxU64
  positive : 0 < t.options.maxAgeUs

theorem readU64_at {src front back : List Byte} {pos v : Nat} (parts : src = front ++ (bigEndian 8 v ++ back))
    (place : front.length = pos) (small : v ≤ maxU64) : readU64 src pos = v := by
  subst parts place
  unfold readU64
  rw [List.drop_left,List.take_left' (length_bigEndian 8 v),ofBigEndian_bigEndian,Nat.zero_mul,Nat.zero_add]
  exact Nat.mod_eq_of_lt (Nat.lt_succ_of_le small)

theorem length_encodeEntry (e : Entry) : (encodeEntry e).length = persistenceEntryLen := by
  unfold encodeEntry
  rw [List.length_append,e.id.size,length_bigEndian]
  rfl

theorem length_body (entries : List Entry) : (entries.flatMap encodeEntry).length = entries.length*persistenceEntryLen := by
  induction entries with
  | nil => rfl
  | cons e rest ih =>
    rw [List.flatMap_cons,List.length_append,length_encodeEntry,ih,List.length_cons,Nat.succ_mul,Nat.add_comm]

theorem seen_none {t : Tracker} (matched : t.Matched) {id : Id} (new : ∀ e ∈ t.live, e.id ≠ id) : t.seen id = none := by
  cases there : t.seen id with
  | none => rfl
  | some insertedAtUs => exact absurd rfl (new _ ((matched.seen _ _).mp there))

theorem decodeEntries_spec {src front : List Byte} {rest : List Entry} {pos : Nat} {t : Tracker}
    (parts : src = front ++ rest.flatMap encodeEntry) (place : front.length = pos) (sound : t.Sound)
    (room : t.entriesLen+rest.length ≤ t.entries.length) (once : ((t.live ++ rest).map Entry.id).Nodup)
    (times : ∀ e ∈ rest, e.insertedAtUs ≤ maxU64) : ∃ after, decodeEntries src rest.length pos t = .ok after ∧
      after.Sound ∧ Frame t after ∧ after.live = t.live ++ rest := by
  induction rest generalizing front pos t with
  | nil => exact ⟨t,rfl,sound,.refl t,(List.append_nil _).symm⟩
  | cons e rest ih =>
    have bytes : (src.drop pos).take idLen = e.id.bytes := by
      subst parts place
      rw [List.drop_left,List.flatMap_cons,encodeEntry,List.append_assoc,List.take_left' e.id.size]
    have inserted : readU64 src (pos+idLen) = e.insertedAtUs := by
      refine @readU64_at src (front ++ e.id.bytes) (rest.flatMap encodeEntry) _ _ ?_ ?_ (times e List.mem_cons_self)
      · rw [parts,List.flatMap_cons,encodeEntry]
        simp only [List.append_assoc]
      · rw [List.length_append,place,e.id.size]
    have new : ∀ old ∈ t.live, old.id ≠ e.id := by
      intro old member same
      rw [List.map_append,List.nodup_append] at once
      exact once.2.2 _ (List.mem_map_of_mem member) _ (List.mem_map_of_mem List.mem_cons_self) same
    rw [List.length_cons] at room
    obtain ⟨sound1,frame1,live1⟩ := remember_spec sound e.id e.insertedAtUs (by omega) new
    have tail : t.live ++ e::rest = (t.remember e.id e.insertedAtUs).live ++ rest := by
      rw [live1,List.append_assoc]
      rfl
    rw [tail] at once
    have size : (t.remember e.id e.insertedAtUs).entries.length = t.entries.length := List.length_set
    obtain ⟨after,done,sound2,frame2,live2⟩ := @ih (front ++ encodeEntry e) (pos+idLen+8) (t.remember e.id e.insertedAtUs)
      (by rw [parts,List.flatMap_cons,List.append_assoc])
      (by rw [List.length_append,place,length_encodeEntry]; rfl) sound1
      (by rw [size]; change t.entriesLen+1+rest.length ≤ _; omega) once (fun other member => times other (List.mem_cons_of_mem _ member))
    refine ⟨after,?_,sound2,frame1.trans frame2,live2.trans tail.symm⟩
    have there : (t.seen e.id).isSome = false := by
      rw [seen_none sound.matched new]
      rfl
    rw [List.length_cons,decodeEntries,dif_pos (by rw [bytes]; exact e.id.size)]
    have key : (⟨(src.drop pos).take idLen,by rw [bytes]; exact e.id.size⟩ : Id) = e.id :=
      Id.ext bytes
    dsimp only
    rw [key,there,inserted]
    exact done

/-- The cache that is stored and read back. -/
def reload (grants : Allocator) (t : Tracker) : Except Error Tracker :=
  match t.encodeAlloc (grants 4) with
  | .error e => .error e
  | .ok src => restore grants src

theorem init_spec {grants : Allocator} {options : Options} {t : Tracker} (made : init grants options = .ok t) :
    t.Sound ∧ t.options = options ∧ t.live = [] ∧ t.lastObservedNowUs = 0 ∧ 0 < options.maxEntries ∧ 0 < options.maxAgeUs := by
  unfold init at made
  split_ifs at made with entries age refused
  cases made
  have many : 0 < (List.replicate (min options.maxEntries 64) (default : Entry)).length := by
    rw [List.length_replicate]
    omega
  refine ⟨⟨⟨many,Nat.zero_le _,?_⟩,⟨List.nodup_nil,fun _ _ => ⟨nofun,nofun⟩⟩⟩,rfl,rfl,rfl,by omega,by omega⟩
  change (List.replicate (min options.maxEntries 64) (default : Entry)).length ≤ options.maxEntries
  rw [List.length_replicate]
  exact Nat.min_le_left _ _

theorem init_error {grants : Allocator} {options : Options} {e : Error} (entries : 0 < options.maxEntries)
    (age : 0 < options.maxAgeUs) (refused : init grants options = .error e) :
    e = .outOfMemory ∧ (grants 0 = false ∨ grants 1 = false) := by
  unfold init at refused
  rw [if_neg (by omega),if_neg (by omega)] at refused
  split_ifs at refused with none
  cases refused
  exact ⟨rfl,none⟩

theorem encode_ok {t : Tracker} {size : Nat} {src : List Byte} (written : t.encode size = .ok src) :
    persistenceHeaderLen+t.entriesLen*persistenceEntryLen ≤ maxU64 ∧
      src = persistenceMagic ++ [persistenceVersion,persistenceFlags] ++ bigEndian 8 t.options.maxEntries ++
        bigEndian 8 t.options.maxAgeUs ++ bigEndian 8 t.lastObservedNowUs ++ bigEndian 8 t.entriesLen ++
        t.live.flatMap encodeEntry := by
  unfold encode encodedLen at written
  split_ifs at written with many large
  dsimp only at written
  split_ifs at written
  cases written
  exact ⟨Nat.not_lt.mp large,rfl⟩

/-- An envelope comes back as the cache that it was written from, unless memory is refused. -/
theorem decode_encode {t : Tracker} (sound : t.Sound) (sized : t.Sized) {size : Nat} {src : List Byte}
    (written : t.encode size = .ok src) (grants : Allocator) :
    (∃ after, decode grants src = .ok after ∧ after.Sound ∧ Frame t after ∧ after.live = t.live) ∨
      decode grants src = .error .outOfMemory ∧ ∃ i < 4, grants i = false := by
  obtain ⟨fits,parts⟩ := encode_ok written
  obtain ⟨head,within,cap⟩ := sound.ringed
  have count : t.entriesLen ≤ t.options.maxEntries := Nat.le_trans within cap
  have length : src.length = persistenceHeaderLen+t.entriesLen*persistenceEntryLen := by
    rw [parts]
    simp only [List.length_append,length_bigEndian,length_body,length_live]
    rfl
  have maxEntries : readU64 src 6 = t.options.maxEntries := by
    refine @readU64_at src (persistenceMagic ++ [persistenceVersion,persistenceFlags]) (bigEndian 8 t.options.maxAgeUs ++
      bigEndian 8 t.lastObservedNowUs ++ bigEndian 8 t.entriesLen ++ t.live.flatMap encodeEntry) 6 _ ?_ rfl sized.maxEntries
    rw [parts]
    simp only [List.append_assoc]
  have maxAge : readU64 src 14 = t.options.maxAgeUs := by
    refine @readU64_at src (persistenceMagic ++ [persistenceVersion,persistenceFlags] ++ bigEndian 8 t.options.maxEntries)
      (bigEndian 8 t.lastObservedNowUs ++ bigEndian 8 t.entriesLen ++ t.live.flatMap encodeEntry) 14 _ ?_ rfl sized.maxAge
    rw [parts]
    simp only [List.append_assoc]
  have clock : readU64 src 22 = t.lastObservedNowUs := by
    refine @readU64_at src (persistenceMagic ++ [persistenceVersion,persistenceFlags] ++ bigEndian 8 t.options.maxEntries ++
      bigEndian 8 t.options.maxAgeUs) (bigEndian 8 t.entriesLen ++ t.live.flatMap encodeEntry) 22 _ ?_ rfl sized.clock
    rw [parts]
    simp only [List.append_assoc]
  have entries : readU64 src 30 = t.entriesLen := by
    refine @readU64_at src (persistenceMagic ++ [persistenceVersion,persistenceFlags] ++ bigEndian 8 t.options.maxEntries ++
      bigEndian 8 t.options.maxAgeUs ++ bigEndian 8 t.lastObservedNowUs) (t.live.flatMap encodeEntry) 30 _ ?_ rfl
      (Nat.le_trans count sized.maxEntries)
    rw [parts]
    simp only [List.append_assoc]
  have magic : src.take 4 = persistenceMagic := by
    rw [parts]
    rfl
  have version : src[4]? = some persistenceVersion := by
    rw [parts]
    rfl
  have flags : src[5]? = some persistenceFlags := by
    rw [parts]
    rfl
  unfold decode
  have age := sized.positive
  rw [maxEntries,maxAge,clock,entries,if_neg (by rw [length]; omega),if_neg (not_not.mpr magic),if_neg (not_not.mpr version),
    if_neg (not_not.mpr flags)]
  dsimp only
  rw [if_neg (by omega),if_neg (by omega),if_neg (by omega),if_neg (by omega),if_neg (by omega),if_neg (by omega)]
  cases made : init grants {maxEntries := t.options.maxEntries,maxAgeUs := t.options.maxAgeUs} with
  | error e =>
    obtain ⟨rfl,refused⟩ := init_error (Nat.lt_of_le_of_lt (Nat.zero_le _) (Nat.lt_of_lt_of_le head cap)) age made
    refine .inr ⟨rfl,?_⟩
    rcases refused with refused | refused
    · exact ⟨0,by omega,refused⟩
    · exact ⟨1,by omega,refused⟩
  | ok fresh =>
    obtain ⟨sound0,options0,live0,clock0,_,_⟩ := init_spec made
    dsimp only
    cases grown : ({fresh with lastObservedNowUs := t.lastObservedNowUs} : Tracker).ensureRingCapacity (grants 2) t.entriesLen with
    | error e =>
      obtain ⟨rfl,refused⟩ := ensureRingCapacity_error grown
      exact .inr ⟨rfl,2,by omega,refused⟩
    | ok ready =>
      dsimp only
      by_cases refused : grants 3 = false
      · rw [if_pos refused]
        exact .inr ⟨rfl,3,by omega,refused⟩
      rw [if_neg refused]
      have sound1 : ({fresh with lastObservedNowUs := t.lastObservedNowUs} : Tracker).Sound :=
        ⟨⟨sound0.ringed.head,sound0.ringed.fits,sound0.ringed.cap⟩,⟨sound0.matched.once,sound0.matched.seen⟩⟩
      obtain ⟨ringed2,frame2,live2,seen2,size2,room2⟩ := ensureRingCapacity_spec sound1.ringed grown
      have empty : ready.live = [] := live2.trans live0
      have none : ready.entriesLen = 0 := by rw [← length_live,empty]; rfl
      rw [show ({fresh with lastObservedNowUs := t.lastObservedNowUs} : Tracker).options = _ from options0,
        Nat.min_eq_right count] at room2
      have whole := @decodeEntries_spec src (persistenceMagic ++ [persistenceVersion,persistenceFlags] ++
        bigEndian 8 t.options.maxEntries ++ bigEndian 8 t.options.maxAgeUs ++ bigEndian 8 t.lastObservedNowUs ++
        bigEndian 8 t.entriesLen) t.live persistenceHeaderLen ready parts rfl ⟨ringed2,sound1.matched.same live2 seen2⟩
        (by rw [length_live]; omega) (by rw [empty,List.nil_append]; exact sound.matched.once) sized.times
      rw [length_live,empty,List.nil_append] at whole
      obtain ⟨after,done,sound3,frame3,live3⟩ := whole
      refine .inl ⟨after,done,sound3,⟨?_,?_⟩,live3⟩
      · exact frame3.options.trans (frame2.options.trans options0)
      · exact frame3.clock.trans frame2.clock

theorem Matched.seen_eq {t after : Tracker} (matched : t.Matched) (same : after.Matched) (live : after.live = t.live) :
    after.seen = t.seen := by
  funext id
  refine Option.ext fun insertedAtUs => ?_
  rw [same.seen,matched.seen,live]

/-- The cache that is read back is the one stored; a refused request and a cache too long for an envelope leave none. -/
theorem reload_spec {t : Tracker} (sound : t.Sound) (sized : t.Sized) (grants : Allocator) :
    (∃ after, t.reload grants = .ok after ∧ after.Sound ∧ Frame t after ∧ after.live = t.live) ∨
      (t.reload grants = .error .outOfMemory ∧ ∃ i < 5, grants i = false) ∨
      t.reload grants = .error .valueTooLarge ∧ persistenceHeaderLen+t.entriesLen*persistenceEntryLen > maxU64 := by
  unfold reload encodeAlloc
  by_cases long : persistenceHeaderLen+t.entriesLen*persistenceEntryLen > maxU64
  · have none : t.encodedLen = .error .valueTooLarge := by
      unfold encodedLen
      split_ifs
      · rfl
      · rfl
    rw [none]
    exact .inr (.inr ⟨rfl,long⟩)
  · have some : t.encodedLen = .ok (persistenceHeaderLen+t.entriesLen*persistenceEntryLen) := by
      unfold encodedLen
      rw [if_neg (by omega),if_neg long]
    rw [some]
    dsimp only
    by_cases refused : grants 4 = false
    · rw [if_pos refused]
      exact .inr (.inl ⟨rfl,4,by omega,refused⟩)
    rw [if_neg refused]
    cases written : t.encode (persistenceHeaderLen+t.entriesLen*persistenceEntryLen) with
    | error e =>
      unfold encode at written
      rw [some] at written
      dsimp only at written
      rw [if_neg (Nat.lt_irrefl _)] at written
      nomatch written
    | ok src =>
      rcases decode_encode sound sized written grants with back | ⟨out,i,early,refused⟩
      · exact .inl back
      · exact .inr (.inl ⟨out,i,by omega,refused⟩)

end Tracker

/-! ### The list -/

def youngAt (maxAgeUs nowUs : Nat) (e : Entry) : Bool := nowUs-e.insertedAtUs < maxAgeUs

/-- At most `limit` entries, the oldest first: an id is fresh when no young entry has it, and a fresh id
takes the place of the oldest when the list is full. -/
def consumeFifo (options : Options) (list : List Entry) (id : Id) (nowUs : Nat) : Verdict × List Entry :=
  if ∃ e ∈ list, e.id = id ∧ youngAt options.maxAgeUs nowUs e = true then (.replay,list)
  else (.fresh,Tracker.roomFor options.maxEntries (list.filter (youngAt options.maxAgeUs nowUs)) ++ [⟨id,nowUs⟩])

theorem length_roomFor {limit : Nat} {entries : List Entry} (fits : entries.length ≤ limit) (some : 0 < limit) :
    (Tracker.roomFor limit entries).length < limit := by
  unfold Tracker.roomFor
  split
  · rw [List.length_tail]
    omega
  · omega

theorem length_consumeFifo {options : Options} {list : List Entry} (fits : list.length ≤ options.maxEntries)
    (some : 0 < options.maxEntries) (id : Id) (nowUs : Nat) :
    (consumeFifo options list id nowUs).2.length ≤ options.maxEntries := by
  unfold consumeFifo
  split
  · exact fits
  · rw [List.length_append]
    exact length_roomFor (Nat.le_trans (List.length_filter_le _ _) fits) some

theorem youngAt_later {maxAgeUs nowUs laterUs : Nat} (order : nowUs ≤ laterUs) {e : Entry}
    (young : youngAt maxAgeUs laterUs e = true) : youngAt maxAgeUs nowUs e = true :=
  decide_eq_true (Nat.lt_of_le_of_lt (Nat.sub_le_sub_right order _) (of_decide_eq_true young))

theorem filter_later {maxAgeUs nowUs laterUs : Nat} (order : nowUs ≤ laterUs) (entries : List Entry) :
    entries.filter (youngAt maxAgeUs laterUs) =
      (entries.filter (youngAt maxAgeUs nowUs)).filter (youngAt maxAgeUs laterUs) := by
  rw [List.filter_filter]
  apply List.filter_congr
  intro e _
  cases young : youngAt maxAgeUs laterUs e with
  | false => rfl
  | true => rw [youngAt_later order young]; rfl

theorem dropWhile_filter {maxAgeUs nowUs : Nat} {entries : List Entry}
    (sorted : entries.Pairwise fun a b => a.insertedAtUs ≤ b.insertedAtUs) :
    entries.dropWhile (fun e => !youngAt maxAgeUs nowUs e) = entries.filter (youngAt maxAgeUs nowUs) := by
  induction entries with
  | nil => rfl
  | cons e rest ih =>
    obtain ⟨first,sorted⟩ := List.pairwise_cons.mp sorted
    cases young : youngAt maxAgeUs nowUs e with
    | false =>
      rw [List.dropWhile_cons_of_pos (by rw [young]; rfl),List.filter_cons_of_neg (by rw [young]; nofun),ih sorted]
    | true =>
      rw [List.dropWhile_cons_of_neg (by rw [young]; nofun),List.filter_eq_self.mpr]
      intro other member
      rcases List.mem_cons.mp member with rfl | member
      · exact young
      · refine decide_eq_true (Nat.lt_of_le_of_lt (Nat.sub_le_sub_left (first other member) _) (of_decide_eq_true young))

/-- A cache, the list that has been given the same ids, and the time of the last call that used one. -/
structure History where
  tracker : Tracker
  list : List Entry := []
  clock : Nat := 0

inductive Event where
  | consume (grants : Allocator) (id : Id) (nowUs : Nat)
  | consumeUsingInternalClock (grants : Allocator) (id : Id)
  | prune (nowUs : Nat)
  | bumpClock (nowUs : Nat)
  | restore (grants : Allocator)

namespace History

/-- A refused call leaves the list. -/
def give (h : History) (grants : Allocator) (id : Id) (nowUs : Nat) : History :=
  let out := h.tracker.consume grants id nowUs
  {tracker := out.2
   list := match out.1 with
    | .ok _ => (consumeFifo h.tracker.options h.list id nowUs).2
    | .error _ => h.list
   clock := nowUs}

def step (h : History) : Event → History
  | .consume grants id nowUs => h.give grants id nowUs
  | .consumeUsingInternalClock grants id => h.give grants id h.tracker.lastObservedNowUs
  | .prune nowUs => {h with tracker := h.tracker.prune nowUs,clock := nowUs}
  | .bumpClock nowUs => {h with tracker := h.tracker.bumpClock nowUs}
  | .restore grants =>
    match h.tracker.reload grants with
    | .ok tracker => {h with tracker := tracker}
    | .error _ => h

/-- Times are of 64 bits. -/
def Ordinary : Event → Prop
  | .consume _ _ nowUs => nowUs ≤ maxU64
  | .prune nowUs => nowUs ≤ maxU64
  | .bumpClock nowUs => nowUs ≤ maxU64
  | _ => True

/-- No call uses a time before that of the call before it. -/
def Timely (h : History) : Event → Prop
  | .consume _ _ nowUs => h.clock ≤ nowUs
  | .consumeUsingInternalClock _ _ => h.clock ≤ h.tracker.lastObservedNowUs
  | .prune nowUs => h.clock ≤ nowUs
  | _ => True

/-- The answer is the list's, unless memory for a new id is refused. -/
def Answered (h : History) (grants : Allocator) (id : Id) (nowUs : Nat) : Prop :=
  (h.tracker.consume grants id nowUs).1 = .ok (consumeFifo h.tracker.options h.list id nowUs).1 ∨
    (h.tracker.consume grants id nowUs).1 = .error .outOfMemory ∧
      (consumeFifo h.tracker.options h.list id nowUs).1 = .fresh ∧ (grants 0 = false ∨ grants 1 = false)

def Agrees (h : History) : Event → Prop
  | .consume grants id nowUs => h.Answered grants id nowUs
  | .consumeUsingInternalClock grants id => h.Answered grants id h.tracker.lastObservedNowUs
  | _ => True

/-- A call without memory loses no young entry. -/
def Spared (h : History) (grants : Allocator) (id : Id) (nowUs : Nat) : Prop :=
  (h.tracker.consume grants id nowUs).1 = .error .outOfMemory → ∀ e ∈ h.tracker.live,
    h.tracker.young nowUs e.insertedAtUs = true → e ∈ (h.tracker.consume grants id nowUs).2.live

/-- What is read back has the same entries, limits and clock; only a refused request, or a length past a word, leaves nothing. -/
def Restored (h : History) (grants : Allocator) : Prop :=
  match h.tracker.reload grants with
  | .ok after => after.live = h.tracker.live ∧ after.seen = h.tracker.seen ∧ Tracker.Frame h.tracker after
  | .error e => (e = .outOfMemory ∧ ∃ i < 5, grants i = false) ∨
      e = .valueTooLarge ∧ persistenceHeaderLen+h.tracker.entriesLen*persistenceEntryLen > maxU64

def Lossless (h : History) : Event → Prop
  | .consume grants id nowUs => h.Spared grants id nowUs
  | .consumeUsingInternalClock grants id => h.Spared grants id h.tracker.lastObservedNowUs
  | .restore grants => h.Restored grants
  | _ => True

structure Kept (h : History) : Prop where
  sound : h.tracker.Sound
  sized : h.tracker.Sized
  few : h.list.length ≤ h.tracker.options.maxEntries

open Tracker

theorem Kept.positive {h : History} (kept : h.Kept) : 0 < h.tracker.options.maxEntries :=
  Nat.lt_of_le_of_lt (Nat.zero_le _) (Nat.lt_of_lt_of_le kept.sound.ringed.head kept.sound.ringed.cap)

theorem Sized.still {t after : Tracker} (sized : t.Sized) (frame : Frame t after)
    (times : ∀ e ∈ after.live, e.insertedAtUs ≤ maxU64) : after.Sized := by
  obtain ⟨options,clock⟩ := frame
  refine ⟨?_,?_,?_,times,?_⟩
  · rw [options]
    exact sized.maxEntries
  · rw [options]
    exact sized.maxAge
  · rw [clock]
    exact sized.clock
  · rw [options]
    exact sized.positive

theorem mem_unexpired {t : Tracker} {nowUs : Nat} {e : Entry} (member : e ∈ t.unexpired nowUs) : e ∈ t.live :=
  (List.dropWhile_sublist _).mem member

theorem young_unexpired {t : Tracker} {nowUs : Nat} {e : Entry} (member : e ∈ t.live)
    (young : t.young nowUs e.insertedAtUs = true) : e ∈ t.unexpired nowUs := by
  unfold unexpired
  generalize t.live = entries at member ⊢
  induction entries with
  | nil => nomatch member
  | cons first rest ih =>
    by_cases old : t.young nowUs first.insertedAtUs = true
    · rw [List.dropWhile_cons_of_neg (by rw [old]; nofun)]
      exact member
    · rw [List.dropWhile_cons_of_pos (by simpa using old)]
      rcases List.mem_cons.mp member with rfl | member
      · exact absurd young old
      · exact ih member

theorem mem_roomFor {limit : Nat} {entries : List Entry} {e : Entry} (member : e ∈ roomFor limit entries) : e ∈ entries := by
  unfold roomFor at member
  split at member
  · exact List.mem_of_mem_tail member
  · exact member

theorem give_kept {h : History} (kept : h.Kept) (grants : Allocator) (id : Id) {nowUs : Nat} (small : nowUs ≤ maxU64) :
    (h.give grants id nowUs).Kept := by
  have listed := length_consumeFifo kept.few kept.positive id nowUs
  have cases := consume_spec kept.sound grants id nowUs
  unfold give
  generalize h.tracker.consume grants id nowUs = out at cases
  obtain ⟨answer,after⟩ := out
  cases cases with
  | replay => exact ⟨kept.sound,kept.sized,listed⟩
  | refused _ _ _ sound frame live =>
    refine ⟨sound,Sized.still kept.sized frame fun e member => ?_,?_⟩
    · rw [live] at member
      exact kept.sized.times e (mem_unexpired member)
    · exact frame.options ▸ kept.few
  | fresh _ _ sound frame live =>
    refine ⟨sound,Sized.still kept.sized frame fun e member => ?_,?_⟩
    · rw [live,List.mem_append,List.mem_singleton] at member
      rcases member with member | rfl
      · exact kept.sized.times e (mem_unexpired (List.mem_filter.mp (mem_roomFor member)).1)
      · exact small
    · exact frame.options ▸ listed

theorem bumpClock_live (t : Tracker) (nowUs : Nat) : (t.bumpClock nowUs).live = t.live ∧
    (t.bumpClock nowUs).options = t.options ∧ (t.Sound → (t.bumpClock nowUs).Sound) := by
  unfold bumpClock
  split
  · exact ⟨rfl,rfl,fun ⟨ringed,matched⟩ => ⟨⟨ringed.head,ringed.fits,ringed.cap⟩,⟨matched.once,matched.seen⟩⟩⟩
  · exact ⟨rfl,rfl,id⟩

theorem step_kept (h : History) (event : Event) (kept : h.Kept) (ordinary : Ordinary event) : (h.step event).Kept := by
  cases event with
  | consume grants id nowUs => exact give_kept kept grants id ordinary
  | consumeUsingInternalClock grants id => exact give_kept kept grants id kept.sized.clock
  | prune nowUs =>
    obtain ⟨sound,frame,live⟩ := pruneStale_spec kept.sound nowUs
    refine ⟨sound,Sized.still kept.sized frame fun e member => ?_,?_⟩
    · change e ∈ (h.tracker.pruneStale nowUs).live at member
      rw [live] at member
      exact kept.sized.times e (mem_unexpired member)
    · change _ ≤ (h.tracker.pruneStale nowUs).options.maxEntries
      rw [frame.options]
      exact kept.few
  | bumpClock nowUs =>
    obtain ⟨live,options,sound⟩ := bumpClock_live h.tracker nowUs
    refine ⟨sound kept.sound,⟨?_,?_,?_,?_,?_⟩,?_⟩
    · exact options ▸ kept.sized.maxEntries
    · exact options ▸ kept.sized.maxAge
    · change (h.tracker.bumpClock nowUs).lastObservedNowUs ≤ maxU64
      unfold bumpClock
      split
      · exact ordinary
      · exact kept.sized.clock
    · exact live ▸ kept.sized.times
    · exact options ▸ kept.sized.positive
    · exact options ▸ kept.few
  | restore grants =>
    unfold step
    dsimp only
    rcases reload_spec kept.sound kept.sized grants with ⟨after,out,sound,frame,live⟩ | ⟨out,_⟩ | ⟨out,_⟩
    · rw [out]
      exact ⟨sound,Sized.still kept.sized frame (live ▸ kept.sized.times),frame.options ▸ kept.few⟩
    · rw [out]
      exact kept
    · rw [out]
      exact kept

theorem consume_spares {h : History} (kept : h.Kept) (grants : Allocator) (id : Id) (nowUs : Nat) : h.Spared grants id nowUs := by
  unfold Spared
  have cases := consume_spec kept.sound grants id nowUs
  generalize h.tracker.consume grants id nowUs = out at cases
  obtain ⟨answer,after⟩ := out
  cases cases with
  | replay => exact nofun
  | refused _ _ _ _ _ live =>
    intro _ e member young
    rw [live]
    exact young_unexpired member young
  | fresh => exact nofun

theorem step_lossless (h : History) (event : Event) (kept : h.Kept) : h.Lossless event := by
  cases event with
  | consume grants id nowUs => exact consume_spares kept grants id nowUs
  | consumeUsingInternalClock grants id => exact consume_spares kept grants id _
  | prune => exact trivial
  | bumpClock => exact trivial
  | restore grants =>
    change h.Restored grants
    unfold Restored
    rcases reload_spec kept.sound kept.sized grants with ⟨after,out,sound,frame,live⟩ | ⟨out,refused⟩ | ⟨out,long⟩
    · rw [out]
      exact ⟨live,kept.sound.matched.seen_eq sound.matched live,frame⟩
    · rw [out]
      exact .inl ⟨rfl,refused⟩
    · rw [out]
      exact .inr ⟨rfl,long⟩

/-- The young entries are the list's, and the entries are in the order of their times. -/
structure Followed (h : History) : Prop extends Kept h where
  sorted : h.tracker.live.Pairwise fun a b => a.insertedAtUs ≤ b.insertedAtUs
  past : ∀ e ∈ h.tracker.live, e.insertedAtUs ≤ h.clock
  same : h.tracker.live.filter (youngAt h.tracker.options.maxAgeUs h.clock) =
    h.list.filter (youngAt h.tracker.options.maxAgeUs h.clock)

theorem Followed.unexpired {h : History} (followed : h.Followed) (nowUs : Nat) :
    h.tracker.unexpired nowUs = h.tracker.live.filter (youngAt h.tracker.options.maxAgeUs nowUs) :=
  dropWhile_filter followed.sorted

theorem Followed.later {h : History} (followed : h.Followed) {nowUs : Nat} (order : h.clock ≤ nowUs) :
    h.tracker.live.filter (youngAt h.tracker.options.maxAgeUs nowUs) =
      h.list.filter (youngAt h.tracker.options.maxAgeUs nowUs) := by
  rw [filter_later order,followed.same,← filter_later order]

theorem Followed.held_iff {h : History} (followed : h.Followed) {nowUs : Nat} (order : h.clock ≤ nowUs) (id : Id) :
    h.tracker.Held id nowUs ↔ ∃ e ∈ h.list, e.id = id ∧ youngAt h.tracker.options.maxAgeUs nowUs e = true := by
  have same := followed.later order
  constructor
  · rintro ⟨e,member,eq,young⟩
    have both : e ∈ h.tracker.live.filter (youngAt h.tracker.options.maxAgeUs nowUs) := List.mem_filter.mpr ⟨member,young⟩
    rw [same] at both
    exact ⟨e,(List.mem_filter.mp both).1,eq,young⟩
  · rintro ⟨e,member,eq,young⟩
    have both : e ∈ h.list.filter (youngAt h.tracker.options.maxAgeUs nowUs) := List.mem_filter.mpr ⟨member,young⟩
    rw [← same] at both
    exact ⟨e,(List.mem_filter.mp both).1,eq,young⟩

/-- The cache with the entries that are young at a later time, the list as it was. -/
theorem Followed.pruned {h : History} (followed : h.Followed) {nowUs : Nat} (order : h.clock ≤ nowUs) {after : Tracker}
    (frame : Frame h.tracker after) (live : after.live = h.tracker.unexpired nowUs) (kept : Kept ⟨after,h.list,nowUs⟩) :
    Followed ⟨after,h.list,nowUs⟩ := by
  have young := live.trans (followed.unexpired nowUs)
  refine ⟨kept,?_,?_,?_⟩
  · rw [live]
    exact followed.sorted.sublist (List.dropWhile_sublist _)
  · intro e member
    rw [live] at member
    exact Nat.le_trans (followed.past e (mem_unexpired member)) order
  · dsimp only
    rw [frame.options,young,List.filter_filter,← followed.later order]
    apply List.filter_congr
    intro e _
    exact Bool.and_self _

theorem give_follows {h : History} (followed : h.Followed) (grants : Allocator) (id : Id) {nowUs : Nat}
    (order : h.clock ≤ nowUs) (small : nowUs ≤ maxU64) : (h.give grants id nowUs).Followed ∧ h.Answered grants id nowUs := by
  have kept := give_kept followed.toKept grants id small
  have cases := consume_spec followed.sound grants id nowUs
  have held := followed.held_iff order id
  unfold give Answered at *
  generalize h.tracker.consume grants id nowUs = out at cases kept
  obtain ⟨answer,after⟩ := out
  cases cases with
  | replay there =>
    have list : consumeFifo h.tracker.options h.list id nowUs = (.replay,h.list) := if_pos (held.mp there)
    dsimp only at kept ⊢
    rw [list] at kept ⊢
    refine ⟨⟨kept,followed.sorted,fun e member => Nat.le_trans (followed.past e member) order,followed.later order⟩,.inl rfl⟩
  | refused _ new refused _ frame live =>
    have list : (consumeFifo h.tracker.options h.list id nowUs).1 = .fresh := by
      unfold consumeFifo
      rw [if_neg fun there => new (held.mpr there)]
    exact ⟨followed.pruned order frame live kept,.inr ⟨rfl,list,refused⟩⟩
  | fresh _ new _ frame live =>
    have list : consumeFifo h.tracker.options h.list id nowUs = (.fresh,roomFor h.tracker.options.maxEntries
        (h.list.filter (youngAt h.tracker.options.maxAgeUs nowUs)) ++ [⟨id,nowUs⟩]) :=
      if_neg fun there => new (held.mpr there)
    have apart : (h.tracker.unexpired nowUs).filter (·.id ≠ id) = h.tracker.unexpired nowUs := by
      refine List.filter_eq_self.mpr fun e member => ?_
      have young := member
      rw [followed.unexpired] at young
      have other : e.id ≠ id := fun eq => new ⟨e,mem_unexpired member,eq,(List.mem_filter.mp young).2⟩
      simpa using other
    have whole : after.live = (consumeFifo h.tracker.options h.list id nowUs).2 := by
      rw [list,live,apart,followed.unexpired,followed.later order]
    refine ⟨⟨kept,?_,?_,?_⟩,.inl (by rw [list])⟩
    · dsimp only
      rw [live,apart,List.pairwise_append]
      refine ⟨?_,List.pairwise_singleton _ _,fun e member last single => ?_⟩
      · unfold roomFor
        have sorted := followed.sorted.sublist (List.dropWhile_sublist (fun e => !h.tracker.young nowUs e.insertedAtUs))
        split
        · exact sorted.sublist (List.tail_sublist _)
        · exact sorted
      · rw [List.mem_singleton.mp single]
        exact Nat.le_trans (followed.past e (mem_unexpired (mem_roomFor member))) order
    · intro e member
      dsimp only at member
      rw [live,apart,List.mem_append,List.mem_singleton] at member
      rcases member with member | rfl
      · exact Nat.le_trans (followed.past e (mem_unexpired (mem_roomFor member))) order
      · exact Nat.le_refl _
    · dsimp only
      rw [whole]

theorem step_follows (h : History) (event : Event) (followed : h.Followed) (allowed : Ordinary event ∧ h.Timely event) :
    (h.step event).Followed ∧ h.Agrees event := by
  have kept := step_kept h event followed.toKept allowed.1
  cases event with
  | consume grants id nowUs => exact give_follows followed grants id allowed.2 allowed.1
  | consumeUsingInternalClock grants id => exact give_follows followed grants id allowed.2 followed.sized.clock
  | prune nowUs =>
    obtain ⟨_,frame,live⟩ := pruneStale_spec followed.sound nowUs
    exact ⟨followed.pruned allowed.2 frame live kept,trivial⟩
  | bumpClock nowUs =>
    obtain ⟨live,options,_⟩ := bumpClock_live h.tracker nowUs
    refine ⟨⟨kept,live ▸ followed.sorted,live ▸ followed.past,?_⟩,trivial⟩
    change (h.tracker.bumpClock nowUs).live.filter (youngAt (h.tracker.bumpClock nowUs).options.maxAgeUs h.clock) =
      h.list.filter (youngAt (h.tracker.bumpClock nowUs).options.maxAgeUs h.clock)
    rw [live,options]
    exact followed.same
  | restore grants =>
    refine ⟨?_,trivial⟩
    unfold step at kept ⊢
    dsimp only at kept ⊢
    rcases reload_spec followed.sound followed.sized grants with ⟨after,out,sound,frame,live⟩ | ⟨out,_⟩ | ⟨out,_⟩
    · rw [out] at kept ⊢
      refine ⟨kept,live ▸ followed.sorted,live ▸ followed.past,?_⟩
      dsimp only
      rw [live,frame.options]
      exact followed.same
    · rw [out]
      exact followed
    · rw [out]
      exact followed

/-- What holds of a cache at any moment. -/
def Coherent (h : History) : Prop := h.tracker.Matched ∧ h.list.length ≤ h.tracker.options.maxEntries

theorem cache_follows_list {grants : Allocator} {options : Options} {t : Tracker} (made : init grants options = .ok t)
    (entries : options.maxEntries ≤ maxU64) (age : options.maxAgeUs ≤ maxU64) {events : List Event}
    (ordinary : ∀ event ∈ events, Ordinary event) :
    System.Throughout Coherent step ⟨t,[],0⟩ events ∧ System.Admits step Lossless ⟨t,[],0⟩ events ∧
      (System.Admits step Timely ⟨t,[],0⟩ events → System.Admits step Agrees ⟨t,[],0⟩ events) := by
  obtain ⟨sound,same,live,clock,some,positive⟩ := init_spec made
  have kept : Kept ⟨t,[],0⟩ := by
    subst same
    refine ⟨sound,⟨entries,age,Nat.le_trans (Nat.le_of_eq clock) (Nat.zero_le _),?_,positive⟩,Nat.zero_le _⟩
    rw [live]
    exact nofun
  have admitted : System.Admits step (fun _ event => Ordinary event) ⟨t,[],0⟩ events := .of_forall ordinary _
  refine ⟨?_,.under step_kept (fun h event kept _ => step_lossless h event kept) kept admitted,fun timely => ?_⟩
  · refine System.Throughout.of_reaches (fun h reached => ?_) (.start rfl) admitted
    have kept := System.Reaches.invariant Kept (fun h (start : ⟨t,[],0⟩ = h) => start ▸ kept) step_kept reached
    exact ⟨kept.sound.matched,kept.few⟩
  · have followed : Followed ⟨t,[],0⟩ := by
      refine ⟨kept,?_,?_,?_⟩
      · rw [live]
        exact .nil
      · rw [live]
        exact nofun
      · dsimp only
        rw [live]
    exact .under (fun h event followed allowed => (step_follows h event followed allowed).1)
      (fun h event followed allowed => (step_follows h event followed allowed).2) followed (admitted.and timely)

def oneEntry : Tracker where
  options := {maxEntries := 1,maxAgeUs := 10}
  entries := [default]

def twoIds : List Event := [.consume granting default 3,.consume granting ⟨List.replicate 32 1,rfl⟩ 5,.restore granting]

theorem cache_follows_list_full : System.Throughout Coherent step ⟨oneEntry,[],0⟩ twoIds ∧
    System.Admits step Lossless ⟨oneEntry,[],0⟩ twoIds ∧ System.Admits step Agrees ⟨oneEntry,[],0⟩ twoIds := by
  obtain ⟨coherent,lossless,agrees⟩ := @cache_follows_list granting {maxEntries := 1,maxAgeUs := 10} oneEntry rfl (by decide)
    (by decide) twoIds (by
      intro event member
      simp only [twoIds,List.mem_cons,List.not_mem_nil,or_false] at member
      rcases member with rfl | rfl | rfl
      · exact (by decide : 3 ≤ maxU64)
      · exact (by decide : 5 ≤ maxU64)
      · exact trivial)
  exact ⟨coherent,lossless,agrees ⟨Nat.zero_le 3,(by decide : 3 ≤ 5),trivial,trivial⟩⟩

end History
end QuicZig.Tls.AntiReplay
