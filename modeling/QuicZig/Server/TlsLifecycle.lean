import Mathlib.Tactic
import Mathlib.Data.List.Nodup
import QuicZig.Library.MinHeap
import QuicZig.Machine

/-! The TLS contexts of a server whose credentials are replaced while connections live on. A context that connections still
use drains: it goes with the last of them. -/
namespace QuicZig.Server.TlsLifecycle
open Machine MinHeap

abbrev Context := Nat

structure DrainingTlsEntry where
  ctx : Context
  generation : Nat
  refcount : Nat
  deriving DecidableEq, Repr

/-- `ctx` is the context that the connection's TLS handle was made from. -/
structure Slot where
  slotId : Nat
  tlsGeneration : Nat
  ctx : Context
  deriving DecidableEq, Repr

structure TlsContexts where
  slots : Array Slot := #[]
  nextSlotId : Nat := 0
  tlsCtx : Context
  ownsTls : Bool
  clientCaPem : Bool
  currentGeneration : Nat := 0
  drainingTlsContexts : Array DrainingTlsEntry := #[]
  /-- The contexts that `deinit` was called on, latest first. -/
  deinited : List Context := []
  deriving DecidableEq, Repr

/-- `pem` carries the answer of `buildServerContext`. -/
inductive TlsReload where
  | pem (built : Option Context)
  | override (ctx : Context)

/-- `stillborn` slots are taken down in the call that opened them; `closed` are the connections that a `reap` finds closed;
`granted` is the allocator's answer to the append. -/
inductive Event where
  | openSlotFromInitial (stillborn : Bool)
  | reap (closed : Nat → Bool)
  | replaceTlsContext (reload : TlsReload) (granted : Bool)

namespace TlsContexts

/-- `none` is the failed assertion. -/
def releaseGeneration (server : TlsContexts) (generation : Nat) : Option TlsContexts :=
  if generation = server.currentGeneration then some server
  else
    match server.drainingTlsContexts.findIdx? (·.generation == generation) with
    | none => some server
    | some idx =>
      match server.drainingTlsContexts[idx]? with
      | none => none
      | some entry =>
        if entry.refcount = 0 then none
        else if entry.refcount-1 = 0 then
          some {server with
            drainingTlsContexts := swapRemove server.drainingTlsContexts idx
            deinited := entry.ctx::server.deinited}
        else
          some {server with
            drainingTlsContexts := server.drainingTlsContexts.setIfInBounds idx {entry with refcount := entry.refcount-1}}

def openSlotFromInitial (server : TlsContexts) : TlsContexts :=
  {server with
    slots := server.slots.push ⟨server.nextSlotId,server.currentGeneration,server.tlsCtx⟩
    nextSlotId := (server.nextSlotId+1)%2^64}

def discardStillbornSlot (server : TlsContexts) : Option TlsContexts :=
  match server.slots.back? with
  | none => none
  | some slot => {server with slots := server.slots.pop}.releaseGeneration slot.tlsGeneration

def reapFrom (closed : Nat → Bool) : Nat → TlsContexts → Option TlsContexts
  | 0,server => some server
  | i+1,server =>
    match server.slots[i]? with
    | none => none
    | some slot =>
      if closed slot.slotId then
        match {server with slots := swapRemove server.slots i}.releaseGeneration slot.tlsGeneration with
        | none => none
        | some server => reapFrom closed i server
      else reapFrom closed i server

def reap (server : TlsContexts) (closed : Nat → Bool) : Option TlsContexts := reapFrom closed server.slots.size server

def refs (server : TlsContexts) : Nat := server.slots.countP (·.tlsGeneration == server.currentGeneration)

/-- The bookkeeping of a replacement; the new context is given up when the append is refused. -/
def adopt (server : TlsContexts) (newCtx : Context) (granted : Bool) : TlsContexts :=
  if server.ownsTls && 0 < server.refs then
    if granted then
      {server with
        drainingTlsContexts := server.drainingTlsContexts.push ⟨server.tlsCtx,server.currentGeneration,server.refs⟩
        tlsCtx := newCtx
        ownsTls := true
        currentGeneration := (server.currentGeneration+1)%2^32}
    else {server with deinited := newCtx::server.deinited}
  else
    {server with
      deinited := if server.ownsTls then server.tlsCtx::server.deinited else server.deinited
      tlsCtx := newCtx
      ownsTls := true
      currentGeneration := (server.currentGeneration+1)%2^32}

/-- The context that the server takes over from a reload. -/
def handed (clientCaPem : Bool) : TlsReload → Option Context
  | .pem built => built
  | .override ctx => if clientCaPem then none else some ctx

def replaceTlsContext (server : TlsContexts) (reload : TlsReload) (granted : Bool) : TlsContexts :=
  match handed server.clientCaPem reload with
  | none => server
  | some newCtx => server.adopt newCtx granted

def deinit (server : TlsContexts) : List Context :=
  server.deinited ++ server.drainingTlsContexts.toList.map (·.ctx) ++ if server.ownsTls then [server.tlsCtx] else []

def step (server : TlsContexts) : Event → Option TlsContexts
  | .openSlotFromInitial stillborn =>
    if stillborn then server.openSlotFromInitial.discardStillbornSlot else some server.openSlotFromInitial
  | .reap closed => server.reap closed
  | .replaceTlsContext reload granted => some (server.replaceTlsContext reload granted)

end TlsContexts

open TlsContexts

/-- Every owned context has one owner's entry: it is current, draining or gone. -/
structure Inv (borrowed owned : List Context) (replaced : Nat) (s : TlsContexts) : Prop where
  apart : (borrowed ++ owned).Nodup
  kept : s.deinit.Perm owned
  lent : s.ownsTls = false → s.tlsCtx ∈ borrowed
  bound : s.currentGeneration ≤ replaced
  once : (s.drainingTlsContexts.toList.map (·.generation)).Nodup
  older : ∀ entry ∈ s.drainingTlsContexts.toList, entry.generation < s.currentGeneration
  counted : ∀ entry ∈ s.drainingTlsContexts.toList, 0 < entry.refcount ∧
    entry.refcount = s.slots.toList.countP (·.tlsGeneration == entry.generation)
  used : ∀ slot ∈ s.slots.toList, slot.tlsGeneration = s.currentGeneration ∧ slot.ctx = s.tlsCtx ∨
    (∃ entry ∈ s.drainingTlsContexts.toList, entry.generation = slot.tlsGeneration ∧ entry.ctx = slot.ctx) ∨
    slot.tlsGeneration < s.currentGeneration ∧ slot.ctx ∈ borrowed ∧
      ∀ entry ∈ s.drainingTlsContexts.toList, entry.generation ≠ slot.tlsGeneration

section
variable {borrowed owned : List Context} {replaced : Nat} {s : TlsContexts}

theorem countP_generation {slots : List Slot} {slot : Slot} {rest : List Slot} (perm : slots.Perm (slot::rest))
    (generation : Nat) :
    slots.countP (·.tlsGeneration == generation) =
      rest.countP (·.tlsGeneration == generation)+if slot.tlsGeneration = generation then 1 else 0 := by
  rw [perm.countP_eq,List.countP_cons]
  simp

theorem perm_set {α : Type} {a : Array α} {i : Nat} {x : α} (there : a[i]? = some x) (y : α) :
    (a.setIfInBounds i y).toList.Perm (y::(swapRemove a i).toList) := by
  have gone := perm_swapRemove there
  obtain ⟨within,here⟩ := Array.getElem?_eq_some_iff.mp there
  have split : a.toList = a.toList.take i ++ x::a.toList.drop (i+1) := by
    have whole := (List.take_append_drop i a.toList).symm
    rw [List.drop_eq_getElem_cons (by simpa using within)] at whole
    simpa [here] using whole
  have others : (a.toList.take i ++ a.toList.drop (i+1)).Perm (swapRemove a i).toList := by
    rw [split] at gone
    exact (List.perm_cons x).mp (List.perm_middle.symm.trans gone)
  rw [Array.toList_setIfInBounds,List.set_eq_take_append_cons_drop,if_pos (by simpa using within)]
  exact List.perm_middle.trans ((List.perm_cons y).mpr others)

theorem same_entry (inv : Inv borrowed owned replaced s) {one other : DrainingTlsEntry}
    (here : one ∈ s.drainingTlsContexts.toList)
    (there : other ∈ s.drainingTlsContexts.toList) (same : one.generation = other.generation) : one = other :=
  List.inj_on_of_nodup_map inv.once here there same

theorem Inv.unlisted (inv : Inv borrowed owned replaced s) {slot : Slot} {rest : Array Slot}
    (perm : s.slots.toList.Perm (slot::rest.toList))
    (none : ∀ entry ∈ s.drainingTlsContexts.toList, entry.generation ≠ slot.tlsGeneration) :
    Inv borrowed owned replaced {s with slots := rest} := {
  apart := inv.apart
  kept := inv.kept
  lent := inv.lent
  bound := inv.bound
  once := inv.once
  older := inv.older
  counted := fun entry member => by
    have counted := inv.counted entry member
    rw [countP_generation perm,if_neg (none entry member).symm] at counted
    exact counted
  used := fun other member => inv.used other (perm.mem_iff.mpr (List.mem_cons_of_mem _ member))}

theorem Inv.others (inv : Inv borrowed owned replaced s) {slot : Slot} {rest : Array Slot} {entry : DrainingTlsEntry}
    {left : List DrainingTlsEntry} (perm : s.slots.toList.Perm (slot::rest.toList))
    (gone : s.drainingTlsContexts.toList.Perm (entry::left)) (named : entry.generation = slot.tlsGeneration) :
    ((entry::left).map (·.generation)).Nodup ∧
      entry.refcount = rest.toList.countP (·.tlsGeneration == entry.generation)+1 ∧
      ∀ other ∈ left, 0 < other.refcount ∧ other.refcount = rest.toList.countP (·.tlsGeneration == other.generation) := by
  have once := (gone.map (·.generation)).nodup_iff.mp inv.once
  obtain ⟨some,refcount⟩ := inv.counted entry (gone.mem_iff.mpr List.mem_cons_self)
  rw [countP_generation perm,if_pos named.symm] at refcount
  refine ⟨once,refcount,fun other here => ?_⟩
  have apart : slot.tlsGeneration ≠ other.generation := fun same =>
    (List.nodup_cons.mp once).1 (List.mem_map.mpr ⟨other,here,same.symm.trans named.symm⟩)
  have counted := inv.counted other (gone.mem_iff.mpr (List.mem_cons_of_mem _ here))
  rw [countP_generation perm,if_neg apart] at counted
  exact counted

theorem Inv.let_go (inv : Inv borrowed owned replaced s) {slot : Slot} {rest : Array Slot} {entry : DrainingTlsEntry}
    {draining : Array DrainingTlsEntry} (perm : s.slots.toList.Perm (slot::rest.toList))
    (gone : s.drainingTlsContexts.toList.Perm (entry::draining.toList)) (named : entry.generation = slot.tlsGeneration)
    (last : entry.refcount-1 = 0) : Inv borrowed owned replaced {s with
      slots := rest
      drainingTlsContexts := draining
      deinited := entry.ctx::s.deinited} := by
  obtain ⟨once,refcount,counted⟩ := inv.others perm gone named
  have among : ∀ other ∈ draining.toList, other ∈ s.drainingTlsContexts.toList :=
    fun other here => gone.mem_iff.mpr (List.mem_cons_of_mem _ here)
  refine {inv with
    kept := ?_
    once := (List.nodup_cons.mp once).2
    older := fun other here => inv.older other (among other here)
    counted := counted
    used := fun other here => ?_}
  · refine List.Perm.trans ?_ inv.kept
    refine List.Perm.append_right _ (List.perm_middle.symm.trans (List.Perm.append_left _ ?_))
    exact (gone.map (·.ctx)).symm
  · rcases inv.used other (perm.mem_iff.mpr (List.mem_cons_of_mem _ here)) with now | ⟨e,listed,same,ctx⟩ | ⟨before,lent,none⟩
    · exact .inl now
    · rcases List.mem_cons.mp (gone.mem_iff.mp listed) with rfl | listed
      · have one : 0 < rest.toList.countP (·.tlsGeneration == e.generation) :=
          List.countP_pos_iff.mpr ⟨other,here,by simp [same]⟩
        omega
      · exact .inr (.inl ⟨e,listed,same,ctx⟩)
    · exact .inr (.inr ⟨before,lent,fun e listed => none e (among e listed)⟩)

theorem Inv.counted_down (inv : Inv borrowed owned replaced s) {slot : Slot} {rest : Array Slot} {entry : DrainingTlsEntry}
    {left : List DrainingTlsEntry} {draining : Array DrainingTlsEntry} (perm : s.slots.toList.Perm (slot::rest.toList))
    (gone : s.drainingTlsContexts.toList.Perm (entry::left)) (named : entry.generation = slot.tlsGeneration)
    (last : entry.refcount-1 ≠ 0)
    (updated : draining.toList.Perm ({entry with refcount := entry.refcount-1}::left)) :
    Inv borrowed owned replaced {s with slots := rest, drainingTlsContexts := draining} := by
  obtain ⟨once,refcount,counted⟩ := inv.others perm gone named
  have split : ∀ e ∈ draining.toList, e = {entry with refcount := entry.refcount-1} ∨ e ∈ left :=
    fun e listed => List.mem_cons.mp (updated.mem_iff.mp listed)
  have member : entry ∈ s.drainingTlsContexts.toList := gone.mem_iff.mpr List.mem_cons_self
  have among : ∀ other ∈ left, other ∈ s.drainingTlsContexts.toList :=
    fun other here => gone.mem_iff.mpr (List.mem_cons_of_mem _ here)
  refine {inv with kept := ?_, once := ?_, older := ?_, counted := ?_, used := fun other here => ?_}
  · refine List.Perm.trans ?_ inv.kept
    refine List.Perm.append_right _ (List.Perm.append_left _ ?_)
    exact (updated.map (·.ctx)).trans (gone.map (·.ctx)).symm
  · exact (updated.map (·.generation)).nodup_iff.mpr once
  · intro e listed
    rcases split e listed with rfl | listed
    · exact inv.older entry member
    · exact inv.older e (among e listed)
  · intro e listed
    rcases split e listed with rfl | listed
    · dsimp only
      omega
    · exact counted e listed
  · rcases inv.used other (perm.mem_iff.mpr (List.mem_cons_of_mem _ here)) with now | ⟨e,listed,same,ctx⟩ | ⟨before,lent,none⟩
    · exact .inl now
    · rcases List.mem_cons.mp (gone.mem_iff.mp listed) with rfl | listed
      · exact .inr (.inl ⟨_,updated.mem_iff.mpr List.mem_cons_self,same,ctx⟩)
      · exact .inr (.inl ⟨e,updated.mem_iff.mpr (List.mem_cons_of_mem _ listed),same,ctx⟩)
    · refine .inr (.inr ⟨before,lent,fun e listed => ?_⟩)
      rcases split e listed with rfl | listed
      · exact none entry member
      · exact none e (among e listed)

theorem Inv.release (inv : Inv borrowed owned replaced s) {slot : Slot} {rest : Array Slot}
    (perm : s.slots.toList.Perm (slot::rest.toList)) :
    ∃ s', {s with slots := rest}.releaseGeneration slot.tlsGeneration = some s' ∧ Inv borrowed owned replaced s' ∧
      s'.slots = rest ∧ s'.clientCaPem = s.clientCaPem := by
  by_cases current : slot.tlsGeneration = s.currentGeneration
  · refine ⟨{s with slots := rest},?_,inv.unlisted perm fun entry member same => ?_,rfl,rfl⟩
    · rw [releaseGeneration,if_pos current]
    · have older := inv.older entry member
      omega
  · cases found : s.drainingTlsContexts.findIdx? (·.generation == slot.tlsGeneration) with
    | none =>
      refine ⟨{s with slots := rest},?_,inv.unlisted perm fun entry member same => ?_,rfl,rfl⟩
      · simp only [releaseGeneration,if_neg current,found]
      · have absent := Array.findIdx?_eq_none_iff.mp found entry (Array.mem_toList_iff.mp member)
        simp [same] at absent
    | some idx =>
      obtain ⟨within,named,_⟩ := Array.findIdx?_eq_some_iff_getElem.mp found
      have named : s.drainingTlsContexts[idx].generation = slot.tlsGeneration := by simpa using named
      have there : s.drainingTlsContexts[idx]? = some s.drainingTlsContexts[idx] := Array.getElem?_eq_getElem within
      generalize s.drainingTlsContexts[idx] = entry at named there
      have gone := perm_swapRemove there
      have some := (inv.counted entry (gone.mem_iff.mpr List.mem_cons_self)).1
      by_cases last : entry.refcount-1 = 0
      · refine ⟨_,?_,inv.let_go perm gone named last,rfl,rfl⟩
        simp only [releaseGeneration,if_neg current,found,there,if_neg (Nat.ne_of_gt some),if_pos last]
      · refine ⟨_,?_,inv.counted_down perm gone named last (perm_set there _),rfl,rfl⟩
        simp only [releaseGeneration,if_neg current,found,there,if_neg (Nat.ne_of_gt some),if_neg last]

theorem Inv.opened (inv : Inv borrowed owned replaced s) : Inv borrowed owned replaced s.openSlotFromInitial := by
  have slots : s.openSlotFromInitial.slots.toList = s.slots.toList ++ [⟨s.nextSlotId,s.currentGeneration,s.tlsCtx⟩] :=
    Array.toList_push
  refine {inv with counted := fun entry member => ?_, used := fun slot member => ?_}
  · obtain ⟨some,refcount⟩ := inv.counted entry member
    have older := inv.older entry member
    rw [slots,List.countP_append,List.countP_singleton,if_neg (by simp; omega)]
    exact ⟨some,refcount⟩
  · rw [slots] at member
    rcases List.mem_append.mp member with member | new
    · exact inv.used slot member
    · rw [List.mem_singleton.mp new]
      exact .inl ⟨rfl,rfl⟩

theorem discardStillbornSlot_opened : s.openSlotFromInitial.discardStillbornSlot = some
    {s with nextSlotId := (s.nextSlotId+1)%2^64} := by
  simp [discardStillbornSlot,openSlotFromInitial,releaseGeneration]

theorem mem_drop_swapRemove {α : Type} {a : Array α} {i : Nat} {x : α} (member : x ∈ (swapRemove a i).toList.drop i) :
    x ∈ a.toList.drop (i+1) := by
  obtain ⟨j,within,rfl⟩ := List.mem_drop_iff_getElem.mp member
  rw [Array.length_toList,size_swapRemove] at within
  rw [List.mem_drop_iff_getElem]
  simp only [Array.getElem_toList,swapRemove,Array.getElem_pop,Array.getElem_swapIfInBounds,Array.length_toList]
  by_cases moved : i+j = i
  · refine ⟨a.size-1-(i+1),by omega,?_⟩
    have same : i+1+(a.size-1-(i+1)) = a.size-1 := by omega
    simp only [same]
    rw [dif_pos ⟨moved,by omega⟩]
  · refine ⟨j-1,by omega,?_⟩
    have same : i+1+(j-1) = i+j := by omega
    simp only [same]
    rw [dif_neg (fun both => moved both.1),dif_neg (by omega)]

/-- The walk from the last slot to the first takes each closed slot, and what moves into its place has been looked at. -/
theorem Inv.reapFrom (inv : Inv borrowed owned replaced s) (closed : Nat → Bool) (i : Nat) (within : i ≤ s.slots.size)
    (passed : ∀ slot ∈ s.slots.toList.drop i, closed slot.slotId = false) :
    ∃ s', reapFrom closed i s = some s' ∧ Inv borrowed owned replaced s' ∧ s'.clientCaPem = s.clientCaPem ∧
      s'.slots.toList.Perm (s.slots.toList.filter (!closed ·.slotId)) := by
  induction i generalizing s with
  | zero =>
    refine ⟨s,rfl,inv,rfl,?_⟩
    rw [List.filter_eq_self.mpr fun slot member => by simp [passed slot (by simpa using member)]]
  | succ i ih =>
    have there : s.slots[i]? = some s.slots[i] := Array.getElem?_eq_getElem within
    have next : s.slots.toList.drop i = s.slots[i]::s.slots.toList.drop (i+1) :=
      List.drop_eq_getElem_cons (by rw [Array.length_toList]; exact within)
    generalize s.slots[i] = slot at there next
    simp only [TlsContexts.reapFrom,there]
    cases ended : closed slot.slotId with
    | false =>
      refine ih inv (by omega) fun other member => ?_
      rw [next] at member
      rcases List.mem_cons.mp member with rfl | later
      · exact ended
      · exact passed other later
    | true =>
      have perm := perm_swapRemove there
      obtain ⟨s',released,inv',slots,ca⟩ := inv.release perm
      obtain ⟨t,reaped,inv'',ca',left⟩ := ih inv' (by rw [slots,size_swapRemove]; omega) fun other member =>
        passed other (mem_drop_swapRemove (slots ▸ member))
      refine ⟨t,?_,inv'',ca'.trans ca,left.trans ?_⟩
      · simp only [if_true,released]
        exact reaped
      · rw [slots]
        refine List.Perm.trans ?_ (perm.filter _).symm
        rw [List.filter_cons_of_neg (by simp [ended])]

theorem Inv.reap (inv : Inv borrowed owned replaced s) (closed : Nat → Bool) :
    ∃ s', s.reap closed = some s' ∧ Inv borrowed owned replaced s' ∧ s'.clientCaPem = s.clientCaPem ∧
      s'.slots.toList.Perm (s.slots.toList.filter (!closed ·.slotId)) :=
  inv.reapFrom closed s.slots.size (Nat.le_refl _) fun slot member => by
    rw [List.drop_eq_nil_of_le (by rw [Array.length_toList])] at member
    cases member

/-- A replacement moves the context that is still in use to the draining ones, and lets go of one that is not. -/
theorem Inv.adopted (inv : Inv borrowed owned replaced s) {newCtx : Context} (new : (borrowed ++ (owned ++ [newCtx])).Nodup)
    (few : replaced+1 < 2^32) (granted : Bool) : Inv borrowed (owned ++ [newCtx]) (replaced+1) (s.adopt newCtx granted) := by
  have bound := inv.bound
  have advanced : (s.currentGeneration+1)%2^32 = s.currentGeneration+1 := Nat.mod_eq_of_lt (by omega)
  have kept := inv.kept
  have older : ∀ entry ∈ s.drainingTlsContexts.toList, entry.generation < s.currentGeneration+1 := fun entry member =>
    Nat.lt_succ_of_lt (inv.older entry member)
  unfold adopt
  cases owns : s.ownsTls with
  | false =>
    simp only [Bool.false_and,Bool.false_eq_true,if_false,advanced]
    refine ⟨new,?_,nofun,Nat.succ_le_succ bound,inv.once,older,inv.counted,fun slot member => ?_⟩
    · simp only [deinit,owns,Bool.false_eq_true,if_false,List.append_nil,if_true] at kept ⊢
      exact kept.append_right [newCtx]
    · rcases inv.used slot member with ⟨now,ctx⟩ | draining | ⟨before,lent,none⟩
      · refine .inr (.inr ⟨Nat.lt_succ_of_le (Nat.le_of_eq now),ctx ▸ inv.lent owns,fun entry listed same => ?_⟩)
        exact absurd (inv.older entry listed) (by omega)
      · exact .inr (.inl draining)
      · exact .inr (.inr ⟨Nat.lt_succ_of_lt before,lent,none⟩)
  | true =>
    simp only [deinit,owns,if_true] at kept
    by_cases some : 0 < s.refs
    · cases granted with
      | false =>
        simp only [Bool.true_and,decide_eq_true_eq,some,if_true,Bool.false_eq_true,if_false]
        refine {inv with apart := new, kept := ?_, lent := nofun, bound := Nat.le_succ_of_le bound}
        simp only [deinit,if_true]
        exact (kept.cons newCtx).trans (List.perm_append_singleton newCtx owned).symm
      | true =>
        simp only [Bool.true_and,decide_eq_true_eq,some,if_true,advanced]
        have pushed : (s.drainingTlsContexts.push ⟨s.tlsCtx,s.currentGeneration,s.refs⟩).toList =
          s.drainingTlsContexts.toList ++ [⟨s.tlsCtx,s.currentGeneration,s.refs⟩] := Array.toList_push
        refine ⟨new,?_,nofun,Nat.succ_le_succ bound,?_,?_,?_,fun slot member => ?_⟩
        · simp only [deinit,pushed,List.map_append,List.map_cons,List.map_nil,if_true,← List.append_assoc]
          exact kept.append_right [newCtx]
        · rw [pushed,List.map_append]
          refine List.nodup_append.mpr ⟨inv.once,List.nodup_singleton _,fun g member other here same => ?_⟩
          obtain ⟨entry,listed,rfl⟩ := List.mem_map.mp member
          have before := inv.older entry listed
          rw [List.mem_singleton.mp here] at same
          exact absurd same (Nat.ne_of_lt before)
        · intro entry member
          rw [pushed] at member
          rcases List.mem_append.mp member with member | new
          · exact older entry member
          · rw [List.mem_singleton.mp new]
            exact Nat.lt_succ_self _
        · intro entry member
          rw [pushed] at member
          rcases List.mem_append.mp member with member | new
          · exact inv.counted entry member
          · rw [List.mem_singleton.mp new]
            exact ⟨some,by rw [refs,← Array.countP_toList]⟩
        · dsimp only
          rw [pushed]
          rcases inv.used slot member with ⟨now,ctx⟩ | ⟨entry,listed,same,ctx⟩ | ⟨before,lent,none⟩
          · exact .inr (.inl ⟨_,List.mem_append_right _ List.mem_cons_self,now.symm,ctx.symm⟩)
          · exact .inr (.inl ⟨entry,List.mem_append_left _ listed,same,ctx⟩)
          · refine .inr (.inr ⟨Nat.lt_succ_of_lt before,lent,fun entry listed => ?_⟩)
            rcases List.mem_append.mp listed with listed | new
            · exact none entry listed
            · rw [List.mem_singleton.mp new]
              exact Nat.ne_of_gt before
    · simp only [Bool.true_and,decide_eq_true_eq,some,if_false,if_true,advanced]
      refine ⟨new,?_,nofun,Nat.succ_le_succ bound,inv.once,older,inv.counted,fun slot member => ?_⟩
      · simp only [deinit,if_true]
        refine List.Perm.append_right [newCtx] (List.Perm.trans ?_ kept)
        exact (List.perm_append_singleton s.tlsCtx _).symm
      · rcases inv.used slot member with ⟨now,_⟩ | draining | ⟨before,lent,none⟩
        · refine absurd ?_ some
          rw [refs,← Array.countP_toList]
          exact List.countP_pos_iff.mpr ⟨slot,member,by simp [now]⟩
        · exact .inr (.inl draining)
        · exact .inr (.inr ⟨Nat.lt_succ_of_lt before,lent,none⟩)

def handedOver (clientCaPem : Bool) (events : List Event) : List Context :=
  events.filterMap fun
    | .replaceTlsContext reload _ => handed clientCaPem reload
    | _ => none

theorem inv_run (inv : Inv borrowed owned replaced s) (events : List Event)
    (apart : (borrowed ++ (owned ++ handedOver s.clientCaPem events)).Nodup)
    (few : replaced+(handedOver s.clientCaPem events).length < 2^32) :
    ∃ s' replaced', events.foldlM step s = some s' ∧ Inv borrowed
    (owned ++ handedOver s.clientCaPem events) replaced' s' := by
  induction events generalizing s owned replaced with
  | nil => exact ⟨s,replaced,rfl,by simpa [handedOver] using inv⟩
  | cons event rest ih =>
    rw [List.foldlM_cons]
    cases event with
    | openSlotFromInitial stillborn =>
      cases stillborn with
      | false => exact ih inv.opened apart few
      | true =>
        simp only [step,if_true,discardStillbornSlot_opened]
        exact ih (s := {s with nextSlotId := (s.nextSlotId+1)%2^64}) {inv with} apart few
    | reap closed =>
      obtain ⟨s',reaped,inv',ca,_⟩ := inv.reap closed
      simp only [step,reaped]
      rw [← ca] at apart few
      obtain ⟨t,replaced',run,inv''⟩ := ih inv' apart few
      rw [ca] at inv''
      exact ⟨t,replaced',run,inv''⟩
    | replaceTlsContext reload granted =>
      cases over' : handed s.clientCaPem reload with
      | none =>
        have same : handedOver s.clientCaPem (.replaceTlsContext reload granted::rest) = handedOver s.clientCaPem rest := by
          simp [handedOver,over']
        rw [same] at apart few ⊢
        simp only [step,TlsContexts.replaceTlsContext,over']
        exact ih inv apart few
      | some newCtx =>
        have more : handedOver s.clientCaPem (.replaceTlsContext reload granted::rest) =
            [newCtx] ++ handedOver s.clientCaPem rest := by
          simp [handedOver,over']
        rw [more,← List.append_assoc owned] at apart ⊢
        rw [more,List.length_append,List.length_singleton] at few
        have ca : (s.adopt newCtx granted).clientCaPem = s.clientCaPem := by
          unfold adopt
          split <;> try split
          all_goals rfl
        have new : (borrowed ++ (owned ++ [newCtx])).Nodup := by
          rw [← List.append_assoc] at apart
          exact (List.nodup_append.mp apart).1
        have inv' := inv.adopted new (by omega) granted
        simp only [step,TlsContexts.replaceTlsContext,over']
        rw [← ca] at apart few ⊢
        exact ih inv' apart (by omega)

/-- The server after `init`: it builds its context, or borrows the embedder's. -/
def start (tlsCtx : Context) (override clientCaPem : Bool) : TlsContexts :=
  {tlsCtx := tlsCtx,ownsTls := !override,clientCaPem := clientCaPem}

/-- Over every order of opened and reaped slots and reloads, no assertion fails, a context of the server is let go of once, and as
soon as it is neither current nor used by a slot; the end of the server lets go of the others. -/
theorem contexts_gone_when_unused (tlsCtx : Context) (override clientCaPem : Bool) (events : List Event)
    (apart : (tlsCtx::handedOver clientCaPem events).Nodup) (few : (handedOver clientCaPem events).length < 2^32) :
    let owned := (if override then [] else [tlsCtx]) ++ handedOver clientCaPem events
    ∃ s, events.foldlM step (start tlsCtx override clientCaPem) = some s ∧ s.deinited.Nodup ∧
      (∀ ctx, ctx ∈ s.deinited ↔ ctx ∈ owned ∧ ctx ≠ s.tlsCtx ∧ ∀ slot ∈ s.slots.toList, slot.ctx ≠ ctx) ∧
      s.deinit.Perm owned ∧
      ∀ closed, ∃ s', s.reap closed = some s' ∧ s'.slots.toList.Perm (s.slots.toList.filter (!closed ·.slotId)) := by
  intro owned
  have begun : Inv (if override then [tlsCtx] else []) (if override then [] else [tlsCtx]) 0
    (start tlsCtx override clientCaPem) := by
    cases override <;> exact ⟨by simp,by simp [deinit,start],by simp [start],Nat.le_refl 0,by simp [start],
      by simp [start],by simp [start],by simp [start]⟩
  have distinct : ((if override then [tlsCtx] else []) ++ owned).Nodup := by
    cases override <;> exact apart
  obtain ⟨s,replaced,ran,inv⟩ := inv_run begun events distinct (by rw [Nat.zero_add]; exact few)
  change Inv _ owned replaced s at inv
  have foreign : ∀ ctx ∈ (if override then [tlsCtx] else []), ctx ∉ owned := fun ctx lent own =>
    (List.nodup_append.mp inv.apart).2.2 ctx lent ctx own rfl
  have once : s.deinit.Nodup := inv.kept.nodup_iff.mpr (List.nodup_append.mp inv.apart).2.1
  have gone := List.nodup_append.mp once
  have drained := List.nodup_append.mp gone.1
  have entries : ∀ entry ∈ s.drainingTlsContexts.toList, entry.ctx ∉ s.deinited := fun entry listed there =>
    drained.2.2 entry.ctx there entry.ctx (List.mem_map_of_mem listed) rfl
  refine ⟨s,ran,drained.1,fun ctx => ⟨fun there => ?_,fun ⟨own,apart,unused⟩ => ?_⟩,inv.kept,fun closed => ?_⟩
  · have own : ctx ∈ owned := inv.kept.mem_iff.mp (List.mem_append_left _ (List.mem_append_left _ there))
    have apart : ctx ≠ s.tlsCtx := by
      cases owns : s.ownsTls with
      | false =>
        rintro rfl
        exact foreign s.tlsCtx (inv.lent owns) own
      | true =>
        rintro rfl
        exact gone.2.2 s.tlsCtx (List.mem_append_left _ there) s.tlsCtx (by simp [owns]) rfl
    refine ⟨own,apart,?_⟩
    rintro slot member rfl
    rcases inv.used slot member with ⟨_,same⟩ | ⟨entry,listed,_,same⟩ | ⟨_,lent,_⟩
    · exact apart same
    · exact entries entry listed (same ▸ there)
    · exact foreign slot.ctx lent own
  · rcases List.mem_append.mp (inv.kept.mem_iff.mpr own) with there | current
    · rcases List.mem_append.mp there with there | draining
      · exact there
      · obtain ⟨entry,listed,rfl⟩ := List.mem_map.mp draining
        obtain ⟨some,refcount⟩ := inv.counted entry listed
        obtain ⟨slot,member,same⟩ := List.countP_pos_iff.mp (refcount ▸ some)
        have same : slot.tlsGeneration = entry.generation := by simpa using same
        rcases inv.used slot member with ⟨now,_⟩ | ⟨e,listed',named,held⟩ | ⟨_,_,none⟩
        · have older := inv.older entry listed
          omega
        · rw [same_entry inv listed' listed (named.trans same)] at held
          exact absurd held.symm (unused slot member)
        · exact absurd same.symm (none entry listed)
    · cases owns : s.ownsTls with
      | false => simp [owns] at current
      | true => exact absurd (by simpa [owns] using current) apart
  · obtain ⟨s',reaped,_,_,perm⟩ := inv.reap closed
    exact ⟨s',reaped,perm⟩

def reloads : List Event :=
  [.openSlotFromInitial false,.replaceTlsContext (.pem (some 1)) true,.openSlotFromInitial false,.openSlotFromInitial true,
    .replaceTlsContext (.pem none) true,.replaceTlsContext (.override 2) false,.replaceTlsContext (.override 3) true,
      .reap (· == 0)]

theorem contexts_gone_when_unused_reloads :
    ∃ s, reloads.foldlM step (start 0 false false) = some s ∧ s.deinited.Nodup ∧
      (∀ ctx, ctx ∈ s.deinited ↔ ctx ∈ [0,1,2,3] ∧ ctx ≠ s.tlsCtx ∧ ∀ slot ∈ s.slots.toList, slot.ctx ≠ ctx) ∧
      s.deinit.Perm [0,1,2,3] ∧
      ∀ closed, ∃ s', s.reap closed = some s' ∧ s'.slots.toList.Perm (s.slots.toList.filter (!closed ·.slotId)) :=
  contexts_gone_when_unused 0 false false reloads (by decide) (by decide)

end

end QuicZig.Server.TlsLifecycle
