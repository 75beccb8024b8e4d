import QuicZig.Library.TokenBucket
import QuicZig.Server.SourceRate

/-! What each gate does to the entry of each source. -/
namespace QuicZig.Server.SourceRate
open Machine

theorem elapsed_eq {nowUs sinceUs : Nat} (order : sinceUs ≤ nowUs) (small : nowUs ≤ maxU64) :
    elapsed nowUs sinceUs = nowUs-sinceUs := by
  unfold elapsed
  rw [Nat.sub_add_comm order,Nat.add_mod_right]
  exact Nat.mod_eq_of_lt (by omega)

namespace Gates

section
variable {Address : Type}

/-- The limits of the table, which no call changes. -/
structure Same (s after : Gates Address) : Prop where
  capacity : after.sourceRateTableCapacity = s.sourceRateTableCapacity
  window : after.sourceRateWindowUs = s.sourceRateWindowUs

theorem Same.refl (s : Gates Address) : Same s s := ⟨rfl,rfl⟩

theorem Same.trans {s t u : Gates Address} (first : Same s t) (second : Same t u) : Same s u :=
  ⟨second.capacity.trans first.capacity,second.window.trans first.window⟩

theorem idle_same {s after : Gates Address} (same : Same s after) (e : SourceRateEntry) (nowUs : Nat) :
    after.idle e nowUs = s.idle e nowUs := by
  unfold idle
  rw [same.window]

end

variable {Address : Type} [DecidableEq Address]

@[simp] theorem find_put (s : Gates Address) (addr other : Address) (e : SourceRateEntry) :
    (s.put addr e).find other = if other = addr then some e else s.find other := by
  by_cases same : other = addr
  · rw [if_pos same,same]
    exact Finmap.lookup_insert _
  · rw [if_neg same]
    exact Finmap.lookup_insert_of_ne _ same

@[simp] theorem find_remove (s : Gates Address) (addr other : Address) :
    (s.remove addr).find other = if other = addr then none else s.find other := by
  by_cases same : other = addr
  · rw [if_pos same,same]
    exact Finmap.lookup_erase _ _
  · rw [if_neg same]
    exact Finmap.lookup_erase_ne same

theorem mem_keys (s : Gates Address) (addr : Address) : addr ∈ s.sourceRateTable.keys ↔ (s.find addr).isSome := by
  rw [Finmap.mem_keys,find,Finmap.lookup_isSome]

theorem keys_put (s : Gates Address) (addr : Address) (e : SourceRateEntry) :
    (s.put addr e).sourceRateTable.keys = insert addr s.sourceRateTable.keys := by
  ext other
  rw [mem_keys,find_put,Finset.mem_insert,mem_keys]
  by_cases same : other = addr
  · simp [same]
  · simp [same]

theorem count_put_le (s : Gates Address) (addr : Address) (e : SourceRateEntry) : (s.put addr e).count ≤ s.count+1 := by
  unfold count
  rw [keys_put]
  exact Finset.card_insert_le _ _

def Iterates (s : Gates Address) (order : List Address) : Prop := ∀ addr, (s.find addr).isSome → addr ∈ order

theorem find_pruneSourceRate (order : List Address) (s : Gates Address) (nowUs : Nat) :
    Same s (s.pruneSourceRate order nowUs) ∧ ∀ other, (s.pruneSourceRate order nowUs).find other =
      if other ∈ order ∧ (s.find other).any (s.idle · nowUs) then none else s.find other := by
  unfold pruneSourceRate
  induction order generalizing s with
  | nil => exact ⟨.refl s,fun other => (if_neg fun met => nomatch met.1).symm⟩
  | cons addr order ih =>
    rw [List.foldl_cons]
    cases there : s.find addr with
    | none =>
      obtain ⟨same,rest⟩ := ih s
      refine ⟨same,fun other => ?_⟩
      rw [rest]
      by_cases eq : other = addr
      · rw [eq,there]
        simp
      · simp [eq]
    | some e =>
      dsimp only
      by_cases idle : s.idle e nowUs = true
      · rw [if_pos idle]
        obtain ⟨same,rest⟩ := ih (s.remove addr)
        refine ⟨⟨same.capacity,same.window⟩,fun other => ?_⟩
        rw [rest,find_remove]
        by_cases eq : other = addr
        · rw [eq,there]
          simp [idle]
        · simp [eq,idle_same (⟨rfl,rfl⟩ : Same s (s.remove addr))]
      · rw [if_neg idle]
        obtain ⟨same,rest⟩ := ih s
        refine ⟨same,fun other => ?_⟩
        rw [rest]
        by_cases eq : other = addr
        · rw [eq,there]
          simp [idle]
        · simp [eq]

theorem pruned {order : List Address} {s : Gates Address} (iterates : s.Iterates order) (nowUs : Nat) (other : Address) :
    (s.pruneSourceRate order nowUs).find other = if (s.find other).any (s.idle · nowUs) then none else s.find other := by
  rw [(find_pruneSourceRate order s nowUs).2]
  by_cases idle : (s.find other).any (s.idle · nowUs) = true
  · have there : (s.find other).isSome := by
      cases found : s.find other with
      | none =>
        rw [found] at idle
        nomatch idle
      | some e => rfl
    rw [if_pos ⟨iterates other there,idle⟩,if_pos idle]
  · rw [if_neg fun both => idle both.2,if_neg idle]

theorem keys_subset {s after : Gates Address} (kept : ∀ other, after.find other = none ∨ after.find other = s.find other) :
    after.sourceRateTable.keys ⊆ s.sourceRateTable.keys := by
  intro other member
  rw [mem_keys] at member ⊢
  rcases kept other with gone | same
  · rw [gone] at member
    nomatch member
  · rwa [← same]

theorem prune_kept (order : List Address) (s : Gates Address) (nowUs : Nat) (other : Address) :
    (s.pruneSourceRate order nowUs).find other = none ∨ (s.pruneSourceRate order nowUs).find other = s.find other := by
  rw [(find_pruneSourceRate order s nowUs).2]
  split
  · exact .inl rfl
  · exact .inr rfl

theorem count_prune_le (order : List Address) (s : Gates Address) (nowUs : Nat) :
    (s.pruneSourceRate order nowUs).count ≤ s.count := Finset.card_le_card (keys_subset (prune_kept order s nowUs))

theorem count_prune_lt {order : List Address} {s : Gates Address} (iterates : s.Iterates order) {nowUs : Nat} {addr : Address}
    {e : SourceRateEntry} (there : s.find addr = some e) (idle : s.idle e nowUs = true) :
    (s.pruneSourceRate order nowUs).count < s.count := by
  refine Finset.card_lt_card ((Finset.ssubset_iff_of_subset (keys_subset (prune_kept order s nowUs))).mpr ⟨addr,?_,?_⟩)
  · rw [mem_keys,there]
    rfl
  · rw [mem_keys,pruned iterates,there]
    simp [idle]

/-- What the search over the entries has found: one of them, or none that was active before the last moment. -/
theorem oldest_fold (s : Gates Address) (order : List Address) (best : Option Address × Nat)
    (found : ∀ addr, best.1 = some addr → (s.find addr).isSome) :
    ∀ out, out = order.foldl (fun best addr => match s.find addr with
      | none => best
      | some e => if e.lastActiveUs < best.2 then (some addr,e.lastActiveUs) else best) best →
    (∀ addr, out.1 = some addr → (s.find addr).isSome) ∧
      (out.1 = none → best.1 = none ∧ ∀ addr ∈ order, ∀ e, s.find addr = some e → best.2 ≤ e.lastActiveUs) := by
  induction order generalizing best with
  | nil =>
    rintro _ rfl
    exact ⟨found,fun none => ⟨none,nofun⟩⟩
  | cons addr order ih =>
    intro out eq
    rw [List.foldl_cons] at eq
    cases there : s.find addr with
    | none =>
      rw [there] at eq
      obtain ⟨some,none⟩ := ih best found out eq
      refine ⟨some,fun gone => ⟨(none gone).1,fun other member e at' => ?_⟩⟩
      rcases List.mem_cons.mp member with rfl | member
      · rw [there] at at'
        nomatch at'
      · exact (none gone).2 other member e at'
    | some e =>
      rw [there] at eq
      dsimp only at eq
      by_cases older : e.lastActiveUs < best.2
      · rw [if_pos older] at eq
        obtain ⟨some,none⟩ := ih (some addr,e.lastActiveUs) (by
          rintro _ ⟨⟩
          rw [there]
          rfl) out eq
        exact ⟨some,fun gone => nomatch (none gone).1⟩
      · rw [if_neg older] at eq
        obtain ⟨some,none⟩ := ih best found out eq
        refine ⟨some,fun gone => ⟨(none gone).1,fun other member e' at' => ?_⟩⟩
        rcases List.mem_cons.mp member with rfl | member
        · rw [there] at at'
          cases at'
          exact Nat.not_lt.mp older
        · exact (none gone).2 other member e' at'

theorem oldest_there {s : Gates Address} {order : List Address} {addr : Address} (found : (s.oldest order).1 = some addr) :
    (s.find addr).isSome := (oldest_fold s order (none,maxU64) nofun _ rfl).1 addr found

theorem oldest_some {s : Gates Address} {order : List Address} (iterates : s.Iterates order) {addr : Address}
    {e : SourceRateEntry} (there : s.find addr = some e) (past : e.lastActiveUs < maxU64) : (s.oldest order).1 ≠ none := by
  intro none
  have late := ((oldest_fold s order (Option.none,maxU64) nofun _ rfl).2 none).2 addr
    (iterates addr (by rw [there]; rfl)) e there
  exact absurd past (Nat.not_lt.mpr late)

/-- The source whose entry goes from a table that is full of active ones. -/
def victim (order : List Address) (s : Gates Address) (nowUs : Nat) : Option Address :=
  if s.count ≥ s.sourceRateTableCapacity ∧ (s.pruneSourceRate order nowUs).count ≥ s.sourceRateTableCapacity then
    ((s.pruneSourceRate order nowUs).oldest order).1
  else none

theorem ensureSourceRateRoom_spec {order : List Address} {s : Gates Address} (iterates : s.Iterates order) (nowUs : Nat) :
    Same s (s.ensureSourceRateRoom order nowUs) ∧ ∀ other, (s.ensureSourceRateRoom order nowUs).find other =
      if s.victim order nowUs = some other then none
      else if s.count ≥ s.sourceRateTableCapacity ∧ (s.find other).any (s.idle · nowUs) then none else s.find other := by
  have same := (find_pruneSourceRate order s nowUs).1
  unfold ensureSourceRateRoom victim
  by_cases full : s.count ≥ s.sourceRateTableCapacity
  · rw [if_pos full]
    dsimp only
    rw [same.capacity]
    by_cases still : (s.pruneSourceRate order nowUs).count ≥ s.sourceRateTableCapacity
    · rw [if_pos still,if_pos ⟨full,still⟩]
      unfold evictOldestSourceRate
      cases out : ((s.pruneSourceRate order nowUs).oldest order).1 with
      | none =>
        refine ⟨same,fun other => ?_⟩
        rw [if_neg nofun,pruned iterates]
        simp [full]
      | some addr =>
        refine ⟨⟨same.capacity,same.window⟩,fun other => ?_⟩
        dsimp only
        rw [find_remove,pruned iterates]
        by_cases eq : other = addr
        · rw [if_pos eq,if_pos (congrArg some eq.symm)]
        · rw [if_neg eq,if_neg fun eq' => eq (Option.some.inj eq').symm]
          simp [full]
    · rw [if_neg still,if_neg fun both => still both.2]
      refine ⟨same,fun other => ?_⟩
      rw [if_neg nofun,pruned iterates]
      simp [full]
  · rw [if_neg full,if_neg fun both => full both.1]
    refine ⟨.refl s,fun other => ?_⟩
    rw [if_neg nofun,if_neg fun both => full both.1]

theorem lastActiveUs_lt {e : SourceRateEntry} {boundUs : Nat} (starts : ∀ axis, (e.window axis).startUs < boundUs)
    (refill : e.bandwidthLastRefillUs < boundUs) : e.lastActiveUs < boundUs := by
  unfold SourceRateEntry.lastActiveUs
  have one := starts .initial
  have two := starts .vn
  have three := starts .reset
  have four := starts .log
  omega

/-- Every time that an entry has is at most `clock`. -/
def Past (s : Gates Address) (clock : Nat) : Prop := ∀ addr e, s.find addr = some e →
  (∀ axis, (e.window axis).startUs ≤ clock) ∧ e.bandwidthLastRefillUs ≤ clock

theorem Past.later {s : Gates Address} {clock nowUs : Nat} (past : s.Past clock) (order : clock ≤ nowUs) : s.Past nowUs :=
  fun addr e there => ⟨fun axis => Nat.le_trans ((past addr e there).1 axis) order,Nat.le_trans (past addr e there).2 order⟩

theorem Past.kept {s after : Gates Address} {clock : Nat} (past : s.Past clock)
    (kept : ∀ other, after.find other = none ∨ after.find other = s.find other) : after.Past clock := by
  intro addr e there
  rcases kept addr with gone | same
  · rw [gone] at there
    nomatch there
  · exact past addr e (same ▸ there)

theorem Past.put {s : Gates Address} {clock : Nat} (past : s.Past clock) {addr : Address} {e : SourceRateEntry}
    (starts : ∀ axis, (e.window axis).startUs ≤ clock) (refill : e.bandwidthLastRefillUs ≤ clock) :
    (s.put addr e).Past clock := by
  intro other e' there
  rw [find_put] at there
  by_cases eq : other = addr
  · rw [if_pos eq] at there
    cases there
    exact ⟨starts,refill⟩
  · rw [if_neg eq] at there
    exact past other e' there

theorem ensureSourceRateRoom_kept {order : List Address} {s : Gates Address} (iterates : s.Iterates order) (nowUs : Nat)
    (other : Address) : (s.ensureSourceRateRoom order nowUs).find other = none ∨
      (s.ensureSourceRateRoom order nowUs).find other = s.find other := by
  rw [(ensureSourceRateRoom_spec iterates nowUs).2]
  split_ifs
  · exact .inl rfl
  · exact .inl rfl
  · exact .inr rfl

theorem count_pos {s : Gates Address} (many : 0 < s.count) : ∃ addr e, s.find addr = some e := by
  obtain ⟨addr,member⟩ := Finset.card_pos.mp many
  rw [mem_keys] at member
  exact ⟨addr,Option.isSome_iff_exists.mp member⟩

theorem ensureSourceRateRoom_room {order : List Address} {s : Gates Address} (iterates : s.Iterates order) {nowUs : Nat}
    (positive : 0 < s.sourceRateTableCapacity) (within : s.count ≤ s.sourceRateTableCapacity) (past : s.Past nowUs)
    (early : nowUs < maxU64) : (s.ensureSourceRateRoom order nowUs).count < s.sourceRateTableCapacity := by
  unfold ensureSourceRateRoom
  by_cases full : s.count ≥ s.sourceRateTableCapacity
  · rw [if_pos full]
    dsimp only
    rw [(find_pruneSourceRate order s nowUs).1.capacity]
    by_cases still : (s.pruneSourceRate order nowUs).count ≥ s.sourceRateTableCapacity
    · rw [if_pos still]
      obtain ⟨addr,e,there⟩ := count_pos (Nat.lt_of_lt_of_le positive still)
      have iterates' : (s.pruneSourceRate order nowUs).Iterates order := by
        intro other there
        rcases prune_kept order s nowUs other with gone | same
        · rw [gone] at there
          nomatch there
        · exact iterates other (same ▸ there)
      have times := past.kept (prune_kept order s nowUs) addr e there
      have found := oldest_some iterates' there (lastActiveUs_lt (fun axis => Nat.lt_of_le_of_lt (times.1 axis) early)
        (Nat.lt_of_le_of_lt times.2 early))
      unfold evictOldestSourceRate
      cases out : ((s.pruneSourceRate order nowUs).oldest order).1 with
      | none => exact absurd out found
      | some addr =>
        have member := (mem_keys _ addr).mpr (oldest_there out)
        have few := count_prune_le order s nowUs
        have fewer : ((s.pruneSourceRate order nowUs).remove addr).count < (s.pruneSourceRate order nowUs).count := by
          change (Finmap.keys (Finmap.erase addr _)).card < _
          rw [Finmap.keys_erase]
          exact Finset.card_erase_lt_of_mem member
        exact Nat.lt_of_lt_of_le fewer (Nat.le_trans few within)
    · rw [if_neg still]
      exact Nat.not_le.mp still
  · rw [if_neg full]
    exact Nat.not_le.mp full

theorem victim_there {order : List Address} {s : Gates Address} {nowUs : Nat} {addr : Address}
    (evicted : s.victim order nowUs = some addr) : (s.find addr).isSome := by
  unfold victim at evicted
  split at evicted
  · have there := oldest_there evicted
    rcases prune_kept order s nowUs addr with gone | same
    · rw [gone] at there
      nomatch there
    · exact same ▸ there
  · nomatch evicted

theorem victim_none {order : List Address} {s : Gates Address} (iterates : s.Iterates order) {nowUs : Nat}
    (within : s.count ≤ s.sourceRateTableCapacity)
    (room : s.count < s.sourceRateTableCapacity ∨ ∃ addr e, s.find addr = some e ∧ s.idle e nowUs = true) :
    s.victim order nowUs = none := by
  refine if_neg fun both => ?_
  rcases room with room | ⟨addr,e,there,idle⟩
  · omega
  · have fewer := count_prune_lt iterates there idle
    omega

end Gates
end QuicZig.Server.SourceRate
