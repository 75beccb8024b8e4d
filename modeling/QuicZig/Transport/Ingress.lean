import QuicZig.Transport.UdpBatch

/-! A receive batch is handed on whole: each message once, in its own pieces, in order. -/
namespace QuicZig.Transport
open Machine Chunks

variable {Ecn : Type}

namespace IngressIterator

theorem Yields.unique {it : IngressIterator Ecn} {one other : List (IngressDatagram Ecn)} (first : Yields it one)
    (second : Yields it other) : one = other := by
  induction first generalizing other with
  | done last =>
    cases second with
    | done => rfl
    | more found => cases last.symm.trans found
  | more found _ ih =>
    cases second with
    | done last => cases found.symm.trans last
    | more found' later =>
      cases found.symm.trans found'
      exact congrArg (_::·) (ih later)

theorem marked_last {pieces : List (List Byte)} (some : pieces ≠ []) :
    (marked pieces).map Prod.snd = List.replicate (pieces.length-1) false ++ [true] := by
  induction pieces with
  | nil => exact absurd rfl some
  | cons piece rest ih =>
    cases rest with
    | nil => rfl
    | cons next rest =>
      rw [marked,List.map_cons,ih (List.cons_ne_nil _ _)]
      rfl

variable (it : IngressIterator Ecn)

theorem pieces_of_open {msg : IncomingMessage Ecn} (whole : msg.trunc = false) :
    (it.pieces msg).flatten = msg.data ∧ it.pieces msg ≠ [] := by
  unfold pieces
  rw [if_neg (by simp [whole])]
  cases stride : it.strideOf msg with
  | none => simp
  | some seg =>
    have bound : 0 < seg ∧ 0 < msg.data.length := by
      unfold strideOf at stride
      split at stride
      · have bound := (Option.filter_eq_some_iff.mp stride).2
        simp only [decide_eq_true_eq] at bound
        omega
      · cases stride
    refine ⟨flatten_cut bound.1 msg.data,?_⟩
    change cut seg msg.data ≠ []
    rw [cut_cons bound.1 (List.length_pos_iff.mp bound.2)]
    exact List.cons_ne_nil _ _

theorem carved_index {msg : IncomingMessage Ecn} {index : Nat} {d : IngressDatagram Ecn} (member : d ∈ it.carved msg index) :
    d.msgIndex = index ∧ d.source = msg.source ∧ d.ecn = it.ecnOf msg := by
  obtain ⟨piece,_,rfl⟩ := List.mem_map.mp member
  exact ⟨rfl,rfl,rfl⟩

def whole (msgs : List (IncomingMessage Ecn)) (start : Nat) : List (IngressDatagram Ecn) :=
  (msgs.zipIdx start).flatMap fun (msg,index) => it.carved msg index

theorem whole_cons (msg : IncomingMessage Ecn) (rest : List (IncomingMessage Ecn)) (start : Nat) :
    it.whole (msg::rest) start = it.carved msg start ++ it.whole rest (start+1) := rfl

theorem whole_from {msgs : List (IncomingMessage Ecn)} {start : Nat} {d : IngressDatagram Ecn}
    (member : d ∈ it.whole msgs start) :
    start ≤ d.msgIndex := by
  obtain ⟨⟨msg,index⟩,listed,inside⟩ := List.mem_flatMap.mp member
  rw [(it.carved_index inside).1]
  exact (List.mk_mem_zipIdx_iff_le_and_getElem?_sub.mp listed).1

theorem whole_sorted (msgs : List (IncomingMessage Ecn)) (start : Nat) :
    (it.whole msgs start).Pairwise (·.msgIndex ≤ ·.msgIndex) := by
  induction msgs generalizing start with
  | nil => exact .nil
  | cons msg rest ih =>
    rw [whole_cons]
    refine List.pairwise_append.mpr ⟨List.pairwise_of_forall_mem_list fun a here b there => ?_,ih _,fun a here b later => ?_⟩
    · rw [(it.carved_index here).1,(it.carved_index there).1]
    · rw [(it.carved_index here).1]
      exact Nat.le_of_succ_le (it.whole_from later)

theorem whole_own {msgs : List (IncomingMessage Ecn)} {msg : IncomingMessage Ecn} {i : Nat} (start : Nat)
    (here : msgs[i]? = some msg) :
    (it.whole msgs start).filter (·.msgIndex = start+i) = it.carved msg (start+i) := by
  induction msgs generalizing start i with
  | nil => cases here
  | cons first rest ih =>
    rw [whole_cons,List.filter_append]
    cases i with
    | zero =>
      cases here
      rw [List.filter_eq_self.mpr fun d member => by simp [(it.carved_index member).1],
        List.filter_eq_nil_iff.mpr fun d member => by have := it.whole_from member; simp; omega,List.append_nil,Nat.add_zero]
    | succ i =>
      rw [List.filter_eq_nil_iff.mpr fun d member => by simp [(it.carved_index member).1],List.nil_append]
      have own := ih (start+1) here
      rw [Nat.add_assoc,Nat.add_comm 1 i] at own
      exact own

end IngressIterator

open IngressIterator

/-- A fresh iterator yields one sequence of datagrams, in the order of the messages. A message that was truncated has none in it; of
every other one the pieces make up its data, in order, they have its source and codepoint, and the last of them,
and no other, is marked as the last. -/
theorem every_message_yielded_once (msgs : List (IncomingMessage Ecn)) (options : IngressOptions) (notEct : Ecn) :
    let it : IngressIterator Ecn := {msgs := msgs,options := options,notEct := notEct}
    ∃ out, (∀ out', Yields it out' ↔ out' = out) ∧ out.Pairwise (·.msgIndex ≤ ·.msgIndex) ∧
      ∀ index msg, msgs[index]? = some msg →
        let own := out.filter (·.msgIndex = index)
        (msg.trunc = true → own = []) ∧
        (msg.trunc = false → (own.map (·.data)).flatten = msg.data ∧
          own.map (·.lastInMessage) = List.replicate (own.length-1) false ++ [true] ∧
          ∀ d ∈ own, d.source = msg.source ∧ d.ecn = it.ecnOf msg) := by
  intro it
  have yields : Yields it (it.whole msgs 0) := it.yields_carved rfl
  refine ⟨it.whole msgs 0,fun out => ⟨fun other => other.unique yields,fun same => same ▸ yields⟩,it.whole_sorted msgs 0,?_⟩
  intro index msg here own
  have carves : own = it.carved msg index := by
    have found := it.whole_own 0 here
    rw [Nat.zero_add] at found
    exact found
  rw [carves]
  refine ⟨fun trunc => ?_,fun kept => ?_⟩
  · simp [carved,pieces,trunc,marked]
  · obtain ⟨flat,some⟩ := it.pieces_of_open kept
    refine ⟨?_,?_,fun d member => (it.carved_index member).2⟩
    · rw [carved,List.map_map]
      exact (congrArg List.flatten (map_fst_marked (it.pieces msg))).trans flat
    · rw [carved,List.map_map,List.length_map,← List.length_map Prod.fst,map_fst_marked]
      exact marked_last some

end QuicZig.Transport
