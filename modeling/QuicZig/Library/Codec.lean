import Mathlib.Tactic.TypeStar
import Mathlib.Data.List.Basic

/-! Byte codecs, put together field by field. A parser reads from the front of
its input, a writer fills a buffer of some room. `Reads` and `Emits` say what
they do on the bytes of one value, `Codes` joins the two, and `Accepts` says
what an accepted input was made of. -/
namespace QuicZig.Codec

structure Fixed (size : Nat) where
  bytes : List UInt8
  exact : bytes.length = size
  deriving DecidableEq, Repr

section
variable {ε δ α β : Type}

/-- Reads a value from the front of the input, and hands on what is left. -/
def Parser (ε α : Type) := List UInt8 → Except ε (α × List UInt8)

instance : Monad (Parser ε) where
  pure a := fun s => .ok (a,s)
  bind p next := fun s =>
    match p s with
    | .ok (a,rest) => next a rest
    | .error e => .error e

namespace Parser

def fail (e : ε) : Parser ε α := fun _ => .error e

/-- A computation that reads nothing. -/
def lift : Except ε α → Parser ε α
  | .ok a => pure a
  | .error e => fail e

/-- The value that `p` reads at the front of the input. -/
def run (p : Parser ε α) (s : List UInt8) : Except ε α :=
  match p s with
  | .ok (a,_) => .ok a
  | .error e => .error e

/-- The next `count` bytes. -/
def take (short : ε) (count : Nat) : Parser ε (List UInt8) := fun s =>
  if count > s.length then .error short else .ok (s.take count,s.drop count)

def byte (short : ε) : Parser ε UInt8 := fun s =>
  match s with
  | [] => .error short
  | b::rest => .ok (b,rest)

def fixed (short : ε) (size : Nat) : Parser ε (Fixed size) := fun s =>
  if enough : size ≤ s.length then .ok (⟨s.take size,List.length_take_of_le enough⟩,s.drop size) else .error short

/-- The number of bytes that are left. -/
def remaining : Parser ε Nat := fun s => .ok (s.length,s)

/-- Everything that is left. -/
def takeRest : Parser ε (List UInt8) := fun s => .ok (s,[])

/-- The bytes that `p` reads, in place of its value. -/
def raw (p : Parser ε α) : Parser ε (List UInt8) := fun s =>
  match p s with
  | .ok (_,rest) => .ok (s.take (s.length-rest.length),rest)
  | .error e => .error e

def mapError (f : ε → δ) (p : Parser ε α) : Parser δ α := fun s => (p s).mapError f

end Parser

/-- Fills the front of a buffer with this much room, and returns the bytes written. -/
def Writer (ε : Type) := Nat → Except ε (List UInt8)

namespace Writer

def fail (e : ε) : Writer ε := fun _ => .error e

def put (full : ε) (bytes : List UInt8) : Writer ε := fun room =>
  if room < bytes.length then .error full else .ok bytes

def all : List (Writer ε) → Writer ε
  | [] => fun _ => .ok []
  | w::rest => fun room =>
    match w room with
    | .error e => .error e
    | .ok first =>
      match all rest (room-first.length) with
      | .error e => .error e
      | .ok later => .ok (first ++ later)

def mapError (f : ε → δ) (w : Writer ε) : Writer δ := fun room => (w room).mapError f

end Writer

/-- `p` reads `a` off `bytes` in front of any `rest` that may follow. -/
def Reads (follows : List UInt8 → Prop) (p : Parser ε α) (bytes : List UInt8) (a : α) : Prop :=
  ∀ rest, follows rest → p (bytes ++ rest) = .ok (a,rest)

abbrev Anything (_ : List UInt8) : Prop := True

theorem Reads.pure (a : α) (follows : List UInt8 → Prop) : Reads follows (pure a : Parser ε α) [] a := fun _ _ => rfl

theorem bind_ok {p : Parser ε α} {next : α → Parser ε β} {s rest : List UInt8} {a : α} (read : p s = .ok (a,rest)) :
    (p >>= next) s = next a rest := by
  change (match p s with | .ok (a,rest) => next a rest | .error e => .error e) = _
  rw [read]

theorem bind_inv {p : Parser ε α} {next : α → Parser ε β} {s rest : List UInt8} {b : β} (read : (p >>= next) s = .ok (b,rest)) :
    ∃ a middle, p s = .ok (a,middle) ∧ next a middle = .ok (b,rest) := by
  change (match p s with | .ok (a,rest) => next a rest | .error e => .error e) = _ at read
  split at read
  · rename_i a middle here
    exact ⟨a,middle,here,read⟩
  · cases read

theorem lift_inv {computed : Except ε α} {s rest : List UInt8} {a : α} (read : (Parser.lift computed) s = .ok (a,rest)) :
    computed = .ok a ∧ s = rest := by
  cases computed with
  | error e => cases read
  | ok b =>
    cases read
    exact ⟨rfl,rfl⟩

theorem bind_remaining (next : Nat → Parser ε β) (s : List UInt8) : (Parser.remaining >>= next) s = next s.length s := rfl

theorem bind_lift (a : α) (next : α → Parser ε β) : (Parser.lift (.ok a) >>= next) = next a := rfl

theorem Reads.bind {follows : List UInt8 → Prop} {p : Parser ε α} {next : α → Parser ε β} {first later : List UInt8}
    {a : α} {b : β} (read : Reads Anything p first a) (readNext : Reads follows (next a) later b) :
    Reads follows (p >>= next) (first ++ later) b := by
  intro rest after
  rw [List.append_assoc,bind_ok (read (later ++ rest) trivial)]
  exact readNext rest after

theorem Reads.weaken {follows stricter : List UInt8 → Prop} {p : Parser ε α} {bytes : List UInt8} {a : α}
    (read : Reads follows p bytes a) (implied : ∀ rest, stricter rest → follows rest) : Reads stricter p bytes a :=
  fun rest after => read rest (implied rest after)

theorem reads_take (short : ε) {bytes : List UInt8} {count : Nat} (size : bytes.length = count) :
    Reads Anything (Parser.take short count) bytes bytes := by
  intro rest _
  subst size
  simp [Parser.take]

theorem reads_byte (short : ε) (b : UInt8) : Reads Anything (Parser.byte short) [b] b := fun _ _ => rfl

theorem reads_fixed (short : ε) {size : Nat} (array : Fixed size) :
    Reads Anything (Parser.fixed short size) array.bytes array := by
  intro rest _
  obtain ⟨bytes,rfl⟩ := array
  simp [Parser.fixed]

theorem reads_takeRest (bytes : List UInt8) : Reads (· = []) (Parser.takeRest : Parser ε _) bytes bytes := by
  intro rest after
  simp [Parser.takeRest,after]

theorem Reads.raw {p : Parser ε α} {bytes : List UInt8} {a : α} (read : Reads Anything p bytes a) :
    Reads Anything p.raw bytes bytes := by
  intro rest _
  unfold Parser.raw
  rw [read rest trivial]
  simp

theorem Reads.mapError {follows : List UInt8 → Prop} {p : Parser ε α} {bytes : List UInt8} {a : α} (f : ε → δ)
    (read : Reads follows p bytes a) : Reads follows (p.mapError f) bytes a := by
  intro rest after
  unfold Parser.mapError
  rw [read rest after]
  rfl

def Emits (full : δ) (w : Writer δ) (bytes : List UInt8) : Prop :=
  ∀ room, w room = if bytes.length ≤ room then .ok bytes else .error full

theorem emits_put (full : δ) (bytes : List UInt8) : Emits full (Writer.put full bytes) bytes := by
  intro room
  unfold Writer.put
  split
  · rw [if_neg (by omega)]
  · rw [if_pos (by omega)]

theorem put_inv {full : δ} {bytes written : List UInt8} {room : Nat} (ok : Writer.put full bytes room = .ok written) :
    written = bytes := by
  unfold Writer.put at ok
  split at ok
  · cases ok
  · cases ok
    rfl

theorem Emits.mapError {full : ε} {w : Writer ε} {bytes : List UInt8} (f : ε → δ) (writes : Emits full w bytes) :
    Emits (f full) (w.mapError f) bytes := by
  intro room
  unfold Writer.mapError
  rw [writes room]
  split <;> rfl

@[simp] theorem all_nil (room : Nat) : (Writer.all [] : Writer δ) room = .ok [] := rfl

theorem all_cons (w : Writer δ) (rest : List (Writer δ)) (room : Nat) : Writer.all (w::rest) room =
    match w room with
    | .error e => .error e
    | .ok first =>
      match Writer.all rest (room-first.length) with
      | .error e => .error e
      | .ok later => .ok (first ++ later) := rfl

theorem Emits.nil (full : δ) : Emits full (Writer.all []) [] := by
  intro room
  simp

theorem Emits.cons {full : δ} {w : Writer δ} {rest : List (Writer δ)} {first later : List UInt8}
    (writes : Emits full w first) (writesRest : Emits full (Writer.all rest) later) :
    Emits full (Writer.all (w::rest)) (first ++ later) := by
  intro room
  rw [all_cons,writes room,List.length_append]
  by_cases fits : first.length ≤ room
  · simp only [if_pos fits]
    rw [writesRest (room-first.length)]
    by_cases fitsRest : later.length ≤ room-first.length
    · rw [if_pos fitsRest,if_pos (by omega)]
    · rw [if_neg fitsRest,if_neg (by omega)]
  · simp only [if_neg fits]
    rw [if_neg (by omega)]

theorem Emits.last {full : δ} {w : Writer δ} {bytes : List UInt8} (writes : Emits full w bytes) :
    Emits full (Writer.all [w]) bytes := by
  simpa using writes.cons (Emits.nil full)

theorem all_skip (w : Writer δ) (rest : List (Writer δ)) : Writer.all (w::.all []::rest) = Writer.all (w::rest) := by
  funext room
  simp only [all_cons,all_nil,List.length_nil,Nat.sub_zero,List.nil_append]
  cases w room with
  | error e => rfl
  | ok first =>
    dsimp only
    cases Writer.all rest (room-first.length) <;> rfl

theorem all_inv {w : Writer δ} {rest : List (Writer δ)} {room : Nat} {bytes : List UInt8}
    (ok : Writer.all (w::rest) room = .ok bytes) : ∃ first later, w room = .ok first ∧
      Writer.all rest (room-first.length) = .ok later ∧ bytes = first ++ later := by
  rw [all_cons] at ok
  split at ok
  · cases ok
  rename_i first wrote
  split at ok
  · cases ok
  rename_i later wroteRest
  cases ok
  exact ⟨first,later,wrote,wroteRest,rfl⟩

theorem mapError_inv {f : ε → δ} {w : Writer ε} {room : Nat} {bytes : List UInt8} (ok : w.mapError f room = .ok bytes) :
    w room = .ok bytes := by
  unfold Writer.mapError at ok
  cases here : w room with
  | error e => rw [here] at ok; cases ok
  | ok written =>
    rw [here] at ok
    cases ok
    rfl

def Codes (full : δ) (follows : List UInt8 → Prop) (w : Writer δ) (p : Parser ε α) (a : α) (length : Nat) : Prop :=
  ∃ bytes, Emits full w bytes ∧ Reads follows p bytes a ∧ bytes.length = length

theorem Codes.nil (full : δ) (follows : List UInt8 → Prop) (a : α) :
    Codes full follows (Writer.all []) (pure a : Parser ε α) a 0 :=
  ⟨[],Emits.nil full,Reads.pure a follows,rfl⟩

theorem Codes.cons {full : δ} {follows : List UInt8 → Prop} {w : Writer δ} {rest : List (Writer δ)} {p : Parser ε α}
    {next : α → Parser ε β} {a : α} {b : β} {m n : Nat} (field : Codes full Anything w p a m)
    (later : Codes full follows (Writer.all rest) (next a) b n) :
    Codes full follows (Writer.all (w::rest)) (p >>= next) b (m+n) := by
  obtain ⟨first,writes,reads,length⟩ := field
  obtain ⟨others,writesRest,readsRest,lengthRest⟩ := later
  exact ⟨first ++ others,writes.cons writesRest,reads.bind readsRest,by rw [List.length_append,length,lengthRest]⟩

theorem Codes.last {full : δ} {follows : List UInt8 → Prop} {w : Writer δ} {p : Parser ε α} {a : α} {n : Nat}
    (field : Codes full follows w p a n) : Codes full follows (Writer.all [w]) p a n := by
  obtain ⟨bytes,writes,reads,length⟩ := field
  exact ⟨bytes,writes.last,reads,length⟩

theorem Codes.final {full : δ} {follows : List UInt8 → Prop} {w : Writer δ} {p : Parser ε α} {next : α → Parser ε β} {a : α}
    {b : β} {n : Nat} (field : Codes full follows w p a n) (made : next a = pure b) : Codes full follows w (p >>= next) b n := by
  obtain ⟨bytes,writes,reads,length⟩ := field
  refine ⟨bytes,writes,?_,length⟩
  intro rest after
  rw [bind_ok (reads rest after),made]
  rfl

theorem Codes.weaken {full : δ} {follows stricter : List UInt8 → Prop} {w : Writer δ} {p : Parser ε α} {a : α} {n : Nat}
    (field : Codes full follows w p a n) (implied : ∀ rest, stricter rest → follows rest) :
    Codes full stricter w p a n := by
  obtain ⟨bytes,writes,reads,length⟩ := field
  exact ⟨bytes,writes,reads.weaken implied,length⟩

theorem Codes.of_length {full : δ} {follows : List UInt8 → Prop} {w : Writer δ} {p : Parser ε α} {a : α} {m n : Nat}
    (field : Codes full follows w p a m) (same : m = n) : Codes full follows w p a n := same ▸ field

theorem codes_bytes (full : δ) (short : ε) (bytes : List UInt8) :
    Codes full Anything (Writer.put full bytes) (Parser.take short bytes.length) bytes bytes.length :=
  ⟨bytes,emits_put full bytes,reads_take short rfl,rfl⟩

theorem codes_rest (full : δ) (bytes : List UInt8) :
    Codes full (· = []) (Writer.put full bytes) (Parser.takeRest : Parser ε _) bytes bytes.length :=
  ⟨bytes,emits_put full bytes,reads_takeRest bytes,rfl⟩

theorem codes_byte (full : δ) (short : ε) (b : UInt8) :
    Codes full Anything (Writer.put full [b]) (Parser.byte short) b 1 :=
  ⟨[b],emits_put full [b],reads_byte short b,rfl⟩

theorem codes_fixed (full : δ) (short : ε) {size : Nat} (array : Fixed size) :
    Codes full Anything (Writer.put full array.bytes) (Parser.fixed short size) array size :=
  ⟨array.bytes,emits_put full array.bytes,reads_fixed short array,array.exact⟩

/-- Whatever `p` accepts, the bytes it used and the value satisfy `holds`. -/
def Accepts (p : Parser ε α) (holds : α → List UInt8 → Prop) : Prop :=
  ∀ s a rest, p s = .ok (a,rest) → ∃ used, s = used ++ rest ∧ holds a used

theorem Accepts.pure {holds : α → List UInt8 → Prop} {a : α} (here : holds a []) : Accepts (pure a : Parser ε α) holds := by
  intro s b rest read
  cases read
  exact ⟨[],rfl,here⟩

theorem Accepts.bind {p : Parser ε α} {next : α → Parser ε β} {first : α → List UInt8 → Prop}
    {holds : β → List UInt8 → Prop} (accepts : Accepts p first)
    (later : ∀ a used, first a used → Accepts (next a) (fun b more => holds b (used ++ more))) :
    Accepts (p >>= next) holds := by
  intro s b rest read
  obtain ⟨a,middle,here,there⟩ := bind_inv read
  obtain ⟨used,split,before⟩ := accepts s a middle here
  obtain ⟨more,splitRest,after⟩ := later a used before middle b rest there
  exact ⟨used ++ more,by rw [split,splitRest,List.append_assoc],after⟩

theorem Accepts.weaken {p : Parser ε α} {holds weaker : α → List UInt8 → Prop} (accepts : Accepts p holds)
    (implied : ∀ a used, holds a used → weaker a used) : Accepts p weaker := by
  intro s a rest read
  obtain ⟨used,split,here⟩ := accepts s a rest read
  exact ⟨used,split,implied a used here⟩

theorem Accepts.mapError {p : Parser ε α} {holds : α → List UInt8 → Prop} (f : ε → δ) (accepts : Accepts p holds) :
    Accepts (p.mapError f) holds := by
  intro s a rest read
  unfold Parser.mapError at read
  cases here : p s with
  | error e => rw [here] at read; cases read
  | ok result =>
    rw [here] at read
    cases read
    exact accepts s a rest here

theorem accepts_fail (e : ε) (holds : α → List UInt8 → Prop) : Accepts (Parser.fail e) holds := by
  intro s a rest read
  cases read

theorem accepts_take (short : ε) (count : Nat) :
    Accepts (Parser.take short count) (fun bytes used => bytes = used ∧ used.length = count) := by
  intro s a rest read
  unfold Parser.take at read
  split at read
  · cases read
  · rename_i enough
    cases read
    exact ⟨s.take count,(List.take_append_drop count s).symm,rfl,List.length_take_of_le (by omega)⟩

theorem accepts_byte (short : ε) : Accepts (Parser.byte short) (fun b used => used = [b]) := by
  intro s b rest read
  cases s with
  | nil => cases read
  | cons first tail =>
    cases read
    exact ⟨[b],rfl,rfl⟩

theorem accepts_fixed (short : ε) (size : Nat) :
    Accepts (Parser.fixed short size) (fun array used => used = array.bytes) := by
  intro s array rest read
  unfold Parser.fixed at read
  split at read
  · cases read
    exact ⟨_,(List.take_append_drop size s).symm,rfl⟩
  · cases read

theorem accepts_takeRest : Accepts (Parser.takeRest : Parser ε _) (fun bytes used => bytes = used) := by
  intro s a rest read
  cases read
  exact ⟨s,by simp,rfl⟩

theorem Accepts.raw {p : Parser ε α} {holds : α → List UInt8 → Prop} (accepts : Accepts p holds) :
    Accepts p.raw (fun bytes used => bytes = used ∧ ∃ a, holds a used) := by
  intro s bytes rest read
  unfold Parser.raw at read
  split at read
  · rename_i a rest' here
    obtain ⟨used,split,after⟩ := accepts s a rest' here
    cases read
    exact ⟨used,split,by simp [split],a,after⟩
  · cases read

/-- What `p` accepts is valid, and its `size` is covered by the bytes it used and the `spent` ones before them. -/
def Uses (p : Parser ε α) (spent : Nat) (valid : α → Prop) (size : α → Nat) : Prop :=
  Accepts p (fun a used => valid a ∧ size a ≤ spent+used.length)

theorem Uses.pure {spent : Nat} {valid : α → Prop} {size : α → Nat} {a : α} (here : valid a) (covered : size a ≤ spent) :
    Uses (pure a : Parser ε α) spent valid size :=
  Accepts.pure ⟨here,covered⟩

theorem Uses.bind {p : Parser ε α} {next : α → Parser ε β} {spent : Nat} {valid : α → Prop} {size : α → Nat}
    {validNext : β → Prop} {sizeNext : β → Nat} (uses : Uses p 0 valid size)
    (later : ∀ a, valid a → Uses (next a) (spent+size a) validNext sizeNext) :
    Uses (p >>= next) spent validNext sizeNext := by
  apply Accepts.bind uses
  intro a used here
  apply (later a here.1).weaken
  intro b more there
  rw [List.length_append]
  exact ⟨there.1,by omega⟩

theorem uses_fail (e : ε) (spent : Nat) (valid : α → Prop) (size : α → Nat) : Uses (Parser.fail e) spent valid size :=
  accepts_fail e _

theorem uses_take (short : ε) (count : Nat) : Uses (Parser.take short count) 0 (·.length = count) List.length := by
  apply (accepts_take short count).weaken
  intro bytes used here
  rw [here.1]
  exact ⟨here.2,by omega⟩

theorem uses_takeRest : Uses (Parser.takeRest : Parser ε _) 0 (fun _ => True) List.length := by
  apply accepts_takeRest.weaken
  intro bytes used here
  rw [here]
  exact ⟨trivial,by omega⟩

theorem uses_byte (short : ε) : Uses (Parser.byte short) 0 (fun _ => True) (fun _ => 1) := by
  apply (accepts_byte short).weaken
  intro b used here
  rw [here]
  exact ⟨trivial,Nat.le_refl _⟩

theorem uses_fixed (short : ε) (size : Nat) : Uses (Parser.fixed short size) 0 (fun _ => True) (fun _ => size) := by
  apply (accepts_fixed short size).weaken
  intro array used here
  rw [here,array.exact]
  exact ⟨trivial,Nat.le_add_left _ _⟩

theorem uses_lift (computed : Except ε α) : Uses (Parser.lift computed) 0 (fun a => computed = .ok a) (fun _ => 0) := by
  cases computed with
  | ok a => exact Uses.pure rfl (Nat.le_refl _)
  | error e => exact uses_fail e _ _ _

end

end QuicZig.Codec
