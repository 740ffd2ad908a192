import AsioClientServer.Lib.Varint

/-!
# Composed operations on a byte stream

`asio::async_read`, `asio::async_read_until` and `asio::async_write` move the bytes of a stream
in several transfers and run one handler at the end. What they do between their start and their
handler is modelled here; who runs, and when, is left to the systems that use them.

* A `ReadOp` reads into a growing string of limited size (`dynamic_buffer`). It is over when its
  condition holds of the string (`ReadOp.result`), and until then each transfer appends a nonempty
  piece no larger than the `room` that is left.
* A `WriteOp` writes a string of the length it was started with. The string is not copied: each
  transfer takes its piece from the contents the string has at that moment.
-/

namespace Asio

/-- The errors the program can tell apart. The numbers of the operating system are `other`; nothing
depends on which of them a socket reports. -/
inductive ErrorCode where
  | eof
  | noBufferSpace
  | notFound
  | operationAborted
  | other (value : Int)
  deriving DecidableEq, Repr

/-! ## Reading -/

/-- The completion condition of a composed read: what has to be in its buffer for it to be over. -/
inductive ReadCondition where
  /-- `async_read`: the buffer is full. -/
  | full
  /-- `async_read_until`: the buffer has the delimiter. -/
  | delim (d : UInt8)
  deriving DecidableEq, Repr

/-- A composed read that has been started: its condition, the maximum size of its buffer and the
number of bytes it has read so far. -/
structure ReadOp where
  condition : ReadCondition
  maxSize : Nat
  transferred : Nat := 0
  deriving DecidableEq, Repr

/-- The arguments of the handler when no more bytes are needed, `none` when some are.
`async_read` reports the bytes it has newly read. `async_read_until` searches what is in the
buffer first; it reports the position after the delimiter, and `not_found` when the buffer is full
without one. -/
def ReadOp.result (op : ReadOp) (buffer : Bytes) : Option (Option ErrorCode × Nat) :=
  match op.condition with
  | .full => if op.maxSize ≤ buffer.length then some (none, op.transferred) else none
  | .delim d =>
    if d ∈ buffer.take op.maxSize then some (none, buffer.idxOf d + 1)
    else if op.maxSize ≤ buffer.length then some (some .notFound, 0)
    else none

/-- The arguments of the handler when the stream fails first. The count of `async_read` is what it
has read until then; `async_read_until` has found nothing and reports no length. -/
def ReadOp.failed (op : ReadOp) (e : ErrorCode) : Option ErrorCode × Nat :=
  match op.condition with
  | .full => (some e, op.transferred)
  | .delim _ => (some e, 0)

/-- How many bytes the read may still append: the buffer never grows beyond its maximum size. A
transfer of nothing is none, so a read without room and without a result would be stuck. -/
def ReadOp.room (op : ReadOp) (buffer : Bytes) : Nat :=
  op.maxSize - buffer.length

/-- The read after `n` more bytes have arrived. The bytes themselves are in the buffer, which
belongs to the program and not to the operation. -/
def ReadOp.advance (op : ReadOp) (n : Nat) : ReadOp :=
  { op with transferred := op.transferred + n }

/-- A read that fails tells its handler why, whatever its condition is. -/
@[simp] theorem ReadOp.failed_fst (op : ReadOp) (e : ErrorCode) : (op.failed e).1 = some e := by
  unfold ReadOp.failed
  split <;> rfl

/-- The result of `async_read`, with its fields written out. The count is of newly read bytes: what
was in the buffer before takes room, but is not reported. -/
theorem ReadOp.result_full (maxSize transferred : Nat) (buffer : Bytes) :
    (ReadOp.mk .full maxSize transferred).result buffer
      = if maxSize ≤ buffer.length then some (none, transferred) else none := rfl

/-- The result of `async_read_until`. The delimiter may have been in the buffer from the start; it
has to be among the first `maxSize` bytes, whatever else the buffer holds. -/
theorem ReadOp.result_delim (d : UInt8) (maxSize transferred : Nat) (buffer : Bytes) :
    (ReadOp.mk (.delim d) maxSize transferred).result buffer
      = if d ∈ buffer.take maxSize then some (none, buffer.idxOf d + 1)
        else if maxSize ≤ buffer.length then some (some .notFound, 0) else none := rfl

/-- A read of `maxSize` bytes goes on until they are there. -/
theorem ReadOp.result_full_eq_none {maxSize transferred : Nat} {buffer : Bytes} :
    (ReadOp.mk .full maxSize transferred).result buffer = none ↔ buffer.length < maxSize := by
  rw [ReadOp.result_full]
  split
  · next h => exact iff_of_false (by simp) (Nat.not_lt_of_le h)
  · next h => exact iff_of_true rfl (Nat.lt_of_not_le h)

/-- A delimited read goes on until the delimiter is there or the buffer is full. -/
theorem ReadOp.result_delim_eq_none {d : UInt8} {maxSize transferred : Nat} {buffer : Bytes} :
    (ReadOp.mk (.delim d) maxSize transferred).result buffer = none ↔
      d ∉ buffer.take maxSize ∧ buffer.length < maxSize := by
  rw [ReadOp.result_delim]
  split
  · next hmem => exact iff_of_false (by simp) fun h => h.1 hmem
  · next hmem =>
    split
    · next h => exact iff_of_false (by simp) fun h' => Nat.not_lt_of_le h h'.2
    · next h => exact iff_of_true rfl ⟨hmem, Nat.lt_of_not_le h⟩

/-- **A read that is not over has room**, so it can always take the next byte: with either
condition, a full buffer is a result. -/
theorem ReadOp.room_pos_of_result_none {op : ReadOp} {buffer : Bytes}
    (h : op.result buffer = none) : 0 < op.room buffer := by
  obtain ⟨condition, maxSize, transferred⟩ := op
  cases condition with
  | full => exact Nat.sub_pos_of_lt (ReadOp.result_full_eq_none.mp h)
  | delim d =>
    have hlt := (ReadOp.result_delim_eq_none.mp h).2
    simp only [ReadOp.room]
    omega

/-! ## Writing -/

/-- A composed write that has been started: the length of the buffer it was given and the number
of bytes it has written so far. -/
structure WriteOp where
  size : Nat
  transferred : Nat := 0
  deriving DecidableEq, Repr

/-- The next `n` bytes of the write, from the current contents of its buffer. -/
def WriteOp.piece (op : WriteOp) (contents : Bytes) (n : Nat) : Bytes :=
  (contents.drop op.transferred).take n

/-- The write after `n` more bytes have been taken from its buffer. -/
def WriteOp.advance (op : WriteOp) (n : Nat) : WriteOp :=
  { op with transferred := op.transferred + n }

/-- A transfer moves at least one byte and no more than are left. The upper limit is the length the
write was started with, and not the length of what its buffer holds by now. -/
def WriteOp.CanTransfer (op : WriteOp) (n : Nat) : Prop :=
  0 < n ∧ op.transferred + n ≤ op.size

instance (op : WriteOp) (n : Nat) : Decidable (op.CanTransfer n) :=
  inferInstanceAs (Decidable (_ ∧ _))

/-- The write has transferred as many bytes as it was started with. -/
def WriteOp.Done (op : WriteOp) : Prop :=
  op.transferred = op.size

instance (op : WriteOp) : Decidable op.Done :=
  inferInstanceAs (Decidable (_ = _))

/-! ## The writes of one stream

A program that lets two writes run on one stream mixes their pieces, so the writes that have been
started are a list and any of them may make progress. They all take their bytes from the same
buffer. -/

/-- `n` bytes of the `i`-th write are put on the stream. The piece is what the buffer holds there at
this moment, and it is shorter than `n` when the buffer has become shorter than the write. -/
def transfer (contents : Bytes) (writes : List WriteOp) (i n : Nat) :
    Option (Bytes × List WriteOp) :=
  (writes[i]?).bind fun op =>
    if op.CanTransfer n then some (op.piece contents n, writes.set i (op.advance n)) else none

/-- The `i`-th write has written everything: its handler runs. It is no longer one of the
outstanding ones; the position tells which handler it is. -/
def finish (writes : List WriteOp) (i : Nat) : Option (List WriteOp) :=
  (writes[i]?).bind fun op => if op.Done then some (writes.eraseIdx i) else none

/-- The stream has failed: the handler of the `i`-th write runs with an error. What it has
transferred until then stays on the stream. -/
def abort (writes : List WriteOp) (i : Nat) : Option (List WriteOp) :=
  (writes[i]?).map fun _ => writes.eraseIdx i

theorem ne_nil_of_transfer {contents piece : Bytes} {writes writes' : List WriteOp} {i n : Nat}
    (h : transfer contents writes i n = some (piece, writes')) : writes ≠ [] := by
  rintro rfl
  cases h

theorem ne_nil_of_finish {writes writes' : List WriteOp} {i : Nat}
    (h : finish writes i = some writes') : writes ≠ [] := by
  rintro rfl
  cases h

/-- A program that takes its lock exactly while a write is outstanding. -/
theorem nil_of_unlocked {locked : Bool} {writes : List WriteOp}
    (h : locked = true ↔ writes ≠ []) (hlock : locked = false) : writes = [] := by
  by_contra hne
  rw [h.mpr hne] at hlock
  cases hlock

/-- The other direction: such a program has released its lock when no write is outstanding. -/
theorem unlocked_of_nil {locked : Bool} {writes : List WriteOp}
    (h : locked = true ↔ writes ≠ []) (hnil : writes = []) : locked = false := by
  by_contra hne
  exact h.mp (Bool.eq_true_of_not_eq_false hne) hnil

/-- A write that has transferred everything transfers nothing more: all that can happen to it is
that its handler runs. -/
theorem transfer_of_done {writes : List WriteOp} (h : ∀ op ∈ writes, op.Done) (contents : Bytes)
    (i n : Nat) : transfer contents writes i n = none := by
  rw [transfer]
  cases hop : writes[i]? with
  | none => rfl
  | some op =>
    have hdone : op.transferred = op.size := h op (List.mem_of_getElem? hop)
    rw [Option.bind_some, if_neg]
    rintro ⟨hpos, hle⟩
    omega

/-- The bytes the writes have still to write. It is what the termination arguments of the systems
count on. -/
def left (writes : List WriteOp) : Nat :=
  (writes.map fun op => op.size - op.transferred).sum

/-- Replacing one write changes what is left by the difference of the two. -/
theorem left_set {writes : List WriteOp} {i : Nat} {op : WriteOp} (hop : writes[i]? = some op)
    (op' : WriteOp) :
    left (writes.set i op') + (op.size - op.transferred)
      = left writes + (op'.size - op'.transferred) := by
  induction writes generalizing i with
  | nil => cases hop
  | cons first rest ih =>
    cases i with
    | zero =>
      obtain rfl := Option.some.inj hop
      simp only [left, List.set_cons_zero, List.map_cons, List.sum_cons]
      omega
    | succ i =>
      have hrest := ih hop
      simp only [left, List.set_cons_succ, List.map_cons, List.sum_cons] at hrest ⊢
      omega

theorem left_eraseIdx {writes : List WriteOp} {i : Nat} {op : WriteOp}
    (hop : writes[i]? = some op) :
    left (writes.eraseIdx i) + (op.size - op.transferred) = left writes := by
  induction writes generalizing i with
  | nil => cases hop
  | cons first rest ih =>
    cases i with
    | zero =>
      obtain rfl := Option.some.inj hop
      simp only [left, List.eraseIdx_cons_zero, List.map_cons, List.sum_cons]
      omega
    | succ i =>
      have hrest := ih hop
      simp only [left, List.eraseIdx_cons_succ, List.map_cons, List.sum_cons] at hrest ⊢
      omega

/-- **A transfer brings its write nearer to its end.** -/
theorem left_transfer {contents piece : Bytes} {writes writes' : List WriteOp} {i n : Nat}
    (h : transfer contents writes i n = some (piece, writes')) :
    writes'.length = writes.length ∧ 0 < n ∧ piece.length ≤ n ∧ left writes' + n = left writes := by
  obtain ⟨op, hop, h⟩ := Option.bind_eq_some_iff.mp h
  split at h
  · next hcan =>
    obtain ⟨rfl, rfl⟩ := Prod.mk.inj (Option.some.inj h)
    obtain ⟨hpos, hle⟩ := hcan
    have hset := left_set hop (op.advance n)
    simp only [WriteOp.advance] at hset
    refine ⟨List.length_set, hpos, List.length_take_le _ _, ?_⟩
    simp only [WriteOp.advance]
    omega
  · cases h

/-- A handler that runs makes the outstanding writes one fewer and leaves no more to write. -/
theorem left_finish {writes writes' : List WriteOp} {i : Nat} (h : finish writes i = some writes') :
    writes'.length + 1 = writes.length ∧ left writes' ≤ left writes := by
  obtain ⟨op, hop, h⟩ := Option.bind_eq_some_iff.mp h
  split at h
  · obtain rfl := Option.some.inj h
    obtain ⟨hi, -⟩ := List.getElem?_eq_some_iff.mp hop
    have hlen := List.length_eraseIdx_of_lt hi
    have hleft := left_eraseIdx hop
    exact ⟨by omega, by omega⟩
  · cases h

/-- **A write that has been started can go on**, or it is over. -/
theorem progress {writes : List WriteOp} {op : WriteOp} (h : op ∈ writes)
    (hle : op.transferred ≤ op.size) (contents : Bytes) :
    (∃ i t, transfer contents writes i 1 = some t) ∨ ∃ i writes', finish writes i = some writes' := by
  obtain ⟨i, hi⟩ := List.getElem?_of_mem h
  by_cases hdone : op.Done
  · refine Or.inr ⟨i, writes.eraseIdx i, ?_⟩
    simp only [finish, hi, Option.bind_some, if_pos hdone]
  · refine Or.inl ⟨i, (op.piece contents 1, writes.set i (op.advance 1)), ?_⟩
    have hcan : op.CanTransfer 1 := ⟨Nat.one_pos, Nat.lt_of_le_of_ne hle hdone⟩
    simp only [transfer, hi, Option.bind_some, if_pos hcan]

/-- The stream holds the `started` messages one after the other, of the last one as much as the
write in progress has transferred; the buffer still holds that message. -/
inductive Written (contents : Bytes) (writes : List WriteOp) (started : List Bytes)
    (stream : Bytes) : Prop
  | idle (hwrites : writes = []) (hstream : stream = started.flatten)
  | writing {done : List Bytes} {transferred : Nat}
      (hwrites : writes = [⟨contents.length, transferred⟩]) (hle : transferred ≤ contents.length)
      (hstarted : started = done ++ [contents])
      (hstream : stream = done.flatten ++ contents.take transferred)

/-- If each piece is the first part of its message, it still is when the last piece is cut. -/
theorem forall₂_prefix_last {last last' : Bytes} (h : last' <+: last) {done messages : List Bytes}
    (hall : List.Forall₂ (· <+: ·) (done ++ [last]) messages) :
    List.Forall₂ (· <+: ·) (done ++ [last']) messages := by
  induction done generalizing messages with
  | nil =>
    cases hall with
    | cons hlast hnil => exact .cons (h.trans hlast) hnil
  | cons piece done ih =>
    cases hall with
    | cons hpiece hrest => exact .cons hpiece (ih hrest)

section Written

variable {contents : Bytes} {writes writes' : List WriteOp} {started : List Bytes} {stream : Bytes}

/-- At most one write is in progress. -/
theorem Written.length_le_one (h : Written contents writes started stream) :
    writes.length ≤ 1 := by
  cases h with
  | idle hwrites => rw [hwrites]; exact Nat.zero_le 1
  | writing hwrites => rw [hwrites]; exact Nat.le_refl 1

/-- **What is on the stream is the first part of what was started.** -/
theorem Written.prefix (h : Written contents writes started stream) :
    stream <+: started.flatten := by
  cases h with
  | idle _ hstream => exact hstream ▸ List.prefix_rfl
  | writing _ _ hstarted hstream =>
    rw [hstream, hstarted, List.flatten_append, List.flatten_singleton]
    exact (List.prefix_append_right_inj _).mpr (List.take_prefix _ _)

/-- With no write in progress, everything that was started is on the stream. -/
theorem Written.eq_flatten (h : Written contents [] started stream) : stream = started.flatten := by
  cases h with
  | idle _ hstream => exact hstream
  | writing hwrites => cases hwrites

/-- A message that is started while nothing is written is the next one. Its write has all of it to
transfer, and the stream does not change. -/
theorem Written.start (h : Written contents [] started stream) (message : Bytes) :
    Written message [⟨message.length, 0⟩] (started ++ [message]) stream := by
  refine .writing rfl (Nat.zero_le _) rfl ?_
  rw [h.eq_flatten, List.take_zero, List.append_nil]

/-- The buffer has all the bytes that a transfer takes from it. -/
theorem Written.piece_length {i n : Nat} {piece : Bytes} (h : Written contents writes started stream)
    (ht : transfer contents writes i n = some (piece, writes')) : piece.length = n := by
  obtain ⟨op, hop, ht⟩ := Option.bind_eq_some_iff.mp ht
  obtain ⟨⟨-, hle⟩, ht⟩ := Option.ite_none_right_eq_some.mp ht
  obtain ⟨rfl, -⟩ := Prod.mk.inj (Option.some.inj ht)
  have hsize : op.size = contents.length := by
    cases h with
    | idle hwrites =>
      rw [hwrites] at hop
      cases hop
    | writing hwrites =>
      have hmem := List.mem_of_getElem? hop
      rw [hwrites] at hmem
      rw [List.mem_singleton.mp hmem]
  rw [WriteOp.piece, List.length_take, List.length_drop]
  omega

/-- A transfer puts the next piece of the last message on the stream. -/
theorem Written.transfer {i n : Nat} {piece : Bytes} (h : Written contents writes started stream)
    (ht : transfer contents writes i n = some (piece, writes')) :
    Written contents writes' started (stream ++ piece) ∧ writes' ≠ [] := by
  obtain ⟨op, hop, ht⟩ := Option.bind_eq_some_iff.mp ht
  split at ht
  · next hcan =>
    obtain ⟨rfl, rfl⟩ := Prod.mk.inj (Option.some.inj ht)
    cases h with
    | idle hwrites =>
      rw [hwrites] at hop
      cases hop
    | @writing done transferred hwrites hle hstarted hstream =>
      rw [hwrites, List.getElem?_singleton] at hop
      split at hop
      · next hi =>
        obtain rfl := Option.some.inj hop
        subst hi hwrites
        refine ⟨.writing rfl hcan.2 hstarted ?_, List.cons_ne_nil _ _⟩
        rw [hstream, List.append_assoc, WriteOp.piece, List.take_add]
      · cases hop
  · cases ht

/-- When the write has completed no write is in progress, whatever the buffer holds next. -/
theorem Written.finish {i : Nat} (h : Written contents writes started stream)
    (hf : finish writes i = some writes') (contents' : Bytes) :
    writes' = [] ∧ Written contents' writes' started stream := by
  obtain ⟨op, hop, hf⟩ := Option.bind_eq_some_iff.mp hf
  split at hf
  · next hdone =>
    obtain rfl := Option.some.inj hf
    cases h with
    | idle hwrites =>
      rw [hwrites] at hop
      cases hop
    | @writing done transferred hwrites hle hstarted hstream =>
      rw [hwrites, List.getElem?_singleton] at hop
      split at hop
      · next hi =>
        obtain rfl := Option.some.inj hop
        subst hi hwrites
        have hall : transferred = contents.length := hdone
        refine ⟨rfl, .idle rfl ?_⟩
        rw [hstream, hstarted, hall, List.take_length, List.flatten_append,
          List.flatten_singleton]
      · cases hop
  · cases hf

/-- A write that fails leaves as much of its message on the stream as it has transferred. -/
theorem Written.abort {i : Nat} (h : Written contents writes started stream)
    (ha : abort writes i = some writes') (contents' : Bytes) {messages : List Bytes}
    (hstarted : List.Forall₂ (· <+: ·) started messages) :
    writes' = [] ∧ ∃ started', Written contents' writes' started' stream ∧
      List.Forall₂ (· <+: ·) started' messages := by
  obtain ⟨op, hop, rfl⟩ := Option.map_eq_some_iff.mp ha
  cases h with
  | idle hwrites =>
    rw [hwrites] at hop
    cases hop
  | @writing done transferred hwrites hle hdone hstream =>
    rw [hwrites, List.getElem?_singleton] at hop
    split at hop
    · next hi =>
      subst hi hwrites hdone
      refine ⟨rfl, done ++ [contents.take transferred], .idle rfl ?_, ?_⟩
      · rw [hstream, List.flatten_append, List.flatten_singleton]
      · exact forall₂_prefix_last (List.take_prefix _ _) hstarted
    · cases hop

/-- The bytes on the stream tell what the buffer of a write in progress must hold. -/
theorem Written.contents_unique {contents' : Bytes} (h : Written contents writes started stream)
    (h' : Written contents' writes started stream) (hne : writes ≠ []) : contents' = contents := by
  cases h with
  | idle hwrites => exact absurd hwrites hne
  | writing _ _ hstarted =>
    cases h' with
    | idle hwrites => exact absurd hwrites hne
    | writing _ _ hstarted' =>
      rw [hstarted] at hstarted'
      exact (List.append_inj_right' hstarted' rfl |> List.singleton_inj.mp).symm

end Written

end Asio
