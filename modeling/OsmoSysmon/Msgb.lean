import OsmoSysmon.World

/-! # Message buffers

The part of libosmocore's `struct msgb` that the programs use.  Pointers into a
buffer are offsets.  The invariant of the library, `data ≤ tail ≤ end`, is part of
the structure, so each operation shows that it keeps it, and the operations abort
where the library does.
-/

namespace OsmoSysmon

open CText

@[ext] structure Msgb where
  /-- Which allocation this is. -/
  id : Nat
  /-- The memory between `head` and `end`. -/
  buf : List UInt8
  data : Nat
  tail : Nat
  l1h : Nat
  l2h : Nat
  data_le : data ≤ tail
  tail_le : tail ≤ buf.length
deriving DecidableEq, Repr

namespace Msgb

/-- `msg->len`. -/
def len (m : Msgb) : Nat := m.tail - m.data

/-- The `msg->len` bytes from `msg->data` on. -/
def bytes (m : Msgb) : List UInt8 := (m.buf.take m.tail).drop m.data

def tailroom (m : Msgb) : Nat := m.buf.length - m.tail

/-- A zero-filled buffer. -/
def zeroed (id size : Nat) : Msgb where
  id := id
  buf := List.replicate size 0
  data := 0
  tail := 0
  l1h := 0
  l2h := 0
  data_le := Nat.le_refl 0
  tail_le := Nat.zero_le _

/-- The tail moved back by `n` bytes. -/
def put (m : Msgb) (n : Nat) (room : m.tail + n ≤ m.buf.length) : Msgb :=
  { m with
    tail := m.tail + n
    data_le := Nat.le_trans m.data_le (Nat.le_add_right _ _)
    tail_le := room }

/-- An empty buffer with its front moved back by `n` bytes. -/
def reserve (m : Msgb) (n : Nat) (room : m.tail + n ≤ m.buf.length) : Msgb :=
  { m with
    data := m.data + n
    tail := m.tail + n
    data_le := Nat.add_le_add_right m.data_le n
    tail_le := room }

/-- `bytes` written over the buffer from `off` on. -/
def store (m : Msgb) (off : Nat) (bytes : List UInt8) (room : off + bytes.length ≤ m.buf.length) :
    Msgb :=
  { m with
    buf := m.buf.take off ++ bytes ++ m.buf.drop (off + bytes.length)
    tail_le := by
      have bound := m.tail_le
      simp only [List.length_append, List.length_take, List.length_drop]
      omega }

def setL1h (m : Msgb) (off : Nat) : Msgb := { m with l1h := off }

def setL2h (m : Msgb) (off : Nat) : Msgb := { m with l2h := off }

@[simp] theorem setL1h_buf (m : Msgb) (off : Nat) : (m.setL1h off).buf = m.buf := rfl
@[simp] theorem setL1h_tail (m : Msgb) (off : Nat) : (m.setL1h off).tail = m.tail := rfl
@[simp] theorem setL1h_l1h (m : Msgb) (off : Nat) : (m.setL1h off).l1h = off := rfl
@[simp] theorem setL2h_buf (m : Msgb) (off : Nat) : (m.setL2h off).buf = m.buf := rfl
@[simp] theorem setL2h_tail (m : Msgb) (off : Nat) : (m.setL2h off).tail = m.tail := rfl
@[simp] theorem setL2h_l1h (m : Msgb) (off : Nat) : (m.setL2h off).l1h = m.l1h := rfl
@[simp] theorem setL2h_l2h (m : Msgb) (off : Nat) : (m.setL2h off).l2h = off := rfl

/-- The front moved forward by `n` bytes. -/
def pushed (m : Msgb) (n : Nat) : Msgb :=
  { m with data := m.data - n, data_le := Nat.le_trans (Nat.sub_le _ _) m.data_le }

end Msgb

/-! ## Operations -/

/-- `msgb_alloc`: the size is a `uint16_t`, the buffer is filled with zeros. -/
def msgbAlloc (size : UInt16) : Sys Msgb := do
  let id ← freshId
  log (.msgbAlloc id)
  return .zeroed id size.toNat

def msgbFree (m : Msgb) : Sys Unit := log (.msgbFree m.id)

/-- `msgb_put`: the old tail, and the buffer with the tail moved back. -/
def msgbPut (m : Msgb) (n : Nat) : Sys (Nat × Msgb) :=
  if room : m.tail + n ≤ m.buf.length then pure (m.tail, m.put n room) else stopWith .abort

/-- `msgb_reserve` on an empty buffer. -/
def msgbReserve (m : Msgb) (n : Nat) : Sys Msgb :=
  if room : m.tail + n ≤ m.buf.length then pure (m.reserve n room) else stopWith .abort

def msgbAllocHeadroom (size headroom : UInt16) : Sys Msgb := do
  let m ← msgbAlloc size
  msgbReserve m headroom.toNat

/-- A store of `bytes` at an offset of the buffer. -/
def msgbStore (m : Msgb) (off : Nat) (bytes : List UInt8) : Sys Msgb :=
  if room : off + bytes.length ≤ m.buf.length then pure (m.store off bytes room)
  else stopWith .overflow

/-- `msgb_push`: the front moved forward, and `bytes` stored there. -/
def msgbPush (m : Msgb) (bytes : List UInt8) : Sys Msgb :=
  if bytes.length ≤ m.data then msgbStore (m.pushed bytes.length) (m.data - bytes.length) bytes
  else stopWith .abort

/-- `msgb_printf`, which fails when the text and its NUL do not fit. -/
def msgbPrintf (m : Msgb) (text : CStr) : Sys (Option Msgb) := do
  if text.length < m.tailroom then
    let m ← msgbStore m m.tail (text ++ [0])
    let (_, m) ← msgbPut m text.length
    return some m
  else return none

/-- The byte at an offset. -/
def msgbByte (m : Msgb) (off : Nat) : Sys UInt8 :=
  match m.buf[off]? with
  | some b => pure b
  | none => stopWith .overread

/-- The C string at `msgb_l2`. -/
def msgbL2Text (m : Msgb) : Sys CStr :=
  match cString? (m.buf.drop m.l2h) with
  | some text => pure text
  | none => stopWith .overread

/-! ## Rules -/

theorem msgbAlloc_ok (size : UInt16) (w : World) :
    msgbAlloc size w =
      .ok (.zeroed w.trace.length size.toNat,
        { w with trace := .msgbAlloc w.trace.length :: w.trace }) := rfl

theorem msgbFree_ok (m : Msgb) (w : World) :
    msgbFree m w = .ok ((), { w with trace := .msgbFree m.id :: w.trace }) := rfl

theorem msgbPut_ok {m : Msgb} {n : Nat} (room : m.tail + n ≤ m.buf.length) (w : World) :
    msgbPut m n w = .ok ((m.tail, m.put n room), w) := by
  simp only [msgbPut, dif_pos room, Loop.pure_ok]

theorem msgbStore_ok {m : Msgb} {off : Nat} {bytes : List UInt8}
    (room : off + bytes.length ≤ m.buf.length) (w : World) :
    msgbStore m off bytes w = .ok (m.store off bytes room, w) := by
  simp only [msgbStore, dif_pos room, Loop.pure_ok]

theorem msgbByte_ok {m : Msgb} {off : Nat} {b : UInt8} (found : m.buf[off]? = some b) (w : World) :
    msgbByte m off w = .ok (b, w) := by
  simp only [msgbByte, found, Loop.pure_ok]

theorem msgbL2Text_ok {m : Msgb} {text : CStr} (found : cString? (m.buf.drop m.l2h) = some text)
    (w : World) : msgbL2Text m w = .ok (text, w) := by
  simp only [msgbL2Text, found, Loop.pure_ok]

/-! Backwards: what an operation that returns has found. -/

theorem msgbL2Text_world {m : Msgb} {text : CStr} {w w' : World}
    (run : msgbL2Text m w = .ok (text, w')) : w' = w := by
  rw [msgbL2Text] at run
  cases found : cString? (m.buf.drop m.l2h) with
  | none =>
    rw [found] at run
    cases run
  | some text =>
    rw [found] at run
    cases run
    rfl

theorem msgbPut_inv {m m' : Msgb} {n p : Nat} {w w' : World}
    (run : msgbPut m n w = .ok ((p, m'), w')) :
    w' = w ∧ m'.id = m.id ∧ m.tail + n ≤ m.buf.length ∧ m'.tail = m.tail + n ∧ m'.buf = m.buf := by
  rw [msgbPut] at run
  split at run
  · next room =>
    cases run
    exact ⟨rfl, rfl, room, rfl, rfl⟩
  · cases run

theorem msgbStore_inv {m m' : Msgb} {off : Nat} {bytes : List UInt8} {w w' : World}
    (run : msgbStore m off bytes w = .ok (m', w')) :
    w' = w ∧ m'.id = m.id ∧ off + bytes.length ≤ m.buf.length ∧ m'.tail = m.tail ∧
      m'.buf.length = m.buf.length := by
  rw [msgbStore] at run
  split at run
  · next room =>
    cases run
    refine ⟨rfl, rfl, room, rfl, ?_⟩
    simp only [Msgb.store, List.length_append, List.length_take, List.length_drop]
    omega
  · cases run

/-! ## Building a message -/

theorem Msgb.length_bytes (m : Msgb) : m.bytes.length = m.len := by
  simp only [Msgb.bytes, Msgb.len, List.length_drop, List.length_take, Nat.min_eq_left m.tail_le]

theorem msgbAllocHeadroom_ok {size headroom : UInt16} (fits : headroom ≤ size) (w : World) :
    ∃ m t, msgbAllocHeadroom size headroom w = .ok (m, { w with trace := t }) ∧
      m.bytes = [] ∧ m.data = headroom.toNat ∧ m.tailroom = size.toNat - headroom.toNat := by
  have room : 0 + headroom.toNat ≤ (Msgb.zeroed w.trace.length size.toNat).buf.length := by
    simpa [Msgb.zeroed] using UInt16.le_iff_toNat_le.mp fits
  refine ⟨(Msgb.zeroed w.trace.length size.toNat).reserve headroom.toNat room,
    .msgbAlloc w.trace.length :: w.trace, ?_, ?_, ?_, ?_⟩
  · rw [msgbAllocHeadroom, Loop.bind_ok (msgbAlloc_ok size w), msgbReserve]
    exact congrFun (dif_pos room) _
  · refine List.drop_of_length_le (Nat.le_trans (List.length_take_le _ _) ?_)
    exact Nat.le_refl _
  · simp [Msgb.reserve, Msgb.zeroed]
  · simp [Msgb.tailroom, Msgb.reserve, Msgb.zeroed]

theorem msgbPrintf_ok {m : Msgb} {text : CStr} (fits : text.length < m.tailroom) (w : World) :
    ∃ m', msgbPrintf m text w = .ok (some m', w) ∧ m'.id = m.id ∧ m'.data = m.data ∧
      m'.bytes = m.bytes ++ text := by
  have bound : m.tail + text.length + 1 ≤ m.buf.length := by
    simp only [Msgb.tailroom] at fits
    omega
  have store : m.tail + (text ++ [0]).length ≤ m.buf.length := by
    simpa [Nat.add_assoc] using bound
  have put : (m.store m.tail (text ++ [0]) store).tail + text.length ≤
      (m.store m.tail (text ++ [0]) store).buf.length := by
    simp only [Msgb.store, List.length_append, List.length_take, List.length_drop,
      List.length_singleton]
    omega
  refine ⟨(m.store m.tail (text ++ [0]) store).put text.length put, ?_, rfl, rfl, ?_⟩
  · rw [msgbPrintf, if_pos fits, Loop.bind_ok (msgbStore_ok store w),
      Loop.bind_ok (msgbPut_ok put w)]
    rfl
  · -- the tail stops in front of the NUL
    have front : (m.buf.take m.tail).length = m.tail := List.length_take_of_le m.tail_le
    simp only [Msgb.bytes, Msgb.put, Msgb.store, List.append_assoc]
    rw [List.take_append, front, Nat.add_sub_cancel_left, List.take_left' rfl,
      List.take_of_length_le (by omega), List.drop_append_of_le_length (by simp [front, m.data_le])]

theorem msgbPrintf_full {m : Msgb} {text : CStr} (full : m.tailroom ≤ text.length) (w : World) :
    msgbPrintf m text w = .ok (none, w) := by
  rw [msgbPrintf, if_neg (Nat.not_lt.mpr full)]
  rfl

/-- Pushing bytes puts them in front of the message. -/
theorem msgbPush_ok {m : Msgb} {bytes : List UInt8} (headroom : bytes.length ≤ m.data) (w : World) :
    ∃ m', msgbPush m bytes w = .ok (m', w) ∧ m'.id = m.id ∧ m'.data = m.data - bytes.length ∧
      m'.bytes = bytes ++ m.bytes := by
  have inside := Nat.le_trans m.data_le m.tail_le
  have store : m.data - bytes.length + bytes.length ≤ (m.pushed bytes.length).buf.length := by
    rw [Nat.sub_add_cancel headroom]
    exact inside
  refine ⟨(m.pushed bytes.length).store (m.data - bytes.length) bytes store, ?_, rfl, rfl, ?_⟩
  · rw [msgbPush, if_pos headroom, msgbStore_ok store w]
  · -- what lies between the new and the old front is now `bytes`
    have order := m.data_le
    have front : (m.buf.take (m.data - bytes.length)).length = m.data - bytes.length :=
      List.length_take_of_le (by omega)
    simp only [Msgb.bytes, Msgb.store, Msgb.pushed, List.append_assoc]
    rw [Nat.sub_add_cancel headroom, List.take_append, front, List.drop_append,
      List.take_of_length_le (by omega), front, Nat.sub_self, List.drop_zero,
      List.drop_of_length_le (by omega), List.nil_append, List.take_append,
      List.take_of_length_le (by omega), List.drop_take]
    congr 2
    omega

end OsmoSysmon
