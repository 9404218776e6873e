import OsmoSysmon.Polls

/-! # The output of a shell command

The loop of `osysmon_shellcmd_run` with its buffer: `fread` stores behind what has been
read, as much as it happens to return, and a NUL is put behind that.  `Filled` is the
invariant of the loop; `shellOutput_ok` says that the loop ends without leaving the buffer
and that what is published does not depend on the pieces.
-/

namespace OsmoSysmon

open CText Loop

/-- The state of the loop, with the stream it reads. -/
structure ShellRead where
  buf : Buffer lineBufSize
  /-- `p - buf`. -/
  p : Nat
  /-- What the command writes from here on. -/
  pending : List UInt8
  /-- How much the calls of `fread` return, as far as they may. -/
  counts : List Nat
deriving DecidableEq, Repr

/-- What `fread` returns when `n` bytes are asked for: all there is, or less, but nothing
    only at the end of the stream or if nothing is asked for. -/
def freadCount (n available : Nat) : (count : Option Nat) → Nat
  | none => min n available
  | some count => min (max count 1) (min n available)

/-- `sizeof(buf) - 1 - (p - buf)`, in `size_t`. -/
def spaceLeft (p : Nat) : Nat := ((lineBufSize - 1).toUInt64 - p.toUInt64).toNat

/-- One turn of the `while` loop. -/
def shellTurn : StateT ShellRead (Except Fault) (Option Unit) := do
  let s ← get
  let offset := freadCount (spaceLeft s.p) s.pending.length s.counts.head?
  let buf ← (s.buf.storeAll s.p (s.pending.take offset) : Except Fault (Buffer lineBufSize))
  let pending := s.pending.drop offset
  let counts := s.counts.tail
  if offset = 0 then
    set { s with buf, pending, counts }
    return some ()
  else
    let p := s.p + offset
    let buf ← (buf.store p 0 : Except Fault (Buffer lineBufSize))
    set ({ buf, p, pending, counts } : ShellRead)
    return none

def shellLoop : StateT ShellRead (Except Fault) Unit :=
  whileTrue .blocked (fun s => s.pending.length) shellTurn

/-- The text that is handed to `value_node_add` after the loop. -/
def shellValue (buf : Buffer lineBufSize) (p : Nat) : Except Fault CStr := do
  if p = 0 then return ascii "<EMPTY>"
  else if (← buf.load (p - 1)) = newline then
    -- remove final new line if exists
    let buf ← buf.store (p - 1) 0
    buf.text 0
  else buf.text 0

/-- What `osysmon_shellcmd_run` publishes for a command that `popen` can start. -/
def shellOutput (buf : Buffer lineBufSize) (output : List UInt8) (counts : List Nat) :
    Except Fault CStr := do
  let (_, s) ← shellLoop { buf, p := 0, pending := output, counts }
  shellValue s.buf s.p

/-! ## The loop -/

/-- The counts that a script can make `fread` return are those that it may return. -/
theorem freadCount_iff {n available k : Nat} :
    (∃ count, freadCount n available count = k) ↔
      k ≤ n ∧ k ≤ available ∧ (k = 0 → n = 0 ∨ available = 0) := by
  constructor
  · rintro ⟨_ | count, rfl⟩ <;> simp only [freadCount] <;> omega
  · rintro ⟨asked, there, nothing⟩
    refine ⟨some k, ?_⟩
    simp only [freadCount]
    omega

theorem spaceLeft_eq {p : Nat} (inside : p < lineBufSize) : spaceLeft p = lineBufSize - 1 - p := by
  simp only [lineBufSize] at inside
  simp only [spaceLeft, lineBufSize]
  have small : p.toUInt64 ≤ (512 - 1).toUInt64 := by
    rw [UInt64.le_iff_toNat_le]
    simp only [Nat.toUInt64_eq, UInt64.toNat_ofNat']
    omega
  rw [UInt64.toNat_sub_of_le _ _ small]
  simp only [Nat.toUInt64_eq, UInt64.toNat_ofNat']
  omega

/-- The output is in the buffer up to `p`, with a NUL behind it, and goes on where the
    stream is. -/
structure Filled (output : List UInt8) (s : ShellRead) : Prop where
  inside : s.p < lineBufSize
  within : s.p ≤ output.length
  pending : s.pending = output.drop s.p
  held : s.buf.bytes.take s.p = output.take s.p
  ended : 0 < s.p → s.buf.bytes[s.p]? = some 0

theorem filled_start (buf : Buffer lineBufSize) (output : List UInt8) (counts : List Nat) :
    Filled output { buf, p := 0, pending := output, counts } where
  inside := by simp [lineBufSize]
  within := Nat.zero_le _
  pending := rfl
  held := rfl
  ended := nofun

/-- A turn keeps the invariant, and leaves the loop only when the stream has ended or the
    buffer is full. -/
theorem shellTurn_ok {output : List UInt8} {s : ShellRead} (filled : Filled output s) :
    ∃ s', Filled output s' ∧ (shellTurn s = .ok (none, s') ∨
      shellTurn s = .ok (some (), s') ∧ s'.p = min output.length (lineBufSize - 1)) := by
  obtain ⟨inside, within, pending, held, ended⟩ := filled
  obtain ⟨offset, isOffset⟩ : ∃ offset,
      freadCount (spaceLeft s.p) s.pending.length s.counts.head? = offset := ⟨_, rfl⟩
  obtain ⟨asked, there, nothing⟩ := freadCount_iff.mp ⟨_, isOffset⟩
  rw [spaceLeft_eq inside] at asked nothing
  rw [pending, List.length_drop] at there nothing
  have size : lineBufSize - 1 + 1 = lineBufSize := rfl
  have chunk : (s.pending.take offset).length = offset := by
    rw [pending, List.length_take, List.length_drop]
    omega
  obtain ⟨buf, c, rest, read, behind, now⟩ :=
    @Buffer.storeAll_inside Fault _ _ s.buf s.p (s.pending.take offset) (by omega)
  rw [chunk] at behind
  have front : buf.bytes = output.take (s.p + offset) ++ c :: rest := by
    rw [now, held, pending, ← List.append_assoc, List.take_add]
  have length : (output.take (s.p + offset)).length = s.p + offset := by
    rw [List.length_take]
    omega
  rw [shellTurn, bind_ok (get_ok s)]
  simp only [isOffset]
  rw [bind_ok (lift_ok read s)]
  by_cases none : offset = 0
  · subst none
    refine ⟨{ s with buf, pending := s.pending, counts := s.counts.tail }, ?_, .inr ⟨rfl, ?_⟩⟩
    · -- nothing is stored
      have same : buf.bytes = s.buf.bytes := by
        rw [front, Nat.add_zero, ← held, ← behind, Nat.add_zero, List.take_append_drop]
      exact ⟨inside, within, pending, same ▸ held, same ▸ ended⟩
    · show s.p = _
      omega
  · have found : buf.bytes.drop 0 = output.take (s.p + offset) ++ c :: rest := front
    obtain ⟨buf', store, after⟩ := @Buffer.store_at Fault _ _ _ _ _ _ _ found 0
    rw [length, Nat.zero_add] at store
    rw [List.drop_zero] at after
    rw [if_neg none, bind_ok (lift_ok store s)]
    refine ⟨⟨buf', s.p + offset, s.pending.drop offset, s.counts.tail⟩, ?_, .inl rfl⟩
    constructor
    · show s.p + offset < lineBufSize
      omega
    · show s.p + offset ≤ output.length
      omega
    · show s.pending.drop offset = output.drop (s.p + offset)
      rw [pending, List.drop_drop]
    · show buf'.bytes.take (s.p + offset) = _
      rw [after, List.take_left' length]
    · intro _
      show buf'.bytes[s.p + offset]? = some 0
      rw [after, List.getElem?_append_right length.le, length, Nat.sub_self]
      rfl

theorem shellTurn_decreases :
    Decreases (fun s : ShellRead => s.pending.length) shellTurn := by
  intro s s' turn
  obtain ⟨offset, isOffset⟩ : ∃ offset,
      freadCount (spaceLeft s.p) s.pending.length s.counts.head? = offset := ⟨_, rfl⟩
  obtain ⟨-, there, -⟩ := freadCount_iff.mp ⟨_, isOffset⟩
  rw [shellTurn, bind_ok (get_ok s)] at turn
  simp only [isOffset] at turn
  obtain ⟨buf, t, read, turn⟩ := bind_inv turn
  obtain ⟨-, rfl⟩ := lift_inv read
  split at turn
  · cases turn
  · next some =>
    obtain ⟨buf', t, store, turn⟩ := bind_inv turn
    cases turn
    simp only [List.length_drop]
    omega

theorem filled_of_turn {output : List UInt8} {s t : ShellRead} (filled : Filled output s)
    (reached : Turn shellTurn s t) : Filled output t := by
  induction reached with
  | first => exact filled
  | next _ round ih =>
    obtain ⟨s', filled', turn | ⟨turn, -⟩⟩ := shellTurn_ok ih
    · cases round.symm.trans turn
      exact filled'
    · cases round.symm.trans turn

/-- The loop ends, with as much of the output in the buffer as there is room for. -/
theorem shellLoop_ok {output : List UInt8} {s : ShellRead} (filled : Filled output s) :
    ∃ s', shellLoop s = .ok ((), s') ∧ Filled output s' ∧
      s'.p = min output.length (lineBufSize - 1) := by
  obtain ⟨t, reached, ending⟩ := whileTrue_ends Fault.blocked shellTurn_decreases s
  obtain ⟨s', filled', turn | ⟨turn, full⟩⟩ := shellTurn_ok (filled_of_turn filled reached)
  · rcases ending with ⟨_, _, left, -⟩ | ⟨_, failed, -⟩
    · cases left.symm.trans turn
    · cases failed.symm.trans turn
  · rcases ending with ⟨_, _, left, run⟩ | ⟨_, failed, -⟩
    · cases left.symm.trans turn
      exact ⟨s', run, filled', full⟩
    · cases failed.symm.trans turn

/-! ## The value -/

/-- What is published of the output of a command. -/
def published (output : List UInt8) : CStr :=
  if output = [] then ascii "<EMPTY>"
  else (dropFinalNewline (output.take (lineBufSize - 1))).takeWhile (· ≠ 0)

theorem shellValue_ok {front rest : List UInt8} {b : UInt8} {buf : Buffer lineBufSize}
    (held : buf.bytes = front ++ b :: 0 :: rest) :
    shellValue buf (front.length + 1) =
      .ok ((dropFinalNewline (front ++ [b])).takeWhile (· ≠ 0)) := by
  have last : buf.bytes[front.length]? = some b := by
    rw [held, List.getElem?_append_right (Nat.le_refl _), Nat.sub_self]
    rfl
  rw [shellValue, if_neg (Nat.succ_ne_zero _), Nat.add_sub_cancel, ok_bind (Buffer.load_ok last),
    dropFinalNewline, List.getLast?_concat]
  by_cases isNewline : b = newline
  · have found : buf.bytes.drop 0 = front ++ b :: 0 :: rest := held
    obtain ⟨buf', store, after⟩ := @Buffer.store_at Fault _ _ _ _ _ _ _ found 0
    rw [Nat.zero_add] at store
    rw [if_pos isNewline, if_pos (congrArg some isNewline), ok_bind store, Buffer.text_ok after,
      List.dropLast_concat]
  · have found : buf.bytes.drop 0 = (front ++ [b]) ++ 0 :: rest := by
      rw [held, List.append_assoc]
      rfl
    rw [if_neg isNewline, if_neg fun same => isNewline (Option.some.inj same),
      Buffer.text_ok found]

theorem shellOutput_ok (buf : Buffer lineBufSize) (output : List UInt8) (counts : List Nat) :
    shellOutput buf output counts = .ok (published output) := by
  obtain ⟨s, run, filled, full⟩ := shellLoop_ok (filled_start buf output counts)
  rw [shellOutput, ok_bind run]
  by_cases empty : output = []
  · subst empty
    have none : s.p = 0 := full
    show shellValue s.buf s.p = _
    rw [shellValue, if_pos none]
    rfl
  · have some : 0 < s.p := by
      have visible := List.length_pos_iff.mpr empty
      simp only [lineBufSize] at full
      omega
    -- the last byte that has been read, and the NUL behind it
    have taken : output.take (lineBufSize - 1) = output.take s.p := by
      rw [full, Nat.min_comm, ← List.take_eq_take_min]
    obtain ⟨front, b, isTaken⟩ : ∃ front b, output.take s.p = front ++ [b] := by
      refine ⟨_, _, (@List.dropLast_append_getLast _ (output.take s.p) ?_).symm⟩
      intro isNil
      have length := congrArg List.length isNil
      rw [List.length_take, List.length_nil] at length
      have within := filled.within
      omega
    have length : front.length + 1 = s.p := by
      have length := congrArg List.length isTaken
      rw [List.length_take, List.length_append, List.length_singleton,
        Nat.min_eq_left filled.within] at length
      exact length.symm
    have nul : s.buf.bytes.drop s.p = 0 :: s.buf.bytes.drop (s.p + 1) := by
      obtain ⟨inside, isNul⟩ := List.getElem?_eq_some_iff.mp (filled.ended some)
      rw [List.drop_eq_getElem_cons inside, isNul]
    have held : s.buf.bytes = front ++ b :: 0 :: s.buf.bytes.drop (s.p + 1) := by
      rw [← nul, ← List.singleton_append, ← List.append_assoc, ← isTaken, ← filled.held,
        List.take_append_drop]
    show shellValue s.buf s.p = _
    rw [← length, shellValue_ok held, published, if_neg empty, taken, isTaken]

/-! ## The poll -/

theorem readOutput_eq {buf : List UInt8} {chunks : List (List UInt8)}
    (room : buf.length ≤ lineBufSize - 1) (nonempty : ∀ chunk ∈ chunks, chunk ≠ []) :
    readOutput buf chunks = (buf ++ chunks.flatten).take (lineBufSize - 1) := by
  induction chunks generalizing buf with
  | nil =>
    rw [readOutput, List.flatten_nil, List.append_nil, List.take_of_length_le room]
  | cons chunk chunks ih =>
    have later := fun c member => nonempty c (List.mem_cons_of_mem chunk member)
    rw [readOutput, List.flatten_cons, ← List.append_assoc]
    -- what is stored of the piece
    have stored : (buf ++ chunk).take (lineBufSize - 1) =
        buf ++ chunk.take (lineBufSize - 1 - buf.length) := by
      rw [List.take_append, List.take_of_length_le room]
    cases piece : chunk.take (lineBufSize - 1 - buf.length) with
    | nil =>
      have full : lineBufSize - 1 = buf.length := by
        rcases List.take_eq_nil_iff.mp piece with full | empty
        · omega
        · exact absurd empty (nonempty chunk List.mem_cons_self)
      rw [full, List.append_assoc, List.take_left' rfl]
    | cons b bs =>
      have fits : (buf ++ b :: bs).length ≤ lineBufSize - 1 := by
        rw [← piece, ← stored]
        exact List.length_take_le _ _
      dsimp only
      rw [ih fits later, ← piece, ← stored, List.take_append, List.take_take, Nat.min_self,
        @List.take_append _ (buf ++ chunk), List.length_take]
      congr 2
      omega

/-- **The loop ends without leaving the buffer, and whatever the calls of `fread` return, the
    value is that of the output.** -/
theorem osysmonShellcmdRun_published (buf : Buffer lineBufSize) (output : List UInt8)
    (counts : List Nat) :
    shellOutput buf output counts = .ok (published output) ∧
      ∀ (shellcmd : OsysmonShellcmd) (chunks : List (List UInt8)) (parent : Option Ptr),
        (∀ chunk ∈ chunks, chunk ≠ []) → chunks.flatten = output →
        osysmonShellcmdRun shellcmd (.output chunks) parent =
          addValues parent [(shellcmd.name, published output)] := by
  refine ⟨shellOutput_ok buf output counts, ?_⟩
  rintro shellcmd chunks parent nonempty rfl
  have text : shellText (.output chunks) = published chunks.flatten := by
    rw [shellText, readOutput_eq (Nat.zero_le _) nonempty, List.nil_append, published]
    by_cases empty : chunks.flatten = []
    · rw [empty]
      rfl
    · have filled : chunks.flatten.take (lineBufSize - 1) ≠ [] := by
        simpa [lineBufSize] using empty
      rw [if_neg filled, if_neg empty]
      congr 1
      funext c
      exact decide_not.symm
  rw [osysmonShellcmdRun, text]
  rfl

end OsmoSysmon
