import OsmoSysmon.SimpleCtrl.Basic

/-! # What one turn of the receive loop does

`readFrame` reads one IPA frame off a script and knows nothing of buffers.
`simpleIpaReceive_of_frame` shows that `simple_ipa_receive` computes it, and leaves
the frame in its buffer, as long as the length field is at most `maxPayload`;
`receiveTurn_of_accepted` and `receiveTurn_of_skipped` continue through the accept
test.
-/

namespace OsmoSysmon

open CText

/-! ## Reading from a script -/

theorem pullSome_bytes {count : Nat} {rx rx' : List RxEvent} {result : Option (List UInt8)}
    (h : pullSome count rx = .ok (result, rx')) :
    (result.getD []).length ≤ count ∧ rxBytes rx = (result.getD []).length + rxBytes rx' := by
  induction rx with
  | nil => cases h
  | cons event rx ih =>
    cases event with
    | silence => simpa [rxBytes] using ih h
    | error => cases h; simp [rxBytes]
    | eof => cases h; simp [rxBytes]
    | data bs =>
      cases bs with
      | nil => simpa [rxBytes] using ih h
      | cons b bs =>
        simp only [pullSome, Except.ok.injEq, Prod.mk.injEq] at h
        obtain ⟨rfl, rfl⟩ := h
        -- what is taken and what stays on the script make up the chunk
        refine ⟨List.length_take_le _ _, ?_⟩
        split <;> simp only [rxBytes, Option.getD_some, List.length_take, List.length_drop,
          List.length_cons] <;> omega

theorem pullSome_fault {count : Nat} {rx : List RxEvent} {fault : Fault}
    (h : pullSome count rx = .error fault) : fault = .blocked := by
  induction rx with
  | nil => cases h; rfl
  | cons event rx ih =>
    cases event with
    | silence => exact ih h
    | error | eof => cases h
    | data bs =>
      cases bs with
      | nil => exact ih h
      | cons b bs => cases h

theorem pull_bytes {count : Nat} {rx rx' : List RxEvent} {result : Option (List UInt8)}
    (h : pull count rx = .ok (result, rx')) :
    (result.getD []).length ≤ count ∧ rxBytes rx = (result.getD []).length + rxBytes rx' := by
  rw [pull] at h
  split at h
  · cases h; simp
  · exact pullSome_bytes h

theorem pull_fault {count : Nat} {rx : List RxEvent} {fault : Fault}
    (h : pull count rx = .error fault) : fault = .blocked := by
  rw [pull] at h
  split at h
  · cases h
  · exact pullSome_fault h

theorem waitReadable_bytes {tout : UInt32} {rx rx' : List RxEvent} {readiness : Readiness}
    (h : waitReadable tout rx = .ok (readiness, rx')) : rxBytes rx = rxBytes rx' := by
  induction rx with
  | nil =>
    rw [waitReadable] at h
    split at h <;> cases h
    rfl
  | cons event rx ih =>
    cases event with
    | silence =>
      rw [waitReadable] at h
      split at h
      · simpa [rxBytes] using ih h
      · cases h; rfl
    | error | eof => cases h; rfl
    | data bs =>
      cases bs with
      | nil => simpa [rxBytes] using ih h
      | cons b bs => cases h; rfl

theorem waitReadable_fault {tout : UInt32} {rx : List RxEvent} {fault : Fault}
    (h : waitReadable tout rx = .error fault) : fault = .blocked := by
  induction rx with
  | nil =>
    rw [waitReadable] at h
    split at h <;> cases h
    rfl
  | cons event rx ih =>
    cases event with
    | silence =>
      rw [waitReadable] at h
      split at h
      · exact ih h
      · cases h
    | error | eof => cases h
    | data bs =>
      cases bs with
      | nil => exact ih h
      | cons b bs => cases h

/-- `read_timeout` on a script. -/
def pullTimeout (count : Nat) (tout : UInt32) (rx : List RxEvent) :
    Except Fault (Option (List UInt8) × List RxEvent) :=
  match waitReadable tout rx with
  | .error fault => .error fault
  | .ok (.ready, rx) => pull count rx
  | .ok (_, rx) => .ok (none, rx)

theorem pullTimeout_bytes {count : Nat} {tout : UInt32} {rx rx' : List RxEvent}
    {result : Option (List UInt8)} (h : pullTimeout count tout rx = .ok (result, rx')) :
    (result.getD []).length ≤ count ∧ rxBytes rx = (result.getD []).length + rxBytes rx' := by
  rw [pullTimeout] at h
  split at h
  · cases h
  · next waited => rw [waitReadable_bytes waited]; exact pull_bytes h
  · next waited => cases h; simp [waitReadable_bytes waited]

theorem pullTimeout_fault {count : Nat} {tout : UInt32} {rx : List RxEvent} {fault : Fault}
    (h : pullTimeout count tout rx = .error fault) : fault = .blocked := by
  rw [pullTimeout] at h
  split at h
  · next waited => cases h; exact waitReadable_fault waited
  · exact pull_fault h
  · cases h

theorem sysRead_ok {count : Nat} {w : World} {result : Option (List UInt8)} {rx : List RxEvent}
    (h : pull count w.rx = .ok (result, rx)) :
    ∃ t, sysRead count w = .ok (result, { w with rx, trace := t }) := by
  refine ⟨.read count (readable w.rx) :: w.trace, ?_⟩
  rw [sysRead]
  rw [Loop.bind_ok (Loop.get_ok w)]
  simp only [h]
  rfl

theorem sysRead_error {count : Nat} {w : World} {fault : Fault}
    (h : pull count w.rx = .error fault) :
    sysRead count w = .error ⟨fault, .read count (readable w.rx) :: w.trace⟩ := by
  rw [sysRead]
  rw [Loop.bind_ok (Loop.get_ok w)]
  simp only [h]
  rfl

theorem readTimeout_ok {count : Nat} {tout : UInt32} {w : World} {result : Option (List UInt8)}
    {rx : List RxEvent} (h : pullTimeout count tout w.rx = .ok (result, rx)) :
    ∃ t, readTimeout count tout w = .ok (result, { w with rx, trace := t }) := by
  rw [readTimeout]
  rw [Loop.bind_ok (Loop.get_ok w)]
  rw [pullTimeout] at h
  cases waited : waitReadable tout w.rx with
  | error fault => rw [waited] at h; cases h
  | ok found =>
    obtain ⟨readiness, rx'⟩ := found
    rw [waited] at h
    cases readiness with
    | ready => exact sysRead_ok (w := { w with rx := rx', trace := .select true :: w.trace }) h
    | timeout | failed => cases h; exact ⟨.select false :: w.trace, rfl⟩

theorem readTimeout_error {count : Nat} {tout : UInt32} {w : World} {fault : Fault}
    (h : pullTimeout count tout w.rx = .error fault) :
    ∃ t, readTimeout count tout w = .error ⟨fault, t⟩ := by
  rw [readTimeout]
  rw [Loop.bind_ok (Loop.get_ok w)]
  rw [pullTimeout] at h
  cases waited : waitReadable tout w.rx with
  | error fault' => rw [waited] at h; cases h; exact ⟨.select false :: w.trace, rfl⟩
  | ok found =>
    obtain ⟨readiness, rx'⟩ := found
    rw [waited] at h
    cases readiness with
    | ready =>
      exact ⟨_, sysRead_error (w := { w with rx := rx', trace := .select true :: w.trace }) h⟩
    | timeout | failed => cases h

/-! ## Frames -/

theorem ntohs_lt (hi lo : UInt8) : ntohs hi lo < 65536 := by
  have high := hi.toNat_lt
  have low := lo.toNat_lt
  rw [ntohs]
  omega

@[simp] theorem ntohs_htons {n : Nat} (small : n < 65536) :
    ntohs (n / 256).toUInt8 n.toUInt8 = n := by
  simp only [ntohs, Nat.toUInt8_eq, UInt8.toNat_ofNat']
  omega

theorem htons_ntohs (hi lo : UInt8) : htons (ntohs hi lo) = [hi, lo] := by
  have high := hi.toNat_lt
  have low := lo.toNat_lt
  have quotient : (hi.toNat * 256 + lo.toNat) / 256 = hi.toNat := by omega
  simp only [htons, ntohs, quotient, List.cons.injEq, and_true]
  refine ⟨UInt8.toNat_inj.mp ?_, UInt8.toNat_inj.mp ?_⟩ <;>
    simp only [Nat.toUInt8_eq, UInt8.toNat_ofNat'] <;> omega

/-- An IPA message: its length fits the length field. -/
structure IpaFrame where
  proto : UInt8
  payload : List UInt8
  fits : payload.length < 65536
deriving DecidableEq, Repr

/-- The bytes of `struct ipaccess_head`. -/
def IpaFrame.header (f : IpaFrame) : List UInt8 := htons f.payload.length ++ [f.proto]

def IpaFrame.encode (f : IpaFrame) : List UInt8 := f.header ++ f.payload

@[simp] theorem IpaFrame.length_header (f : IpaFrame) : f.header.length = 3 := rfl

@[simp] theorem IpaFrame.length_encode (f : IpaFrame) : f.encode.length = 3 + f.payload.length := by
  simp [IpaFrame.encode]

/-- The longest payload whose buffer size still fits the `uint16_t` of `msgb_alloc`. -/
def maxPayload : Nat := 65531

/-- The length field that the next turn of the receive loop reads, if it gets a
    whole header. -/
def headerLength (tout : UInt32) (rx : List RxEvent) : Option Nat :=
  match pullTimeout ipaccessHeadSize tout rx with
  | .ok (some [hi, lo, _], _) => some (ntohs hi lo)
  | _ => none

/-- One frame off a script: a header in one `read`, the payload in another. -/
def readFrame (tout : UInt32) (rx : List RxEvent) : Except Fault (Option IpaFrame × List RxEvent) :=
  match pullTimeout ipaccessHeadSize tout rx with
  | .error fault => .error fault
  | .ok (some [hi, lo, proto], rx) =>
    match pull (ntohs hi lo) rx with
    | .error fault => .error fault
    | .ok (some payload, rx) =>
      if whole : payload.length = ntohs hi lo then
        .ok (some { proto, payload, fits := whole ▸ ntohs_lt hi lo }, rx)
      else .ok (none, rx)
    | .ok (none, rx) => .ok (none, rx)
  | .ok (_, rx) => .ok (none, rx)

theorem readFrame_fault {tout : UInt32} {rx : List RxEvent} {fault : Fault}
    (h : readFrame tout rx = .error fault) : fault = .blocked := by
  rw [readFrame] at h
  split at h
  · next pulled => cases h; exact pullTimeout_fault pulled
  · split at h
    · next pulled => cases h; exact pull_fault pulled
    · split at h <;> cases h
    · cases h
  · cases h

/-- The two reads behind a frame. -/
theorem readFrame_some {tout : UInt32} {rx rx' : List RxEvent} {f : IpaFrame}
    (h : readFrame tout rx = .ok (some f, rx')) :
    ∃ mid, pullTimeout ipaccessHeadSize tout rx = .ok (some f.header, mid) ∧
      pull f.payload.length mid = .ok (some f.payload, rx') := by
  rw [readFrame] at h
  split at h
  · cases h
  · next hi lo proto mid pulled =>
    split at h
    · cases h
    · next payload rest read =>
      split at h
      · next whole =>
        cases h
        refine ⟨mid, ?_, by rw [whole]; exact read⟩
        simp only [IpaFrame.header, whole, htons_ntohs]
        exact pulled
      · cases h
    · cases h
  · cases h

theorem readFrame_of_reads {tout : UInt32} {rx mid rx' : List RxEvent} {f : IpaFrame}
    (header : pullTimeout ipaccessHeadSize tout rx = .ok (some f.header, mid))
    (payload : pull f.payload.length mid = .ok (some f.payload, rx')) :
    readFrame tout rx = .ok (some f, rx') := by
  simp only [IpaFrame.header, htons, List.cons_append, List.nil_append] at header
  simp only [readFrame, header, ntohs_htons f.fits, payload, dite_true]

theorem headerLength_of_frame {tout : UInt32} {rx rx' : List RxEvent} {f : IpaFrame}
    (h : readFrame tout rx = .ok (some f, rx')) : headerLength tout rx = some f.payload.length := by
  obtain ⟨mid, header, -⟩ := readFrame_some h
  simp only [IpaFrame.header, htons, List.cons_append, List.nil_append] at header
  simp only [headerLength, header, ntohs_htons f.fits]

/-! ## `simple_ipa_receive` -/

/-- The buffer that `simple_ipa_receive` returns for a frame. -/
structure Msgb.HoldsFrame (m : Msgb) (f : IpaFrame) : Prop where
  buf : m.buf = f.encode ++ [0]
  data : m.data = 0
  tail : m.tail = f.encode.length
  l1h : m.l1h = 0
  l2h : m.l2h = ipaccessHeadSize

/-- The buffer while the payload is being read into it. -/
private def ipaBuffer (id : Nat) (hi lo proto : UInt8) : Msgb where
  id := id
  buf := [hi, lo, proto] ++ List.replicate (ntohs hi lo + 1) 0
  data := 0
  tail := ipaccessHeadSize
  l1h := 0
  l2h := ipaccessHeadSize
  data_le := Nat.zero_le _
  tail_le := by simp [ipaccessHeadSize]

/-- Storing at most as many bytes as the length field says stays inside the buffer. -/
private theorem ipaBuffer_room (id : Nat) (hi lo proto : UInt8) {payload : List UInt8}
    (bound : payload.length ≤ ntohs hi lo) :
    ipaccessHeadSize + payload.length ≤ (ipaBuffer id hi lo proto).buf.length := by
  simp only [ipaBuffer, ipaccessHeadSize, List.length_append, List.length_cons, List.length_nil,
    List.length_replicate]
  omega

/-- Up to the read of the payload: the header is in a buffer with room for the
    payload and a NUL. -/
private theorem simpleIpaReceive_header {sch : SimpleCtrlHandle} {w : World} {hi lo proto : UInt8}
    {rx : List RxEvent} (pulled : pullTimeout ipaccessHeadSize sch.toutMsec w.rx =
      .ok (some [hi, lo, proto], rx)) (short : ntohs hi lo ≤ maxPayload) :
    ∃ id t, simpleIpaReceive sch w = (do
      match ← sysRead (ntohs hi lo) with
      | some payload =>
        let resp ← msgbStore (ipaBuffer id hi lo proto) ipaccessHeadSize payload
        if payload.length < ntohs hi lo then
          msgbFree resp
          return none
        else
          let (_, resp) ← msgbPut resp payload.length
          return some resp
      | none =>
        msgbFree (ipaBuffer id hi lo proto)
        return none) { w with rx, trace := t } := by
  obtain ⟨t, read⟩ := readTimeout_ok pulled
  -- up to `maxPayload` the conversion to `uint16_t` changes nothing
  have size : (ntohs hi lo + ipaccessHeadSize + 1).toUInt16.toNat = ntohs hi lo + 4 := by
    simp only [maxPayload, ipaccessHeadSize, Nat.toUInt16_eq, UInt16.toNat_ofNat'] at short ⊢
    omega
  refine ⟨t.length, .msgbAlloc t.length :: t, ?_⟩
  rw [simpleIpaReceive]
  rw [Loop.bind_ok read]
  simp only
  rw [Loop.bind_ok (msgbAlloc_ok _ _), size]
  rw [Loop.bind_ok (msgbPut_ok (by simp [Msgb.zeroed, ipaccessHeadSize]) _)]
  simp only
  rw [Loop.bind_ok (msgbStore_ok (by simp [Msgb.put, Msgb.zeroed]) _)]
  -- after the stores the zero-filled buffer is `ipaBuffer`
  have held : ((((Msgb.zeroed t.length (ntohs hi lo + 4)).put ipaccessHeadSize
      (by simp [Msgb.zeroed, ipaccessHeadSize])).setL1h 0).store 0 [hi, lo, proto]
        (by simp [Msgb.put, Msgb.zeroed])).setL2h ipaccessHeadSize =
      ipaBuffer t.length hi lo proto := by
    ext1 <;> simp [Msgb.store, Msgb.put, Msgb.setL1h, Msgb.setL2h, Msgb.zeroed, ipaBuffer,
      ipaccessHeadSize]
  rw [← held]
  rfl

theorem simpleIpaReceive_of_frame {sch : SimpleCtrlHandle} {w : World} {f : IpaFrame}
    {rx : List RxEvent} (h : readFrame sch.toutMsec w.rx = .ok (some f, rx))
    (short : f.payload.length ≤ maxPayload) :
    ∃ m t, simpleIpaReceive sch w = .ok (some m, { w with rx, trace := t }) ∧ m.HoldsFrame f := by
  rw [readFrame] at h
  split at h
  · cases h
  · next hi lo proto mid pulled =>
    split at h
    · cases h
    · next payload rest read =>
      split at h
      · next whole =>
        cases h
        obtain ⟨id, t, run⟩ := simpleIpaReceive_header pulled (whole ▸ short)
        obtain ⟨t', read⟩ := sysRead_ok (w := { w with rx := mid, trace := t }) read
        have room := ipaBuffer_room id hi lo proto (Nat.le_of_eq whole)
        -- the payload takes the place of all zeros but the last
        have buf : ((ipaBuffer id hi lo proto).store ipaccessHeadSize payload room).buf =
            [hi, lo, proto] ++ payload ++ [0] := by
          simp [Msgb.store, ipaBuffer, ipaccessHeadSize, whole, Nat.add_comm 3]
        -- so the tail can move behind it
        have tail : ((ipaBuffer id hi lo proto).store ipaccessHeadSize payload room).tail +
            payload.length ≤
              ((ipaBuffer id hi lo proto).store ipaccessHeadSize payload room).buf.length := by
          rw [buf]
          simp only [Msgb.store, ipaBuffer, ipaccessHeadSize, List.length_append, List.length_cons,
            List.length_nil]
          omega
        refine ⟨((ipaBuffer id hi lo proto).store ipaccessHeadSize payload room).put
          payload.length tail, t', ?_, ?_⟩
        · rw [run, Loop.bind_ok read]
          simp only
          rw [Loop.bind_ok (msgbStore_ok room _), if_neg (by omega),
            Loop.bind_ok (msgbPut_ok tail _)]
          rfl
        · constructor
          · simp [Msgb.put, buf, IpaFrame.encode, IpaFrame.header, whole, htons_ntohs]
          · rfl
          · simp [Msgb.put, Msgb.store, ipaBuffer, ipaccessHeadSize, whole]
          · rfl
          · rfl
      · cases h
    · cases h
  · cases h

theorem simpleIpaReceive_of_none {sch : SimpleCtrlHandle} {w : World} {rx : List RxEvent}
    (h : readFrame sch.toutMsec w.rx = .ok (none, rx))
    (short : ∀ n ∈ headerLength sch.toutMsec w.rx, n ≤ maxPayload) :
    ∃ t, simpleIpaReceive sch w = .ok (none, { w with rx, trace := t }) := by
  rw [readFrame] at h
  split at h
  · cases h
  · next hi lo proto mid pulled =>
    have bound : ntohs hi lo ≤ maxPayload := short _ (by simp [headerLength, pulled])
    obtain ⟨id, t, run⟩ := simpleIpaReceive_header pulled bound
    split at h
    · cases h
    · next payload rest read =>
      split at h
      · cases h
      · next cut =>
        cases h
        -- the payload comes short: what there is of it is stored all the same
        have atMost : payload.length ≤ ntohs hi lo := (pull_bytes read).1
        obtain ⟨t', read⟩ := sysRead_ok (w := { w with rx := mid, trace := t }) read
        have room := ipaBuffer_room id hi lo proto atMost
        refine ⟨.msgbFree id :: t', ?_⟩
        rw [run, Loop.bind_ok read]
        simp only
        rw [Loop.bind_ok (msgbStore_ok room _)]
        simp only [Nat.lt_of_le_of_ne atMost cut, if_true]
        rw [Loop.bind_ok (msgbFree_ok _ _)]
        rfl
    · next rest read =>
      cases h
      obtain ⟨t', read⟩ := sysRead_ok (w := { w with rx := mid, trace := t }) read
      refine ⟨.msgbFree id :: t', ?_⟩
      rw [run, Loop.bind_ok read]
      simp only
      rw [Loop.bind_ok (msgbFree_ok _ _)]
      rfl
  · next result mid other pulled =>
    cases h
    obtain ⟨t, read⟩ := readTimeout_ok pulled
    refine ⟨t, ?_⟩
    rw [simpleIpaReceive]
    rw [Loop.bind_ok read]
    split
    · exact (other _ _ _ rfl).elim
    · rfl
    · rfl

theorem simpleIpaReceive_of_fault {sch : SimpleCtrlHandle} {w : World} {fault : Fault}
    (h : readFrame sch.toutMsec w.rx = .error fault)
    (short : ∀ n ∈ headerLength sch.toutMsec w.rx, n ≤ maxPayload) :
    ∃ t, simpleIpaReceive sch w = .error ⟨fault, t⟩ := by
  rw [readFrame] at h
  split at h
  · next pulled =>
    cases h
    obtain ⟨t, read⟩ := readTimeout_error pulled
    rw [simpleIpaReceive]
    exact ⟨t, Loop.bind_error read _⟩
  · next hi lo proto mid pulled =>
    have bound : ntohs hi lo ≤ maxPayload := short _ (by simp [headerLength, pulled])
    obtain ⟨id, t, run⟩ := simpleIpaReceive_header pulled bound
    split at h
    · next read =>
      cases h
      rw [run, Loop.bind_error (sysRead_error (w := { w with rx := mid, trace := t }) read)]
      exact ⟨_, rfl⟩
    · split at h <;> cases h
    · cases h
  · cases h

/-! ## The receive loop -/

/-- The accept test of `simple_ctrl_receive`.  Past an empty payload it reads the
    zero that the buffer was filled with. -/
def IpaFrame.accepted (f : IpaFrame) : Bool :=
  f.proto == ipacProtoOsmo && (f.payload ++ [0]).head? == some ipacProtoExtCtrl

/-- The buffer that `simple_ctrl_receive` returns for an accepted frame. -/
structure Msgb.HoldsCtrl (m : Msgb) (f : IpaFrame) : Prop where
  buf : m.buf = f.encode ++ [0]
  data : m.data = 0
  tail : m.tail = m.buf.length
  l1h : m.l1h = 0
  l2h : m.l2h = ipaccessHeadSize + 1

private theorem HoldsFrame.proto {m : Msgb} {f : IpaFrame} (held : m.HoldsFrame f) :
    m.buf[m.l1h + 2]? = some f.proto := by
  rw [held.buf, held.l1h]
  rfl

private theorem HoldsFrame.ext {m : Msgb} {f : IpaFrame} (held : m.HoldsFrame f) :
    m.buf[m.l1h + ipaccessHeadSize]? = (f.payload ++ [0]).head? := by
  rw [held.buf, held.l1h, IpaFrame.encode, List.append_assoc,
    List.getElem?_append_right (by simp [ipaccessHeadSize]), List.head?_eq_getElem?]
  rfl

theorem receiveTurn_of_accepted {sch : SimpleCtrlHandle} {w : World} {f : IpaFrame}
    {rx : List RxEvent} (h : readFrame sch.toutMsec w.rx = .ok (some f, rx))
    (short : f.payload.length ≤ maxPayload) (accepted : f.accepted = true) :
    ∃ m t, receiveTurn sch w = .ok (some (some m), { w with rx, trace := t }) ∧
      m.HoldsCtrl f := by
  obtain ⟨m, t, run, held⟩ := simpleIpaReceive_of_frame h short
  simp only [IpaFrame.accepted, Bool.and_eq_true, beq_iff_eq] at accepted
  obtain ⟨osmo, ext⟩ := accepted
  -- the zero behind the payload leaves room for the NUL
  have room : (m.setL2h (m.l2h + 1)).tail + 1 ≤ (m.setL2h (m.l2h + 1)).buf.length := by
    simp [held.tail, held.buf]
  have store : m.tail + [(0 : UInt8)].length ≤
      ((m.setL2h (m.l2h + 1)).put 1 room).buf.length := room
  refine ⟨((m.setL2h (m.l2h + 1)).put 1 room).store m.tail [0] store, t, ?_, ?_⟩
  · rw [receiveTurn]
    rw [Loop.bind_ok run]
    simp only
    rw [Loop.bind_ok (msgbByte_ok (HoldsFrame.proto held) _)]
    simp only [osmo, if_true, Msgb.setL2h_l1h]
    rw [Loop.bind_ok (msgbByte_ok (m := m.setL2h (m.l2h + 1)) ((HoldsFrame.ext held).trans ext) _)]
    simp only [if_true]
    rw [Loop.bind_ok (msgbPut_ok room _)]
    simp only [Msgb.setL2h_tail]
    rw [Loop.bind_ok (msgbStore_ok store _)]
    rfl
  · have buf := held.buf
    have tail := held.tail
    constructor
    · simp [Msgb.store, Msgb.put, buf, tail]
    · exact held.data
    · simp [Msgb.store, Msgb.put, buf, tail]
    · exact held.l1h
    · simp [Msgb.store, Msgb.put, held.l2h]

theorem receiveTurn_of_skipped {sch : SimpleCtrlHandle} {w : World} {f : IpaFrame}
    {rx : List RxEvent} (h : readFrame sch.toutMsec w.rx = .ok (some f, rx))
    (short : f.payload.length ≤ maxPayload) (skipped : f.accepted = false) :
    ∃ t, receiveTurn sch w = .ok (none, { w with rx, trace := t }) := by
  obtain ⟨m, t, run, held⟩ := simpleIpaReceive_of_frame h short
  refine ⟨.msgbFree m.id :: t, ?_⟩
  rw [receiveTurn]
  rw [Loop.bind_ok run]
  simp only
  rw [Loop.bind_ok (msgbByte_ok (HoldsFrame.proto held) _)]
  by_cases osmo : f.proto = ipacProtoOsmo
  -- there is an extension byte to read, if only the zero behind an empty payload
  · obtain ⟨ext, found⟩ : ∃ b, (f.payload ++ [0]).head? = some b := by
      cases f.payload <;> simp
    have other : ext ≠ ipacProtoExtCtrl := by
      rintro rfl
      simp [IpaFrame.accepted, osmo, found] at skipped
    simp only [osmo, if_true, Msgb.setL2h_l1h]
    rw [Loop.bind_ok (msgbByte_ok (m := m.setL2h (m.l2h + 1)) ((HoldsFrame.ext held).trans found) _),
      if_neg other]
    rfl
  · simp only [osmo, if_false]
    rfl

theorem receiveTurn_of_none {sch : SimpleCtrlHandle} {w : World} {rx : List RxEvent}
    (h : readFrame sch.toutMsec w.rx = .ok (none, rx))
    (short : ∀ n ∈ headerLength sch.toutMsec w.rx, n ≤ maxPayload) :
    ∃ t, receiveTurn sch w = .ok (some none, { w with rx, trace := t }) := by
  obtain ⟨t, run⟩ := simpleIpaReceive_of_none h short
  refine ⟨t, ?_⟩
  rw [receiveTurn]
  rw [Loop.bind_ok run]
  rfl

theorem receiveTurn_of_fault {sch : SimpleCtrlHandle} {w : World} {fault : Fault}
    (h : readFrame sch.toutMsec w.rx = .error fault)
    (short : ∀ n ∈ headerLength sch.toutMsec w.rx, n ≤ maxPayload) :
    ∃ t, receiveTurn sch w = .error ⟨fault, t⟩ := by
  obtain ⟨t, stopped⟩ := simpleIpaReceive_of_fault h short
  rw [receiveTurn]
  exact ⟨t, Loop.bind_error stopped _⟩

/-! ## Termination

Every turn that goes round has taken a header off the script, whatever its length
field says. -/

theorem sysRead_inv {count : Nat} {w w' : World} {result : Option (List UInt8)}
    (h : sysRead count w = .ok (result, w')) : pull count w.rx = .ok (result, w'.rx) := by
  cases read : pull count w.rx with
  | error fault => rw [sysRead_error read] at h; cases h
  | ok found =>
    obtain ⟨t, run⟩ := sysRead_ok read
    rw [run] at h
    cases h
    rfl

theorem sysRead_trace {count : Nat} {w w' : World} {result : Option (List UInt8)}
    (run : sysRead count w = .ok (result, w')) :
    w'.trace = .read count (readable w.rx) :: w.trace := by
  rw [sysRead, Loop.bind_ok (Loop.get_ok w)] at run
  cases pulled : pull count w.rx with
  | error fault =>
    simp only [pulled] at run
    cases run
  | ok found =>
    simp only [pulled] at run
    cases run
    rfl

theorem readTimeout_inv {count : Nat} {tout : UInt32} {w w' : World} {result : Option (List UInt8)}
    (h : readTimeout count tout w = .ok (result, w')) :
    pullTimeout count tout w.rx = .ok (result, w'.rx) := by
  cases read : pullTimeout count tout w.rx with
  | error fault =>
    obtain ⟨t, stopped⟩ := readTimeout_error read
    cases stopped.symm.trans h
  | ok found =>
    obtain ⟨t, run⟩ := readTimeout_ok read
    rw [run] at h
    cases h
    rfl

theorem msgbAlloc_rx {size : UInt16} {w w' : World} {m : Msgb}
    (h : msgbAlloc size w = .ok (m, w')) : w'.rx = w.rx := by
  rw [msgbAlloc_ok] at h
  cases h
  rfl

theorem msgbFree_rx {m : Msgb} {w w' : World} {u : Unit} (h : msgbFree m w = .ok (u, w')) :
    w'.rx = w.rx := by
  rw [msgbFree_ok] at h
  cases h
  rfl

theorem msgbPut_world {m : Msgb} {n : Nat} {w w' : World} {p : Nat × Msgb}
    (h : msgbPut m n w = .ok (p, w')) : w' = w := (msgbPut_inv h).1

theorem msgbStore_world {m m' : Msgb} {off : Nat} {bytes : List UInt8} {w w' : World}
    (h : msgbStore m off bytes w = .ok (m', w')) : w' = w := (msgbStore_inv h).1

theorem msgbByte_world {m : Msgb} {off : Nat} {b : UInt8} {w w' : World}
    (h : msgbByte m off w = .ok (b, w')) : w' = w := by
  cases found : m.buf[off]? with
  | none => simp [msgbByte, found] at h
  | some b' => rw [msgbByte_ok found] at h; cases h; rfl

theorem simpleIpaReceive_bytes {sch : SimpleCtrlHandle} {w w' : World} {m : Msgb}
    (h : simpleIpaReceive sch w = .ok (some m, w')) : rxBytes w'.rx < rxBytes w.rx := by
  rw [simpleIpaReceive] at h
  obtain ⟨header, w1, read, h⟩ := Loop.bind_inv h
  have first := (pullTimeout_bytes (readTimeout_inv read)).2
  match header, h, first with
  | none, h, _ | some [], h, _ | some [_], h, _ | some [_, _], h, _
  | some (_ :: _ :: _ :: _ :: _), h, _ => cases h
  | some [hi, lo, proto], h, first =>
    obtain ⟨m1, w2, alloc, h⟩ := Loop.bind_inv h
    obtain ⟨p1, w3, put, h⟩ := Loop.bind_inv h
    obtain ⟨m2, w4, store, h⟩ := Loop.bind_inv h
    obtain ⟨payload, w5, read', h⟩ := Loop.bind_inv h
    have second := (pull_bytes (sysRead_inv read')).2
    -- between the two reads and after them the script stays as it is
    have same : w4.rx = w1.rx := by
      rw [msgbStore_world store, msgbPut_world put, msgbAlloc_rx alloc]
    have unchanged : w'.rx = w5.rx := by
      cases payload with
      | none =>
        obtain ⟨_, _, _, h⟩ := Loop.bind_inv h
        cases h
      | some payload =>
        obtain ⟨m3, w6, store', h⟩ := Loop.bind_inv h
        split at h
        · obtain ⟨_, _, _, h⟩ := Loop.bind_inv h
          cases h
        · obtain ⟨p2, w7, put', h⟩ := Loop.bind_inv h
          cases h
          rw [msgbPut_world put', msgbStore_world store']
    simp only [Option.getD_some, List.length_cons, List.length_nil] at first
    rw [same] at second
    rw [unchanged]
    omega

theorem receiveTurn_decreases (sch : SimpleCtrlHandle) :
    Loop.Decreases (fun w => rxBytes w.rx) (receiveTurn sch) := by
  intro w w' h
  rw [receiveTurn] at h
  obtain ⟨received, w1, run, h⟩ := Loop.bind_inv h
  cases received with
  | none => cases h
  | some resp =>
    have smaller := simpleIpaReceive_bytes run
    -- nothing behind the receive reads from the script
    suffices unchanged : w'.rx = w1.rx by simpa only [unchanged] using smaller
    obtain ⟨proto, w2, byte, h⟩ := Loop.bind_inv h
    rw [← msgbByte_world byte]
    split at h
    · obtain ⟨ext, w3, byte', h⟩ := Loop.bind_inv h
      rw [← msgbByte_world byte']
      split at h
      · obtain ⟨_, _, _, h⟩ := Loop.bind_inv h
        obtain ⟨_, _, _, h⟩ := Loop.bind_inv h
        cases h
      · obtain ⟨_, w4, free, h⟩ := Loop.bind_inv h
        cases h
        exact msgbFree_rx free
    · obtain ⟨_, w3, free, h⟩ := Loop.bind_inv h
      cases h
      exact msgbFree_rx free

/-- `simple_ctrl_receive` after one turn. -/
theorem simpleCtrlReceive_leave {sch : SimpleCtrlHandle} {w w' : World} {result : Option Msgb}
    (turn : receiveTurn sch w = .ok (some result, w')) :
    simpleCtrlReceive sch w = .ok (result, w') :=
  Loop.whileTrue_leave turn

theorem simpleCtrlReceive_round {sch : SimpleCtrlHandle} {w w' : World}
    (turn : receiveTurn sch w = .ok (none, w')) :
    simpleCtrlReceive sch w = simpleCtrlReceive sch w' :=
  Loop.whileTrue_round (receiveTurn_decreases sch) turn

end OsmoSysmon
