import Mathlib.Data.List.Forall2
import OsmoSysmon.SimpleCtrl.Receive

/-! # Frames in, messages out

Repeated calls of `simple_ctrl_receive` on a connection that delivers whole IPA
frames.  `receives_of_delivers` is the run of the calls; what it returns differs
from the CTRL messages among the frames only by the OSMO frames that are too short
to say what they carry.
-/

namespace OsmoSysmon

open CText

/-- The messages that calls of `simple_ctrl_receive` return before the first `NULL`. -/
inductive Receives (sch : SimpleCtrlHandle) : World → List Msgb → World → Prop
  | null {w w' : World} : simpleCtrlReceive sch w = .ok (none, w') → Receives sch w [] w'
  | message {w v w' : World} {m : Msgb} {ms : List Msgb} :
      simpleCtrlReceive sch w = .ok (some m, v) → Receives sch v ms w' → Receives sch w (m :: ms) w'

/-- The connection delivers `frames` without a short read, and leaves `rest`. -/
inductive Delivers (tout : UInt32) : List IpaFrame → List RxEvent → List RxEvent → Prop
  | nil {rx : List RxEvent} : Delivers tout [] rx rx
  | cons {f : IpaFrame} {fs : List IpaFrame} {rx mid rx' rest : List RxEvent} :
      pullTimeout ipaccessHeadSize tout rx = .ok (some f.header, mid) →
      pull f.payload.length mid = .ok (some f.payload, rx') →
      Delivers tout fs rx' rest → Delivers tout (f :: fs) rx rest

/-- Nothing more arrives: the next read times out, fails or finds the end. -/
def Ended (tout : UInt32) (rx : List RxEvent) : Prop :=
  ∃ result rx', pullTimeout ipaccessHeadSize tout rx = .ok (result, rx') ∧ result.getD [] = []

/-- A CTRL message: the payload says so in its first byte. -/
def IpaFrame.isCtrl (f : IpaFrame) : Bool :=
  f.proto == ipacProtoOsmo && f.payload.head? == some ipacProtoExtCtrl

/-- `msgb_l2` points into the message, at the payload without its first byte and a
    NUL behind it.  The text there is the payload's, up to a NUL of its own. -/
structure Msgb.Carries (m : Msgb) (f : IpaFrame) : Prop where
  inside : m.l2h < m.tail
  l2 : (m.buf.take m.tail).drop m.l2h = f.payload.tail ++ [0]
  text : ∀ w, msgbL2Text m w = .ok (f.payload.tail.takeWhile (· ≠ 0), w)

/-! ## Runs -/

theorem Receives.unique {sch : SimpleCtrlHandle} {w w₁ w₂ : World} {ms₁ ms₂ : List Msgb}
    (first : Receives sch w ms₁ w₁) (second : Receives sch w ms₂ w₂) : ms₁ = ms₂ ∧ w₁ = w₂ := by
  induction first generalizing ms₂ with
  | null run =>
    cases second with
    | null run' => rw [run] at run'; cases run'; exact ⟨rfl, rfl⟩
    | message run' _ => rw [run] at run'; cases run'
  | message run _ ih =>
    cases second with
    | null run' => rw [run] at run'; cases run'
    | message run' rest =>
      rw [run] at run'
      cases run'
      obtain ⟨rfl, rfl⟩ := ih rest
      exact ⟨rfl, rfl⟩

/-- A turn that skips a frame does not show in what the calls return. -/
theorem Receives.round {sch : SimpleCtrlHandle} {w v w' : World} {ms : List Msgb}
    (turn : receiveTurn sch w = .ok (none, v)) (rest : Receives sch v ms w') :
    Receives sch w ms w' := by
  have same := simpleCtrlReceive_round turn
  cases rest with
  | null run => exact .null (same.trans run)
  | message run rest => exact .message (same.trans run) rest

/-- A frame that arrives in a segment of its own. -/
theorem Delivers.data (tout : UInt32) (f : IpaFrame) (rx : List RxEvent) :
    Delivers tout [f] (.data f.encode :: rx) rx := by
  -- the header is taken off the segment, which is gone if nothing is left of it
  have header : pullTimeout ipaccessHeadSize tout (.data f.encode :: rx) = .ok (some f.header,
      if f.payload.length + 2 < ipaccessHeadSize then rx else .data f.payload :: rx) := rfl
  refine .cons header ?_ .nil
  match payload : f.payload with
  | [] => rfl
  | b :: bs =>
    show Except.ok (some ((b :: bs).take (bs.length + 1)),
      if bs.length < bs.length + 1 then rx else _) = _
    rw [if_pos (Nat.lt_succ_self _), ← List.length_cons, List.take_length]

theorem readFrame_of_nothing {tout : UInt32} {rx rx' : List RxEvent} {result : Option (List UInt8)}
    (pulled : pullTimeout ipaccessHeadSize tout rx = .ok (result, rx'))
    (nothing : result.getD [] = []) :
    headerLength tout rx = none ∧ readFrame tout rx = .ok (none, rx') := by
  rw [headerLength, readFrame, pulled]
  cases result with
  | none => exact ⟨rfl, rfl⟩
  | some bytes =>
    cases nothing
    exact ⟨rfl, rfl⟩

theorem readFrame_of_short_header {tout : UInt32} {rx rx' : List RxEvent} {got : List UInt8}
    (pulled : pullTimeout ipaccessHeadSize tout rx = .ok (some got, rx'))
    (short : got.length < ipaccessHeadSize) :
    headerLength tout rx = none ∧ readFrame tout rx = .ok (none, rx') := by
  unfold headerLength readFrame
  rw [pulled]
  match got, short with
  | [], _ | [_], _ | [_, _], _ => exact ⟨rfl, rfl⟩

theorem readFrame_of_short_payload {tout : UInt32} {rx mid rx' : List RxEvent} {f : IpaFrame}
    {got : List UInt8} (header : pullTimeout ipaccessHeadSize tout rx = .ok (some f.header, mid))
    (payload : pull f.payload.length mid = .ok (some got, rx'))
    (short : got.length < f.payload.length) :
    headerLength tout rx = some f.payload.length ∧ readFrame tout rx = .ok (none, rx') := by
  simp only [IpaFrame.header, htons, List.cons_append, List.nil_append] at header
  constructor
  · simp only [headerLength, header, ntohs_htons f.fits]
  · simp only [readFrame, header, ntohs_htons f.fits, payload]
    rw [dif_neg (by omega)]

theorem readFrame_of_ended {tout : UInt32} {rx : List RxEvent} (ended : Ended tout rx) :
    headerLength tout rx = none ∧ ∃ rx', readFrame tout rx = .ok (none, rx') ∧
      rxBytes rx' = rxBytes rx := by
  obtain ⟨result, rx', pulled, nothing⟩ := ended
  obtain ⟨noHeader, stopped⟩ := readFrame_of_nothing pulled nothing
  have bytes := (pullTimeout_bytes pulled).2
  rw [nothing] at bytes
  exact ⟨noHeader, rx', stopped, by simpa using bytes.symm⟩

/-- Every accepted frame is returned, in order, until a read goes wrong. -/
theorem receives_of_delivers {sch : SimpleCtrlHandle} {frames : List IpaFrame}
    {rx mid rx' : List RxEvent} (delivered : Delivers sch.toutMsec frames rx mid)
    (bounded : ∀ f ∈ frames, f.payload.length ≤ maxPayload)
    (stopped : readFrame sch.toutMsec mid = .ok (none, rx'))
    (short : ∀ n ∈ headerLength sch.toutMsec mid, n ≤ maxPayload) {w : World} (here : w.rx = rx) :
    ∃ ms w', Receives sch w ms w' ∧ w'.rx = rx' ∧
      List.Forall₂ Msgb.HoldsCtrl ms (frames.filter IpaFrame.accepted) := by
  -- by induction on the frames: one turn of the loop for each
  induction delivered generalizing w with
  | nil =>
    subst here
    obtain ⟨t, turn⟩ := receiveTurn_of_none stopped short
    exact ⟨[], _, .null (simpleCtrlReceive_leave turn), rfl, .nil⟩
  | @cons f fs _ _ _ _ header payload _ ih =>
    subst here
    have frame := readFrame_of_reads header payload
    have fits := bounded f List.mem_cons_self
    have later := fun g member => bounded g (List.mem_cons_of_mem _ member)
    cases accepted : f.accepted with
    | true =>
      obtain ⟨m, t, turn, held⟩ := receiveTurn_of_accepted frame fits accepted
      obtain ⟨ms, w', run, there, all⟩ := ih later stopped short (w := { w with rx := _, trace := t }) rfl
      refine ⟨m :: ms, w', .message (simpleCtrlReceive_leave turn) run, there, ?_⟩
      rw [List.filter_cons_of_pos accepted]
      exact .cons held all
    | false =>
      obtain ⟨t, turn⟩ := receiveTurn_of_skipped frame fits accepted
      obtain ⟨ms, w', run, there, all⟩ := ih later stopped short (w := { w with rx := _, trace := t }) rfl
      refine ⟨ms, w', run.round turn, there, ?_⟩
      rw [List.filter_cons_of_neg (by simp [accepted])]
      exact all

/-! ## Accepted frames and CTRL messages -/

theorem IpaFrame.accepted_iff {f : IpaFrame} :
    f.accepted = true ↔ f.isCtrl = true ∨ (f.proto = ipacProtoOsmo ∧ f.payload = []) := by
  cases payload : f.payload with
  | nil => simp [IpaFrame.accepted, IpaFrame.isCtrl, payload, ipacProtoExtCtrl]
  | cons b bs => simp [IpaFrame.accepted, IpaFrame.isCtrl, payload]

theorem IpaFrame.accepted_of_isCtrl {f : IpaFrame} (ctrl : f.isCtrl = true) : f.accepted = true :=
  accepted_iff.mpr (.inl ctrl)

/-- The accepted frames are the CTRL messages exactly when no OSMO frame is empty. -/
theorem filter_accepted_iff (frames : List IpaFrame) :
    (frames.filter IpaFrame.accepted).length = (frames.filter IpaFrame.isCtrl).length ↔
      ∀ f ∈ frames, ¬ (f.proto = ipacProtoOsmo ∧ f.payload = []) := by
  -- every CTRL message is accepted, so the lengths agree only if nothing else is
  have narrower : (frames.filter IpaFrame.accepted).filter IpaFrame.isCtrl =
      frames.filter IpaFrame.isCtrl := by
    rw [List.filter_filter]
    refine List.filter_congr fun f _ => ?_
    cases ctrl : f.isCtrl with
    | true => simp [IpaFrame.accepted_of_isCtrl ctrl]
    | false => rfl
  rw [← narrower, eq_comm, List.length_filter_eq_length_iff]
  constructor
  · intro all f member empty
    have ctrl := all f (List.mem_filter.mpr ⟨member, IpaFrame.accepted_iff.mpr (.inr empty)⟩)
    simp [IpaFrame.isCtrl, empty.2] at ctrl
  · intro none_empty f member
    obtain ⟨member, accepted⟩ := List.mem_filter.mp member
    exact (IpaFrame.accepted_iff.mp accepted).resolve_right (none_empty f member)

theorem Msgb.HoldsCtrl.carries {m : Msgb} {f : IpaFrame} (held : m.HoldsCtrl f)
    (ctrl : f.isCtrl = true) : m.Carries f := by
  obtain ⟨b, bs, payload⟩ : ∃ b bs, f.payload = b :: bs := by
    cases payload : f.payload with
    | nil => simp [IpaFrame.isCtrl, payload] at ctrl
    | cons b bs => exact ⟨b, bs, rfl⟩
  have l2 : m.buf.drop m.l2h = bs ++ [0] := by
    rw [held.buf, held.l2h, IpaFrame.encode, payload]
    rfl
  constructor
  · rw [held.tail, held.buf, held.l2h]
    simp [payload, ipaccessHeadSize]
    omega
  · rw [held.tail, List.take_length, l2, payload, List.tail_cons]
  · intro w
    rw [payload, List.tail_cons]
    exact msgbL2Text_ok (by rw [l2, cString?_append_nul]) w

/-- Only the text of a CTRL message can be read: past an empty payload there is no
    memory. -/
theorem Msgb.HoldsCtrl.text_inv {m : Msgb} {f : IpaFrame} (held : m.HoldsCtrl f)
    (accepted : f.accepted = true) {w w' : World} {text : CStr}
    (read : msgbL2Text m w = .ok (text, w')) :
    f.isCtrl = true ∧ text = f.payload.tail.takeWhile (· ≠ 0) ∧ w' = w := by
  rcases IpaFrame.accepted_iff.mp accepted with ctrl | ⟨-, empty⟩
  · rw [(held.carries ctrl).text w] at read
    cases read
    exact ⟨ctrl, rfl, rfl⟩
  -- `l2h` is one past the NUL, which is the last byte of the buffer
  · have outside : cString? (m.buf.drop m.l2h) = none := by
      rw [held.buf, held.l2h, IpaFrame.encode, empty]
      rfl
    rw [msgbL2Text, outside] at read
    cases read

/-- **The calls return exactly the CTRL messages among the frames if and only if
    every frame for the OSMO protocol says what it carries.** -/
theorem simpleCtrlReceive_frames_iff {sch : SimpleCtrlHandle} {w : World} {frames : List IpaFrame}
    {rest : List RxEvent} (bounded : ∀ f ∈ frames, f.payload.length ≤ maxPayload)
    (delivered : Delivers sch.toutMsec frames w.rx rest) (ended : Ended sch.toutMsec rest) :
    (∃ ms w', Receives sch w ms w' ∧
        List.Forall₂ Msgb.Carries ms (frames.filter IpaFrame.isCtrl)) ↔
      ∀ f ∈ frames, ¬ (f.proto = ipacProtoOsmo ∧ f.payload = []) := by
  obtain ⟨noHeader, rx', stopped, -⟩ := readFrame_of_ended ended
  obtain ⟨ms, w', run, -, held⟩ :=
    receives_of_delivers delivered bounded stopped (by simp [noHeader]) rfl
  rw [← filter_accepted_iff]
  constructor
  · rintro ⟨ms', w'', run', carried⟩
    obtain ⟨rfl, -⟩ := run.unique run'
    rw [← held.length_eq, carried.length_eq]
  · intro same
    have sameFrames : frames.filter IpaFrame.accepted = frames.filter IpaFrame.isCtrl :=
      List.filter_congr fun f member => by
        have nonempty := (filter_accepted_iff frames).mp same f member
        rw [Bool.eq_iff_iff, IpaFrame.accepted_iff]
        exact or_iff_left nonempty
    refine ⟨ms, w', run, ?_⟩
    rw [sameFrames] at held
    rw [List.forall₂_iff_get] at held ⊢
    refine ⟨held.1, fun i here there => (held.2 i here there).carries ?_⟩
    exact (List.mem_filter.mp (List.get_mem _ _)).2

/-- One CTRL message between two frames for another protocol. -/
theorem simpleCtrlReceive_frames_mixed :
    ∃ ms w', Receives freshHandle
        { rx := [.data [0, 1, 0xfe, 0x04], .data [0, 3, 0xee, 0x00, 0x47, 0x45, 0, 0, 0xfe]]
          tx := [], trace := [] } ms w' ∧
      List.Forall₂ Msgb.Carries ms ([⟨0xfe, [0x04], by decide⟩,
        ⟨0xee, [0x00, 0x47, 0x45], by decide⟩, ⟨0xfe, [], by decide⟩].filter IpaFrame.isCtrl) :=
  Iff.mpr (simpleCtrlReceive_frames_iff (by decide)
    (.cons rfl rfl (.cons rfl rfl (.cons rfl rfl .nil))) ⟨none, [], rfl, rfl⟩) (by decide)

/-- An OSMO frame without a payload is returned, with `msgb_l2` behind its buffer. -/
theorem simpleCtrlReceive_empty_frame :
    (∃ m w', Receives freshHandle { rx := [.data [0, 0, 0xee]], tx := [], trace := [] } [m] w' ∧
      m.l2h = m.buf.length ∧ msgbL2Text m w' = .error ⟨.overread, w'.trace⟩) ∧
    ¬ ∃ ms w', Receives freshHandle { rx := [.data [0, 0, 0xee]], tx := [], trace := [] } ms w' ∧
      List.Forall₂ Msgb.Carries ms
        ([⟨ipacProtoOsmo, [], by decide⟩].filter IpaFrame.isCtrl) := by
  refine ⟨⟨_, _, .message rfl (.null rfl), rfl, rfl⟩, ?_⟩
  rintro ⟨ms, w', run, carried⟩
  have returned := run.unique (.message rfl (.null rfl))
  simp [returned.1, IpaFrame.isCtrl] at carried

end OsmoSysmon
