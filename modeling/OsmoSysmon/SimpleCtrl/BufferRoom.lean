import OsmoSysmon.SimpleCtrl.Receive

/-! # Room in the receive buffer

`simple_ipa_receive` asks `msgb_alloc` for the header, the payload and a NUL, but
the size is a `uint16_t`.  `simpleCtrlReceive_room_iff` is the exact condition
under which everything that a run of the receive loop puts into its buffers fits.
-/

namespace OsmoSysmon

/-- The capacity that `msgb_alloc(len + sizeof(hh) + 1)` gives. -/
def rxCapacity (len : Nat) : Nat := (len + ipaccessHeadSize + 1).toUInt16.toNat

/-- A buffer for a message with this header takes the header, all bytes that
    `read(fd, l2h, len)` may store and, where the message can be accepted, the NUL. -/
structure RoomFor (len : Nat) (proto : UInt8) : Prop where
  header : ipaccessHeadSize ≤ rxCapacity len
  payload : ipaccessHeadSize + len ≤ rxCapacity len
  nul : proto = ipacProtoOsmo → ipaccessHeadSize + len + 1 ≤ rxCapacity len

/-- The turn of the loop that starts here has room for its message. -/
def TurnHasRoom (sch : SimpleCtrlHandle) (w : World) : Prop :=
  ∀ hi lo proto rx, pullTimeout ipaccessHeadSize sch.toutMsec w.rx = .ok (some [hi, lo, proto], rx) →
    RoomFor (ntohs hi lo) proto

/-- The length field of the header that comes next is at most 65531. -/
def NextLengthFits (sch : SimpleCtrlHandle) (w : World) : Prop :=
  ∀ n ∈ headerLength sch.toutMsec w.rx, n ≤ maxPayload

theorem roomFor_iff {len : Nat} (proto : UInt8) (small : len < 65536) :
    RoomFor len proto ↔ len ≤ maxPayload := by
  -- the size is reduced on the way into `msgb_alloc`
  have wrapped : rxCapacity len = (len + 4) % 65536 := by
    simp [rxCapacity, ipaccessHeadSize, Nat.toUInt16_eq]
  constructor
  · rintro ⟨-, payload, -⟩
    rw [wrapped] at payload
    simp only [ipaccessHeadSize, maxPayload] at payload ⊢
    omega
  · intro bound
    simp only [maxPayload] at bound
    constructor <;> simp only [wrapped, ipaccessHeadSize] <;> omega

theorem turnHasRoom_iff (sch : SimpleCtrlHandle) (w : World) :
    TurnHasRoom sch w ↔ NextLengthFits sch w := by
  constructor
  · intro room n found
    rw [headerLength] at found
    split at found
    · next hi lo proto rx pulled =>
      cases found
      exact (roomFor_iff proto (ntohs_lt hi lo)).mp (room hi lo proto rx pulled)
    · cases found
  · intro fits hi lo proto rx pulled
    refine (roomFor_iff proto (ntohs_lt hi lo)).mpr (fits _ ?_)
    simp [headerLength, pulled]

/-- A turn whose length field fits fails at most by waiting for ever. -/
theorem receiveTurn_fault {sch : SimpleCtrlHandle} {w : World} {stop : Stop}
    (fits : NextLengthFits sch w) (h : receiveTurn sch w = .error stop) :
    stop.fault = .blocked := by
  cases frame : readFrame sch.toutMsec w.rx with
  | error fault =>
    obtain ⟨t, failed⟩ := receiveTurn_of_fault frame fits
    rw [failed] at h
    cases h
    exact readFrame_fault frame
  | ok found =>
    obtain ⟨f, rx⟩ := found
    cases f with
    | none =>
      obtain ⟨t, run⟩ := receiveTurn_of_none frame fits
      rw [run] at h
      cases h
    | some f =>
      have short := fits _ (headerLength_of_frame frame)
      cases accepted : f.accepted with
      | true =>
        obtain ⟨m, t, run, -⟩ := receiveTurn_of_accepted frame short accepted
        rw [run] at h
        cases h
      | false =>
        obtain ⟨t, run⟩ := receiveTurn_of_skipped frame short accepted
        rw [run] at h
        cases h

/-- **The receive buffers are large enough exactly as long as every length field
    is at most 65531.**  Then no turn of the loop aborts or stores past its buffer. -/
theorem simpleCtrlReceive_room_iff (sch : SimpleCtrlHandle) (w : World) :
    ((∀ w', Loop.Turn (receiveTurn sch) w w' → TurnHasRoom sch w') ∧
      ∀ stop, simpleCtrlReceive sch w = .error stop →
        stop.fault ≠ .abort ∧ stop.fault ≠ .overflow) ↔
    ∀ w', Loop.Turn (receiveTurn sch) w w' → NextLengthFits sch w' := by
  constructor
  · rintro ⟨room, -⟩ w' turn
    exact (turnHasRoom_iff sch w').mp (room w' turn)
  · intro fits
    refine ⟨fun w' turn => (turnHasRoom_iff sch w').mpr (fits w' turn), fun stop stopped => ?_⟩
    obtain ⟨t, turn, ⟨a, t', -, run⟩ | ⟨_, failed, run⟩⟩ :=
      Loop.whileTrue_ends ⟨.blocked, []⟩ (receiveTurn_decreases sch) w
    · cases run.symm.trans stopped
    · cases run.symm.trans stopped
      simp [receiveTurn_fault (fits t turn) failed]

/-- A header that announces 65532 bytes leaves no room for itself; one that
    announces 65535 leaves room for the header only. -/
theorem simpleCtrlReceive_long :
    (∃ t, simpleCtrlReceive freshHandle
      { rx := [.data [0xff, 0xfc, 0xee]], tx := [], trace := [] } = .error ⟨.abort, t⟩) ∧
    ∃ t, simpleCtrlReceive freshHandle
      { rx := [.data [0xff, 0xff, 0xee, 0x00]], tx := [], trace := [] } = .error ⟨.overflow, t⟩ :=
  ⟨⟨_, rfl⟩, ⟨_, rfl⟩⟩

end OsmoSysmon
