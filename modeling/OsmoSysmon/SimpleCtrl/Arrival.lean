import OsmoSysmon.SimpleCtrl.Framing

/-! # What arrives first

`simple_ctrl_receive`, taken backwards: a message that it returns is the first of the
frames on the script that it accepts, and what it has skipped is in front of it.
-/

namespace OsmoSysmon

open CText Loop

/-- The first CTRL message on the script, behind messages that are not accepted, has
    this text. -/
def FirstCtrl (tout : UInt32) (rx : List RxEvent) (text : CStr) : Prop :=
  ∃ skipped f rest, Delivers tout (skipped ++ [f]) rx rest ∧
    (∀ g ∈ skipped ++ [f], g.payload.length ≤ maxPayload) ∧
    (∀ g ∈ skipped, g.accepted = false) ∧ f.isCtrl = true ∧
    text = f.payload.tail.takeWhile (· ≠ 0)

theorem Delivers.append {tout : UInt32} {fs gs : List IpaFrame} {rx mid rest : List RxEvent}
    (first : Delivers tout fs rx mid) (second : Delivers tout gs mid rest) :
    Delivers tout (fs ++ gs) rx rest := by
  induction first with
  | nil => exact second
  | cons header payload _ ih => exact .cons header payload (ih second)

theorem Delivers.single {tout : UInt32} {f : IpaFrame} {rx rx' : List RxEvent}
    (frame : readFrame tout rx = .ok (some f, rx')) : Delivers tout [f] rx rx' := by
  obtain ⟨mid, header, payload⟩ := readFrame_some frame
  exact .cons header payload .nil

/-! ## One turn, backwards -/

/-- A length field that does not fit the size of a buffer lets nothing be received, and
    what is announced has not arrived. -/
theorem simpleIpaReceive_of_long {sch : SimpleCtrlHandle} {w w' : World} {result : Option Msgb}
    {n : Nat} (length : headerLength sch.toutMsec w.rx = some n) (long : maxPayload < n)
    (run : simpleIpaReceive sch w = .ok (result, w')) :
    result = none ∧ ∀ f rx, readFrame sch.toutMsec w.rx ≠ .ok (some f, rx) := by
  rw [headerLength] at length
  split at length
  · next hi lo proto rx pulled =>
    cases length
    have small := ntohs_lt hi lo
    obtain ⟨t, read⟩ := readTimeout_ok pulled
    rw [simpleIpaReceive] at run
    rw [bind_ok read] at run
    simp only at run
    obtain ⟨m₁, w₁, alloc, run⟩ := bind_inv run
    obtain ⟨⟨p, m₂⟩, w₂, put, run⟩ := bind_inv run
    obtain ⟨m₃, w₃, store, run⟩ := bind_inv run
    obtain ⟨payload, w₄, read', run⟩ := bind_inv run
    rw [msgbAlloc_ok] at alloc
    cases alloc
    obtain ⟨-, -, room, tail₂, buf₂⟩ := msgbPut_inv put
    obtain ⟨-, -, -, tail₃, buf₃⟩ := msgbStore_inv store
    -- the buffer holds the header and nothing else
    simp only [Msgb.zeroed, List.length_replicate, Nat.toUInt16_eq, UInt16.toNat_ofNat',
      ipaccessHeadSize, maxPayload] at room tail₂ buf₂ long
    have taken := sysRead_inv read'
    have world₂ := msgbPut_world put
    have world₃ := msgbStore_world store
    rw [world₃, world₂] at taken
    have noFrame (empty : payload.getD [] = []) (f : IpaFrame) (rest : List RxEvent) :
        readFrame sch.toutMsec w.rx ≠ .ok (some f, rest) := by
      intro frame
      obtain ⟨mid, header, whole⟩ := readFrame_some frame
      have same := headerLength_of_frame frame
      rw [headerLength, pulled] at same
      have same : ntohs hi lo = f.payload.length := Option.some.inj same
      have isMid := pulled.symm.trans header
      simp only [Except.ok.injEq, Prod.mk.injEq] at isMid
      rw [← same, ← isMid.2, taken] at whole
      cases whole
      rw [Option.getD_some] at empty
      rw [empty, List.length_nil] at same
      omega
    cases payload with
    | none =>
      obtain ⟨_, _, _, run⟩ := bind_inv run
      cases run
      exact ⟨rfl, noFrame rfl⟩
    | some payload =>
      obtain ⟨m₄, w₅, store', run⟩ := bind_inv run
      obtain ⟨-, -, fits, -⟩ := msgbStore_inv store'
      simp only [Msgb.setL2h_l2h, Msgb.setL2h_buf, tail₃, buf₃, Msgb.setL1h_tail, Msgb.setL1h_buf,
        tail₂, buf₂, List.length_replicate] at fits
      rw [if_pos (by omega)] at run
      obtain ⟨_, _, _, run⟩ := bind_inv run
      cases run
      have empty : payload = [] := List.eq_nil_of_length_eq_zero (by omega)
      exact ⟨rfl, noFrame empty⟩
  · cases length

/-- What a turn makes of the script: it ends the loop without a message if there is no
    frame, or it takes one frame, and returns it if it is accepted. -/
theorem receiveTurn_inv {sch : SimpleCtrlHandle} {w w' : World} {result : Option (Option Msgb)}
    (turn : receiveTurn sch w = .ok (result, w')) :
    (result = some none ∧ ∀ f rx, readFrame sch.toutMsec w.rx ≠ .ok (some f, rx)) ∨
      ∃ f, readFrame sch.toutMsec w.rx = .ok (some f, w'.rx) ∧ f.payload.length ≤ maxPayload ∧
      if f.accepted then ∃ m, result = some (some m) ∧ m.HoldsCtrl f else result = none := by
  by_cases short : ∀ n ∈ headerLength sch.toutMsec w.rx, n ≤ maxPayload
  · cases frame : readFrame sch.toutMsec w.rx with
    | error fault =>
      obtain ⟨t, stopped⟩ := receiveTurn_of_fault frame short
      cases stopped.symm.trans turn
    | ok found =>
      obtain ⟨f, rx⟩ := found
      cases f with
      | none =>
        obtain ⟨t, run⟩ := receiveTurn_of_none frame short
        cases run.symm.trans turn
        refine .inl ⟨rfl, fun f rx' frame' => ?_⟩
        cases frame'
      | some f =>
        have bound := short _ (headerLength_of_frame frame)
        right
        cases accepted : f.accepted with
        | true =>
          obtain ⟨m, t, run, held⟩ := receiveTurn_of_accepted frame bound accepted
          cases run.symm.trans turn
          exact ⟨f, rfl, bound, by rw [accepted, if_pos rfl]; exact ⟨m, rfl, held⟩⟩
        | false =>
          obtain ⟨t, run⟩ := receiveTurn_of_skipped frame bound accepted
          cases run.symm.trans turn
          exact ⟨f, rfl, bound, by simp [accepted]⟩
  · left
    simp only [not_forall, Nat.not_le] at short
    obtain ⟨n, length, long⟩ := short
    rw [receiveTurn] at turn
    obtain ⟨received, v, run, turn⟩ := bind_inv turn
    obtain ⟨rfl, noFrame⟩ := simpleIpaReceive_of_long length long run
    cases turn
    exact ⟨rfl, noFrame⟩

/-- The turns that go round take frames off the script that are not accepted. -/
theorem turn_delivers {sch : SimpleCtrlHandle} {w v : World}
    (reached : Turn (receiveTurn sch) w v) :
    ∃ skipped, Delivers sch.toutMsec skipped w.rx v.rx ∧
      (∀ g ∈ skipped, g.payload.length ≤ maxPayload) ∧ ∀ g ∈ skipped, g.accepted = false := by
  induction reached with
  | first => exact ⟨[], .nil, by simp, by simp⟩
  | next _ round ih =>
    obtain ⟨skipped, delivered, bounded, others⟩ := ih
    rcases receiveTurn_inv round with ⟨ended, -⟩ | ⟨f, frame, short, isResult⟩
    · cases ended
    · have other : f.accepted = false := by
        cases accepted : f.accepted with
        | false => rfl
        | true =>
          rw [if_pos accepted] at isResult
          obtain ⟨_, isMessage, -⟩ := isResult
          cases isMessage
      refine ⟨skipped ++ [f], delivered.append (.single frame), ?_, ?_⟩
      · rw [List.forall_mem_append]
        exact ⟨bounded, by simpa using short⟩
      · rw [List.forall_mem_append]
        exact ⟨others, by simpa using other⟩

/-! ## The loop, both ways -/

/-- The messages in front are read and dropped, and what is behind stays on the script. -/
theorem simpleCtrlReceive_of_delivers {sch : SimpleCtrlHandle} {w : World}
    {skipped : List IpaFrame} {f : IpaFrame} {rest : List RxEvent}
    (delivered : Delivers sch.toutMsec (skipped ++ [f]) w.rx rest)
    (bounded : ∀ g ∈ skipped ++ [f], g.payload.length ≤ maxPayload)
    (others : ∀ g ∈ skipped, g.accepted = false) (ctrl : f.isCtrl = true) :
    ∃ m t, simpleCtrlReceive sch w = .ok (some m, { w with rx := rest, trace := t }) ∧
      ∀ v, msgbL2Text m v = .ok (f.payload.tail.takeWhile (· ≠ 0), v) := by
  induction skipped generalizing w with
  | nil =>
    cases delivered with
    | cons header read nothing =>
      cases nothing
      obtain ⟨m, t, turn, held⟩ := receiveTurn_of_accepted (readFrame_of_reads header read)
        (bounded f List.mem_cons_self) (IpaFrame.accepted_of_isCtrl ctrl)
      exact ⟨m, t, simpleCtrlReceive_leave turn, (held.carries ctrl).text⟩
  | cons g skipped ih =>
    cases delivered with
    | @cons _ _ _ _ rx' _ header read delivered =>
      obtain ⟨t, turn⟩ := receiveTurn_of_skipped (readFrame_of_reads header read)
        (bounded g List.mem_cons_self) (others g List.mem_cons_self)
      obtain ⟨m, t', run, text_eq⟩ := @ih { w with rx := rx', trace := t } delivered
        (fun h member => bounded h (List.mem_cons_of_mem _ member))
        (fun h member => others h (List.mem_cons_of_mem _ member))
      exact ⟨m, t', (simpleCtrlReceive_round turn).trans run, text_eq⟩

theorem simpleCtrlReceive_of_firstCtrl {sch : SimpleCtrlHandle} {w : World} {text : CStr}
    (first : FirstCtrl sch.toutMsec w.rx text) :
    ∃ m rx t, simpleCtrlReceive sch w = .ok (some m, { w with rx, trace := t }) ∧
      ∀ v, msgbL2Text m v = .ok (text, v) := by
  obtain ⟨skipped, f, rest, delivered, bounded, others, ctrl, rfl⟩ := first
  obtain ⟨m, t, run, text_eq⟩ := simpleCtrlReceive_of_delivers delivered bounded others ctrl
  exact ⟨m, rest, t, run, text_eq⟩

/-- A frame that is too long for a buffer is not survived. -/
theorem simpleCtrlReceive_of_overlong {sch : SimpleCtrlHandle} {w w' : World} {f : IpaFrame}
    {rx : List RxEvent} {result : Option Msgb}
    (frame : readFrame sch.toutMsec w.rx = .ok (some f, rx))
    (long : maxPayload < f.payload.length) : simpleCtrlReceive sch w ≠ .ok (result, w') := by
  intro run
  cases turn : receiveTurn sch w with
  | error fault => cases (whileTrue_fail turn).symm.trans run
  | ok found =>
    rcases receiveTurn_inv turn with ⟨-, noFrame⟩ | ⟨g, frame', short, -⟩
    · exact noFrame f rx frame
    · cases frame.symm.trans frame'
      omega

theorem firstCtrl_of_simpleCtrlReceive {sch : SimpleCtrlHandle} {w w' v v' : World} {m : Msgb}
    {text : CStr} (run : simpleCtrlReceive sch w = .ok (some m, w'))
    (read : msgbL2Text m v = .ok (text, v')) : FirstCtrl sch.toutMsec w.rx text := by
  obtain ⟨u, reached, ending⟩ := whileTrue_ends ⟨.blocked, []⟩ (receiveTurn_decreases sch) w
  rw [simpleCtrlReceive] at run
  rcases ending with ⟨a, u', turn, ended⟩ | ⟨fault, -, failed⟩
  · rw [ended] at run
    cases run
    obtain ⟨skipped, delivered, bounded, others⟩ := turn_delivers reached
    rcases receiveTurn_inv turn with ⟨nothing, -⟩ | ⟨f, frame, short, isResult⟩
    · cases nothing
    · cases accepted : f.accepted with
      | false =>
        rw [accepted, if_neg (by simp)] at isResult
        cases isResult
      | true =>
        rw [if_pos accepted] at isResult
        obtain ⟨_, isMessage, held⟩ := isResult
        cases isMessage
        obtain ⟨ctrl, rfl, -⟩ := held.text_inv accepted read
        refine ⟨skipped, f, _, delivered.append (.single frame), ?_, others, ctrl, rfl⟩
        rw [List.forall_mem_append]
        exact ⟨bounded, by simpa using short⟩
  · rw [failed] at run
    cases run

theorem FirstCtrl.unique {tout : UInt32} {rx : List RxEvent} {text text' : CStr}
    (first : FirstCtrl tout rx text) (first' : FirstCtrl tout rx text') : text = text' := by
  -- both are the text of what the loop returns
  let w : World := ⟨rx, [], []⟩
  obtain ⟨m, rx₁, t, run, reads⟩ := @simpleCtrlReceive_of_firstCtrl ⟨0, tout⟩ w text first
  obtain ⟨m', rx₂, t', run', reads'⟩ := @simpleCtrlReceive_of_firstCtrl ⟨0, tout⟩ w text' first'
  cases run.symm.trans run'
  cases (reads w).symm.trans (reads' w)
  rfl

end OsmoSysmon
