import OsmoSysmon.SimpleCtrl.Calls
import OsmoSysmon.SimpleCtrl.Unsolicited

/-! # Requests, there and back

What `simple_ctrl_get` and `simple_ctrl_set` hand to `write` is what
`simple_ctrl_receive` takes for a CTRL message, with the text of the request at `msgb_l2`.
-/

namespace OsmoSysmon

open CText Loop

/-- What `write` has taken so far, newest first. -/
def written (trace : List Event) : List (List UInt8) :=
  trace.filterMap fun
    | .write bytes => some bytes
    | _ => none

/-- A program that returns has written nothing. -/
def Silent {α : Type} (m : Sys α) : Prop := ∀ sofar, Keeps (fun w => written w.trace = sofar) m

/-! ## Programs that do not write -/

theorem writesNothing_composes : Composes fun _ new => written new = [] where
  nothing := rfl
  fails _ := rfl
  memory {e} memory := by cases e <;> first | rfl | cases memory
  after {_ new old} before later := by
    rw [written, List.filterMap_append, ← written, later, ← written, before, List.nil_append]

namespace Silent

variable {α β : Type}

theorem of_makes {m : Sys α} (makes : Makes (fun _ new => written new = []) m) : Silent m := by
  intro sofar w a w' before run
  obtain ⟨new, isTrace, nothing⟩ := makes w
  rw [run] at isTrace
  rw [show w'.trace = new ++ w.trace from isTrace, written, List.filterMap_append, ← written,
    nothing]
  exact before

theorem pure (a : α) : Silent (pure a : Sys α) := .of_makes (.pure writesNothing_composes a)

theorem bind {m : Sys α} {k : α → Sys β} (first : Silent m) (rest : ∀ a, Silent (k a)) :
    Silent (m >>= k) := fun sofar => (first sofar).bind fun a => rest a sofar

end Silent

theorem msgbFree_silent (m : Msgb) : Silent (msgbFree m) :=
  .of_makes (msgbFree_makes writesNothing_composes m)

theorem msgbL2Text_silent (m : Msgb) : Silent (msgbL2Text m) :=
  .of_makes (msgbL2Text_makes writesNothing_composes m)

theorem msgbAllocHeadroom_silent (size headroom : UInt16) :
    Silent (msgbAllocHeadroom size headroom) :=
  .of_makes (msgbAllocHeadroom_makes writesNothing_composes size headroom)

theorem simpleCtrlReceive_silent (sch : SimpleCtrlHandle) : Silent (simpleCtrlReceive sch) :=
  .of_makes <| simpleCtrlReceive_makes writesNothing_composes
    (readTimeout_makes rfl rfl fun _ => rfl) fun _ => sysRead_makes (fun _ => rfl) rfl

theorem getReplied_silent (var : CStr) (sch : SimpleCtrlHandle) (text : CStr) :
    Silent (getReplied var sch text) :=
  .of_makes (getReplied_makes writesNothing_composes var sch text)

theorem setReplied_silent (var val : CStr) (sch : SimpleCtrlHandle) (text : CStr) :
    Silent (setReplied var val sch text) :=
  .of_makes (setReplied_makes writesNothing_composes var val sch text)

/-! ## One `write` -/

/-- The program hands these bytes to `write` once and writes nothing else; if `write` does
    not take anything, the result is a failure. -/
def WritesOnce {α : Type} (bytes : List UInt8) (tout : UInt32) (failure : α → Prop) (m : Sys α)
    (w : World) : Prop :=
  ∃ t k, written t = written w.trace ∧ m w = (writeTimeout bytes tout >>= k) { w with trace := t } ∧
    (∀ taken, Silent (k taken)) ∧ ∀ v, ∃ a v', k none v = .ok (a, v') ∧ failure a

theorem WritesOnce.bind {α β : Type} {bytes : List UInt8} {tout : UInt32} {failure : α → Prop}
    {failure' : β → Prop} {m : Sys α} {w : World} {f : α → Sys β}
    (once : WritesOnce bytes tout failure m w) (rest : ∀ a, Silent (f a))
    (fails : ∀ a, failure a → ∀ v, ∃ b v', f a v = .ok (b, v') ∧ failure' b) :
    WritesOnce bytes tout failure' (m >>= f) w := by
  obtain ⟨t, k, nothing, run, silent, failed⟩ := once
  refine ⟨t, fun taken => k taken >>= f, nothing, ?_, fun taken => (silent taken).bind rest, ?_⟩
  · rw [bind_same run, bind_assoc]
  · intro v
    obtain ⟨a, v', isFailure, failedHere⟩ := failed v
    obtain ⟨b, u, isFailure', failedHere'⟩ := fails a failedHere v'
    exact ⟨b, u, (bind_ok isFailure f).trans isFailure', failedHere'⟩

/-- What `write` takes is a prefix of the bytes. -/
theorem WritesOnce.taken {α : Type} {bytes : List UInt8} {tout : UInt32} {failure : α → Prop}
    {m : Sys α} {w w' : World} {a : α} (once : WritesOnce bytes tout failure m w)
    (run : m w = .ok (a, w')) :
    written w'.trace = written w.trace ∧ failure a ∨
      ∃ n, written w'.trace = bytes.take n :: written w.trace := by
  obtain ⟨t, k, nothing, isRun, silent, failed⟩ := once
  rw [isRun] at run
  obtain ⟨taken, v, write, rest⟩ := bind_inv run
  have later := silent taken (written v.trace) v a w' rfl rest
  rw [writeTimeout, bind_ok (get_ok _)] at write
  cases pushed : push tout bytes.length w.tx with
  | mk count tx =>
    rw [pushed] at write
    cases count with
    | none =>
      cases write
      obtain ⟨b, v', isFailure, failedHere⟩ := failed _
      cases isFailure.symm.trans rest
      exact .inl ⟨later.trans nothing, failedHere⟩
    | some n =>
      cases write
      refine .inr ⟨n, later.trans ?_⟩
      show bytes.take n :: written t = _
      rw [nothing]

/-- The program sends a request first and writes nothing else; it fails if the request is
    not sent. -/
def Asks {α : Type} (sch : SimpleCtrlHandle) (request : UInt32 → CStr) (failure : α → Prop)
    (m : Sys α) : Prop :=
  ∃ k, m = sendRequest sch request >>= k ∧ (∀ sent, Silent (k sent)) ∧
    ∀ v, ∃ a, k false v = .ok (a, v) ∧ failure a

theorem Asks.bind {α β : Type} {sch : SimpleCtrlHandle} {request : UInt32 → CStr}
    {failure : α → Prop} {failure' : β → Prop} {m : Sys α} {f : α → Sys β}
    (asks : Asks sch request failure m) (rest : ∀ a, Silent (f a))
    (fails : ∀ a, failure a → ∀ v, ∃ b, f a v = .ok (b, v) ∧ failure' b) :
    Asks sch request failure' (m >>= f) := by
  obtain ⟨k, rfl, silent, failed⟩ := asks
  refine ⟨fun sent => k sent >>= f, bind_assoc _ _ _, fun sent => (silent sent).bind rest, ?_⟩
  intro v
  obtain ⟨a, isFailure, failedHere⟩ := failed v
  obtain ⟨b, isFailure', failedHere'⟩ := fails a failedHere v
  exact ⟨b, (bind_ok isFailure f).trans isFailure', failedHere'⟩

theorem simpleCtrlRequest_asks (sch : SimpleCtrlHandle) (request : UInt32 → CStr) :
    Asks sch request (· = (none, sch.next)) (simpleCtrlRequest sch request) := by
  refine ⟨_, simpleCtrlRequest_eq sch request, ?_, fun v => ⟨_, rfl, rfl⟩⟩
  intro sent
  cases sent with
  | true => exact (simpleCtrlReceive_silent _).bind fun _ => .pure _
  | false => exact .pure _

theorem simpleCtrlExchange_asks {α : Type} (sch : SimpleCtrlHandle) (request : UInt32 → CStr)
    (failed : α) {replied : SimpleCtrlHandle → CStr → Sys α}
    (silent : ∀ sch text, Silent (replied sch text)) :
    Asks sch request (· = (failed, sch.next)) (simpleCtrlExchange sch request failed replied) := by
  apply (simpleCtrlRequest_asks sch request).bind
  · rintro ⟨_ | resp, after⟩
    · exact .pure _
    · apply (msgbL2Text_silent _).bind
      intro text
      apply (silent _ _).bind
      intro result
      exact (msgbFree_silent _).bind fun _ => .pure _
  · rintro _ rfl v
    exact ⟨_, rfl, rfl⟩

/-- What a call returns when it has failed. -/
def Call.Fails (sch : SimpleCtrlHandle) (c : Call) (result : Outcome × SimpleCtrlHandle) : Prop :=
  result.1.answer = c.failure ∧ result.2 = sch.next

theorem call_asks (sch : SimpleCtrlHandle) (c : Call) :
    Asks sch (fun id => c.request id) (c.Fails sch) (c.run sch) := by
  cases c with
  | get var =>
    apply (simpleCtrlExchange_asks sch (getRequest · var) none (getReplied_silent var)).bind
    · exact fun _ => .pure _
    · rintro _ rfl v
      exact ⟨_, rfl, rfl, rfl⟩
  | set var val =>
    apply (simpleCtrlExchange_asks sch (setRequest · var val) false (setReplied_silent var val)).bind
    · exact fun _ => .pure _
    · rintro _ rfl v
      exact ⟨_, rfl, rfl, rfl⟩

/-! ## Requests that fit -/

theorem sendRequest_of_long {sch : SimpleCtrlHandle} {request : UInt32 → CStr}
    (long : 511 < (request sch.nextId).length) (w : World) :
    ∃ t, written t = written w.trace ∧
      sendRequest sch request w = .ok (false, { w with trace := t }) := by
  obtain ⟨m, t, alloc, empty, data, room⟩ :=
    msgbAllocHeadroom_ok (show (8 : UInt16) ≤ 512 + 8 by decide) w
  have nothing := msgbAllocHeadroom_silent _ _ (written w.trace) w m _ rfl alloc
  have full : m.tailroom ≤ (request sch.nextId).length := by
    rw [room]
    exact long
  refine ⟨.msgbFree m.id :: t, nothing, ?_⟩
  rw [sendRequest, bind_ok alloc, bind_ok (msgbPrintf_full full _)]
  rfl

/-- The buffer has room for the text, and the headroom for both headers. -/
theorem sendRequest_of_short {sch : SimpleCtrlHandle} {request : UInt32 → CStr}
    (short : (request sch.nextId).length ≤ 511) (w : World) :
    WritesOnce (requestBytes (request sch.nextId)) sch.toutMsec (· = false)
      (sendRequest sch request) w := by
  obtain ⟨m, t, alloc, empty, data, room⟩ :=
    msgbAllocHeadroom_ok (show (8 : UInt16) ≤ 512 + 8 by decide) w
  have nothing := msgbAllocHeadroom_silent _ _ (written w.trace) w m _ rfl alloc
  have tailroom : (request sch.nextId).length < m.tailroom := by
    rw [room]
    exact Nat.lt_succ_of_le short
  obtain ⟨m', printed, -, data', bytes⟩ := msgbPrintf_ok tailroom { w with trace := t }
  rw [empty, List.nil_append] at bytes
  have headroom : 4 ≤ m'.data := by
    rw [data', data]
    decide
  obtain ⟨m'', -, send⟩ := @simpleCtrlSend_eq sch.next m' headroom { w with trace := t }
  rw [bytes] at send
  have sends : sendRequest sch request w = simpleCtrlSend sch.next m' { w with trace := t } := by
    rw [sendRequest, bind_ok alloc, bind_ok printed]
  refine ⟨t, _, nothing, sends.trans send, ?_, ?_⟩
  · rintro (_ | rc)
    · exact .pure _
    · exact (msgbFree_silent _).bind fun _ => .pure _
  · exact fun v => ⟨_, _, rfl, rfl⟩

/-! ## There and back -/

/-- The arguments are C strings. -/
def Call.IsText : Call → Prop
  | .get var => 0 ∉ var
  | .set var val => 0 ∉ var ∧ 0 ∉ val

theorem decimal_free_of_nul (n : Nat) : 0 ∉ decimal n := by
  intro member
  have digit := isdigit_of_mem_decimal member
  rw [isdigit_zero] at digit
  cases digit

theorem Call.request_free_of_nul {c : Call} (isText : c.IsText) (id : UInt32) :
    0 ∉ c.request id := by
  have digits := decimal_free_of_nul id.toNat
  have get : 0 ∉ ascii "GET " := by decide
  have set : 0 ∉ ascii "SET " := by decide
  have space : 0 ∉ ascii " " := by decide
  cases c with
  | get var =>
    simp only [Call.request, getRequest, List.mem_append, not_or]
    exact ⟨⟨⟨get, digits⟩, space⟩, isText⟩
  | set var val =>
    simp only [Call.request, setRequest, List.mem_append, not_or]
    exact ⟨⟨⟨⟨⟨set, digits⟩, space⟩, isText.1⟩, space⟩, isText.2⟩

theorem encode_ctrlFrame {text : CStr} (fits : text.length + 1 < 65536) :
    (ctrlFrame text fits).encode = requestBytes text := by
  simp [IpaFrame.encode, IpaFrame.header, ctrlFrame, requestBytes]

/-- A CTRL text in full reads is a message with that text. -/
theorem simpleCtrlReceive_of_ctrlFrame {sch : SimpleCtrlHandle} {w : World} {text : CStr}
    {rest : List RxEvent} (noNul : 0 ∉ text) (short : text.length ≤ 511)
    (delivered : Delivers sch.toutMsec [ctrlFrame text (by omega)] w.rx rest) :
    ∃ m t, simpleCtrlReceive sch w = .ok (some m, { w with rx := rest, trace := t }) ∧
      (m.buf.take m.tail).drop m.l2h = text ++ [0] ∧ ∀ v, msgbL2Text m v = .ok (text, v) := by
  cases delivered with
  | cons header read ended =>
    cases ended
    have bounded : (ctrlFrame text (by omega)).payload.length ≤ maxPayload := by
      simp only [ctrlFrame, List.length_cons, maxPayload]
      omega
    obtain ⟨m, t, turn, held⟩ := receiveTurn_of_accepted (readFrame_of_reads header read) bounded rfl
    have carried := held.carries rfl
    refine ⟨m, t, simpleCtrlReceive_leave turn, carried.l2, fun v => ?_⟩
    rw [carried.text v]
    simp only [ctrlFrame, List.tail_cons, takeWhile_ne_zero noNul]

/-- **A call fails without writing if its request is longer than 511 bytes.  Any other is
    handed to `write` as one frame, which `simple_ctrl_receive` takes for a message with the
    text of the request.** -/
theorem call_wire (sch : SimpleCtrlHandle) {c : Call} (isText : c.IsText) (w : World) :
    (511 < (c.request sch.nextId).length → ∃ result w', c.run sch w = .ok (result, w') ∧
      c.Fails sch result ∧ written w'.trace = written w.trace) ∧
    ((c.request sch.nextId).length ≤ 511 → ∃ f : IpaFrame, f.proto = ipacProtoOsmo ∧
      f.payload = ipacProtoExtCtrl :: c.request sch.nextId ∧
      WritesOnce f.encode sch.toutMsec (c.Fails sch) (c.run sch) w ∧
      (∀ result w', c.run sch w = .ok (result, w') →
        written w'.trace = written w.trace ∧ c.Fails sch result ∨
          ∃ n, written w'.trace = f.encode.take n :: written w.trace) ∧
      ∀ (receiver : SimpleCtrlHandle) (v : World) (rest : List RxEvent),
        Delivers receiver.toutMsec [f] v.rx rest →
        ∃ m t, simpleCtrlReceive receiver v = .ok (some m, { v with rx := rest, trace := t }) ∧
          (m.buf.take m.tail).drop m.l2h = c.request sch.nextId ++ [0] ∧
          ∀ u, msgbL2Text m u = .ok (c.request sch.nextId, u)) := by
  obtain ⟨k, isRun, silent, failed⟩ := call_asks sch c
  constructor
  · intro long
    obtain ⟨t, nothing, unsent⟩ := @sendRequest_of_long sch (c.request ·) long w
    obtain ⟨result, run, fails⟩ := failed { w with trace := t }
    refine ⟨result, { w with trace := t }, ?_, fails, nothing⟩
    rw [isRun, bind_ok unsent]
    exact run
  · intro short
    have once : WritesOnce (ctrlFrame (c.request sch.nextId) (by omega)).encode sch.toutMsec
        (c.Fails sch) (c.run sch) w := by
      rw [encode_ctrlFrame, isRun]
      apply (@sendRequest_of_short sch (c.request ·) short w).bind silent
      rintro _ rfl v
      obtain ⟨result, run, fails⟩ := failed v
      exact ⟨result, v, run, fails⟩
    refine ⟨_, rfl, rfl, once, fun result w' run => once.taken run, ?_⟩
    intro receiver v rest delivered
    exact simpleCtrlReceive_of_ctrlFrame (c.request_free_of_nul isText _) short delivered

/-- A request for `rf`. -/
theorem call_wire_rf :
    ∃ f : IpaFrame, f.encode = [0, 9, 0xee, 0x00] ++ ascii "GET 0 rf" ∧
      WritesOnce f.encode 1000 ((Call.get (ascii "rf")).Fails freshHandle)
        ((Call.get (ascii "rf")).run freshHandle) ⟨[], [], []⟩ := by
  obtain ⟨⟨proto, payload, fits⟩, rfl, rfl, once, -⟩ :=
    (@call_wire freshHandle (.get (ascii "rf")) (by simp [Call.IsText, ascii]) ⟨[], [], []⟩).2
      (by decide)
  exact ⟨_, (encode_ctrlFrame fits).trans (by decide), once⟩

set_option maxRecDepth 4000 in
/-- A request that fits fails without anything written if the socket does not take it in
    time. -/
theorem call_unwritten_timeout :
    ((Call.get (ascii "rf")).request freshHandle.nextId).length ≤ 511 ∧
      ∃ result w', (Call.get (ascii "rf")).run freshHandle ⟨[], [.timeout], []⟩ =
          .ok (result, w') ∧
        (Call.get (ascii "rf")).Fails freshHandle result ∧ written w'.trace = [] :=
  ⟨by decide, _, _, rfl, ⟨rfl, rfl⟩, rfl⟩

end OsmoSysmon
