import OsmoSysmon.Ctrl.Connection
import OsmoSysmon.SimpleCtrl.Ownership
import OsmoSysmon.SimpleCtrl.Unsolicited

/-! # The command line client

`osmo-ctrl-client.c`: one request and an exit status, or a monitor that prints the CTRL
messages that arrive until the connection ends.
-/

namespace OsmoSysmon

open CText Loop

structure Console where
  world : World
  stdout : List UInt8

abbrev Prog := StateT Console (Except Fault)

namespace Console

def onSocket {α : Type} (m : Sys α) : Prog α := do
  let c ← get
  match m c.world with
  | .error stop => throw stop.fault
  | .ok (a, world) =>
    set { c with world }
    return a

def printf (text : List UInt8) : Prog Unit := modify fun c => { c with stdout := c.stdout ++ text }

def usage : List UInt8 :=
  ascii "Usage:\n" ++
    ascii "\tosmo-ctrl-client HOST PORT get VARIABLE\n" ++
    ascii "\tosmo-ctrl-client HOST PORT set VARIABLE VALUE\n" ++
    ascii "\tosmo-ctrl-client HOST PORT monitor\n"

/-- The exit status, as everywhere here. -/
def exitHelp : Prog Nat := do
  printf usage
  return 2

/-- One turn of the loop of the monitor; `none` goes round again. -/
def monitorTurn (sch : SimpleCtrlHandle) : Prog (Option Nat) := do
  match ← onSocket (simpleCtrlReceive sch) with
  | none => return some 1
  | some msg =>
    printf (← onSocket (msgbL2Text msg))
    onSocket (msgbFree msg)
    return none

def monitor (sch : SimpleCtrlHandle) : Prog Nat :=
  whileTrue .blocked (fun c => rxBytes c.world.rx) (monitorTurn sch)

def mainGet (sch : SimpleCtrlHandle) : List CStr → Prog Nat
  | [] => exitHelp
  | var :: _ => do
    match ← onSocket (simpleCtrlGet sch var) with
    | (none, _) => return 2
    | (some val, _) =>
      printf (val.text ++ ascii "\n")
      return 0

def mainSet (sch : SimpleCtrlHandle) : List CStr → Prog Nat
  | var :: val :: _ => do
    let (ok, _) ← onSocket (simpleCtrlSet sch var val)
    return if ok then 0 else 1
  | _ => exitHelp

/-- `main`, with what becomes of the connection.  It is set up before the arguments of the
    command are looked at. -/
def main (opened : ConnectOutcome) : List CStr → Prog Nat
  | _ :: _host :: _port :: verb :: args =>
    if opened = .success then
      if verb = ascii "get" then mainGet freshHandle args
      else if verb = ascii "set" then mainSet freshHandle args
      -- `simple_ctrl_set_timeout(sch, 0)`
      else if verb = ascii "monitor" then monitor { freshHandle with toutMsec := 0 }
      else exitHelp
    else return 1
  | _ => exitHelp

variable {c c' : Console}

theorem onSocket_ok {α : Type} {m : Sys α} {a : α} {world : World}
    (run : m c.world = .ok (a, world)) : onSocket m c = .ok (a, { c with world }) := by
  rw [onSocket, bind_ok (get_ok c), run]
  rfl

theorem onSocket_error {α : Type} {m : Sys α} {stop : Stop} (stopped : m c.world = .error stop) :
    onSocket m c = .error stop.fault := by
  rw [onSocket, bind_ok (get_ok c), stopped]
  rfl

theorem onSocket_congr {α : Type} {m : Sys α} {world : World} (same : m c.world = m world) :
    onSocket m c = onSocket m { c with world } := by
  cases run : m world with
  | ok result =>
    obtain ⟨a, after⟩ := result
    rw [onSocket_ok (same.trans run)]
    exact (onSocket_ok (c := { c with world }) run).symm
  | error stop =>
    rw [onSocket_error (same.trans run)]
    exact (onSocket_error (c := { c with world }) run).symm

theorem onSocket_inv {α : Type} {m : Sys α} {a : α} (run : onSocket m c = .ok (a, c')) :
    ∃ world, m c.world = .ok (a, world) ∧ c' = { c with world } := by
  rw [onSocket, bind_ok (get_ok c)] at run
  cases here : m c.world with
  | error stop =>
    rw [here] at run
    cases run
  | ok result =>
    obtain ⟨b, world⟩ := result
    rw [here] at run
    cases run
    exact ⟨world, rfl, rfl⟩

theorem exitHelp_ok (c : Console) :
    exitHelp c = .ok (2, { c with stdout := c.stdout ++ usage }) := rfl

end Console

/-! ## One request -/

section

variable {sch sch' : SimpleCtrlHandle} {w w' : World}

/-- An exchange that does not fail has got a CTRL message. -/
theorem simpleCtrlExchange_first {α : Type} {request : UInt32 → CStr} {failed a : α}
    {replied : SimpleCtrlHandle → CStr → Sys α}
    (run : simpleCtrlExchange sch request failed replied w = .ok ((a, sch'), w')) :
    a = failed ∨ ∃ text, FirstCtrl sch.toutMsec w.rx text := by
  obtain ⟨⟨resp, after⟩, v, requested, run⟩ := bind_inv run
  obtain ⟨-, first⟩ := simpleCtrlRequest_first requested
  cases resp with
  | none =>
    cases run
    exact .inl rfl
  | some m =>
    obtain ⟨text, u, read, -⟩ := bind_inv run
    exact .inr ⟨text, first.2 v u text read⟩

/-- A call that does not fail has been sent, and goes by the first CTRL message. -/
theorem call_inv {call : Call} {o : Outcome} (run : call.run sch w = .ok ((o, sch'), w'))
    (success : o.answer ≠ call.failure) :
    Sent sch (call.request sch.nextId) w ∧
      ∃ text, FirstCtrl sch.toutMsec w.rx text ∧ o.answer = call.answer sch.nextId text := by
  have sent : Sent sch (call.request sch.nextId) w := by
    by_contra unsent
    obtain ⟨o', w'', run', failed⟩ := call_of_unsent (c := call) unsent
    cases run'.symm.trans run
    exact success failed
  have arrived : ∃ text, FirstCtrl sch.toutMsec w.rx text := by
    cases call with
    | get var =>
      obtain ⟨⟨value, _⟩, _, here, returned⟩ := bind_inv run
      cases returned
      refine (simpleCtrlExchange_first here).resolve_left fun failed => success ?_
      rw [failed]
      rfl
    | set var val =>
      obtain ⟨⟨ok, _⟩, _, here, returned⟩ := bind_inv run
      cases returned
      refine (simpleCtrlExchange_first here).resolve_left fun failed => success ?_
      rw [failed]
      rfl
  obtain ⟨text, first⟩ := arrived
  obtain ⟨o', w'', run', answer⟩ := call_of_firstCtrl sent first
  cases run'.symm.trans run
  exact ⟨sent, text, first, answer⟩

end

namespace Console

/-- What the command line asks for is answered by the first CTRL message, and this is
    printed. -/
inductive Answers (w : World) : List CStr → List UInt8 → Prop
  | get {prog host port var text val : CStr} {more : List CStr} :
      Sent freshHandle (getRequest 0 var) w → FirstCtrl 1000 w.rx text →
      getAnswer 0 var text = some val →
      Answers w (prog :: host :: port :: ascii "get" :: var :: more) (val ++ ascii "\n")
  | set {prog host port var val text : CStr} {more : List CStr} :
      Sent freshHandle (setRequest 0 var val) w → FirstCtrl 1000 w.rx text →
      setAnswer 0 var val text = true →
      Answers w (prog :: host :: port :: ascii "set" :: var :: val :: more) []

section

variable {c c' : Console} {args : List CStr}

theorem mainGet_ok {var text val : CStr} (more : List CStr)
    (sent : Sent freshHandle (getRequest 0 var) c.world) (first : FirstCtrl 1000 c.world.rx text)
    (answer : getAnswer 0 var text = some val) :
    ∃ world, mainGet freshHandle (var :: more) c =
      .ok (0, ⟨world, c.stdout ++ (val ++ ascii "\n")⟩) := by
  obtain ⟨value, world, run, isValue⟩ :=
    @simpleCtrlExchange_of_firstCtrl _ freshHandle (getRequest · var) none _ c.world _ _ sent first
      (getReplied_ok freshHandle var text)
  obtain ⟨s, rfl, rfl⟩ := Option.map_eq_some_iff.mp (isValue.trans answer)
  exact ⟨world, bind_ok (onSocket_ok run) _⟩

theorem mainSet_ok {var val text : CStr} (more : List CStr)
    (sent : Sent freshHandle (setRequest 0 var val) c.world)
    (first : FirstCtrl 1000 c.world.rx text) (answer : setAnswer 0 var val text = true) :
    ∃ world, mainSet freshHandle (var :: val :: more) c = .ok (0, ⟨world, c.stdout⟩) := by
  obtain ⟨ok, world, run, isOk⟩ :=
    @simpleCtrlExchange_of_firstCtrl _ freshHandle (setRequest · var val) false _ c.world _ _ sent
      first (setReplied_ok freshHandle var val text)
  obtain rfl : ok = true := isOk.trans answer
  exact ⟨world, bind_ok (onSocket_ok run) _⟩

theorem mainGet_inv (run : mainGet freshHandle args c = .ok (0, c')) :
    ∃ var more text val, args = var :: more ∧ Sent freshHandle (getRequest 0 var) c.world ∧
      FirstCtrl 1000 c.world.rx text ∧ getAnswer 0 var text = some val ∧
      c'.stdout = c.stdout ++ (val ++ ascii "\n") := by
  cases args with
  | nil => cases (exitHelp_ok c).symm.trans run
  | cons var more =>
    obtain ⟨⟨value, sch⟩, d, asked, run⟩ := bind_inv run
    obtain ⟨world, here, rfl⟩ := onSocket_inv asked
    cases value with
    | none => cases run
    | some val =>
      cases run
      have called : (Call.get var).run freshHandle c.world =
          .ok ((.value (some val), sch), world) := bind_ok here _
      obtain ⟨sent, text, first, answer⟩ := call_inv called (by simp [Outcome.answer, Call.failure])
      exact ⟨var, more, text, val.text, rfl, sent, first, (Sum.inl.inj answer).symm, rfl⟩

theorem mainSet_inv (run : mainSet freshHandle args c = .ok (0, c')) :
    ∃ var val more text, args = var :: val :: more ∧
      Sent freshHandle (setRequest 0 var val) c.world ∧ FirstCtrl 1000 c.world.rx text ∧
      setAnswer 0 var val text = true ∧ c'.stdout = c.stdout := by
  rcases args with _ | ⟨var, _ | ⟨val, more⟩⟩
  · cases (exitHelp_ok c).symm.trans run
  · cases (exitHelp_ok c).symm.trans run
  · obtain ⟨⟨ok, sch⟩, d, asked, run⟩ := bind_inv run
    obtain ⟨world, here, rfl⟩ := onSocket_inv asked
    cases ok with
    | false => cases run
    | true =>
      cases run
      have called : (Call.set var val).run freshHandle c.world =
          .ok ((.status true, sch), world) := bind_ok here _
      obtain ⟨sent, text, first, answer⟩ := call_inv called (by simp [Outcome.answer, Call.failure])
      exact ⟨var, val, more, text, rfl, sent, first, (Sum.inr.inj answer).symm, rfl⟩

end

/-! ## The monitor -/

end Console

/-- A message takes bytes off the script. -/
theorem simpleCtrlReceive_bytes {sch : SimpleCtrlHandle} {w w' : World} {m : Msgb}
    (run : simpleCtrlReceive sch w = .ok (some m, w')) : rxBytes w'.rx < rxBytes w.rx := by
  have reached {v : World} (turn : Turn (receiveTurn sch) w v) : rxBytes v.rx ≤ rxBytes w.rx := by
    induction turn with
    | first => exact Nat.le_refl _
    | next _ round ih => exact Nat.le_of_lt (Nat.lt_of_lt_of_le (receiveTurn_decreases sch _ _ round) ih)
  obtain ⟨v, turns, ending⟩ := whileTrue_ends ⟨.blocked, []⟩ (receiveTurn_decreases sch) w
  rcases ending with ⟨result, v', last, returned⟩ | ⟨fault, -, failed⟩
  · cases returned.symm.trans run
    obtain ⟨f, frame, -⟩ := (receiveTurn_inv last).resolve_left fun none => by cases none.1
    obtain ⟨mid, header, payload⟩ := readFrame_some frame
    have headerBytes := (pullTimeout_bytes header).2
    have payloadBytes := (pull_bytes payload).2
    have before := reached turns
    rw [Option.getD_some, IpaFrame.length_header] at headerBytes
    omega
  · cases failed.symm.trans run

namespace Console

section

variable {sch : SimpleCtrlHandle}

theorem monitorTurn_decreases (sch : SimpleCtrlHandle) :
    Decreases (fun c => rxBytes c.world.rx) (monitorTurn sch) := by
  intro c c' turn
  obtain ⟨result, _, received, turn⟩ := bind_inv turn
  obtain ⟨w, receive, rfl⟩ := onSocket_inv received
  cases result with
  | none => cases turn
  | some m =>
    obtain ⟨text, _, shown, turn⟩ := bind_inv turn
    obtain ⟨w', read, rfl⟩ := onSocket_inv shown
    obtain rfl := msgbL2Text_world read
    cases turn
    have taken := simpleCtrlReceive_bytes receive
    exact taken

/-- The monitor ends with an error, if at all. -/
theorem monitor_status {c c' : Console} {status : Nat} (run : monitor sch c = .ok (status, c')) :
    status = 1 := by
  obtain ⟨d, -, ending⟩ := whileTrue_ends .blocked (monitorTurn_decreases sch) c
  rcases ending with ⟨status', d', last, returned⟩ | ⟨fault, -, failed⟩
  · cases returned.symm.trans run
    obtain ⟨result, _, -, last⟩ := bind_inv last
    cases result with
    | none =>
      cases last
      rfl
    | some m =>
      obtain ⟨_, _, -, last⟩ := bind_inv last
      obtain ⟨_, _, -, last⟩ := bind_inv last
      cases last
  · cases failed.symm.trans run

/-- A turn takes the next CTRL message, whatever is skipped in front of it. -/
theorem monitor_of_round {c : Console} {w : World}
    (turn : receiveTurn sch c.world = .ok (none, w)) :
    monitor sch c = monitor sch { c with world := w } := by
  apply whileTrue_congr (monitorTurn_decreases sch)
  rw [monitorTurn]
  exact bind_same (onSocket_congr (simpleCtrlReceive_round turn)) _

/-- What the monitor prints of some messages. -/
def shown (frames : List IpaFrame) : List UInt8 :=
  (frames.filter IpaFrame.isCtrl).flatMap IpaFrame.text

theorem shown_of_ctrl {f : IpaFrame} (ctrl : f.isCtrl = true) (fs : List IpaFrame) :
    shown (f :: fs) = f.text ++ shown fs := by
  rw [shown, List.filter_cons_of_pos ctrl, List.flatMap_cons, shown]

theorem shown_of_other {f : IpaFrame} (other : f.isCtrl = false) (fs : List IpaFrame) :
    shown (f :: fs) = shown fs := by
  rw [shown, List.filter_cons_of_neg (ne_true_of_eq_false other), shown]

/-- A CTRL message is printed and freed. -/
theorem monitorTurn_of_ctrl {c : Console} {f : IpaFrame} {rx : List RxEvent}
    (frame : readFrame sch.toutMsec c.world.rx = .ok (some f, rx))
    (short : f.payload.length ≤ maxPayload) (ctrl : f.isCtrl = true) :
    ∃ w, monitorTurn sch c = .ok (none, ⟨w, c.stdout ++ f.text⟩) ∧ w.rx = rx ∧
      Trades c.world w 0 0 := by
  obtain ⟨m, t, turn, held⟩ :=
    receiveTurn_of_accepted frame short (IpaFrame.accepted_of_isCtrl ctrl)
  have received := simpleCtrlReceive_leave turn
  have text := (held.carries ctrl).text
  refine ⟨_, ?_, rfl, (simpleCtrlReceive_trades received).trans (msgbFree_trades rfl)⟩
  rw [monitorTurn, bind_ok (onSocket_ok received)]
  exact bind_ok (onSocket_ok (text _)) _

/-- The monitor behind messages that have arrived whole. -/
theorem monitor_of_delivers {frames : List IpaFrame} {rx rest : List RxEvent}
    (delivered : Delivers sch.toutMsec frames rx rest)
    (bounded : ∀ f ∈ frames, f.payload.length ≤ maxPayload)
    (whole : ∀ f ∈ frames, ¬ (f.proto = ipacProtoOsmo ∧ f.payload = [])) {c : Console}
    (here : c.world.rx = rx) :
    ∃ w, monitor sch c = monitor sch ⟨w, c.stdout ++ shown frames⟩ ∧ w.rx = rest ∧
      Trades c.world w 0 0 := by
  induction delivered generalizing c with
  | nil => exact ⟨c.world, by simp [shown], here, .same rfl⟩
  | @cons f fs rx mid rx' rest header payload _ ih =>
    rw [List.forall_mem_cons] at bounded whole
    have frame : readFrame sch.toutMsec c.world.rx = .ok (some f, rx') := by
      rw [here]
      exact readFrame_of_reads header payload
    cases ctrl : f.isCtrl with
    | true =>
      obtain ⟨v, turn, next, trades⟩ := monitorTurn_of_ctrl frame bounded.1 ctrl
      obtain ⟨w, later, last, trades'⟩ :=
        ih bounded.2 whole.2 (c := ⟨v, c.stdout ++ f.text⟩) next
      refine ⟨w, ?_, last, trades.trans trades'⟩
      rw [shown_of_ctrl ctrl, ← List.append_assoc]
      exact (whileTrue_round (monitorTurn_decreases sch) turn).trans later
    | false =>
      have skipped : f.accepted = false := by
        rw [← Bool.not_eq_true, IpaFrame.accepted_iff, ctrl]
        exact fun accepted => whole.1 (accepted.resolve_left Bool.false_ne_true)
      obtain ⟨t, turn⟩ := receiveTurn_of_skipped frame bounded.1 skipped
      obtain ⟨w, later, last, trades⟩ := ih bounded.2 whole.2
        (c := ⟨{ c.world with rx := rx', trace := t }, c.stdout⟩) rfl
      refine ⟨w, ?_, last, (receiveTurn_trades turn).trans trades⟩
      rw [monitor_of_round turn, later, shown_of_other ctrl]

theorem monitor_of_ended {c : Console} (ended : Ended sch.toutMsec c.world.rx) :
    ∃ w, monitor sch c = .ok (1, ⟨w, c.stdout⟩) ∧ Trades c.world w 0 0 := by
  obtain ⟨none, rx, frame, -⟩ := readFrame_of_ended ended
  obtain ⟨t, turn⟩ := receiveTurn_of_none frame (by simp [none])
  have received := simpleCtrlReceive_leave turn
  refine ⟨_, whileTrue_leave ?_, simpleCtrlReceive_trades received⟩
  rw [monitorTurn, bind_ok (onSocket_ok received)]
  rfl

theorem monitor_of_waiting {c : Console}
    (waits : pullTimeout ipaccessHeadSize sch.toutMsec c.world.rx = .error .blocked) :
    monitor sch c = .error .blocked := by
  have frame : readFrame sch.toutMsec c.world.rx = .error .blocked := by rw [readFrame, waits]
  obtain ⟨t, turn⟩ := receiveTurn_of_fault frame (by simp [headerLength, waits])
  apply whileTrue_fail
  rw [monitorTurn]
  exact bind_error (onSocket_error (whileTrue_fail turn)) _

end

/-! ## Exit statuses -/

/-- **The exit status is 0 if and only if the first CTRL message that arrives answers the
    request, and then its value is what is printed.** -/
theorem main_succeeds_iff (opened : ConnectOutcome) (argv : List CStr) (c : Console)
    (out : List UInt8) :
    (∃ c', main opened argv c = .ok (0, c') ∧ c'.stdout = c.stdout ++ out) ↔
      opened = .success ∧ Answers c.world argv out := by
  constructor
  · rintro ⟨c', run, printed⟩
    rcases argv with _ | ⟨prog, _ | ⟨host, _ | ⟨port, _ | ⟨verb, args⟩⟩⟩⟩
    · cases (exitHelp_ok c).symm.trans run
    · cases (exitHelp_ok c).symm.trans run
    · cases (exitHelp_ok c).symm.trans run
    · cases (exitHelp_ok c).symm.trans run
    rw [main] at run
    split at run
    · next isOpen =>
      refine ⟨isOpen, ?_⟩
      split at run
      · next isGet =>
        obtain ⟨var, more, text, val, rfl, sent, first, answer, shown⟩ := mainGet_inv run
        rw [shown] at printed
        rw [isGet, ← List.append_cancel_left printed]
        exact .get sent first answer
      split at run
      · next isSet =>
        obtain ⟨var, val, more, text, rfl, sent, first, answer, shown⟩ := mainSet_inv run
        rw [shown] at printed
        rw [isSet, List.self_eq_append_right.mp printed]
        exact .set sent first answer
      split at run
      · cases monitor_status run
      · cases (exitHelp_ok c).symm.trans run
    · cases run
  · rintro ⟨rfl, answers⟩
    cases answers with
    | @get _ _ _ _ _ _ more sent first answer =>
      obtain ⟨world, run⟩ := mainGet_ok more sent first answer
      exact ⟨_, run, rfl⟩
    | @set _ _ _ _ _ _ more sent first answer =>
      obtain ⟨world, run⟩ := mainSet_ok more sent first answer
      exact ⟨_, run, (List.append_nil _).symm⟩

/-- **The monitor prints the texts of the CTRL messages, in order and nothing else, and frees
    every message; it ends only with the connection, with status 1, and waits otherwise.** -/
theorem monitor_prints {prog host port : CStr} {more : List CStr} {c : Console}
    {frames : List IpaFrame} {rest : List RxEvent} (delivered : Delivers 0 frames c.world.rx rest)
    (bounded : ∀ f ∈ frames, f.payload.length ≤ maxPayload)
    (whole : ∀ f ∈ frames, ¬ (f.proto = ipacProtoOsmo ∧ f.payload = [])) :
    (∃ w, main .success (prog :: host :: port :: ascii "monitor" :: more) c =
        monitor { freshHandle with toutMsec := 0 } ⟨w, c.stdout ++ shown frames⟩ ∧
      w.rx = rest ∧ Trades c.world w 0 0) ∧
    (Ended 0 rest → ∃ w, main .success (prog :: host :: port :: ascii "monitor" :: more) c =
        .ok (1, ⟨w, c.stdout ++ shown frames⟩) ∧ Trades c.world w 0 0) ∧
    (pullTimeout ipaccessHeadSize 0 rest = .error .blocked →
      main .success (prog :: host :: port :: ascii "monitor" :: more) c = .error .blocked) := by
  have isMonitor : main .success (prog :: host :: port :: ascii "monitor" :: more) c =
      monitor { freshHandle with toutMsec := 0 } c := rfl
  obtain ⟨w, later, last, trades⟩ :=
    @monitor_of_delivers { freshHandle with toutMsec := 0 } _ _ _ delivered bounded whole c rfl
  rw [isMonitor, later]
  refine ⟨⟨w, rfl, last, trades⟩, fun ended => ?_, fun waits => ?_⟩
  · obtain ⟨w', ends, trades'⟩ :=
      @monitor_of_ended { freshHandle with toutMsec := 0 } ⟨w, c.stdout ++ shown frames⟩
        (last.symm ▸ ended)
    exact ⟨w', ends, trades.trans trades'⟩
  · exact monitor_of_waiting (c := ⟨w, c.stdout ++ shown frames⟩) (last.symm ▸ waits)

/-- A message for another protocol, and later a trap; then the peer closes. -/
def trapConsole : Console where
  world := ⟨[.data [0, 1, 0xfe, 0x04], .silence, .data trapFrame.encode, .eof], [], []⟩
  stdout := []

theorem monitor_prints_trap :
    ∃ w, main .success [ascii "osmo-ctrl-client", ascii "bsc", ascii "4249", ascii "monitor"]
        trapConsole = .ok (1, ⟨w, ascii "TRAP 0 rf 1"⟩) ∧ Trades trapConsole.world w 0 0 := by
  have delivered :
      Delivers 0 [⟨0xfe, [0x04], by decide⟩, trapFrame] trapConsole.world.rx [.eof] :=
    .cons rfl rfl (.cons rfl rfl .nil)
  exact (monitor_prints delivered (by decide) (by decide)).2.1 ⟨some [], [.eof], rfl, rfl⟩

end Console

end OsmoSysmon
