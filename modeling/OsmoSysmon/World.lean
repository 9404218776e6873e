import OsmoSysmon.Lib.Buffer

/-! # The process and its connection

A blocking client sees the world through `select`, `read` and `write` on one
socket and through the allocators of its message buffers and heap strings.
`World` holds what the socket will do next, as a script that the peer and the
network are free to choose, and the calls made so far.

The script of the receiving side is a list of `RxEvent`s.  A `data` event is a
segment: bytes that become readable together.  A `read` returns bytes of one
segment, at most as many as asked for, and leaves the rest of the segment in front
of the script.
-/

namespace OsmoSysmon

/-- The ways in which a C function fails to return. -/
inductive Fault where
  /-- `MSGB_ABORT` or a failed `OSMO_ASSERT`. -/
  | abort
  /-- A store past the end of a buffer. -/
  | overflow
  /-- A read past the end of a buffer. -/
  | overread
  | nullPointer
  | useAfterFree
  /-- An untyped pointer used at a type its object does not have. -/
  | typeConfusion
  /-- A system call that never returns. -/
  | blocked
deriving DecidableEq, Repr

instance : MemFault Fault := ⟨.overread, .overflow⟩

/-- The address of an object. -/
abbrev Ptr := Nat

inductive RxEvent where
  | data (bytes : List UInt8)
  /-- Nothing arrives for longer than any timeout. -/
  | silence
  /-- The peer has closed its side: every further `read` returns 0. -/
  | eof
  /-- The call fails with a negative return value. -/
  | error
deriving DecidableEq, Repr

/-- What happens to the next `write`. -/
inductive TxEvent where
  | accepts (count : Nat)
  | timeout
  | error
deriving DecidableEq, Repr

/-- The calls a run makes.  Allocations are numbered. -/
inductive Event where
  | select (ready : Bool)
  /-- A `read`, and whether it was made when it could return at once. -/
  | read (count : Nat) (ready : Bool)
  | write (bytes : List UInt8)
  | msgbAlloc (id : Nat)
  | msgbFree (id : Nat)
  | strAlloc (id : Nat)
  | strFree (id : Nat)
deriving DecidableEq, Repr

structure World where
  rx : List RxEvent
  tx : List TxEvent
  /-- The calls made so far, newest first. -/
  trace : List Event
deriving DecidableEq, Repr

/-- The end of a run that does not return, with the calls made up to it, newest first.  The
    call that never returns is among them. -/
structure Stop where
  fault : Fault
  trace : List Event
deriving DecidableEq, Repr

/-- Programs that run in the world. -/
abbrev Sys := StateT World (Except Stop)

def stopWith {α : Type} (fault : Fault) : Sys α := do throw ⟨fault, (← get).trace⟩

@[simp] theorem stopWith_error {α : Type} (fault : Fault) (w : World) :
    (stopWith fault : Sys α) w = .error ⟨fault, w.trace⟩ := rfl

def log (event : Event) : Sys Unit := modify fun w => { w with trace := event :: w.trace }

/-- A number no earlier allocation has: every allocation is logged. -/
def freshId : Sys Nat := do return (← get).trace.length

/-! ## The receiving side -/

inductive Readiness where
  | ready
  | timeout
  | failed
deriving DecidableEq, Repr

/-- `select` for reading.  A timeout of 0 waits without limit. -/
def waitReadable (toutMsec : UInt32) : List RxEvent → Except Fault (Readiness × List RxEvent)
  | [] => if toutMsec = 0 then .error .blocked else .ok (.timeout, [])
  | .silence :: rx => if toutMsec = 0 then waitReadable toutMsec rx else .ok (.timeout, rx)
  | .data [] :: rx => waitReadable toutMsec rx
  | .error :: rx => .ok (.failed, rx)
  | .data (b :: bs) :: rx => .ok (.ready, .data (b :: bs) :: rx)
  | .eof :: rx => .ok (.ready, .eof :: rx)

/-- `read` of at least one byte. -/
def pullSome (count : Nat) : List RxEvent → Except Fault (Option (List UInt8) × List RxEvent)
  | [] => .error .blocked
  | .silence :: rx => pullSome count rx
  | .data [] :: rx => pullSome count rx
  | .data (b :: bs) :: rx =>
    .ok (some ((b :: bs).take count),
      if bs.length < count then rx else .data ((b :: bs).drop count) :: rx)
  | .eof :: rx => .ok (some [], .eof :: rx)
  | .error :: rx => .ok (none, rx)

/-- `read(fd, buf, count)`: the bytes it stores, or `none` for a negative return
    value.  Asking for nothing returns at once. -/
def pull (count : Nat) (rx : List RxEvent) : Except Fault (Option (List UInt8) × List RxEvent) :=
  if count = 0 then .ok (some [], rx) else pullSome count rx

/-- Whether a `read` would return without waiting. -/
def readable : List RxEvent → Bool
  | .data [] :: rx => readable rx
  | .data (_ :: _) :: _ => true
  | .eof :: _ => true
  | .error :: _ => true
  | .silence :: _ => false
  | [] => false

def sysRead (count : Nat) : Sys (Option (List UInt8)) := do
  let w ← get
  match pull count w.rx with
  | .error fault =>
    log (.read count (readable w.rx))
    stopWith fault
  | .ok (result, rx) =>
    set { w with rx }
    log (.read count (readable w.rx))
    return result

/-- The blocking read helper of `simple_ctrl.c`; `none` is any negative value. -/
def readTimeout (count : Nat) (toutMsec : UInt32) : Sys (Option (List UInt8)) := do
  let w ← get
  match waitReadable toutMsec w.rx with
  | .error fault =>
    log (.select false)
    stopWith fault
  | .ok (readiness, rx) =>
    set { w with rx }
    log (.select (readiness == .ready))
    if readiness = .ready then sysRead count
    else return none

/-! ## The sending side -/

/-- `select` for writing, then `write`: how many bytes were taken.  A script that
    has run out takes everything. -/
def push (toutMsec : UInt32) (count : Nat) : List TxEvent → Option Nat × List TxEvent
  | [] => (some count, [])
  | .accepts n :: tx => (some (min n count), tx)
  | .timeout :: tx => if toutMsec = 0 then push toutMsec count tx else (none, tx)
  | .error :: tx => (none, tx)

/-- The blocking write helper of `simple_ctrl.c`. -/
def writeTimeout (bytes : List UInt8) (toutMsec : UInt32) : Sys (Option Nat) := do
  let w ← get
  let (taken, tx) := push toutMsec bytes.length w.tx
  set { w with tx }
  match taken with
  | none => log (.select false)
  | some n => do
    log (.select true)
    log (.write (bytes.take n))
  return taken

end OsmoSysmon
