import OsmoSysmon.Lib.Registers
import OsmoSysmon.OpenVpn.Fields
import OsmoSysmon.OpenVpn.Lifecycle

/-! # What a poll makes known of the past

Each field of a client is a register that the events of its connection write.  A poll after
any history publishes the status, the tunnel address and the remote address that were
written last, each on its own: what is published together need not have come together.
The port is the one field that the end of a connection does not clear.
-/

namespace OsmoSysmon

open CText Effect Register

namespace OpenvpnEvent

/-- A field behind the time stamp, unless a message has none there. -/
def fieldOf (m : List UInt8) (i : Nat) : Option CStr :=
  if fieldAt (stateTokens m) i = [] then none else some (fieldAt (stateTokens m) i)

/-- What an event makes the status. -/
def statusWritten : OpenvpnEvent → Option CStr
  | .connect => some (ascii "connected to openvpn management socket")
  | .disconnect | .read none | .read (some []) =>
    some (ascii "disconnected from openvpn management socket")
  | .read (some m) => (fieldOf m 1).map fun _ => statusBy (stateTokens m) []
  | .poll => none

def tunnelWritten : OpenvpnEvent → Option (Option CStr)
  | .disconnect | .read none | .read (some []) => some none
  | .read (some m) => (fieldOf m 3).map some
  | .connect | .poll => none

def hostWritten : OpenvpnEvent → Option (Option CStr)
  | .disconnect | .read none | .read (some []) => some none
  | .read (some m) => (fieldOf m 4).map some
  | .connect | .poll => none

/-- Only a line writes the port. -/
def portWritten : OpenvpnEvent → Option UInt16
  | .read (some m) => (fieldOf m 5).map fun port => UInt16.ofInt (atoi port)
  | .connect | .disconnect | .read none | .poll => none

end OpenvpnEvent

/-! ## One event -/

theorem fieldAt_stateTokens {m : List UInt8} {i : Nat} :
    fieldAt (stateTokens m) i = [] ↔ (stateTokens m).length ≤ i := by
  rw [fieldAt, List.getD_eq_getElem?_getD]
  cases found : (stateTokens m)[i]? with
  | none => exact iff_of_true rfl (List.getElem?_eq_none_iff.mp found)
  | some t =>
    have short := (List.getElem?_eq_some_iff.mp found).1
    exact iff_of_false (stateTokens_ne_nil (List.mem_of_getElem? found)) (Nat.not_le.mpr short)

theorem statusBy_stateTokens (m : List UInt8) (name : CStr) :
    statusBy (stateTokens m) name =
      ((OpenvpnEvent.fieldOf m 1).map fun _ => statusBy (stateTokens m) []).getD name := by
  rw [OpenvpnEvent.fieldOf, statusBy]
  by_cases missing : fieldAt (stateTokens m) 1 = []
  · -- the second word of a status has the first in front of it
    have missing' : fieldAt (stateTokens m) 2 = [] :=
      fieldAt_stateTokens.mpr (Nat.le_succ_of_le (fieldAt_stateTokens.mp missing))
    simp [missing, missing']
  · simp [statusBy, missing]

/-- A field is stored exactly if a message has one there. -/
theorem stored_fieldOf {α : Type} (m : List UInt8) (i : Nat) (f : CStr → α) (old : α) :
    (if fieldAt (stateTokens m) i = [] then old else f (fieldAt (stateTokens m) i)) =
      ((OpenvpnEvent.fieldOf m i).map f).getD old := by
  rw [OpenvpnEvent.fieldOf]
  split <;> rfl

section

variable (vpn : OpenvpnClient) (e : OpenvpnEvent)

theorem step_status : (e.step vpn).remCfg.name = e.statusWritten.getD vpn.remCfg.name := by
  match e with
  | .connect | .disconnect | .read none | .read (some []) | .poll => rfl
  | .read (some (b :: bs)) =>
    rw [OpenvpnEvent.step, readCb, parseState_eq_storedAt]
    exact statusBy_stateTokens (b :: bs) vpn.remCfg.name

theorem step_tunnel : (e.step vpn).tunIp = e.tunnelWritten.getD vpn.tunIp := by
  match e with
  | .connect | .disconnect | .read none | .read (some []) | .poll => rfl
  | .read (some (b :: bs)) =>
    rw [OpenvpnEvent.step, readCb, parseState_eq_storedAt]
    exact stored_fieldOf (b :: bs) 3 some vpn.tunIp

theorem step_host : (e.step vpn).remCfg.remoteHost = e.hostWritten.getD vpn.remCfg.remoteHost := by
  match e with
  | .connect | .disconnect | .read none | .read (some []) | .poll => rfl
  | .read (some (b :: bs)) =>
    rw [OpenvpnEvent.step, readCb, parseState_eq_storedAt]
    exact stored_fieldOf (b :: bs) 4 some vpn.remCfg.remoteHost

theorem step_port : (e.step vpn).remCfg.remotePort = e.portWritten.getD vpn.remCfg.remotePort := by
  match e with
  | .connect | .disconnect | .read none | .read (some []) | .poll => rfl
  | .read (some (b :: bs)) =>
    rw [OpenvpnEvent.step, readCb, parseState_eq_storedAt]
    exact stored_fieldOf (b :: bs) 5 (fun port => UInt16.ofInt (atoi port)) vpn.remCfg.remotePort

end

/-! ## Histories -/

/-- The values that a history makes known. -/
def historyValues (events : List OpenvpnEvent) : List (CStr × CStr) :=
  let status := lastWrite OpenvpnEvent.statusWritten
    (ascii "connecting to openvpn management socket") events
  let tunnel := lastWrite OpenvpnEvent.tunnelWritten none events
  let host := lastWrite OpenvpnEvent.hostWritten none events
  let port := lastWrite OpenvpnEvent.portWritten 0 events
  [(ascii "status", status)] ++
    (tunnel.map fun ip => (ascii "tunnel", ip)).toList ++
    (host.map fun host => (ascii "remote", host ++ ascii ":" ++ decimal port.toNat)).toList

section

variable (name host : CStr) (port : UInt16) (events : List OpenvpnEvent)

theorem clientAfter_values :
    openvpnClientValues (clientAfter name host port events) = historyValues events := by
  have status : (clientAfter name host port events).remCfg.name =
      lastWrite OpenvpnEvent.statusWritten (ascii "connecting to openvpn management socket")
        events :=
    foldl_eq_lastWrite (fun vpn : OpenvpnClient => vpn.remCfg.name) step_status _ events
  have tunnel : (clientAfter name host port events).tunIp =
      lastWrite OpenvpnEvent.tunnelWritten none events :=
    foldl_eq_lastWrite (fun vpn : OpenvpnClient => vpn.tunIp) step_tunnel _ events
  have remote : (clientAfter name host port events).remCfg.remoteHost =
      lastWrite OpenvpnEvent.hostWritten none events :=
    foldl_eq_lastWrite (fun vpn : OpenvpnClient => vpn.remCfg.remoteHost) step_host _ events
  have remotePort : (clientAfter name host port events).remCfg.remotePort =
      lastWrite OpenvpnEvent.portWritten 0 events :=
    foldl_eq_lastWrite (fun vpn : OpenvpnClient => vpn.remCfg.remotePort) step_port _ events
  rw [openvpnClientValues, historyValues, makeAuthority, status, tunnel, remote, remotePort]
  cases lastWrite OpenvpnEvent.hostWritten none events <;> rfl

/-- After any history a poll publishes each field as it was written last. -/
theorem openvpn_history (parent : Option Ptr) :
    SameEffect (openvpnClientPoll (clientAfter name host port events) parent)
      (runItem parent (.group (host ++ ascii ":" ++ decimal port.toNat) none
        (historyValues events))) := by
  have authority : makeAuthority (clientAfter name host port events).cfg =
      some (host ++ ascii ":" ++ decimal port.toNat) := by
    rw [clientAfter_cfg]
    rfl
  rw [← clientAfter_values name host port]
  exact openvpnClientPoll_effect authority parent

end

end OsmoSysmon
