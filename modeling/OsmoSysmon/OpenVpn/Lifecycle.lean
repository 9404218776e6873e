import Mathlib.Data.List.Induction
import OsmoSysmon.OpenVpn.StateLine
import OsmoSysmon.Sections

/-! # The life of a management connection

The library of the connection calls `connect_cb`, `read_cb` and `disconnect_cb` and the
cycle polls, in any order, but for one promise: `read_cb` runs only between a
`connect_cb` and the next `disconnect_cb`.
-/

namespace OsmoSysmon

open CText Effect

inductive OpenvpnEvent where
  | connect
  | disconnect
  /-- As for `readCb`. -/
  | read (received : Option (List UInt8))
  | poll
deriving DecidableEq, Repr

namespace OpenvpnEvent

/-- What an event does to the client; a poll only reads it. -/
def step (vpn : OpenvpnClient) : OpenvpnEvent → OpenvpnClient
  | .connect => connectCb vpn
  | .disconnect => disconnectCb vpn
  | .read received => readCb received vpn
  | .poll => vpn

/-- Which of `connect_cb` (`true`) and `disconnect_cb` an event runs, if any.  A read that
    finds the end or fails tears the connection down. -/
def turn : OpenvpnEvent → Option Bool
  | .connect => some true
  | .disconnect => some false
  | .read none => some false
  | .read (some []) => some false
  | .read (some (_ :: _)) => none
  | .poll => none

end OpenvpnEvent

/-- Whether the last connect or disconnect of a history was a connect. -/
def isUp (events : List OpenvpnEvent) : Bool :=
  (events.filterMap OpenvpnEvent.turn).getLast? == some true

/-- `read_cb` runs only while the connection is up. -/
def ReadsWhileUp (events : List OpenvpnEvent) : Prop :=
  ∀ before received after, events = before ++ .read received :: after → isUp before = true

def clientAfter (name host : CStr) (port : UInt16) (events : List OpenvpnEvent) : OpenvpnClient :=
  events.foldl OpenvpnEvent.step (openvpnClientCreate name host port)

/-- The names that `rem_cfg` has while there is no connection. -/
def notConnectedTexts : List CStr :=
  [ascii "connecting to openvpn management socket",
    ascii "disconnected from openvpn management socket"]

/-! ## The invariant -/

/-- What a client without a connection keeps of the connection before: nothing. -/
structure Offline (vpn : OpenvpnClient) : Prop where
  tunIp : vpn.tunIp = none
  remoteHost : vpn.remCfg.remoteHost = none
  name : vpn.remCfg.name ∈ notConnectedTexts

theorem offline_disconnectCb (vpn : OpenvpnClient) : Offline (disconnectCb vpn) where
  tunIp := rfl
  remoteHost := rfl
  name := by simp [disconnectCb, updateName, notConnectedTexts]

@[simp] theorem storeToken_connected (vpn : OpenvpnClient) (i : Nat) (tok : CStr) :
    (storeToken vpn i tok).connected = vpn.connected := by
  unfold storeToken
  split <;> rfl

@[simp] theorem storeToken_cfg (vpn : OpenvpnClient) (i : Nat) (tok : CStr) :
    (storeToken vpn i tok).cfg = vpn.cfg := by
  unfold storeToken
  split <;> rfl

/-- The parser changes neither the configuration nor what is known of the connection. -/
theorem parseTokens_keeps (vpn : OpenvpnClient) (saved : CStr) (left i : Nat) :
    (parseTokens vpn saved left i).connected = vpn.connected ∧
      (parseTokens vpn saved left i).cfg = vpn.cfg := by
  induction left generalizing vpn saved i with
  | zero => exact ⟨rfl, rfl⟩
  | succ left ih =>
    rw [parseTokens]
    cases strtok comma saved with
    | none => exact ⟨rfl, rfl⟩
    | some found =>
      obtain ⟨tok, saved⟩ := found
      simpa using ih (storeToken vpn i tok) saved (i + 1)

theorem parseState_keeps (m : List UInt8) (vpn : OpenvpnClient) :
    (parseState m vpn).connected = vpn.connected ∧ (parseState m vpn).cfg = vpn.cfg := by
  cases m with
  | nil => exact ⟨rfl, rfl⟩
  | cons b bs =>
    rw [parseState]
    split
    · exact parseTokens_keeps vpn _ _ _
    · exact ⟨rfl, rfl⟩

theorem step_connected (vpn : OpenvpnClient) (e : OpenvpnEvent) :
    (e.step vpn).connected = e.turn.getD vpn.connected := by
  match e with
  | .connect | .disconnect | .poll | .read none | .read (some []) => rfl
  | .read (some (b :: bs)) => exact (parseState_keeps (b :: bs) vpn).1

theorem step_cfg (vpn : OpenvpnClient) (e : OpenvpnEvent) : (e.step vpn).cfg = vpn.cfg := by
  match e with
  | .connect | .disconnect | .poll | .read none | .read (some []) => rfl
  | .read (some (b :: bs)) => exact (parseState_keeps (b :: bs) vpn).2

theorem isUp_concat (events : List OpenvpnEvent) (e : OpenvpnEvent) :
    isUp (events ++ [e]) = e.turn.getD (isUp events) := by
  cases turned : e.turn with
  | none => simp [isUp, List.filterMap_append, turned]
  | some up => simp [isUp, List.filterMap_append, turned]

theorem clientAfter_concat (name host : CStr) (port : UInt16) (events : List OpenvpnEvent)
    (e : OpenvpnEvent) :
    clientAfter name host port (events ++ [e]) = e.step (clientAfter name host port events) := by
  rw [clientAfter, List.foldl_append]
  rfl

theorem ReadsWhileUp.before {events : List OpenvpnEvent} {e : OpenvpnEvent}
    (promise : ReadsWhileUp (events ++ [e])) : ReadsWhileUp events := by
  intro before received after split
  exact promise before received (after ++ [e]) (by simp [split])

/-- An event that leaves the client without a connection leaves nothing behind. -/
theorem offline_step {vpn : OpenvpnClient} {e : OpenvpnEvent}
    (known : vpn.connected = false → Offline vpn)
    (promise : ∀ received, e = .read received → vpn.connected = true)
    (down : (e.step vpn).connected = false) : Offline (e.step vpn) := by
  match e with
  | .connect => cases down
  | .poll => exact known down
  | .disconnect | .read none | .read (some []) => exact offline_disconnectCb vpn
  | .read (some (b :: bs)) =>
    -- what is read is read while the connection is up, and leaves it up
    rw [step_connected] at down
    exact absurd down (by simp [OpenvpnEvent.turn, promise _ rfl])

section

variable (name host : CStr) (port : UInt16)

theorem clientAfter_cfg (events : List OpenvpnEvent) :
    (clientAfter name host port events).cfg = hostCfgAlloc name (some host) port := by
  induction events using List.reverseRecOn with
  | nil => rfl
  | append_singleton events e ih => rw [clientAfter_concat, step_cfg, ih]

theorem clientAfter_connected (events : List OpenvpnEvent) :
    (clientAfter name host port events).connected = isUp events := by
  induction events using List.reverseRecOn with
  | nil => rfl
  | append_singleton events e ih => rw [clientAfter_concat, step_connected, ih, isUp_concat]

theorem clientAfter_offline {events : List OpenvpnEvent} (promise : ReadsWhileUp events)
    (down : (clientAfter name host port events).connected = false) :
    Offline (clientAfter name host port events) := by
  induction events using List.reverseRecOn with
  | nil => exact ⟨rfl, rfl, List.mem_cons_self⟩
  | append_singleton events e ih =>
    rw [clientAfter_concat] at down ⊢
    apply offline_step (ih promise.before) _ down
    rintro received rfl
    rw [clientAfter_connected]
    exact promise events received [] rfl

/-! ## Polls -/

/-- Without a connection the status is all there is to publish. -/
theorem values_of_offline {vpn : OpenvpnClient} (offline : Offline vpn) :
    openvpnClientValues vpn = [(ascii "status", vpn.remCfg.name)] := by
  simp [openvpnClientValues, makeAuthority, offline.tunIp, offline.remoteHost]

theorem openvpnClientPoll_sends {vpn : OpenvpnClient} {parent : Option Ptr} {s t : Nodes}
    {sent : Option CStr} (run : openvpnClientPoll vpn parent s = .ok (sent, t)) :
    sent = if vpn.connected then some (ascii "state\n") else none := by
  cases authority : makeAuthority vpn.cfg with
  | none =>
    simp only [openvpnClientPoll, authority] at run
    cases run
  | some text =>
    simp only [openvpnClientPoll, authority] at run
    obtain ⟨_, _, -, run⟩ := Loop.bind_inv run
    obtain ⟨_, _, -, run⟩ := Loop.bind_inv run
    cases run
    rfl

/-- The node of a client without a connection. -/
def offlineItem (text : CStr) : Item :=
  .group (host ++ ascii ":" ++ decimal port.toNat) none [(ascii "status", text)]

/-- In every history a client is connected exactly if a connect came last.  Without a
    connection nothing of an earlier one is left, a poll publishes one of the two fixed
    texts and nothing else; it sends the command exactly while there is a connection. -/
theorem openvpn_lifecycle {events : List OpenvpnEvent} (promise : ReadsWhileUp events)
    (parent : Option Ptr) :
    ((clientAfter name host port events).connected = true ↔ isUp events = true) ∧
    ((clientAfter name host port events).connected = false →
      (clientAfter name host port events).tunIp = none ∧
      (clientAfter name host port events).remCfg.remoteHost = none ∧
      ∃ text ∈ notConnectedTexts,
        SameEffect (openvpnClientPoll (clientAfter name host port events) parent)
          (runItem parent (offlineItem host port text))) ∧
    ∀ s sent t,
      openvpnClientPoll (clientAfter name host port events) parent s = .ok (sent, t) →
      (sent = some (ascii "state\n") ↔ (clientAfter name host port events).connected = true) ∧
      (sent = none ↔ (clientAfter name host port events).connected = false) := by
  refine ⟨by rw [clientAfter_connected], ?_, ?_⟩
  · intro down
    have offline := clientAfter_offline name host port promise down
    refine ⟨offline.tunIp, offline.remoteHost, _, offline.name, ?_⟩
    have authority : makeAuthority (clientAfter name host port events).cfg =
        some (host ++ ascii ":" ++ decimal port.toNat) := by
      rw [clientAfter_cfg]
      rfl
    rw [offlineItem, ← values_of_offline offline]
    exact openvpnClientPoll_effect authority parent
  · intro s sent t run
    rw [openvpnClientPoll_sends run]
    cases (clientAfter name host port events).connected <;> simp

end

/-- A connection that delivers a state and is then torn down by a read. -/
def tornDown : List OpenvpnEvent :=
  [.connect, .read (some (stateLineCurrent ++ [13, 10])), .read (some [])]

theorem tornDown_promise : ReadsWhileUp tornDown := by
  intro before received after split
  match before with
  | [] => cases split
  | [_] => cases split; rfl
  | [_, _] => cases split; rfl
  | _ :: _ :: _ :: before => simp [tornDown] at split

theorem openvpn_lifecycle_tornDown :
    (clientAfter (ascii "OpenVPN") (ascii "localhost") 1195 tornDown).tunIp = none := by
  have down : (clientAfter (ascii "OpenVPN") (ascii "localhost") 1195 tornDown).connected = false :=
    rfl
  exact ((openvpn_lifecycle (ascii "OpenVPN") (ascii "localhost") 1195 tornDown_promise
    none).2.1 down).1

end OsmoSysmon
