import OsmoSysmon.Cycle.Display
import OsmoSysmon.Daemon.Process
import OsmoSysmon.Lib.Simulation

/-! # What the program is for

A monitor has a configuration and what it knows of the monitored systems, and no memory to
manage.  When the timer expires it prints the outline of the sections of its configuration.
What it knows by then is what the callbacks and the polls before have told it: an OpenVPN
client from the callbacks of its own connection, a CTRL client from its own polls.
-/

namespace OsmoSysmon

open CText

variable {H : Type}

/-- The handle after a request for each of the variables. -/
def varsAfter (api : CtrlApi H) (sch : H) : List CStr → Option H
  | [] => some sch
  | name :: names =>
    match api.query sch name with
    | (none, _) => none
    | (some _, sch) => varsAfter api sch names

/-- A client after a poll. -/
def ctrlAfter (api : CtrlApi H) (cc : CtrlClient H) : CtrlClient H :=
  { cc with sch := (cc.sch <|> api.connect cc.cfg).bind fun sch => varsAfter api sch cc.getVars }

@[simp] theorem cfg_ctrlAfter (api : CtrlApi H) (cc : CtrlClient H) :
    (ctrlAfter api cc).cfg = cc.cfg := rfl

@[simp] theorem getVars_ctrlAfter (api : CtrlApi H) (cc : CtrlClient H) :
    (ctrlAfter api cc).getVars = cc.getVars := rfl

namespace OsysmonState

def polled (os : OsysmonState H) (api : CtrlApi H) : OsysmonState H :=
  { os with
    ctrlClients := os.ctrlClients.map (ctrlAfter api)
    ctrlNames := by
      rw [List.map_map]
      exact os.ctrlNames }

def notified (os : OsysmonState H) (i : Nat) (event : OpenvpnEvent) : OsysmonState H :=
  { os with
    openvpnClients := os.openvpnClients.modify i event.step
    openvpnHosts := by
      intro vpn mem
      obtain ⟨j, found⟩ := List.mem_iff_getElem?.mp mem
      rw [List.getElem?_modify, Option.map_eq_map, Option.map_eq_some_iff] at found
      obtain ⟨old, isOld, rfl⟩ := found
      have host := os.openvpnHosts old (List.mem_of_getElem? isOld)
      split
      · rwa [step_cfg]
      · exact host }

def next (os : OsysmonState H) : MainEvent H → OsysmonState H
  | .callback i event => os.notified i event
  | .timer probes => os.polled probes.ctrl

/-- What is known after some events. -/
def after (os : OsysmonState H) (events : List (MainEvent H)) : OsysmonState H := events.foldl next os

/-- The tree that is reported below the root. -/
def tree (os : OsysmonState H) (probes : Probes H) : Forest NodeInfo :=
  .concat ((os.sections probes).map Section.tree)

def report (os : OsysmonState H) (probes : Probes H) : List CStr :=
  ((Forest.cons rootInfo (os.tree probes) .nil).outline 0).map outlineLine

end OsysmonState

structure Monitor (H : Type) where
  os : OsysmonState H
  oneshot : Bool
  /-- One report was all. -/
  done : Bool

/-- What a monitor prints at an event, and the monitor behind it. -/
def Monitor.handle (event : MainEvent H) (m : Monitor H) : Option (List CStr) × Monitor H :=
  if m.done then (none, m)
  else
    match event with
    | .callback i event => (none, { m with os := m.os.notified i event })
    | .timer probes =>
      (some (m.os.report probes), { m with os := m.os.polled probes.ctrl, done := m.oneshot })

/-! ## Histories -/

/-- The callbacks of a connection. -/
def callbacksOf (i : Nat) (events : List (MainEvent H)) : List OpenvpnEvent :=
  events.filterMap fun
    | .callback j event => if j = i then some event else none
    | .timer _ => none

/-- How the CTRL clients were answered in the polls. -/
def pollsOf (events : List (MainEvent H)) : List (CtrlApi H) :=
  events.filterMap fun
    | .callback _ _ => none
    | .timer probes => some probes.ctrl

/-- A client with the events of its connection. -/
def OpenvpnClient.after (vpn : OpenvpnClient) (events : List OpenvpnEvent) : OpenvpnClient :=
  events.foldl OpenvpnEvent.step vpn

namespace OsysmonState

/-- Nothing else is changed. -/
structure Unchanged (os os' : OsysmonState H) : Prop where
  sysinfoEnabled : os'.sysinfoEnabled = os.sysinfoEnabled
  netdevs : os'.netdevs = os.netdevs
  pingInit : os'.pingInit = os.pingInit
  pings : os'.pings = os.pings
  files : os'.files = os.files
  shellcmds : os'.shellcmds = os.shellcmds

theorem after_cons (os : OsysmonState H) (event : MainEvent H) (events : List (MainEvent H)) :
    os.after (event :: events) = (os.next event).after events := rfl

/-- Each OpenVPN client is what the events of its own connection have made of it. -/
theorem openvpnClients_after (os : OsysmonState H) (events : List (MainEvent H)) (i : Nat) :
    (os.after events).openvpnClients[i]? =
      os.openvpnClients[i]?.map fun vpn => vpn.after (callbacksOf i events) := by
  induction events generalizing os with
  | nil => simp [after, callbacksOf, OpenvpnClient.after]
  | cons event events ih =>
    rw [after_cons, ih]
    cases event with
    | timer probes => rfl
    | callback j event =>
      simp only [next, notified, List.getElem?_modify, Option.map_eq_map, Option.map_map]
      by_cases same : j = i
      · simp [same, callbacksOf, OpenvpnClient.after, Function.comp_def]
      · simp [same, callbacksOf, Function.comp_def]

/-- Each CTRL client is what its own polls have made of it. -/
theorem ctrlClients_after (os : OsysmonState H) (events : List (MainEvent H)) :
    (os.after events).ctrlClients =
      os.ctrlClients.map fun cc => (pollsOf events).foldl (fun cc api => ctrlAfter api cc) cc := by
  induction events generalizing os with
  | nil => simp [after, pollsOf]
  | cons event events ih =>
    rw [after_cons, ih]
    cases event with
    | callback j event => rfl
    | timer probes =>
      rw [next, polled, List.map_map]
      rfl

theorem unchanged_after (os : OsysmonState H) (events : List (MainEvent H)) :
    Unchanged os (os.after events) := by
  induction events generalizing os with
  | nil => exact ⟨rfl, rfl, rfl, rfl, rfl, rfl⟩
  | cons event events ih =>
    rw [after_cons]
    obtain ⟨sysinfo, netdevs, pingInit, pings, files, shellcmds⟩ := ih (os.next event)
    cases event with
    | callback => exact ⟨sysinfo, netdevs, pingInit, pings, files, shellcmds⟩
    | timer => exact ⟨sysinfo, netdevs, pingInit, pings, files, shellcmds⟩

/-- What is known after a history. -/
structure Known (os : OsysmonState H) (events : List (MainEvent H)) (os' : OsysmonState H) :
    Prop where
  openvpn : ∀ i, os'.openvpnClients[i]? =
    os.openvpnClients[i]?.map fun vpn : OpenvpnClient => vpn.after (callbacksOf i events)
  ctrl : os'.ctrlClients =
    os.ctrlClients.map fun cc => (pollsOf events).foldl (fun cc api => ctrlAfter api cc) cc
  unchanged : Unchanged os os'

theorem known_after (os : OsysmonState H) (events : List (MainEvent H)) :
    Known os events (os.after events) :=
  ⟨openvpnClients_after os events, ctrlClients_after os events, unchanged_after os events⟩

/-- The names below the root do not depend on what happens. -/
theorem rootNames_next (os : OsysmonState H) (event : MainEvent H) :
    (os.next event).rootNames = os.rootNames := by
  cases event with
  | callback i event =>
    have sameLength : (os.openvpnClients.modify i event.step).isEmpty = os.openvpnClients.isEmpty := by
      rw [Bool.eq_iff_iff, List.isEmpty_iff_length_eq_zero, List.length_modify,
        List.isEmpty_iff_length_eq_zero]
    simp only [next, notified, rootNames, earlyHeads, lateHeads, clientNames, sameLength]
  | timer probes =>
    simp only [next, polled, rootNames, earlyHeads, lateHeads, clientNames, List.map_map]
    rfl

end OsysmonState

namespace Monitor

open Simulation

variable {m : Monitor H}

theorem handle_done (done : m.done = true) (event : MainEvent H) : handle event m = (none, m) := by
  rw [handle.eq_def, if_pos done]

theorem final_done (done : m.done = true) (events : List (MainEvent H)) :
    final handle events m = m := by
  induction events with
  | nil => rfl
  | cons event events ih => rw [final, handle_done done, ih]

theorem handle_running (running : m.done = false) (event : MainEvent H) :
    (handle event m).2.os = m.os.next event ∧ (handle event m).2.oneshot = m.oneshot ∧
      ((handle event m).2.done = true ↔ m.oneshot = true ∧ pollsOf [event] ≠ []) := by
  rw [handle.eq_def, running, if_neg Bool.false_ne_true]
  cases event with
  | callback i event => exact ⟨rfl, rfl, by simp [pollsOf]⟩
  | timer probes => exact ⟨rfl, rfl, by simp [pollsOf]⟩

/-- What has reported once and has to report only once is done. -/
theorem final_handle (running : m.done = false) (events : List (MainEvent H)) :
    ((final handle events m).done = true ↔ m.oneshot = true ∧ pollsOf events ≠ []) ∧
      ((final handle events m).done = false → (final handle events m).os = m.os.after events) := by
  induction events generalizing m with
  | nil => exact ⟨by simp [final, pollsOf, running], fun _ => rfl⟩
  | cons event events ih =>
    obtain ⟨isNext, sameOneshot, isDone⟩ := handle_running running event
    have polls : pollsOf (event :: events) = pollsOf [event] ++ pollsOf events := by
      rw [pollsOf, ← List.singleton_append, List.filterMap_append]
      rfl
    rw [final, polls]
    cases done : (handle event m).2.done with
    | true =>
      rw [final_done done, done]
      obtain ⟨once, some⟩ := isDone.mp done
      simp [once, some]
    | false =>
      obtain ⟨later, isAfter⟩ := ih done
      rw [sameOneshot] at later
      have notYet : ¬ (m.oneshot = true ∧ pollsOf [event] ≠ []) := by
        rw [← isDone, done]
        exact Bool.false_ne_true
      refine ⟨?_, fun running' => ?_⟩
      · rw [later]
        by_cases once : m.oneshot = true
        · have none : pollsOf [event] = [] := by
            by_contra some
            exact notYet ⟨once, some⟩
          rw [none, List.nil_append]
        · simp [once]
      · rw [isAfter running', isNext]
        rfl

end Monitor

end OsmoSysmon
