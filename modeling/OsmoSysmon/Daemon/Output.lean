import OsmoSysmon.Config.Worded
import OsmoSysmon.Cycle.Legible
import OsmoSysmon.Daemon.Start

/-! # What can be read off the output

The reports follow one another on standard output with nothing between them.  As long as no
value has a newline in it, all that has been reported can be read back from there.
-/

namespace OsmoSysmon

open CText Talloc Loop

variable {H : Type}

/-- What all the turns of the loop have written. -/
def stdout (shown : List (Option (List CStr))) : CStr := joinLines (shown.flatMap (·.getD []))

/-! ## Clients -/

/-- What is taken from a state line is printable. -/
theorem oneLine_fieldAt (m : List UInt8) (i : Nat) : OneLine (fieldAt (stateTokens m) i) := by
  rw [fieldAt, List.getD_eq_getElem?_getD]
  cases isField : (stateTokens m)[i]? with
  | none => exact List.not_mem_nil
  | some t =>
    intro mem
    have isToken := List.mem_of_getElem? isField
    rw [stateTokens] at isToken
    split at isToken
    · have printed := List.mem_takeWhile_imp (mem_of_mem_tokens isToken mem)
      cases printed
    · cases isToken

theorem OpenvpnClient.OneLine.parseState {vpn : OpenvpnClient} (oneLine : vpn.OneLine)
    (m : List UInt8) : (parseState m vpn).OneLine := by
  rw [parseState_eq_storedAt]
  have field := oneLine_fieldAt m
  refine ⟨?_, ?_, ?_⟩
  · show CText.OneLine (statusBy (stateTokens m) vpn.remCfg.name)
    rw [statusBy]
    split
    · exact (((field 1).append (by decide)).append (field 2)).append (by decide)
    · split
      · exact field 1
      · exact oneLine.name
  · intro host isHost
    by_cases missing : fieldAt (stateTokens m) 4 = []
    · exact oneLine.remoteHost host ((if_pos missing).symm.trans isHost)
    · cases (if_neg missing).symm.trans isHost
      exact field 4
  · intro ip isIp
    by_cases missing : fieldAt (stateTokens m) 3 = []
    · exact oneLine.tunIp ip ((if_pos missing).symm.trans isIp)
    · cases (if_neg missing).symm.trans isIp
      exact field 3

theorem oneLine_disconnectCb (vpn : OpenvpnClient) : (disconnectCb vpn).OneLine := by
  have text : OneLine (ascii "disconnected from openvpn management socket") := by decide
  exact ⟨text, nofun, nofun⟩

theorem OpenvpnClient.OneLine.step {vpn : OpenvpnClient} (oneLine : vpn.OneLine)
    (event : OpenvpnEvent) : (event.step vpn).OneLine := by
  match event with
  | .connect =>
    have text : CText.OneLine (ascii "connected to openvpn management socket") := by decide
    exact ⟨text, oneLine.remoteHost, oneLine.tunIp⟩
  | .disconnect | .read none => exact oneLine_disconnectCb vpn
  | .read (some []) => exact (oneLine_disconnectCb vpn).parseState []
  | .read (some (b :: bs)) => exact oneLine.parseState (b :: bs)
  | .poll => exact oneLine

/-! ## Reports -/

theorem OsysmonState.Worded.next {os : OsysmonState H} (worded : os.Worded) (event : MainEvent H) :
    (os.next event).Worded := by
  cases event with
  | callback i event =>
    refine ⟨?_, worded.ctrl, worded.netdevs, worded.pings, worded.files, worded.shellcmds⟩
    intro vpn mem
    obtain ⟨j, found⟩ := List.mem_iff_getElem?.mp mem
    rw [OsysmonState.next, OsysmonState.notified, List.getElem?_modify, Option.map_eq_map,
      Option.map_eq_some_iff] at found
    obtain ⟨old, isOld, rfl⟩ := found
    obtain ⟨oneLine, host⟩ := worded.openvpn old (List.mem_of_getElem? isOld)
    split
    · rw [step_cfg]
      exact ⟨oneLine.step event, host⟩
    · exact ⟨oneLine, host⟩
  | timer probes =>
    refine ⟨worded.openvpn, ?_, worded.netdevs, worded.pings, worded.files, worded.shellcmds⟩
    exact List.forall_mem_map.mpr fun cc mem => worded.ctrl cc mem

end OsmoSysmon
