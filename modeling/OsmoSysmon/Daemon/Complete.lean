import OsmoSysmon.Cycle.Exact
import OsmoSysmon.Daemon.Output

/-! # Every report is complete

The registries are maps, so different elements have different keys, and no event changes a
key.  So every report has one node for each element of each section.
-/

namespace OsmoSysmon

open CText Talloc Loop

variable {H : Type}

/-! ## Keys of what is loaded -/

theorem OpenvpnClient.cfg_after (vpn : OpenvpnClient) (events : List OpenvpnEvent) :
    (vpn.after events).cfg = vpn.cfg := by
  induction events generalizing vpn with
  | nil => rfl
  | cons event events ih =>
    rw [OpenvpnClient.after, List.foldl_cons, ← OpenvpnClient.after, ih, step_cfg]

theorem OsysmonState.Keyed.known {os os' : OsysmonState H} (keyed : os.Keyed)
    {events : List (MainEvent H)} (known : OsysmonState.Known os events os') : os'.Keyed := by
  obtain ⟨openvpn, ctrl, unchanged⟩ := known
  constructor
  · have same : (os'.openvpnClients.map fun vpn => makeAuthority vpn.cfg) =
        os.openvpnClients.map fun vpn => makeAuthority vpn.cfg := by
      apply List.ext_getElem?
      intro i
      simp [openvpn, Function.comp_def, OpenvpnClient.cfg_after]
    rw [same]
    exact keyed.openvpn
  · rw [ctrl]
    refine List.forall_mem_map.mpr fun cc mem => ?_
    have same : ∀ (apis : List (CtrlApi H)) (cc : CtrlClient H),
        (apis.foldl (fun cc api => ctrlAfter api cc) cc).getVars = cc.getVars := by
      intro apis
      induction apis with
      | nil => simp
      | cons api apis ih => simp [ih]
    rw [same]
    exact keyed.vars cc mem
  · exact unchanged.pings ▸ keyed.pings
  · exact unchanged.files ▸ keyed.files
  · exact unchanged.shellcmds ▸ keyed.shellcmds

end OsmoSysmon
