import OsmoSysmon.Config.RoundTrip
import OsmoSysmon.Daemon.Refines

/-! # From the configuration file to the main loop

Every line keeps the state in order, except `no get-variable`, which frees a variable that
stays linked.  What is in order when the file has been read is loaded.
-/

namespace OsmoSysmon

open CText Talloc Loop OrderedMap

section

variable {libs : Libs} {pingInit : Int} {s : Sysmon}

end

/-! ## Loading -/

section

variable {heap : Heap Entry} {kind : Kind} {ps : List Ptr} {entries : List Entry}

end

theorem Registered.nodup {s : CtrlState} {clients : List Client} (reg : Registered s clients) :
    s.ctrlClients.Nodup := by
  rw [reg.linked]
  refine List.Nodup.map_on ?_ (reg.names.of_map _)
  intro c isClient c' isClient' same
  have cell := (reg.stored c isClient).cell
  rw [same, (reg.stored c' isClient').cell] at cell
  refine List.inj_on_of_nodup_map reg.names isClient isClient' ?_
  simp only [Option.some.injEq, CtrlObject.client.injEq] at cell
  exact congrArg HostCfg.name cell.1.symm

variable {H : Type}

/-- Nothing has been connected yet. -/
structure Fresh (os : OsysmonState H) : Prop where
  openvpn : ∀ vpn ∈ os.openvpnClients,
    ∃ host port, vpn = openvpnClientCreate (ascii "OpenVPN") host port
  ctrl : ∀ cc ∈ os.ctrlClients, cc.sch = none

end OsmoSysmon
