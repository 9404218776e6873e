import OsmoSysmon.Config.Lines

/-! # Names are words

What is configured has been taken from the words of a line, so the names under which the
elements of a registry are reported have no white space in them.
-/

namespace OsmoSysmon

open CText Talloc Loop

/-- The name under which an element is reported, or that of its host. -/
def Entry.Worded : Entry → Prop
  | .ctrlClient cfg => Solid cfg.name
  | .openvpnClient vpn => ∀ host, vpn.cfg.remoteHost = some host → Solid host
  | .netdev name => Solid name
  | .file of => Solid of.name
  | .shellcmd oc => Solid oc.name

def SysCommand.Worded : SysCommand → Prop
  | .registry command => ∀ entry, command.change = .put entry → entry.Worded
  | _ => True

/-! ## Commands -/

namespace Registries

variable {P : Entry → Prop} {s t : Registries}

end Registries

/-! ## Lines -/

section

variable {libs : Libs} {s t : Sysmon}

/-- All elements have names that are words. -/
def Sysmon.Worded (s : Sysmon) : Prop := s.registries.heap.All Entry.Worded

end

end OsmoSysmon
