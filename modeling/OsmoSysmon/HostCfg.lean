import OsmoSysmon.World

/-! # Host configuration

`client.c`: the name and address of a client, as configured or as learnt at run
time.
-/

namespace OsmoSysmon

open CText

structure HostCfg where
  name : CStr
  /-- `none` is `NULL`. -/
  remoteHost : Option CStr
  remotePort : UInt16
deriving DecidableEq, Repr

inductive MatchKind where
  | name
  | host
  | both
  | either
deriving DecidableEq, Repr

/-- Both comparisons are made whatever the kind, so a missing host is dereferenced. -/
def matchConfig (cfg : HostCfg) (text : CStr) (kind : MatchKind) : Except Fault Bool :=
  match cfg.remoteHost with
  | none => .error .nullPointer
  | some host =>
    let mName := text == cfg.name
    let mHost := text == host
    match kind with
    | .name => .ok mName
    | .host => .ok mHost
    | .either => .ok (mName || mHost)
    | .both => .ok (mName && mHost)

def hostCfgAlloc (name : CStr) (host : Option CStr) (port : UInt16) : HostCfg where
  name := name
  remoteHost := host
  remotePort := port

def makeAuthority (cfg : HostCfg) : Option CStr :=
  match cfg.remoteHost with
  | none => none
  | some host => some (host ++ ascii ":" ++ decimal cfg.remotePort.toNat)

def updateName (cfg : HostCfg) (newName : CStr) : HostCfg := { cfg with name := newName }

def updateHost (cfg : HostCfg) (newHost : CStr) : HostCfg := { cfg with remoteHost := some newHost }

end OsmoSysmon
