import OsmoSysmon.HostCfg

/-! # The OpenVPN management client

`osysmon_openvpn.c`: the callbacks of the management connection, the parser of state
lines and what a poll reports.
-/

namespace OsmoSysmon

open CText

structure OpenvpnClient where
  cfg : HostCfg
  /-- Parsed from the responses to the `state` command, as is `tunIp`. -/
  remCfg : HostCfg
  tunIp : Option CStr
  connected : Bool
deriving DecidableEq, Repr

/-- `openvpn_client_create`, once the connection has been set up. -/
def openvpnClientCreate (name host : CStr) (port : UInt16) : OpenvpnClient where
  cfg := hostCfgAlloc name (some host) port
  remCfg := hostCfgAlloc (ascii "connecting to openvpn management socket") none 0
  tunIp := none
  connected := false

/-- `sizeof(tmp)` and `sizeof(buf)` in `parse_state`. -/
def stateBufSize : Nat := 128

/-- `MAX_RESP_COMPONENTS`. -/
def maxRespComponents : Nat := 6

def comma : UInt8 := 44

/-- The text in `tmp`: the first line of the message, as far as it fits. -/
def stateText (m : List UInt8) : CStr := (m.take (stateBufSize - 1)).takeWhile isprint

/-- What the `switch` of `parse_state` does with the `i`-th token. -/
def storeToken (vpn : OpenvpnClient) (i : Nat) (tok : CStr) : OpenvpnClient :=
  match i with
  | 1 => { vpn with remCfg := updateName vpn.remCfg tok }
  | 2 =>
    let buf := (vpn.remCfg.name ++ ascii " (" ++ tok ++ ascii ")").take (stateBufSize - 1)
    { vpn with remCfg := updateName vpn.remCfg buf }
  | 3 => { vpn with tunIp := some tok }
  | 4 => { vpn with remCfg := updateHost vpn.remCfg tok }
  | 5 => { vpn with remCfg := { vpn.remCfg with remotePort := UInt16.ofInt (atoi tok) } }
  -- the time stamp
  | _ => vpn

/-- The `strtok` loop of `parse_state`, from the `i`-th token on. -/
def parseTokens (vpn : OpenvpnClient) (saved : CStr) : (left i : Nat) → OpenvpnClient
  | 0, _ => vpn
  | left + 1, i =>
    match strtok comma saved with
    | none => vpn
    | some (tok, saved) => parseTokens (storeToken vpn i tok) saved left (i + 1)

def parseState (m : List UInt8) (vpn : OpenvpnClient) : OpenvpnClient :=
  match m with
  | [] => vpn
  | b :: _ =>
    -- skip OpenVPN greetings and alike
    if isdigit b then parseTokens vpn (stateText m) maxRespComponents 0
    else vpn

/-! ## Callbacks -/

def disconnectCb (vpn : OpenvpnClient) : OpenvpnClient where
  cfg := vpn.cfg
  remCfg :=
    { updateName vpn.remCfg (ascii "disconnected from openvpn management socket") with
      remoteHost := none }
  tunIp := none
  connected := false

def connectCb (vpn : OpenvpnClient) : OpenvpnClient :=
  { vpn with
    remCfg := updateName vpn.remCfg (ascii "connected to openvpn management socket")
    connected := true }

/-- `read_cb` when `osmo_stream_cli_recv` gets bytes, the end of the stream or
    (`none`) an error; the latter two run `disconnect_cb` on the way. -/
def readCb (received : Option (List UInt8)) (vpn : OpenvpnClient) : OpenvpnClient :=
  match received with
  | none => disconnectCb vpn
  | some [] => parseState [] (disconnectCb vpn)
  | some (b :: bs) => parseState (b :: bs) vpn

/-! ## Polling -/

/-- The values that `openvpn_client_poll` adds below the client's node, in order. -/
def openvpnClientValues (vpn : OpenvpnClient) : List (CStr × CStr) :=
  [(ascii "status", vpn.remCfg.name)] ++
    (vpn.tunIp.map fun ip => (ascii "tunnel", ip)).toList ++
    ((makeAuthority vpn.remCfg).map fun remote => (ascii "remote", remote)).toList

end OsmoSysmon
