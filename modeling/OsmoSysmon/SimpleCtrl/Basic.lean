import OsmoSysmon.Lib.Scanf
import OsmoSysmon.Msgb

/-! # The simple CTRL client

`simple_ctrl.c`, function by function.  The handle's socket is the `World`'s; the
diagnostics that the code prints on `stderr` are left out.
-/

namespace OsmoSysmon

open CText Scanf

structure SimpleCtrlHandle where
  nextId : UInt32
  toutMsec : UInt32
deriving DecidableEq, Repr

/-- The handle that `simple_ctrl_open` returns with a timeout of one second. -/
def freshHandle : SimpleCtrlHandle where
  nextId := 0
  toutMsec := 1000

/-- `sizeof(struct ipaccess_head)`. -/
def ipaccessHeadSize : Nat := 3

def ipacProtoOsmo : UInt8 := 0xee

def ipacProtoExtCtrl : UInt8 := 0x00

/-- `ntohs` of the two bytes of the length field. -/
def ntohs (hi lo : UInt8) : Nat := hi.toNat * 256 + lo.toNat

/-- The two bytes of `htons`. -/
def htons (n : Nat) : List UInt8 := [(n / 256).toUInt8, n.toUInt8]

/-- One IPA message, or `none` where the code returns `NULL`. -/
def simpleIpaReceive (sch : SimpleCtrlHandle) : Sys (Option Msgb) := do
  match ← readTimeout ipaccessHeadSize sch.toutMsec with
  | some [hi, lo, proto] =>
    let len := ntohs hi lo
    let resp ← msgbAlloc (len + ipaccessHeadSize + 1).toUInt16
    let (l1h, resp) ← msgbPut resp ipaccessHeadSize
    let resp := resp.setL1h l1h
    let resp ← msgbStore resp resp.l1h [hi, lo, proto]
    let resp := resp.setL2h resp.tail
    match ← sysRead len with
    | some payload =>
      let resp ← msgbStore resp resp.l2h payload
      if payload.length < len then
        -- short read (payload)
        msgbFree resp
        return none
      else
        let (_, resp) ← msgbPut resp payload.length
        return some resp
    | none =>
      msgbFree resp
      return none
  -- short read (header)
  | some _ => return none
  | none => return none

/-- One turn of the loop of `simple_ctrl_receive`: `none` goes round again. -/
def receiveTurn (sch : SimpleCtrlHandle) : Sys (Option (Option Msgb)) := do
  match ← simpleIpaReceive sch with
  | none => return some none
  | some resp =>
    let ihProto ← msgbByte resp (resp.l1h + 2)
    let resp := if ihProto = ipacProtoOsmo then resp.setL2h (resp.l2h + 1) else resp
    if ihProto = ipacProtoOsmo then
      let iheProto ← msgbByte resp (resp.l1h + ipaccessHeadSize)
      if iheProto = ipacProtoExtCtrl then
        let (tmp, resp) ← msgbPut resp 1
        let resp ← msgbStore resp tmp [0]
        return some (some resp)
      else
        msgbFree resp
        return none
    else
      msgbFree resp
      return none

/-- The bytes that are still to come in a script. -/
def rxBytes : List RxEvent → Nat
  | [] => 0
  | .data bs :: rx => bs.length + rxBytes rx
  | _ :: rx => rxBytes rx

/-- Loops until it has received a CTRL message.  Every turn that goes round has
    read a header. -/
def simpleCtrlReceive (sch : SimpleCtrlHandle) : Sys (Option Msgb) :=
  Loop.whileTrue ⟨.blocked, []⟩ (fun w => rxBytes w.rx) (receiveTurn sch)

def ipaPrependHeaderExt (m : Msgb) (proto : UInt8) : Sys Msgb := msgbPush m [proto]

def ipaPrependHeader (m : Msgb) (proto : UInt8) : Sys Msgb :=
  msgbPush m (htons m.len ++ [proto])

/-- Whether the message was sent.  A failing `write` returns without freeing it. -/
def simpleCtrlSend (sch : SimpleCtrlHandle) (msg : Msgb) : Sys Bool := do
  let msg ← ipaPrependHeaderExt msg ipacProtoExtCtrl
  let msg ← ipaPrependHeader msg ipacProtoOsmo
  match ← writeTimeout msg.bytes sch.toutMsec with
  | none => return false
  | some rc =>
    msgbFree msg
    return !decide (rc < msg.len)

def simpleCtrlXceive (sch : SimpleCtrlHandle) (msg : Msgb) : Sys (Option Msgb) := do
  if ← simpleCtrlSend sch msg then simpleCtrlReceive sch
  else return none

/-! ## Strings on the C heap -/

/-- A string that `%ms` or `strdup` has allocated. -/
structure HeapStr where
  id : Nat
  text : CStr
deriving DecidableEq, Repr

def strAlloc (text : CStr) : Sys HeapStr := do
  let id ← freshId
  log (.strAlloc id)
  return { id, text }

def strFree (s : HeapStr) : Sys Unit := log (.strFree s.id)

/-- The format `"<verb> %u %ms %ms"`. -/
def replyFormat (verb : CStr) : List Directive :=
  lits verb ++ [.space, .u, .space, .ms, .space, .ms]

/-- What the format converts when it converts the number and the variable; the
    value may be missing. -/
def replyFields (verb text : CStr) : Option (Nat × CStr × Option CStr) :=
  match sscanf (replyFormat verb) text with
  | [.num rxId, .str rxVar] => some (rxId, rxVar, none)
  | [.num rxId, .str rxVar, .str rxVal] => some (rxId, rxVar, some rxVal)
  | _ => none

/-- `sscanf(text, "<verb> %u %ms %ms", &rx_id, &rx_var, &rx_val)`. -/
def scanReply (verb text : CStr) : Sys (Option (Nat × HeapStr × Option HeapStr)) := do
  match replyFields verb text with
  | none => return none
  | some (rxId, rxVar, none) =>
    let rxVar ← strAlloc rxVar
    return some (rxId, rxVar, none)
  | some (rxId, rxVar, some rxVal) =>
    let rxVar ← strAlloc rxVar
    let rxVal ← strAlloc rxVal
    return some (rxId, rxVar, some rxVal)

/-! ## Requests -/

/-- `rx_id == sch->next_id-1`. -/
def idMatches (sch : SimpleCtrlHandle) (rxId : Nat) : Bool := rxId.toUInt32 == sch.nextId - 1

def getRequest (id : UInt32) (var : CStr) : CStr :=
  ascii "GET " ++ decimal id.toNat ++ ascii " " ++ var

def setRequest (id : UInt32) (var val : CStr) : CStr :=
  ascii "SET " ++ decimal id.toNat ++ ascii " " ++ var ++ ascii " " ++ val

/-- The request goes out under the handle's id, which is counted up, and a message
    is received. -/
def simpleCtrlRequest (sch : SimpleCtrlHandle) (request : UInt32 → CStr) :
    Sys (Option Msgb × SimpleCtrlHandle) := do
  let msg ← msgbAllocHeadroom (512 + 8) 8
  let text := request sch.nextId
  let sch := { sch with nextId := sch.nextId + 1 }
  match ← msgbPrintf msg text with
  | none =>
    msgbFree msg
    return (none, sch)
  | some msg =>
    let resp ← simpleCtrlXceive sch msg
    return (resp, sch)

/-- What `simple_ctrl_get` and `simple_ctrl_set` have in common; `replied` is what
    they make of the text of the reply.  The handle comes back with its id counted up. -/
def simpleCtrlExchange {α : Type} (sch : SimpleCtrlHandle) (request : UInt32 → CStr) (failed : α)
    (replied : SimpleCtrlHandle → CStr → Sys α) : Sys (α × SimpleCtrlHandle) := do
  let (resp, sch) ← simpleCtrlRequest sch request
  match resp with
  | none => return (failed, sch)
  | some resp =>
    let text ← msgbL2Text resp
    let result ← replied sch text
    msgbFree resp
    return (result, sch)

def getReplied (var : CStr) (sch : SimpleCtrlHandle) (text : CStr) : Sys (Option HeapStr) := do
  match ← scanReply (ascii "GET_REPLY") text with
  | none => return none
  | some (rxId, rxVar, rxVal) =>
    -- a reply without a value reads as an empty one
    let rxVal ← match rxVal with
      | some rxVal => pure rxVal
      | none => strAlloc []
    if idMatches sch rxId ∧ var = rxVar.text then
      strFree rxVar
      return some rxVal
    else
      strFree rxVar
      strFree rxVal
      return none

/-- `none` is `NULL`. -/
def simpleCtrlGet (sch : SimpleCtrlHandle) (var : CStr) :
    Sys (Option HeapStr × SimpleCtrlHandle) :=
  simpleCtrlExchange sch (getRequest · var) none (getReplied var)

def setReplied (var val : CStr) (sch : SimpleCtrlHandle) (text : CStr) : Sys Bool := do
  match ← scanReply (ascii "SET_REPLY") text with
  | some (rxId, rxVar, some rxVal) =>
    strFree rxVal
    strFree rxVar
    return idMatches sch rxId && var == rxVar.text && val == rxVal.text
  -- the variable of a reply without a value stays allocated
  | some (_, _, none) => return false
  | none => return false

/-- `true` is the return value 0, `false` is -1. -/
def simpleCtrlSet (sch : SimpleCtrlHandle) (var val : CStr) : Sys (Bool × SimpleCtrlHandle) :=
  simpleCtrlExchange sch (setRequest · var val) false (setReplied var val)

end OsmoSysmon
