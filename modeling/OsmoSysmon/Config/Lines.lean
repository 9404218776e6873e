import OsmoSysmon.Config.Write
import OsmoSysmon.OpenVpn.Fields

/-! # Lines and their commands

Which commands a line can have been, and that the lines of the callbacks are read as the
commands that they spell.
-/

namespace OsmoSysmon

open CText Talloc Loop

/-! ## Words that match -/

section

variable {vty : Vty} {tokens : List Token} {line argv : List CStr}

theorem argv?_nil : argv? vty [] line = some argv ↔ line = [] ∧ argv = [] := by
  cases line with
  | nil => simp [argv?, eq_comm]
  | cons word line => simp [argv?]

theorem argv?_keyword {text : CStr} : argv? vty (.keyword text :: tokens) line = some argv ↔
    ∃ others, line = text :: others ∧ argv? vty tokens others = some argv := by
  cases line with
  | nil => simp [argv?]
  | cons word line => simp [argv?]

theorem argv?_variable : argv? vty (.variable :: tokens) line = some argv ↔
    ∃ word others args, line = word :: others ∧ argv? vty tokens others = some args ∧
      word :: args = argv := by
  cases line with
  | nil => simp [argv?]
  | cons word line => simp [argv?]

theorem argv?_address : argv? vty (.address :: tokens) line = some argv ↔
    ∃ word others args, line = word :: others ∧ vty.isAddress word = true ∧
      argv? vty tokens others = some args ∧ word :: args = argv := by
  cases line with
  | nil => simp [argv?]
  | cons word line => simp [argv?]

theorem argv?_port : argv? vty (.port :: tokens) line = some argv ↔
    ∃ word others args, line = word :: others ∧ vty.isPort word = true ∧
      argv? vty tokens others = some args ∧ word :: args = argv := by
  cases line with
  | nil => simp [argv?]
  | cons word line => simp [argv?]

end

/-! ## Commands that have been typed -/

/-- What the words of a line promise about the arguments that are written later. -/
def SysCommand.Typed (vty : Vty) : SysCommand → Prop
  | .registry (.ctrlClient name host port) =>
    IsWord name ∧ IsWord host ∧ vty.isAddress host = true ∧ 1 ≤ port.toNat
  | .registry (.netdev name) => IsWord name
  | .getVariable name => IsWord name
  | .ping host => IsWord host
  | _ => True

/-- The node that has the command. -/
def SysCommand.node : SysCommand → VtyNode
  | .getVariable _ | .noGetVariable _ => .ctrlClient
  | _ => .config

theorem toNat_ofInt {i : Int} (low : 1 ≤ i) (high : i ≤ 65535) :
    ((UInt16.ofInt i).toNat : Int) = i := by
  rw [UInt16.ofInt, UInt16.toNat_ofNat']
  omega

theorem typed_ctrlClient {vty : Vty} (documented : vty.Documented) {line argv : List CStr}
    (isLine : ∀ word ∈ line, IsWord word)
    (spells : argv? vty [kw "ctrl-client", .variable, .address, .port] line = some argv) :
    (SysCommand.registry (.ctrlClient (arg argv 0) (arg argv 1) (portArg argv 2))).Typed vty := by
  simp only [kw, argv?_keyword, argv?_variable, argv?_address, argv?_port, argv?_nil] at spells
  obtain ⟨_, rfl, name, _, _, rfl, address, rfl⟩ := spells
  obtain ⟨host, _, _, rfl, isAddress, port, rfl⟩ := address
  obtain ⟨word, _, _, rfl, isPort, ⟨rfl, rfl⟩, rfl⟩ := port
  obtain ⟨low, high⟩ := documented.number word isPort
  have same := toNat_ofInt low high
  refine ⟨isLine name (by simp), isLine host (by simp), isAddress, ?_⟩
  show 1 ≤ (UInt16.ofInt (atoi word)).toNat
  omega

theorem isWord_arg {vty : Vty} {text : CStr} {line argv : List CStr}
    (isLine : ∀ word ∈ line, IsWord word)
    (spells : argv? vty [.keyword text, .variable] line = some argv) : IsWord (arg argv 0) := by
  simp only [argv?_keyword, argv?_variable, argv?_nil] at spells
  obtain ⟨_, rfl, word, _, _, rfl, ⟨rfl, rfl⟩, rfl⟩ := spells
  exact isLine word (by simp)

theorem command?_typed {vty : Vty} (documented : vty.Documented) {setup : Registries.TcpSetup}
    {node : VtyNode} {line : List CStr} {command : SysCommand}
    (isLine : ∀ word ∈ line, IsWord word) (found : command? vty setup node line = some command) :
    command.node = node ∧ command.Typed vty := by
  obtain ⟨⟨tokens, build⟩, mem, isCommand⟩ := List.exists_of_findSome?_eq_some found
  obtain ⟨argv, spells, rfl⟩ := Option.map_eq_some_iff.mp isCommand
  cases node with
  | config =>
    simp only [installed, List.mem_cons, Prod.mk.injEq, List.not_mem_nil, or_false] at mem
    rcases mem with ⟨-, rfl⟩ | ⟨-, rfl⟩ | ⟨-, rfl⟩ | ⟨-, rfl⟩ | ⟨rfl, rfl⟩ | ⟨-, rfl⟩ | ⟨-, rfl⟩ |
      ⟨-, rfl⟩ | ⟨rfl, rfl⟩ | ⟨-, rfl⟩ | ⟨rfl, rfl⟩ | ⟨-, rfl⟩ | ⟨-, rfl⟩ | ⟨-, rfl⟩
    · exact ⟨rfl, trivial⟩
    · exact ⟨rfl, trivial⟩
    · exact ⟨rfl, trivial⟩
    · exact ⟨rfl, trivial⟩
    · exact ⟨rfl, typed_ctrlClient documented isLine spells⟩
    · exact ⟨rfl, trivial⟩
    · exact ⟨rfl, trivial⟩
    · exact ⟨rfl, trivial⟩
    · exact ⟨rfl, isWord_arg isLine spells⟩
    · exact ⟨rfl, trivial⟩
    · exact ⟨rfl, isWord_arg isLine spells⟩
    · exact ⟨rfl, trivial⟩
    · exact ⟨rfl, trivial⟩
    · exact ⟨rfl, trivial⟩
  | ctrlClient =>
    simp only [installed, List.mem_cons, Prod.mk.injEq, List.not_mem_nil, or_false] at mem
    rcases mem with ⟨rfl, rfl⟩ | ⟨-, rfl⟩
    · exact ⟨rfl, isWord_arg isLine spells⟩
    · exact ⟨rfl, trivial⟩
  | ctrlClientGetVar => cases mem

/-! ## Lines that are written -/

def clientLine (cfg : HostCfg) : CStr :=
  ascii "ctrl-client " ++ cfg.name ++ ascii " " ++ cfg.remoteHost.getD [] ++ ascii " " ++
    decimal cfg.remotePort.toNat

def getVarLine (name : CStr) : CStr := ascii " get-variable " ++ name

def netdevLine (name : CStr) : CStr := ascii "netdev " ++ name

def pingLine (host : CStr) : CStr := ascii "ping " ++ host

/-- The lines of a client and its variables. -/
def clientLines (c : Client) : List CStr := clientLine c.cfg :: (c.vars.map Prod.snd).map getVarLine

theorem writeEach_eq {α : Type} {write : Ptr → Except Fault (List CStr)} {ptr : α → Ptr}
    {lines : α → List CStr} {l : List α} (each : ∀ a ∈ l, write (ptr a) = .ok (lines a)) :
    writeEach write (l.map ptr) = .ok (l.flatMap lines) := by
  induction l with
  | nil => rfl
  | cons a l ih =>
    rw [List.forall_mem_cons] at each
    rw [List.map_cons, writeEach, ok_bind each.1, ok_bind (ih each.2), List.flatMap_cons]
    rfl

/-- A callback that comes to its end has written every element. -/
theorem of_writeEach {write : Ptr → Except Fault (List CStr)} {ps : List Ptr} {lines : List CStr}
    (run : writeEach write ps = .ok lines) : ∀ p ∈ ps, ∃ own, write p = .ok own := by
  induction ps generalizing lines with
  | nil => simp
  | cons p ps ih =>
    rw [writeEach] at run
    obtain ⟨own, here, run⟩ := ok_bind_inv run
    obtain ⟨others, later, -⟩ := ok_bind_inv run
    exact List.forall_mem_cons.mpr ⟨⟨own, here⟩, ih later⟩

theorem writeOneCtrlClient_eq {heap : Heap CtrlObject} {c : Client} (stored : c.Stored heap) :
    writeOneCtrlClient heap c.ptr = .ok (clientLines c) := by
  obtain ⟨host, isHost⟩ := stored.host
  have each : writeEach (writeGetVar heap) (c.vars.map Prod.fst) =
      .ok (c.vars.flatMap fun v => [getVarLine v.2]) := by
    apply writeEach_eq
    intro v isVar
    rw [writeGetVar, ok_bind (stored.derefVar isVar)]
    rfl
  have split : c.vars.flatMap (fun v => [getVarLine v.2]) =
      (c.vars.map Prod.snd).map getVarLine := by
    rw [List.map_map, List.map_eq_flatMap]
    rfl
  rw [writeOneCtrlClient, ok_bind stored.deref]
  simp only [isHost, ok_bind each, split, clientLines, clientLine, Option.getD_some]
  rfl

theorem configWriteCtrlClient_eq {s : CtrlState} {clients : List Client}
    (reg : Registered s clients) :
    configWriteCtrlClient s = .ok (clients.flatMap clientLines) := by
  rw [configWriteCtrlClient, reg.linked]
  exact writeEach_eq fun c mem => writeOneCtrlClient_eq (reg.stored c mem)

/-- A freed variable in a client's list is read by the callback. -/
theorem live_of_configWrite {s : CtrlState} {lines : List CStr}
    (run : configWriteCtrlClient s = .ok lines) {cc gv : Ptr} (isClient : cc ∈ s.ctrlClients)
    (isLinked : gv ∈ s.getVars cc) : s.heap.get? gv ≠ none := by
  obtain ⟨own, here⟩ := of_writeEach run cc isClient
  rw [writeOneCtrlClient] at here
  obtain ⟨⟨cfg, getVars⟩, deref, here⟩ := ok_bind_inv here
  have sameVars : s.getVars cc = getVars := by
    rw [derefClient] at deref
    rw [CtrlState.getVars]
    split at deref <;> cases deref
    next isCell => rw [isCell]
  cases isHost : cfg.remoteHost with
  | none =>
    simp only [isHost] at here
    cases here
  | some host =>
    simp only [isHost] at here
    obtain ⟨vars, later, -⟩ := ok_bind_inv here
    obtain ⟨text, isText⟩ := of_writeEach later gv (sameVars ▸ isLinked)
    obtain ⟨v, derefVar, -⟩ := ok_bind_inv isText
    intro freed
    rw [derefGetVar, freed] at derefVar
    cases derefVar

/-- A registry of interfaces holds their names. -/
theorem exists_names {heap : Heap Entry} {ps : List Ptr} {entries : List Entry}
    (kept : List.Forall₂ (Registries.At heap .netdev) ps entries) :
    ∃ names : List CStr, entries = names.map .netdev ∧
      writeEach (writeOneNetdev heap) ps = .ok (names.map netdevLine) := by
  induction kept with
  | nil => exact ⟨[], rfl, rfl⟩
  | @cons p entry ps entries here _ ih =>
    obtain ⟨names, rfl, run⟩ := ih
    have isKind := here.isKind
    cases entry with
    | netdev name =>
      have first : writeOneNetdev heap p = .ok [netdevLine name] := by
        rw [writeOneNetdev, here.cell]
        rfl
      refine ⟨name :: names, rfl, ?_⟩
      rw [writeEach, ok_bind first, ok_bind run]
      rfl
    | ctrlClient _ | openvpnClient _ | file _ | shellcmd _ =>
      simp [Entry.key, Key.kind] at isKind

/-- The hosts up to the first one whose name cannot be had. -/
def writtenHosts (libs : Libs) (hosts : List CStr) : List CStr :=
  hosts.takeWhile fun host => (libs.username host).isSome

theorem configWritePing_eq {libs : Libs} (documented : libs.Documented) (hosts : List CStr) :
    (configWritePing libs.username hosts).2 = (writtenHosts libs hosts).map pingLine := by
  induction hosts with
  | nil => rfl
  | cons host hosts ih =>
    rw [configWritePing, writtenHosts, List.takeWhile_cons]
    cases isName : libs.username host with
    | none => rfl
    | some text =>
      rw [documented.username host text isName]
      simp only [Option.isSome_some, if_true, List.map_cons, ih]
      rfl

/-! ## How these lines are taken apart -/

theorem isWord_decimal (n : Nat) : IsWord (decimal n) :=
  ⟨decimal_ne_nil n, fun _ mem => isspace_of_isdigit (isdigit_of_mem_decimal mem)⟩

section

variable {vty : Vty} (documented : vty.Documented)

include documented

theorem split_line {line keyword : CStr} {indent : Nat} {args : List CStr}
    (isLine : line = indented indent (keyword :: args)) (noComment : NoComment keyword)
    (isKeyword : IsWord keyword) (isArgs : ∀ word ∈ args, IsWord word) :
    vty.split line = (indent, keyword :: args) := by
  rw [isLine]
  apply documented.split indent keyword args noComment
  exact List.forall_mem_cons.mpr ⟨isKeyword, isArgs⟩

theorem split_clientLine {cfg : HostCfg} {host : CStr} (isHost : cfg.remoteHost = some host)
    (isName : IsWord cfg.name) (isWord : IsWord host) :
    vty.split (clientLine cfg) =
      (0, [ascii "ctrl-client", cfg.name, host, decimal cfg.remotePort.toNat]) := by
  apply split_line documented
  · rw [clientLine, isHost, Option.getD_some]
    simp [indented, unwords, ascii]
  · exact ⟨by decide, by decide⟩
  · exact ⟨by decide, by simp [ascii, isspace]⟩
  · simp [isName, isWord, isWord_decimal]

theorem split_getVarLine {name : CStr} (isName : IsWord name) :
    vty.split (getVarLine name) = (1, [ascii "get-variable", name]) := by
  apply split_line documented
  · rfl
  · exact ⟨by decide, by decide⟩
  · exact ⟨by decide, by simp [ascii, isspace]⟩
  · simp [isName]

theorem split_netdevLine {name : CStr} (isName : IsWord name) :
    vty.split (netdevLine name) = (0, [ascii "netdev", name]) := by
  apply split_line documented
  · rfl
  · exact ⟨by decide, by decide⟩
  · exact ⟨by decide, by simp [ascii, isspace]⟩
  · simp [isName]

theorem split_pingLine {host : CStr} (isHost : IsWord host) :
    vty.split (pingLine host) = (0, [ascii "ping", host]) := by
  apply split_line documented
  · rfl
  · exact ⟨by decide, by decide⟩
  · exact ⟨by decide, by simp [ascii, isspace]⟩
  · simp [isHost]

theorem command?_clientLine {setup : Registries.TcpSetup} {name host : CStr} {port : UInt16}
    (isAddress : vty.isAddress host = true) (isPort : 1 ≤ port.toNat) :
    command? vty setup .config [ascii "ctrl-client", name, host, decimal port.toNat] =
      some (.registry (.ctrlClient name host port)) := by
  have small := port.toNat_lt
  have accepted := documented.decimal port.toNat isPort (by omega)
  have number : IsPort (decimal port.toNat) :=
    ⟨decimal_ne_nil _, fun _ => isdigit_of_mem_decimal, by rw [digitsValue_decimal]; omega⟩
  have back : UInt16.ofInt (atoi (decimal port.toNat)) = port := by
    rw [← UInt16.toNat_inj, port_of_atoi number, digitsValue_decimal]
  simp +decide [command?, installed, argv?, kw, isAddress, accepted, arg, portArg, back]

end

theorem command?_netdevLine (vty : Vty) (setup : Registries.TcpSetup) (name : CStr) :
    command? vty setup .config [ascii "netdev", name] = some (.registry (.netdev name)) := rfl

theorem command?_pingLine (vty : Vty) (setup : Registries.TcpSetup) (host : CStr) :
    command? vty setup .config [ascii "ping", host] = some (.ping host) := rfl

theorem command?_getVarLine (vty : Vty) (setup : Registries.TcpSetup) (name : CStr) :
    command? vty setup .ctrlClient [ascii "get-variable", name] = some (.getVariable name) := rfl

end OsmoSysmon
