import OsmoSysmon.OpenVpn.Basic

/-! # What a state line leaves behind

`parse_state` stores the tokens of a line by their position.  `storeFields` is that
on a list of tokens, without the `strtok` loop, and `readCb_line` is what the client
makes of a whole line.  A field that the line does not carry keeps what an earlier
line or an earlier connection has stored there: `openvpn_values_agree_iff`.
-/

namespace OsmoSysmon

open CText

/-- Text that `parse_state` reads whole. -/
structure Printable (line : CStr) : Prop where
  short : line.length < stateBufSize
  printable : ∀ c ∈ line, isprint c = true

/-- A line that `parse_state` takes for a state. -/
def IsStateLine (line : CStr) : Bool :=
  match line with
  | [] => false
  | c :: _ => isdigit c

def storeFields (vpn : OpenvpnClient) (i : Nat) : List CStr → OpenvpnClient
  | [] => vpn
  | tok :: toks => storeFields (storeToken vpn i tok) (i + 1) toks

/-! ## The token loop -/

theorem parseTokens_eq_storeFields (vpn : OpenvpnClient) (saved : CStr) (left i : Nat) :
    parseTokens vpn saved left i = storeFields vpn i ((tokens comma saved).take left) := by
  induction left generalizing vpn saved i with
  | zero => rfl
  -- one call of `strtok` for each token
  | succ left ih =>
    rw [parseTokens, tokens_eq_strtok comma saved]
    cases strtok comma saved with
    | none => rfl
    | some found =>
      obtain ⟨tok, saved⟩ := found
      exact ih _ _ _

theorem stateText_line {line : CStr} (text : Printable line) {rest : List UInt8}
    (stop : ∀ c ∈ rest.head?, isprint c = false) : stateText (line ++ rest) = line := by
  have short := text.short
  simp only [stateBufSize] at short
  -- the line fits `tmp`, whatever part of the rest does
  have whole : (line ++ rest).take (stateBufSize - 1) =
      line ++ rest.take (stateBufSize - 1 - line.length) := by
    rw [List.take_append, List.take_of_length_le (by simp only [stateBufSize]; omega)]
  rw [stateText, whole, List.takeWhile_append_of_pos text.printable]
  cases rest with
  | nil => simp
  | cons c cs =>
    cases left : stateBufSize - 1 - line.length with
    | zero => simp
    | succ n => simp [stop c rfl]

/-- What follows the carriage return is not looked at. -/
theorem stateText_cr (line : CStr) (rest : List UInt8) :
    stateText (line ++ 13 :: rest) = stateText line := by
  simp only [stateText]
  by_cases fits : line.length ≤ stateBufSize - 1
  · rw [List.take_append, List.take_of_length_le fits]
    cases left : stateBufSize - 1 - line.length with
    | zero => simp
    | succ n =>
      rw [List.take_succ_cons, List.takeWhile_append]
      split
      · next whole =>
        have same := (List.takeWhile_prefix isprint).eq_of_length whole
        simp [isprint, same]
      · rfl
  · rw [List.take_append_of_le_length (by omega)]

/-- A read that begins with a state line stores the part of it that `tmp` has, whatever
    follows its carriage return. -/
theorem readCb_line {line : CStr} (state : IsStateLine line = true) (rest : List UInt8)
    (vpn : OpenvpnClient) :
    readCb (some (line ++ 13 :: rest)) vpn =
      storeFields vpn 0 ((tokens comma (stateText line)).take maxRespComponents) := by
  cases line with
  | nil => cases state
  | cons c cs =>
    rw [List.cons_append, readCb, parseState]
    simp only [if_pos (show isdigit c = true from state)]
    rw [← List.cons_append, stateText_cr, parseTokens_eq_storeFields]

/-! ## Histories -/

/-- The states that a client can be in after connects, disconnects and reads. -/
inductive Reachable (name host : CStr) (port : UInt16) : OpenvpnClient → Prop
  | create : Reachable name host port (openvpnClientCreate name host port)
  | connect {vpn : OpenvpnClient} : Reachable name host port vpn →
      Reachable name host port (connectCb vpn)
  | disconnect {vpn : OpenvpnClient} : Reachable name host port vpn →
      Reachable name host port (disconnectCb vpn)
  | read {vpn : OpenvpnClient} (received : Option (List UInt8)) : Reachable name host port vpn →
      Reachable name host port (readCb received vpn)

/-- Six tokens leave nothing of what was stored before. -/
theorem values_of_six (vpn : OpenvpnClient) (t₀ t₁ t₂ t₃ t₄ t₅ : CStr) :
    openvpnClientValues (storeFields vpn 0 [t₀, t₁, t₂, t₃, t₄, t₅]) =
      [(ascii "status", (t₁ ++ ascii " (" ++ t₂ ++ ascii ")").take (stateBufSize - 1)),
        (ascii "tunnel", t₃),
        (ascii "remote", t₄ ++ ascii ":" ++ decimal (UInt16.ofInt (atoi t₅)).toNat)] :=
  rfl

/-- A client that has just connected. -/
def connectedClient (name host : CStr) (port : UInt16) : OpenvpnClient :=
  connectCb (openvpnClientCreate name host port)

/-- A client that has connected and received a state with all fields. -/
def informedClient (name host : CStr) (port : UInt16) : OpenvpnClient :=
  readCb (some (ascii "1,2,3,4,5,6\r\n")) (connectedClient name host port)

/-- Fewer tokens let one of the two show. -/
theorem values_of_fewer (name host : CStr) (port : UInt16) {toks : List CStr}
    (fewer : toks.length < maxRespComponents) :
    openvpnClientValues (storeFields (connectedClient name host port) 0 toks) ≠
      openvpnClientValues (storeFields (informedClient name host port) 0 toks) := by
  have informed : informedClient name host port =
      { connectedClient name host port with
        remCfg := ⟨ascii "2 (3)", some (ascii "5"), 6⟩
        tunIp := some (ascii "4") } := rfl
  rw [informed]
  -- by the number of tokens: the first field that is missing tells the two apart
  rcases toks with _ | ⟨t₀, _ | ⟨t₁, _ | ⟨t₂, _ | ⟨t₃, _ | ⟨t₄, _ | ⟨t₅, more⟩⟩⟩⟩⟩⟩
  · simp [openvpnClientValues, storeFields, connectedClient, connectCb, updateName, ascii]
  · simp [openvpnClientValues, storeFields, storeToken, connectedClient, connectCb, updateName,
      ascii]
  · simp [openvpnClientValues, storeFields, storeToken, connectedClient, openvpnClientCreate,
      hostCfgAlloc, connectCb, updateName, makeAuthority]
  · simp [openvpnClientValues, storeFields, storeToken, connectedClient, openvpnClientCreate,
      hostCfgAlloc, connectCb, updateName, makeAuthority]
  · simp [openvpnClientValues, storeFields, storeToken, connectedClient, openvpnClientCreate,
      hostCfgAlloc, connectCb, updateName, makeAuthority]
  · -- the ports are 0 and 6
    have differ : decimal 0 ≠ decimal 6 := by decide
    simp [openvpnClientValues, storeFields, storeToken, connectedClient, openvpnClientCreate,
      hostCfgAlloc, connectCb, updateName, updateHost, makeAuthority, differ]
  · simp only [List.length_cons, maxRespComponents] at fewer
    omega

/-- **Two clients publish the same values after the same state line, whatever their
    histories, if and only if the part of the line that `tmp` has carries six fields.** -/
theorem openvpn_values_agree_iff (name host : CStr) (port : UInt16) {line : CStr}
    (state : IsStateLine line = true) (rest : List UInt8) :
    (∀ vpn₁ vpn₂, Reachable name host port vpn₁ → Reachable name host port vpn₂ →
        openvpnClientValues (readCb (some (line ++ 13 :: rest)) vpn₁) =
          openvpnClientValues (readCb (some (line ++ 13 :: rest)) vpn₂)) ↔
      maxRespComponents ≤ (tokens comma (stateText line)).length := by
  simp only [readCb_line state]
  generalize tokens comma (stateText line) = toks
  constructor
  · intro agree
    apply Nat.le_of_not_lt
    intro fewer
    have reached : Reachable name host port (connectedClient name host port) := .connect .create
    have short : (toks.take maxRespComponents).length < maxRespComponents := by
      rw [List.length_take, Nat.min_eq_right (Nat.le_of_lt fewer)]
      exact fewer
    apply values_of_fewer name host port short
    exact agree _ _ reached (.read _ reached)
  · intro enough vpn₁ vpn₂ _ _
    have six : (toks.take maxRespComponents).length = 6 := by
      rw [List.length_take, Nat.min_eq_left enough]
      rfl
    generalize toks.take maxRespComponents = toks at six
    match toks, six with
    | [t₀, t₁, t₂, t₃, t₄, t₅], _ => rw [values_of_six, values_of_six]

/-- The example that the source gives of a response. -/
def stateLineCurrent : CStr :=
  ascii "1552674378,CONNECTED,SUCCESS,10.8.0.11,144.76.43.77,1194,,"

/-- The same from OpenVPN 2.1.3, which stops behind the remote host. -/
def stateLineV213 : CStr := ascii "1552674378,CONNECTED,SUCCESS,10.8.0.11,144.76.43.77"

theorem openvpn_values_agree_current :
    openvpnClientValues (readCb (some (stateLineCurrent ++ 13 :: ascii "\nEND\r\n"))
        (connectedClient (ascii "OpenVPN") (ascii "localhost") 1195)) =
      openvpnClientValues (readCb (some (stateLineCurrent ++ 13 :: ascii "\nEND\r\n"))
        (informedClient (ascii "OpenVPN") (ascii "localhost") 1195)) :=
  (openvpn_values_agree_iff (ascii "OpenVPN") (ascii "localhost") 1195 (by decide) _).mpr
    (by decide) _ _ (.connect .create) (.read _ (.connect .create))

/-- After a reconnect the older response is shown with the port of the connection
    before. -/
theorem openvpn_values_stale :
    ∃ vpn₁ vpn₂, Reachable (ascii "OpenVPN") (ascii "localhost") 1195 vpn₁ ∧
      Reachable (ascii "OpenVPN") (ascii "localhost") 1195 vpn₂ ∧
        openvpnClientValues (readCb (some (stateLineV213 ++ 13 :: ascii "\nEND\r\n")) vpn₁) ≠
          openvpnClientValues (readCb (some (stateLineV213 ++ 13 :: ascii "\nEND\r\n")) vpn₂) := by
  refine ⟨_, _, .connect .create, .connect (.disconnect (.read
    (some (stateLineCurrent ++ 13 :: ascii "\nEND\r\n")) (.connect .create))), ?_⟩
  decide

end OsmoSysmon
