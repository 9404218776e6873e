import OsmoSysmon.OpenVpn.StateLine

/-! # `parse_state` in its buffers

The function again, with the two arrays on its stack: `tmp`, in which `strtok` works on
the text, and `buf`, in which the status is composed.  What is in them at the start is
arbitrary.  `parseStateIn_ok` says that no access leaves them and that the result is that
of `parseState`.
-/

namespace OsmoSysmon

open CText

abbrev StateBuf := Buffer stateBufSize

/-- The loop that ends the text at the first byte that is not printable. -/
def cutLine (tmp : StateBuf) (i : Nat) : (left : Nat) → Except Fault StateBuf
  | 0 => .ok tmp
  | left + 1 => do
    if isprint (← tmp.load i) then cutLine tmp (i + 1) left
    else tmp.store i 0

/-- The `switch`, on the token that starts at `tok`. -/
def storeTokenAt (tmp buf : StateBuf) (vpn : OpenvpnClient) (i tok : Nat) :
    Except Fault OpenvpnClient := do
  match i with
  | 1 =>
    let tok ← tmp.text tok
    return { vpn with remCfg := updateName vpn.remCfg tok }
  | 2 =>
    let tok ← tmp.text tok
    let buf ← buf.snprintf (vpn.remCfg.name ++ ascii " (" ++ tok ++ ascii ")")
    let buf ← buf.text 0
    return { vpn with remCfg := updateName vpn.remCfg buf }
  | 3 =>
    let tok ← tmp.text tok
    return { vpn with tunIp := some tok }
  | 4 =>
    let tok ← tmp.text tok
    return { vpn with remCfg := updateHost vpn.remCfg tok }
  | 5 =>
    let tok ← tmp.text tok
    return { vpn with remCfg := { vpn.remCfg with remotePort := UInt16.ofInt (atoi tok) } }
  | _ => return vpn

/-- The `for` loop over the tokens; `left` counts down to `MAX_RESP_COMPONENTS`.  Behind the
    last token that is stored, `strtok` is called once more. -/
def tokenLoop (buf : StateBuf) (vpn : OpenvpnClient) (tmp : StateBuf) (tok : Option Nat)
    (saved i : Nat) : (left : Nat) → Except Fault OpenvpnClient
  | 0 => .ok vpn
  | left + 1 =>
    match tok with
    | none => .ok vpn
    | some start => do
      let vpn ← storeTokenAt tmp buf vpn i start
      let (tok, tmp, saved) ← tmp.strtok comma saved
      tokenLoop buf vpn tmp tok saved (i + 1) left

/-- What is done to `tmp` before the first `strtok`. -/
def copyLine (tmp : StateBuf) (m : List UInt8) : Except Fault StateBuf := do
  let truncatedLen := min (stateBufSize - 1) m.length
  let tmp ← tmp.storeAll 0 (m.take truncatedLen)
  let tmp ← tmp.store truncatedLen 0
  -- only interested in first line
  cutLine tmp 0 truncatedLen

def parseStateIn (tmp buf : StateBuf) (m : List UInt8) (vpn : OpenvpnClient) :
    Except Fault OpenvpnClient :=
  match m with
  | [] => .ok vpn
  | b :: _ =>
    -- skip OpenVPN greetings and alike
    if isdigit b then do
      let tmp ← copyLine tmp m
      let (tok, tmp, saved) ← tmp.strtok comma 0
      tokenLoop buf vpn tmp tok saved 0 maxRespComponents
    else .ok vpn

/-! ## The text -/

theorem cutLine_ok {tmp : StateBuf} {front s rest : List UInt8}
    (held : tmp.bytes = front ++ (s ++ 0 :: rest)) :
    ∃ tmp' rest', cutLine tmp front.length s.length = .ok tmp' ∧
      tmp'.bytes = front ++ (s.takeWhile isprint ++ 0 :: rest') := by
  -- by induction on what is still to be looked at
  induction s generalizing front with
  | nil => exact ⟨tmp, rest, rfl, held⟩
  | cons c s ih =>
    have here : tmp.bytes[front.length]? = some c := by
      rw [held, List.getElem?_append_right (Nat.le_refl _), Nat.sub_self]
      rfl
    rw [List.length_cons, cutLine, Loop.ok_bind (Buffer.load_ok here), List.takeWhile_cons]
    by_cases printable : isprint c = true
    · rw [if_pos printable, if_pos printable]
      have next : tmp.bytes = (front ++ [c]) ++ (s ++ 0 :: rest) := by
        rw [held, List.append_assoc]
        rfl
      obtain ⟨tmp', rest', run, cut⟩ := ih next
      rw [List.length_append, List.length_singleton] at run
      refine ⟨tmp', rest', run, ?_⟩
      rw [cut, List.append_assoc]
      rfl
    · rw [if_neg printable, if_neg printable]
      have found : tmp.bytes.drop 0 = front ++ c :: (s ++ 0 :: rest) := held
      obtain ⟨tmp', store, cut⟩ := @Buffer.store_at Fault _ _ _ _ _ _ _ found 0
      rw [Nat.zero_add] at store
      exact ⟨tmp', _, store, cut⟩

theorem stateText_free_of_nul (m : List UInt8) : 0 ∉ stateText m := fun member =>
  ne_zero_of_isprint (List.mem_takeWhile_imp member) rfl

theorem copyLine_holds (tmp : StateBuf) (m : List UInt8) :
    ∃ tmp', copyLine tmp m = .ok tmp' ∧ tmp'.Holds 0 (stateText m) := by
  -- the part of the message that is copied
  obtain ⟨copied, isCopied, length⟩ : ∃ copied, m.take (min (stateBufSize - 1) m.length) = copied ∧
      min (stateBufSize - 1) m.length = copied.length :=
    ⟨_, rfl, by rw [List.length_take, Nat.min_assoc, Nat.min_self]⟩
  have inside : 0 + copied.length < stateBufSize := by
    rw [← length]
    simp only [stateBufSize]
    omega
  obtain ⟨tmp₁, c, rest, copy, -, front⟩ := @Buffer.storeAll_inside Fault _ _ tmp _ _ inside
  obtain ⟨tmp₂, store, ended⟩ := @Buffer.store_at Fault _ _ tmp₁ 0 copied rest c front 0
  obtain ⟨tmp₃, rest', cut, held⟩ := @cutLine_ok tmp₂ [] copied _ ended
  rw [Nat.zero_add] at store
  rw [copyLine, isCopied, length, Loop.ok_bind copy, Loop.ok_bind store]
  refine ⟨tmp₃, cut, stateText_free_of_nul m, rest', ?_⟩
  rw [stateText, List.take_eq_take_min, isCopied]
  exact held

/-! ## The tokens -/

/-- What `strtok` has returned for a text. -/
def AtToken (tmp : StateBuf) (tok : Option Nat) (saved : Nat) (s : CStr) : Prop :=
  match strtok comma s with
  | none => tok = none
  | some (t, s') => ∃ start, tok = some start ∧ tmp.Holds start t ∧ tmp.Holds saved s'

theorem strtok_atToken {tmp : StateBuf} {saved : Nat} {s : CStr} (held : tmp.Holds saved s) :
    ∃ tok tmp' saved', (tmp.strtok comma saved : Except Fault _) = .ok (tok, tmp', saved') ∧
      AtToken tmp' tok saved' s :=
  Buffer.strtok_holds (by decide) held

theorem storeTokenAt_ok {tmp : StateBuf} {start : Nat} {t : CStr} (held : tmp.Holds start t)
    (buf : StateBuf) {vpn : OpenvpnClient} {i : Nat} (named : i = 2 → 0 ∉ vpn.remCfg.name) :
    storeTokenAt tmp buf vpn i start = .ok (storeToken vpn i t) := by
  have text := @Buffer.Holds.text Fault _ _ _ _ _ held
  match i with
  | 0 => rfl
  | 1 | 3 | 4 | 5 =>
    rw [storeTokenAt, Loop.ok_bind text]
    rfl
  | 2 =>
    have noNul : 0 ∉ vpn.remCfg.name ++ ascii " (" ++ t ++ ascii ")" := by
      simp only [List.mem_append, not_or]
      exact ⟨⟨⟨named rfl, by decide⟩, held.1⟩, by decide⟩
    obtain ⟨buf', composed, status⟩ :=
      @Buffer.snprintf_holds Fault _ _ (by decide) buf _ noNul
    rw [storeTokenAt, Loop.ok_bind text, Loop.ok_bind composed, Loop.ok_bind status.text]
    rfl
  | i + 6 => rfl

theorem tokenLoop_ok (buf : StateBuf) {vpn : OpenvpnClient} {tmp : StateBuf} {tok : Option Nat}
    {saved i left : Nat} {s : CStr} (here : AtToken tmp tok saved s)
    (named : i = 2 → 0 ∉ vpn.remCfg.name) :
    tokenLoop buf vpn tmp tok saved i left = .ok (parseTokens vpn s left i) := by
  induction left generalizing vpn tmp tok saved i s with
  | zero => rfl
  -- one token, and the call of `strtok` for the next
  | succ left ih =>
    rw [parseTokens]
    rw [AtToken] at here
    cases found : strtok comma s with
    | none =>
      rw [found] at here
      rw [show tok = none from here]
      rfl
    | some next =>
      obtain ⟨t, s'⟩ := next
      rw [found] at here
      obtain ⟨start, rfl, isTok, isRest⟩ := here
      obtain ⟨tok', tmp', saved', call, there⟩ := strtok_atToken isRest
      -- the name that the third token is appended to is the second token
      have renamed : i + 1 = 2 → 0 ∉ (storeToken vpn i t).remCfg.name := by
        intro second
        obtain rfl : i = 1 := by omega
        exact isTok.1
      rw [tokenLoop, Loop.ok_bind (storeTokenAt_ok isTok buf named), Loop.ok_bind call]
      exact ih there renamed

/-- No access leaves a buffer, and what is stored is what `parseState` stores. -/
theorem parseStateIn_ok (tmp buf : StateBuf) (m : List UInt8) (vpn : OpenvpnClient) :
    parseStateIn tmp buf m vpn = .ok (parseState m vpn) := by
  cases m with
  | nil => rfl
  | cons b m =>
    rw [parseStateIn, parseState]
    by_cases digit : isdigit b = true
    · rw [if_pos digit, if_pos digit]
      obtain ⟨tmp', copy, held⟩ := copyLine_holds tmp (b :: m)
      obtain ⟨tok, tmp'', saved, call, here⟩ := strtok_atToken held
      rw [Loop.ok_bind copy, Loop.ok_bind call]
      exact tokenLoop_ok buf here fun third => absurd third (by decide)
    · rw [if_neg digit, if_neg digit]

/-! ## The status -/

/-- What `strtok` finds in a message that is taken for a state. -/
def stateTokens (m : List UInt8) : List CStr :=
  if IsStateLine m then tokens comma (stateText m) else []

theorem parseState_eq_storeFields (m : List UInt8) (vpn : OpenvpnClient) :
    parseState m vpn = storeFields vpn 0 ((stateTokens m).take maxRespComponents) := by
  cases m with
  | nil => rfl
  | cons b m =>
    rw [parseState, stateTokens]
    by_cases digit : isdigit b = true
    · rw [if_pos digit, if_pos (show IsStateLine (b :: m) = true from digit)]
      exact parseTokens_eq_storeFields _ _ _ _
    · rw [if_neg digit, if_neg (show ¬ IsStateLine (b :: m) = true from digit)]
      rfl

theorem isprint_of_isdigit {c : UInt8} (digit : isdigit c = true) : isprint c = true := by
  grind [isdigit, isprint]

theorem isStateLine_stateText (m : List UInt8) : IsStateLine (stateText m) = IsStateLine m := by
  cases m with
  | nil => rfl
  | cons b m =>
    rw [stateText, stateBufSize, List.take_succ_cons, List.takeWhile_cons]
    by_cases printable : isprint b = true
    · rw [if_pos printable]
      rfl
    · rw [if_neg printable]
      have noDigit : isdigit b = false := by
        rw [← Bool.not_eq_true]
        exact fun digit => printable (isprint_of_isdigit digit)
      exact noDigit.symm

/-- The first byte of the text is a digit, so the first token is not empty. -/
theorem stateTokens_length_le (m : List UInt8) :
    (stateTokens m).flatten.length + (stateTokens m).length ≤ stateBufSize := by
  rw [stateTokens]
  split
  · have fits := tokens_length_le comma (stateText m)
    have short : (stateText m).length ≤ stateBufSize - 1 :=
      (List.takeWhile_prefix isprint).length_le.trans (List.length_take_le _ _)
    have room : stateBufSize - 1 + 1 = stateBufSize := rfl
    omega
  · exact Nat.zero_le _

/-- The status that the tokens spell. -/
def status? : List CStr → Option CStr
  | _ :: t₁ :: t₂ :: _ => some (t₁ ++ ascii " (" ++ t₂ ++ ascii ")")
  | [_, t₁] => some t₁
  | _ => none

theorem storeFields_name {i : Nat} (later : 3 ≤ i) (vpn : OpenvpnClient) (toks : List CStr) :
    (storeFields vpn i toks).remCfg.name = vpn.remCfg.name := by
  induction toks generalizing vpn i with
  | nil => rfl
  | cons t toks ih =>
    rw [storeFields, ih (by omega)]
    obtain ⟨k, rfl⟩ := Nat.exists_eq_add_of_le' later
    rcases k with _ | _ | _ | k
    · rfl
    · rfl
    · rfl
    · rfl

/-- The status is composed whole if the tokens come out of a text that fits `tmp`. -/
theorem storeFields_composed {t₀ t₁ t₂ : CStr} {more : List CStr} (first : t₀ ≠ [])
    (fits : (t₀ :: t₁ :: t₂ :: more).flatten.length + (t₀ :: t₁ :: t₂ :: more).length ≤
      stateBufSize) (vpn : OpenvpnClient) :
    storeFields vpn 0 ((t₀ :: t₁ :: t₂ :: more).take maxRespComponents) =
      storeFields { vpn with remCfg := updateName vpn.remCfg (t₁ ++ ascii " (" ++ t₂ ++ ascii ")") }
        3 (more.take 3) := by
  have whole : (t₁ ++ ascii " (" ++ t₂ ++ ascii ")").length ≤ stateBufSize - 1 := by
    have visible := List.length_pos_iff.mpr first
    simp only [List.flatten_cons, List.length_append, List.length_cons, stateBufSize] at fits
    simp only [List.length_append, show (ascii " (").length = 2 from rfl,
      show (ascii ")").length = 1 from rfl, stateBufSize]
    omega
  have composed : storeToken (storeToken (storeToken vpn 0 t₀) 1 t₁) 2 t₂ =
      { vpn with
        remCfg := updateName vpn.remCfg
          ((t₁ ++ ascii " (" ++ t₂ ++ ascii ")").take (stateBufSize - 1)) } := rfl
  rw [List.take_of_length_le whole] at composed
  rw [← composed]
  rfl

theorem storeFields_status {toks : List CStr} (nonempty : ∀ t ∈ toks, t ≠ [])
    (fits : toks.flatten.length + toks.length ≤ stateBufSize) (vpn : OpenvpnClient) :
    (storeFields vpn 0 (toks.take maxRespComponents)).remCfg.name =
      (status? toks).getD vpn.remCfg.name := by
  rcases toks with _ | ⟨t₀, _ | ⟨t₁, _ | ⟨t₂, more⟩⟩⟩
  · rfl
  · rfl
  · rfl
  · rw [storeFields_composed (nonempty t₀ List.mem_cons_self) fits,
      storeFields_name (Nat.le_refl 3)]
    rfl

theorem stateTokens_ne_nil {m : List UInt8} {t : CStr} (member : t ∈ stateTokens m) : t ≠ [] := by
  rw [stateTokens] at member
  split at member
  · simpa using (List.mem_filter.mp member).2
  · cases member

/-- **`parse_state` stays in its buffers, goes by the first 127 bytes up to one that is not
    printable, and composes the status whole.** -/
theorem parseState_in_buffers (tmp buf : StateBuf) (m : List UInt8) (vpn : OpenvpnClient) :
    ∃ vpn', parseStateIn tmp buf m vpn = .ok vpn' ∧
      (∀ tmp' buf' m', (m'.take (min 127 m'.length)).takeWhile isprint =
          (m.take (min 127 m.length)).takeWhile isprint →
        parseStateIn tmp' buf' m' vpn = .ok vpn') ∧
      vpn'.remCfg.name = (status? (stateTokens m)).getD vpn.remCfg.name := by
  refine ⟨parseState m vpn, parseStateIn_ok tmp buf m vpn, ?_, ?_⟩
  · intro tmp' buf' m' same
    rw [← List.take_eq_take_min, ← List.take_eq_take_min] at same
    have same : stateText m' = stateText m := same
    rw [parseStateIn_ok, parseState_eq_storeFields, parseState_eq_storeFields, stateTokens,
      stateTokens, ← isStateLine_stateText m, ← isStateLine_stateText m', same]
  · rw [parseState_eq_storeFields]
    exact storeFields_status (fun t => stateTokens_ne_nil) (stateTokens_length_le m) vpn

end OsmoSysmon
