import OsmoSysmon.Ctrl.Connection

/-! # What the polls of a connection report

The poll cycle reaches the connection of a CTRL client through an interface.  Here the
interface answers from a handle and its socket: a poll of the client in memory collects the
values that the poll of the cycle adds to the tree, and leaves behind the client that the
cycle goes on with.
-/

namespace OsmoSysmon

open CText Talloc Loop

/-- What is behind a connection. -/
structure Link where
  handle : SimpleCtrlHandle
  peer : World

/-- The interface during one poll.  `peer` is at the other end of the socket that a
    connect opens. -/
def linkApi (outcome : ConnectOutcome) (peer : World) : CtrlApi Link where
  connect _ := if outcome = .success then some ⟨⟨0, 1000⟩, peer⟩ else none
  query link var :=
    match simpleCtrlGet link.handle var link.peer with
    | .ok ((value, handle), peer) => (value.map HeapStr.text, ⟨handle, peer⟩)
    -- the request does not return
    | .error _ => (none, link)

/-- `cc->sch` and the connection behind it. -/
inductive Behind (s : Conn) : Option Ptr → Option Link → Prop
  | closed : Behind s none none
  | opened {sch : Ptr} {fd : Nat} {link : Link} :
      s.heap.get? sch = some (.handle fd link.handle) → s.peers fd = link.peer →
      Behind s (some sch) (some link)

/-- The client in memory is the client of the cycle, with the connection in the place of its
    handle. -/
structure Mirrors (s : Conn) (sch : Option Ptr) (cc : CtrlClient Link) : Prop where
  client : s.heap.get? s.cc = some (.client ⟨cc.cfg, sch, cc.getVars⟩)
  /-- The client is not below one of its handles. -/
  top : s.heap.owners s.cc = []
  link : Behind s sch cc.sch

section

variable {s t u : Conn} {sch : Option Ptr} {h : Ptr} {cfg : HostCfg} {vars : List CStr}
  {link : Option Link} {outcome : ConnectOutcome}

/-- A handle is not where the client is. -/
theorem ne_of_handle {cc : CtrlClient Ptr} {fd : Nat} {handle : SimpleCtrlHandle}
    (client : s.heap.get? s.cc = some (.client cc))
    (isHandle : s.heap.get? h = some (.handle fd handle)) : h ≠ s.cc := by
  rintro rfl
  cases client.symm.trans isHandle

theorem setSch_mirrors (old : Option Ptr)
    (client : s.heap.get? s.cc = some (.client ⟨cfg, old, vars⟩))
    (top : s.heap.owners s.cc = []) (behind : Behind s sch link)
    (run : Conn.setSch sch s = .ok ((), t)) : Mirrors t sch ⟨cfg, link, vars⟩ := by
  rw [Conn.setSch, bind_ok (Conn.derefClient_of_get? client)] at run
  cases run
  refine ⟨Heap.get?_set_self client _, ?_, ?_⟩
  · exact (Heap.owners_set s.heap s.cc s.cc _).trans top
  · cases behind with
    | closed => exact .closed
    | opened isHandle isPeer =>
      have other := ne_of_handle client isHandle
      exact .opened ((Heap.get?_set_of_ne other).trans isHandle) isPeer

/-- A request answers what the interface answers. -/
theorem simpleCtrlGet_mirrors {here : Link} {var : CStr} {value : Option CStr}
    (outcome : ConnectOutcome) (peer : World) (mirrors : Mirrors s (some h) ⟨cfg, some here, vars⟩)
    (run : Conn.simpleCtrlGet h var s = .ok (value, t)) :
    ∃ next, (linkApi outcome peer).query here var = (value, next) ∧
      Mirrors t (some h) ⟨cfg, some next, vars⟩ := by
  cases mirrors.link with
  | @opened _ fd _ isHandle isPeer =>
    rw [Conn.simpleCtrlGet, bind_ok (Conn.derefHandle_of_get? isHandle)] at run
    simp only [bind_ok (get_ok s), isPeer] at run
    cases call : simpleCtrlGet here.handle var here.peer with
    | error fault =>
      rw [call] at run
      cases run
    | ok result =>
      obtain ⟨⟨answer, handle⟩, after⟩ := result
      rw [call] at run
      cases run
      have other := ne_of_handle mirrors.client isHandle
      refine ⟨⟨handle, after⟩, by simp only [linkApi, call], ?_⟩
      constructor
      · exact (Heap.get?_set_of_ne other.symm).trans mirrors.client
      · exact (Heap.owners_set s.heap h s.cc _).trans mirrors.top
      · have current := @Function.update_self _ (fun _ => World) _ fd after s.peers
        exact .opened (Heap.get?_set_self isHandle _) current

theorem simpleCtrlClose_mirrors {here : Link} (mirrors : Mirrors s (some h) ⟨cfg, some here, vars⟩)
    (close : Conn.simpleCtrlClose h s = .ok ((), t)) (forget : Conn.setSch none t = .ok ((), u)) :
    Mirrors u none ⟨cfg, none, vars⟩ := by
  cases mirrors.link with
  | @opened _ fd _ isHandle isPeer =>
    rw [Conn.simpleCtrlClose, bind_ok (Conn.derefHandle_of_get? isHandle)] at close
    cases close
    have other := (ne_of_handle mirrors.client isHandle).symm
    have outside : h ∉ s.heap.owners s.cc := by simp [mirrors.top]
    have client := (Heap.get?_free_of_survives other outside).trans mirrors.client
    have top := (Heap.owners_free_of_survives other outside).trans mirrors.top
    exact setSch_mirrors (some h) client top .closed forget

/-- The loop over the variables collects the values that the loop of the cycle adds to the
    tree. -/
theorem pollGetVars_mirrors {here : Link} {names : List CStr} {values : List (CStr × CStr)}
    (outcome : ConnectOutcome) (peer : World) (mirrors : Mirrors s (some h) ⟨cfg, some here, vars⟩)
    (run : Conn.pollGetVars h names s = .ok (values, t)) :
    ∃ sch link, Mirrors t sch ⟨cfg, link, vars⟩ ∧
      ∀ vnClnt, pollGetVars (linkApi outcome peer) vnClnt here names =
        (do addValues vnClnt values
            return link) := by
  induction names generalizing s here values with
  | nil =>
    cases run
    exact ⟨_, _, mirrors, fun _ => rfl⟩
  | cons name names ih =>
    obtain ⟨answer, s₁, get, run⟩ := bind_inv run
    obtain ⟨next, query, mirrors⟩ := simpleCtrlGet_mirrors outcome peer mirrors get
    cases answer with
    | none =>
      obtain ⟨_, s₂, close, run⟩ := bind_inv run
      obtain ⟨_, s₃, forget, run⟩ := bind_inv run
      cases run
      refine ⟨none, none, simpleCtrlClose_mirrors mirrors close forget, fun vnClnt => ?_⟩
      rw [pollGetVars, query]
      rfl
    | some value =>
      obtain ⟨later, s₂, poll, run⟩ := bind_inv run
      cases run
      obtain ⟨sch, link, mirrors, same⟩ := ih mirrors poll
      refine ⟨sch, link, mirrors, fun vnClnt => ?_⟩
      rw [pollGetVars, query, addValues]
      simp only [same, bind_assoc]

/-- Connecting again is what the interface does for a client without a connection. -/
theorem reconnect_mirrors (mirrors : Mirrors s sch ⟨cfg, link, vars⟩)
    (run : Conn.reconnect outcome s = .ok ((), t)) :
    ∃ sch', Mirrors t sch'
      ⟨cfg, link <|> (linkApi outcome (s.peers s.newSocket)).connect cfg, vars⟩ := by
  rw [Conn.reconnect, bind_ok (Conn.derefClient_of_get? mirrors.client)] at run
  have before := mirrors.link
  cases sch with
  | some h =>
    cases run
    cases before
    exact ⟨_, mirrors⟩
  | none =>
    cases before
    rw [if_pos rfl, bind_ok (get_ok s)] at run
    obtain ⟨sch', s₁, attempt, run⟩ := bind_inv run
    rw [Conn.simpleCtrlOpen_eq] at attempt
    -- the new handle does not take the place of the client
    have old : s.cc ≠ s.heap.next := Nat.ne_of_lt (Heap.lt_next_of_get? mirrors.client)
    have client : (s.allocHandle s.cc).heap.get? s.cc = some (.client ⟨cfg, none, vars⟩) :=
      (Heap.get?_alloc_of_ne old).trans mirrors.client
    have top : (s.allocHandle s.cc).heap.owners s.cc = [] :=
      (Heap.owners_alloc_of_ne old).trans mirrors.top
    cases outcome with
    | socketError | timeout | selectError | ioctlError =>
      cases attempt
      refine ⟨_, setSch_mirrors none ?_ ?_ ?_ run⟩
      · exact client
      · exact top
      · exact .closed
    | success =>
      cases attempt
      have new := Heap.get?_alloc_self s.heap (some s.cc) (.handle 0 ⟨0, 0⟩)
      refine ⟨_, setSch_mirrors none ?_ ?_ ?_ run⟩
      · exact (Heap.get?_set_of_ne old).trans client
      · exact (Heap.owners_set _ _ _ _).trans top
      · exact .opened (Heap.get?_set_self new (.handle s.newSocket ⟨0, 1000⟩)) rfl

/-- A poll of the client in memory reports what the poll of the cycle adds to the tree. -/
theorem ctrlClientPoll_mirrors {ret : Int} {values : List (CStr × CStr)}
    (mirrors : Mirrors s sch ⟨cfg, link, vars⟩)
    (run : Conn.ctrlClientPoll outcome s = .ok ((ret, values), t)) :
    ∃ sch' link', Mirrors t sch' ⟨cfg, link', vars⟩ ∧ ∀ parent,
      ctrlClientPoll (linkApi outcome (s.peers s.newSocket)) ⟨cfg, link, vars⟩ parent =
        (do let vnClnt ← valueNodeAdd parent cfg.name none
            addValues vnClnt values
            return ⟨cfg, link', vars⟩) := by
  obtain ⟨_, s₁, connect, run⟩ := bind_inv run
  obtain ⟨sch₁, mirrors⟩ := reconnect_mirrors mirrors connect
  rw [bind_ok (Conn.derefClient_of_get? mirrors.client)] at run
  dsimp only at run
  have behind := mirrors.link
  cases connected : link <|> (linkApi outcome (s.peers s.newSocket)).connect cfg with
  | none =>
    rw [connected] at mirrors behind
    cases behind
    cases run
    refine ⟨none, none, mirrors, fun parent => ?_⟩
    rw [ctrlClientPoll, connected]
    rfl
  | some here =>
    rw [connected] at mirrors behind
    cases behind with
    | opened _ _ =>
      obtain ⟨values', s₂, poll, run⟩ := bind_inv run
      cases run
      obtain ⟨sch₂, link', mirrors, same⟩ :=
        pollGetVars_mirrors outcome (s.peers s.newSocket) mirrors poll
      refine ⟨sch₂, link', mirrors, fun parent => ?_⟩
      simp only [ctrlClientPoll, connected, same, bind_assoc, pure_bind]

theorem Mirrors.sch_eq {cc : CtrlClient Link} (mirrors : Mirrors s sch cc)
    (linked : s.linked = true) : s.sch = sch := by
  apply Conn.sch_eq linked
  rw [Conn.cell?, mirrors.client]
  rfl

theorem Mirrors.sch_ne_none {cc : CtrlClient Link} (mirrors : Mirrors s sch cc) :
    sch ≠ none ↔ cc.sch ≠ none := by
  have behind := mirrors.link
  cases cc
  cases behind with
  | closed => simp
  | opened _ _ => simp

end

/-! ## Runs -/

/-- The connection of a poll: the one that the client has, or the one that a connect opens. -/
def Conn.pollLink (s : Conn) (outcome : ConnectOutcome) : Option Link :=
  match s.sch with
  | some sch =>
    match s.heap.get? sch with
    | some (.handle fd handle) => some ⟨handle, s.peers fd⟩
    | _ => none
  | none => if outcome = .success then some ⟨⟨0, 1000⟩, s.peers s.newSocket⟩ else none

theorem Mirrors.pollLink_eq {s : Conn} {cc : CtrlClient Link} (mirrors : Mirrors s s.sch cc)
    (outcome : ConnectOutcome) :
    s.pollLink outcome = (cc.sch <|> (linkApi outcome (s.peers s.newSocket)).connect cc.cfg) := by
  obtain ⟨cfg, link, vars⟩ := cc
  have behind := mirrors.link
  rw [Conn.pollLink]
  cases sch : s.sch with
  | none =>
    rw [sch] at behind
    cases behind
    rfl
  | some h =>
    rw [sch] at behind
    cases behind with
    | opened isHandle isPeer =>
      simp only [isHandle, isPeer]
      rfl

/-- The poll from `s` to `t` collects what the cycle's poll of the client adds to the tree,
    and ends with the client that it returns. -/
def Reports (cfg : HostCfg) (getVars : List CStr) (s : Conn) (outcome : ConnectOutcome)
    (t : Conn) : Prop :=
  ∃ link link' ret values, Mirrors s s.sch ⟨cfg, link, getVars⟩ ∧
    Mirrors t t.sch ⟨cfg, link', getVars⟩ ∧
    Conn.ctrlClientPoll outcome s = .ok ((ret, values), t) ∧ ∀ parent,
      ctrlClientPoll (linkApi outcome (s.peers s.newSocket)) ⟨cfg, link, getVars⟩ parent =
        (do let vnClnt ← valueNodeAdd parent cfg.name none
            addValues vnClnt values
            return ⟨cfg, link', getVars⟩)

section

variable {cfg : HostCfg} {getVars : List CStr} {peers : Nat → World}

theorem mirrors_start (cfg : HostCfg) (getVars : List CStr) (peers : Nat → World) :
    Mirrors (Conn.start cfg getVars peers) none ⟨cfg, none, getVars⟩ :=
  ⟨rfl, rfl, .closed⟩

theorem connStep_mirrors (s : Conn) (e : ConnEvent) (t : Conn)
    (mirrors : s.linked = true → ∃ sch link, Mirrors s sch ⟨cfg, link, getVars⟩)
    (step : ConnStep s e t) : t.linked = true → ∃ sch link, Mirrors t sch ⟨cfg, link, getVars⟩ := by
  intro linked
  cases step with
  | poll before run =>
    obtain ⟨sch, link, mirrors⟩ := mirrors before
    obtain ⟨sch', link', mirrors', -⟩ := ctrlClientPoll_mirrors mirrors run
    exact ⟨sch', link', mirrors'⟩
  | destroy => cases linked

/-- In a run of polls of one client and of its end, every poll reports to the tree what the
    peer has answered. -/
theorem ctrl_polls_report {path : List (Run.Transition Conn ConnEvent)}
    (run : Run.Path ConnStep (Conn.start cfg getVars peers) path) :
    ∀ x ∈ path, ∀ outcome, x.event = .poll outcome →
      Reports cfg getVars x.before outcome x.after := by
  intro x mem outcome isPoll
  have known := (run.invariant (fun _ => ⟨_, _, mirrors_start cfg getVars peers⟩) connStep_mirrors x
    mem).1
  obtain ⟨lost, left, accounts⟩ := (run.invariant ⟨_, _, Conn.accounts_start cfg getVars peers⟩
    Conn.connStep_accountable x mem).1
  have step := run.taken x mem
  rw [isPoll] at step
  cases step with
  | @poll _ _ result linked poll =>
    obtain ⟨sch, link, mirrors⟩ := known linked
    obtain ⟨sch', link', mirrors', same⟩ := ctrlClientPoll_mirrors mirrors poll
    rcases Conn.ctrlClientPoll_ok accounts linked outcome with
      ⟨fault, stuck⟩ | ⟨_, t, returns, linked', -⟩
    · cases poll.symm.trans stuck
    · cases poll.symm.trans returns
      refine ⟨link, link', result.1, result.2, ?_, ?_, poll, same⟩
      · exact mirrors.sch_eq linked ▸ mirrors
      · exact mirrors'.sch_eq linked' ▸ mirrors'

end

end OsmoSysmon
