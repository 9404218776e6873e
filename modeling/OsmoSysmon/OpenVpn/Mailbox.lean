import OsmoSysmon.Lib.Run
import OsmoSysmon.OpenVpn.Lifecycle

/-! # The messages of the OpenVPN polls

`openvpn_client_poll` allocates a message before it looks whether there is a connection
to send it on.  A message has a new owner once it is handed to the connection, and is
gone once it is freed; `Accounted` says that one of the two has happened to every message,
once.
-/

namespace OsmoSysmon

open CText Loop

inductive MsgEvent where
  | alloc (id : Nat)
  /-- `osmo_stream_cli_send`, which takes the message over. -/
  | send (id : Nat) (text : CStr)
  | free (id : Nat)
deriving DecidableEq, Repr

/-- The clients, the tree that is being built and what has happened to messages, newest
    first. -/
structure Mgmt where
  clients : List OpenvpnClient
  nodes : Nodes
  msgs : List MsgEvent

abbrev MgmtM := StateT Mgmt (Except Fault)

/-- A statement that works on the tree. -/
def onNodes {α : Type} (m : NodeM α) : MgmtM α := do
  let s ← get
  let (a, nodes) ← (m s.nodes : Except Fault (α × Nodes))
  set { s with nodes }
  return a

def logMsg (event : MsgEvent) : MgmtM Unit := modify fun s => { s with msgs := event :: s.msgs }

/-- `msgb_alloc`; the number is new. -/
def allocMsg : MgmtM Nat := do
  let s ← get
  logMsg (.alloc s.msgs.length)
  return s.msgs.length

/-- `openvpn_client_poll` with its message. -/
def openvpnClientPollMsg (vpn : OpenvpnClient) (parent : Option Ptr) : MgmtM Unit :=
  match makeAuthority vpn.cfg with
  | none => throw .nullPointer
  | some authority => do
    let vnHost ← onNodes (valueNodeFindOrAdd parent authority)
    let msg ← allocMsg
    onNodes (addValues vnHost (openvpnClientValues vpn))
    -- re-trigger state command; without a connection nothing is done with the message
    if vpn.connected then logMsg (.send msg (ascii "state\n"))

/-- One event at the `i`-th client. -/
inductive MgmtStep : Mgmt → Nat × OpenvpnEvent → Mgmt → Prop
  | callback {s : Mgmt} {i : Nat} {vpn : OpenvpnClient} {e : OpenvpnEvent} :
      s.clients[i]? = some vpn → e ≠ .poll →
      MgmtStep s (i, e) { s with clients := s.clients.set i (e.step vpn) }
  | poll {s t : Mgmt} {i : Nat} {vpn : OpenvpnClient} {parent : Option Ptr} :
      s.clients[i]? = some vpn → openvpnClientPollMsg vpn parent s = .ok ((), t) →
      MgmtStep s (i, .poll) t

/-- What has been done with a message, so that it no longer belongs to the poll. -/
def disposals (id : Nat) (msgs : List MsgEvent) : List MsgEvent :=
  msgs.filter fun
    | .alloc _ => false
    | .send id' _ => id' == id
    | .free id' => id' == id

/-- Every message has been handed over or freed, one of the two and once. -/
def Accounted (msgs : List MsgEvent) : Prop :=
  ∀ id, .alloc id ∈ msgs → (disposals id msgs).length = 1

/-- The messages that belong to nobody. -/
def orphans (msgs : List MsgEvent) : List Nat :=
  msgs.filterMap fun
    | .alloc id => if disposals id msgs = [] then some id else none
    | _ => none

/-! ## One poll -/

theorem onNodes_inv {α : Type} {m : NodeM α} {s t : Mgmt} {a : α}
    (run : onNodes m s = .ok (a, t)) :
    ∃ nodes, m s.nodes = .ok (a, nodes) ∧ t = { s with nodes } := by
  rw [onNodes, bind_ok (get_ok s)] at run
  obtain ⟨⟨b, nodes⟩, u, lifted, run⟩ := bind_inv run
  obtain ⟨inner, rfl⟩ := lift_inv lifted
  cases run
  exact ⟨nodes, inner, rfl⟩

/-- What a poll does to the messages: one is allocated, and sent if there is something to
    send. -/
def msgsAfter (sent : Option CStr) (msgs : List MsgEvent) : List MsgEvent :=
  (sent.map (MsgEvent.send msgs.length)).toList ++ .alloc msgs.length :: msgs

/-- The poll does to the tree what it does without its message, and hands over what that
    returns. -/
theorem openvpnClientPollMsg_inv {vpn : OpenvpnClient} {parent : Option Ptr} {s t : Mgmt}
    (run : openvpnClientPollMsg vpn parent s = .ok ((), t)) :
    ∃ sent nodes, openvpnClientPoll vpn parent s.nodes = .ok (sent, nodes) ∧
      t = { s with nodes, msgs := msgsAfter sent s.msgs } := by
  cases authority : makeAuthority vpn.cfg with
  | none =>
    simp only [openvpnClientPollMsg, authority] at run
    cases run
  | some text =>
    simp only [openvpnClientPollMsg, authority] at run
    obtain ⟨vnHost, _, find, run⟩ := bind_inv run
    obtain ⟨nodes₁, found, rfl⟩ := onNodes_inv find
    obtain ⟨msg, _, alloc, run⟩ := bind_inv run
    cases alloc
    obtain ⟨_, _, add, run⟩ := bind_inv run
    obtain ⟨nodes₂, added, rfl⟩ := onNodes_inv add
    have poll : openvpnClientPoll vpn parent s.nodes =
        .ok (if vpn.connected then some (ascii "state\n") else none, nodes₂) := by
      simp only [openvpnClientPoll, authority]
      rw [bind_ok found, bind_ok added, pure_ok]
    refine ⟨_, nodes₂, poll, ?_⟩
    cases up : vpn.connected with
    | true =>
      rw [up] at run
      cases run
      rfl
    | false =>
      rw [up] at run
      cases run
      rfl

/-! ## Runs -/

def MsgEvent.id : MsgEvent → Nat
  | .alloc id => id
  | .send id _ => id
  | .free id => id

/-- Every message has been allocated under a number of its own. -/
def Numbered (msgs : List MsgEvent) : Prop := ∀ e ∈ msgs, e.id < msgs.length

theorem numbered_msgsAfter {msgs : List MsgEvent} (numbered : Numbered msgs)
    (sent : Option CStr) : Numbered (msgsAfter sent msgs) := by
  intro e mem
  have old : e ∈ msgs → e.id < msgs.length := numbered e
  cases sent with
  | none =>
    simp only [msgsAfter, Option.map_none, Option.toList_none, List.nil_append, List.mem_cons,
      List.length_cons] at mem ⊢
    rcases mem with rfl | before
    · exact Nat.lt_succ_self _
    · exact Nat.lt_succ_of_lt (old before)
  | some text =>
    simp only [msgsAfter, Option.map_some, Option.toList_some, List.cons_append, List.nil_append,
      List.mem_cons, List.length_cons] at mem ⊢
    rcases mem with rfl | rfl | before
    · simp only [MsgEvent.id]
      omega
    · simp only [MsgEvent.id]
      omega
    · have := old before
      omega

/-- Nothing has been done yet with a message that is still to come. -/
theorem disposals_new {msgs : List MsgEvent} (numbered : Numbered msgs) :
    disposals msgs.length msgs = [] := by
  rw [disposals, List.filter_eq_nil_iff]
  intro e mem
  have old := numbered e mem
  cases e with
  | alloc id => simp
  | send id text | free id =>
    simp only [MsgEvent.id] at old
    simp only [beq_iff_eq]
    omega

/-- A poll accounts for its message exactly if it has something to send. -/
theorem accounted_msgsAfter {msgs : List MsgEvent} (numbered : Numbered msgs)
    (accounted : Accounted msgs) (sent : Option CStr) :
    Accounted (msgsAfter sent msgs) ↔ sent.isSome = true := by
  have new := disposals_new numbered
  cases sent with
  | none =>
    -- the new message is still there
    have stays : disposals msgs.length (msgsAfter none msgs) = [] := by
      rw [msgsAfter, disposals] at *
      simpa using new
    simp only [Option.isSome_none, Bool.false_eq_true, iff_false]
    intro all
    have one := all msgs.length (by simp [msgsAfter])
    rw [stays] at one
    cases one
  | some text =>
    simp only [Option.isSome_some, iff_true]
    intro id mem
    by_cases isNew : id = msgs.length
    · subst isNew
      rw [disposals] at new ⊢
      simp [msgsAfter, new]
    · have before : .alloc id ∈ msgs := by simpa [msgsAfter, isNew] using mem
      have one := accounted id before
      rw [disposals] at one ⊢
      simpa [msgsAfter, Ne.symm isNew] using one

theorem orphans_eq_nil {msgs : List MsgEvent} (accounted : Accounted msgs) : orphans msgs = [] := by
  rw [orphans, List.filterMap_eq_nil_iff]
  intro e mem
  cases e with
  | alloc id =>
    have one := accounted id mem
    have some : disposals id msgs ≠ [] := by
      intro nothing
      rw [nothing] at one
      cases one
    simp only [some, if_false]
  | send id text | free id => rfl

/-- The client of a poll is connected. -/
def PollsConnected (s : Mgmt) (event : Nat × OpenvpnEvent) : Prop :=
  event.2 = .poll → ∀ vpn, s.clients[event.1]? = some vpn → vpn.connected = true

theorem mgmtStep_numbered (s : Mgmt) (e : Nat × OpenvpnEvent) (t : Mgmt)
    (numbered : Numbered s.msgs) (step : MgmtStep s e t) : Numbered t.msgs := by
  cases step with
  | callback _ _ => exact numbered
  | poll _ run =>
    obtain ⟨sent, nodes, -, rfl⟩ := openvpnClientPollMsg_inv run
    exact numbered_msgsAfter numbered sent

theorem mgmtStep_accounted (s : Mgmt) (e : Nat × OpenvpnEvent) (t : Mgmt)
    (numbered : Numbered s.msgs) (accounted : Accounted s.msgs) (step : MgmtStep s e t) :
    Accounted t.msgs ↔ PollsConnected s e := by
  cases step with
  | callback _ notPoll =>
    simp only [PollsConnected, notPoll, false_implies, iff_true]
    exact accounted
  | poll isClient run =>
    obtain ⟨sent, nodes, poll, rfl⟩ := openvpnClientPollMsg_inv run
    rw [accounted_msgsAfter numbered accounted, openvpnClientPoll_sends poll]
    simp only [PollsConnected, isClient, Option.some.injEq, forall_eq', true_implies]
    split <;> simp_all

/-- In a run of the clients every message of a poll is handed over or freed by the time the
    poll returns, exactly if every poll is a poll of a connected client. -/
theorem openvpn_msgs_iff {clients : List OpenvpnClient} {nodes : Nodes}
    {path : List (Run.Transition Mgmt (Nat × OpenvpnEvent))}
    (run : Run.Path MgmtStep ⟨clients, nodes, []⟩ path) :
    (∀ x ∈ path, Accounted x.after.msgs ∧ orphans x.after.msgs = []) ↔
      ∀ x ∈ path, PollsConnected x.before x.event := by
  have nothing : Numbered (⟨clients, nodes, []⟩ : Mgmt).msgs := by simp [Numbered]
  have none : Accounted (⟨clients, nodes, []⟩ : Mgmt).msgs := by simp [Accounted]
  rw [← run.all_iff (I := fun s => Numbered s.msgs) (P := fun s => Accounted s.msgs) nothing none
    (fun s e t numbered taken _ => mgmtStep_numbered s e t numbered taken) mgmtStep_accounted]
  constructor
  · exact fun all x mem => (all x mem).1
  · exact fun all x mem => ⟨all x mem, orphans_eq_nil (all x mem)⟩

/-- A tree with the node for the section, and one client. -/
def oneClient (vpn : OpenvpnClient) : Mgmt where
  clients := [vpn]
  nodes := ⟨rootHeap Talloc.Heap.empty (ascii "OpenVPN") none, [none]⟩
  msgs := []

def newClient : OpenvpnClient := openvpnClientCreate (ascii "OpenVPN") (ascii "localhost") 1195

/-- A connect and a poll. -/
theorem openvpn_msgs_connected :
    ∃ path, Run.Path MgmtStep (oneClient newClient) path ∧
      path.map Run.Transition.event = [(0, .connect), (0, .poll)] ∧
      ∀ x ∈ path, Accounted x.after.msgs ∧ orphans x.after.msgs = [] := by
  have connect : MgmtStep (oneClient newClient) (0, .connect) (oneClient (connectCb newClient)) :=
    @MgmtStep.callback _ 0 newClient .connect rfl (by decide)
  have poll : ∃ t, MgmtStep (oneClient (connectCb newClient)) (0, .poll) t :=
    ⟨_, @MgmtStep.poll _ _ 0 (connectCb newClient) (some 1) rfl rfl⟩
  obtain ⟨t, poll⟩ := poll
  have run : Run.Path MgmtStep (oneClient newClient)
      [⟨_, (0, .connect), _⟩, ⟨_, (0, .poll), t⟩] := .next connect (.next poll .stop)
  refine ⟨_, run, rfl, (openvpn_msgs_iff run).mpr ?_⟩
  simp [PollsConnected, oneClient, connectCb]

/-- A client that has not connected yet, after one poll. -/
theorem openvpn_msgs_orphaned :
    ∃ path, Run.Path MgmtStep (oneClient newClient) path ∧
      ∃ x ∈ path, orphans x.after.msgs = [0] ∧ ¬ Accounted x.after.msgs := by
  refine ⟨_, .next (@MgmtStep.poll _ _ 0 newClient (some 1) rfl rfl) .stop, _,
    List.mem_cons_self, rfl, ?_⟩
  intro accounted
  have none := orphans_eq_nil accounted
  cases none

end OsmoSysmon
