import OsmoSysmon.Lib.Loop
import OsmoSysmon.Lib.Run
import OsmoSysmon.Polls

/-! # Dumps on one netlink socket

`rtnl_update_link` and `rtnl_update_addr` send a request each and read the socket until
`mnl_cb_run` stops or fails.  What a dump that failed has left is still queued when the next
request goes out, and only its sequence number, a clock reading, tells it from the answer.
-/

namespace OsmoSysmon

open CText

/-! ## The socket -/

/-- `RTM_GETLINK` or `RTM_GETADDR`. -/
inductive DumpKind where
  | link
  | addr
deriving DecidableEq, Repr

inductive NlBody where
  | link (msg : LinkMsg)
  | addr (msg : AddrMsg)
  | done
  | error
deriving DecidableEq, Repr

structure NlMsg where
  /-- The request that the kernel answers.  The message itself does not say so. -/
  request : Nat
  seq : UInt32
  /-- `NLM_F_DUMP_INTR`. -/
  interrupted : Bool
  body : NlBody
deriving DecidableEq, Repr

/-- What `mnl_socket_recvfrom` gets: a datagram, or -1. -/
inductive Received where
  | datagram (first : NlMsg) (rest : List NlMsg)
  | failure
deriving DecidableEq, Repr

def Received.messages : Received → List NlMsg
  | .datagram first rest => first :: rest
  | .failure => []

def queuedMessages (queue : List Received) : List NlMsg := queue.flatMap Received.messages

/-- `MNL_CB_ERROR`, `MNL_CB_STOP` or `MNL_CB_OK`. -/
inductive CbResult where
  | error
  | stop
  | ok
deriving DecidableEq, Repr

/-- A message on which `mnl_cb_run` fails. -/
def NlMsg.Fails (seq : UInt32) (msg : NlMsg) : Prop :=
  (msg.seq ≠ 0 ∧ seq ≠ 0 ∧ msg.seq ≠ seq) ∨ msg.interrupted = true ∨ msg.body = .error

instance (seq : UInt32) (msg : NlMsg) : Decidable (msg.Fails seq) :=
  inferInstanceAs (Decidable (_ ∨ _ ∨ _))

/-- `mnl_cb_run` with a callback that always goes on, as `data_cb` and `inet_data_cb` do: the
    messages that it handles, and what it returns. -/
def mnlCbRun (seq : UInt32) : List NlMsg → List NlMsg × CbResult
  | [] => ([], .ok)
  | msg :: msgs =>
    if msg.Fails seq then ([], .error)
    else if msg.body = .done then ([msg], .stop)
    else (msg :: (mnlCbRun seq msgs).1, (mnlCbRun seq msgs).2)

/-- What a dump has come to: the messages handled, the return value, and what is left on the
    socket. -/
structure Update where
  handled : List NlMsg
  ret : Int
  left : List Received
deriving DecidableEq, Repr

/-- The loop of `rtnl_update_link` and of `rtnl_update_addr`. -/
def receiveDump (seq : UInt32) : List Received → Except Fault Update
  | [] => .error .blocked
  | .failure :: queue => .ok { handled := [], ret := -1, left := queue }
  | .datagram first rest :: queue =>
    match mnlCbRun seq (first :: rest) with
    | (handled, .error) => .ok { handled, ret := -1, left := queue }
    | (handled, .stop) => .ok { handled, ret := 0, left := queue }
    | (handled, .ok) => do
      let later ← receiveDump seq queue
      return { later with handled := handled ++ later.handled }

/-! ## Polls -/

/-- The socket of `struct rtnl_client_state`. -/
structure Netlink where
  queue : List Received
  /-- How many requests have been sent. -/
  requests : Nat
deriving DecidableEq, Repr

/-- A request and what has come of it. -/
structure Exchange where
  kind : DumpKind
  request : Nat
  /-- What `time(NULL)` has returned. -/
  clock : Nat
  /-- What is on the socket when the request is sent. -/
  queued : List Received
  answer : List Received
  update : Update
deriving DecidableEq, Repr

def Exchange.seq (ex : Exchange) : UInt32 := ex.clock.toUInt32

namespace Netlink

/-- `rtnl_update_link` and `rtnl_update_addr` with the kernel's answer to the request.  If the
    request cannot be sent, the process exits. -/
def update (kind : DumpKind) (clock : Nat) (answer : List Received) (nl : Netlink) :
    Except Fault (Exchange × Netlink) := do
  let update ← receiveDump clock.toUInt32 (nl.queue ++ answer)
  return ({ kind, request := nl.requests, clock, queued := nl.queue, answer, update },
    { queue := update.left, requests := nl.requests + 1 })

def rtnlUpdateLink : Nat → List Received → Netlink → Except Fault (Exchange × Netlink) :=
  update .link

def rtnlUpdateAddr : Nat → List Received → Netlink → Except Fault (Exchange × Netlink) :=
  update .addr

end Netlink

/-- What a poll meets. -/
structure PollInput where
  /-- There are interfaces to look at. -/
  configured : Bool
  /-- `rtnl_init` succeeds, if it is called. -/
  opens : Bool
  linkClock : Nat
  addrClock : Nat
  linkAnswer : List Received
  addrAnswer : List Received
deriving DecidableEq, Repr

/-- `osysmon_rtnl_poll`, with the exchanges that it makes.  `none` is `g_oss->rcs` being
    `NULL`. -/
def Netlink.osysmonRtnlPoll (input : PollInput) (rcs : Option Netlink) :
    Except Fault (Int × List Exchange × Option Netlink) :=
  if !input.configured then return (0, [], rcs)
  else
    match if rcs.isNone && input.opens then some { queue := [], requests := 0 } else rcs with
    | none => return (-1, [], none)
    | some nl => do
      let (link, nl) ← nl.rtnlUpdateLink input.linkClock input.linkAnswer
      let (addr, nl) ← nl.rtnlUpdateAddr input.addrClock input.addrAnswer
      return (0, [link, addr], some nl)

/-! ## Sound exchanges -/

/-- The messages that are passed to `data_cb` or `inet_data_cb`. -/
def Exchange.passed (ex : Exchange) : List NlMsg := ex.update.handled.filter (·.body ≠ .done)

/-- What is passed on answers this request, and a return value of 0 means that the whole
    answer has been handled, up to its `NLMSG_DONE`. -/
structure Exchange.Sound (ex : Exchange) : Prop where
  own : ∀ m ∈ ex.passed, m.request = ex.request
  whole : ex.update.ret = 0 → ex.update.handled = queuedMessages ex.answer

/-- Nothing is queued when the request is sent, or the first of it makes the update fail. -/
def Exchange.Undisturbed (ex : Exchange) : Prop :=
  match ex.queued with
  | [] => True
  | .failure :: _ => True
  | .datagram first _ :: _ => first.Fails ex.seq

/-- The kernel answers a request with messages that carry its sequence number, of which the
    last one is `NLMSG_DONE`. -/
structure Exchange.Answered (ex : Exchange) : Prop where
  own : ∀ m ∈ queuedMessages ex.answer, m.request = ex.request ∧ m.seq = ex.seq
  ends : ∃ body done, queuedMessages ex.answer = body ++ [done] ∧ done.body = .done ∧
    ∀ m ∈ body, m.body ≠ .done

section

variable {seq : UInt32} {msg : NlMsg} {msgs : List NlMsg}

theorem mnlCbRun_of_fails (fails : msg.Fails seq) (msgs : List NlMsg) :
    mnlCbRun seq (msg :: msgs) = ([], .error) := by
  rw [mnlCbRun, if_pos fails]

theorem mnlCbRun_of_done (passes : ¬ msg.Fails seq) (done : msg.body = .done)
    (msgs : List NlMsg) : mnlCbRun seq (msg :: msgs) = ([msg], .stop) := by
  rw [mnlCbRun, if_neg passes, if_pos done]

theorem mnlCbRun_of_data (passes : ¬ msg.Fails seq) (data : msg.body ≠ .done)
    (msgs : List NlMsg) :
    mnlCbRun seq (msg :: msgs) = (msg :: (mnlCbRun seq msgs).1, (mnlCbRun seq msgs).2) := by
  rw [mnlCbRun, if_neg passes, if_neg data]

/-- The messages are handled in order: all of them if none stops the run, and up to an
    `NLMSG_DONE` if the run stops. -/
theorem mnlCbRun_handled {handled : List NlMsg} {result : CbResult}
    (run : mnlCbRun seq msgs = (handled, result)) :
    handled <+: msgs ∧
      (result = .ok → handled = msgs ∧ ∀ m ∈ msgs, m.body ≠ .done) ∧
      (result = .stop → ∃ front done, handled = front ++ [done] ∧ done.body = .done) := by
  induction msgs generalizing handled with
  | nil =>
    cases run
    simp
  | cons msg msgs ih =>
    by_cases fails : msg.Fails seq
    · rw [mnlCbRun_of_fails fails] at run
      cases run
      simp
    by_cases done : msg.body = .done
    · rw [mnlCbRun_of_done fails done] at run
      cases run
      exact ⟨by simp, by simp, fun _ => ⟨[], msg, rfl, done⟩⟩
    · rcases more : mnlCbRun seq msgs with ⟨later, result'⟩
      rw [mnlCbRun_of_data fails done, more] at run
      cases run
      obtain ⟨isPrefix, all, stops⟩ := ih more
      refine ⟨?_, ?_, ?_⟩
      · exact List.cons_prefix_cons.mpr ⟨rfl, isPrefix⟩
      · intro isOk
        obtain ⟨same, noDone⟩ := all isOk
        exact ⟨congrArg (msg :: ·) same, List.forall_mem_cons.mpr ⟨done, noDone⟩⟩
      · intro isStop
        obtain ⟨front, last, isHandled, isDone⟩ := stops isStop
        exact ⟨msg :: front, last, congrArg (msg :: ·) isHandled, isDone⟩

/-- The socket is read from its front. -/
theorem receiveDump_inv {queue : List Received} {u : Update} (run : receiveDump seq queue = .ok u) :
    ∃ read, queue = read ++ u.left ∧ u.handled <+: queuedMessages read ∧
      (u.ret = 0 → ∃ front done, u.handled = front ++ [done] ∧ done.body = .done) := by
  induction queue generalizing u with
  | nil => cases run
  | cons received queue ih =>
    cases received with
    | failure =>
      cases run
      exact ⟨[.failure], rfl, by simp, by simp⟩
    | datagram first rest =>
      rw [receiveDump] at run
      rcases cb : mnlCbRun seq (first :: rest) with ⟨handled, result⟩
      obtain ⟨isPrefix, all, stops⟩ := mnlCbRun_handled cb
      have here : queuedMessages [.datagram first rest] = first :: rest := by
        simp [queuedMessages, Received.messages]
      simp only [cb] at run
      cases result with
      | error =>
        cases run
        exact ⟨[.datagram first rest], rfl, here ▸ isPrefix, by simp⟩
      | stop =>
        cases run
        exact ⟨[.datagram first rest], rfl, here ▸ isPrefix, fun _ => stops rfl⟩
      | ok =>
        cases more : receiveDump seq queue with
        | error fault =>
          rw [more] at run
          cases run
        | ok later =>
          rw [more] at run
          cases run
          obtain ⟨read, isQueue, isPrefix', stops'⟩ := ih more
          refine ⟨.datagram first rest :: read, by rw [isQueue]; rfl, ?_, ?_⟩
          · rw [(all rfl).1]
            exact (List.prefix_append_right_inj _).mpr isPrefix'
          · intro isZero
            obtain ⟨front, done, isHandled, isDone⟩ := stops' isZero
            exact ⟨handled ++ front, done, by rw [isHandled, List.append_assoc], isDone⟩

/-- An `NLMSG_DONE` on the socket is as far as an update reads. -/
theorem receiveDump_ok {queue : List Received} (ends : ∃ m ∈ queuedMessages queue, m.body = .done) :
    ∃ u, receiveDump seq queue = .ok u := by
  induction queue with
  | nil => simp [queuedMessages] at ends
  | cons received queue ih =>
    cases received with
    | failure => exact ⟨_, rfl⟩
    | datagram first rest =>
      rw [receiveDump]
      rcases cb : mnlCbRun seq (first :: rest) with ⟨handled, result⟩
      cases result with
      | error | stop => exact ⟨_, rfl⟩
      | ok =>
        obtain ⟨-, all, -⟩ := mnlCbRun_handled cb
        obtain ⟨m, mem, isDone⟩ := ends
        have later : m ∈ queuedMessages queue := by
          rw [queuedMessages, List.flatMap_cons, List.mem_append] at mem
          exact mem.resolve_left fun here => (all rfl).2 m here isDone
        obtain ⟨u, more⟩ := ih ⟨m, later, isDone⟩
        exact ⟨{ u with handled := handled ++ u.handled }, by simp only [more]; rfl⟩

theorem receiveDump_of_fails {first : NlMsg} (fails : first.Fails seq) (more : List NlMsg)
    (queue : List Received) : receiveDump seq (.datagram first more :: queue) =
      .ok { handled := [], ret := -1, left := queue } := by
  rw [receiveDump, mnlCbRun_of_fails fails]

/-- A message on which `mnl_cb_run` does not fail is handled, whatever it answers. -/
theorem first_handled {first : NlMsg} {more : List NlMsg} {queue : List Received} {u : Update}
    (passes : ¬ first.Fails seq) (run : receiveDump seq (.datagram first more :: queue) = .ok u) :
    first ∈ u.handled ∧ (first.body = .done → u.ret = 0) := by
  rw [receiveDump] at run
  by_cases done : first.body = .done
  · rw [mnlCbRun_of_done passes done] at run
    cases run
    simp
  · rw [mnlCbRun_of_data passes done] at run
    refine ⟨?_, fun isDone => absurd isDone done⟩
    cases result : (mnlCbRun seq more).2 with
    | error | stop =>
      simp only [result] at run
      cases run
      exact List.mem_cons_self
    | ok =>
      simp only [result] at run
      cases later : receiveDump seq queue with
      | error fault =>
        rw [later] at run
        cases run
      | ok u =>
        rw [later] at run
        cases run
        exact List.mem_cons_self

end

/-! ## Runs of polls -/

theorem queuedMessages_append (queue queue' : List Received) :
    queuedMessages (queue ++ queue') = queuedMessages queue ++ queuedMessages queue' :=
  List.flatMap_append

theorem Exchange.mem_handled_of_passed {ex : Exchange} {m : NlMsg} (mem : m ∈ ex.passed) :
    m ∈ ex.update.handled := (List.mem_filter.mp mem).1

/-- An update that handles nothing and fails is sound. -/
theorem Exchange.sound_of_failed {ex : Exchange} (nothing : ex.update.handled = [])
    (failed : ex.update.ret ≠ 0) : ex.Sound where
  own m mem := by simp [passed, nothing] at mem
  whole isZero := absurd isZero failed

/-- What is queued answers earlier requests, so that it must not be handled. -/
theorem Exchange.sound_iff {ex : Exchange}
    (received : receiveDump ex.seq (ex.queued ++ ex.answer) = .ok ex.update)
    (earlier : ∀ m ∈ queuedMessages ex.queued, m.request < ex.request) (answered : ex.Answered) :
    ex.Sound ↔ ex.Undisturbed := by
  rw [Undisturbed]
  cases queued : ex.queued with
  | nil =>
    rw [queued, List.nil_append] at received
    obtain ⟨read, isAnswer, isPrefix, stops⟩ := receiveDump_inv received
    have inAnswer : ex.update.handled <+: queuedMessages ex.answer := by
      rw [isAnswer, queuedMessages_append]
      exact isPrefix.trans (List.prefix_append _ _)
    refine iff_of_true ⟨fun m mem => ?_, fun isZero => ?_⟩ trivial
    · exact (answered.own m (inAnswer.subset (mem_handled_of_passed mem))).1
    · obtain ⟨body, last, isBody, -, noDone⟩ := answered.ends
      obtain ⟨front, done, isHandled, isDone⟩ := stops isZero
      rw [isBody, List.prefix_concat_iff] at inAnswer
      -- there is no `NLMSG_DONE` before the last message
      rcases inAnswer with all | inBody
      · rw [all, isBody]
      · refine absurd isDone (noDone done (inBody.subset ?_))
        simp [isHandled]
  | cons item queue =>
    rw [queued, List.cons_append] at received
    cases item with
    | failure =>
      rw [receiveDump, Except.ok.injEq] at received
      refine iff_of_true (sound_of_failed ?_ ?_) trivial <;> simp [← received]
    | datagram first more =>
      by_cases fails : first.Fails ex.seq
      · rw [receiveDump_of_fails fails, Except.ok.injEq] at received
        refine iff_of_true (sound_of_failed ?_ ?_) fails <;> simp [← received]
      · refine iff_of_false (fun sound => ?_) fails
        have before : first.request < ex.request :=
          earlier first (by simp [queued, queuedMessages, Received.messages])
        obtain ⟨handled, stops⟩ := first_handled fails received
        by_cases done : first.body = .done
        · rw [sound.whole (stops done)] at handled
          have := (answered.own first handled).1
          omega
        · have := sound.own first (List.mem_filter.mpr ⟨handled, by simpa using done⟩)
          omega

/-- Everything on the socket answers a request that has been sent. -/
def Netlink.Earlier (nl : Netlink) : Prop := ∀ m ∈ queuedMessages nl.queue, m.request < nl.requests

theorem Netlink.update_inv {kind : DumpKind} {clock : Nat} {answer : List Received}
    {nl nl' : Netlink} {ex : Exchange} (run : nl.update kind clock answer = .ok (ex, nl'))
    (earlier : nl.Earlier) (answered : ex.Answered) :
    nl'.Earlier ∧ (ex.Sound ↔ ex.Undisturbed) := by
  rw [update] at run
  cases received : receiveDump clock.toUInt32 (nl.queue ++ answer) with
  | error fault =>
    rw [received] at run
    cases run
  | ok u =>
    rw [received] at run
    cases run
    refine ⟨?_, Exchange.sound_iff received earlier answered⟩
    obtain ⟨read, isQueue, -⟩ := receiveDump_inv received
    intro m left
    have mem : m ∈ queuedMessages (nl.queue ++ answer) := by
      rw [isQueue, queuedMessages_append]
      exact List.mem_append_right _ left
    rw [queuedMessages_append, List.mem_append] at mem
    rcases mem with old | new
    · exact Nat.lt_succ_of_lt (earlier m old)
    · have isRequest := (answered.own m new).1
      rw [isRequest]
      exact Nat.lt_succ_self _

/-- A poll, with its exchanges. -/
inductive PollStep (rcs : Option Netlink) : PollInput × List Exchange → Option Netlink → Prop
  | poll {input : PollInput} {ret : Int} {exchanges : List Exchange} {rcs' : Option Netlink} :
      Netlink.osysmonRtnlPoll input rcs = .ok (ret, exchanges, rcs') →
      (∀ ex ∈ exchanges, ex.Answered) → PollStep rcs (input, exchanges) rcs'

theorem pollStep_inv {rcs rcs' : Option Netlink} {poll : PollInput × List Exchange}
    (step : PollStep rcs poll rcs') (earlier : ∀ nl ∈ rcs, nl.Earlier) :
    (∀ nl ∈ rcs', nl.Earlier) ∧ ∀ ex ∈ poll.2, (ex.Sound ↔ ex.Undisturbed) := by
  cases step with
  | @poll input ret exchanges rcs' run answered =>
    rw [Netlink.osysmonRtnlPoll] at run
    split at run
    · cases run
      exact ⟨earlier, by simp⟩
    · have opened : ∀ nl ∈ if rcs.isNone && input.opens then some ⟨[], 0⟩ else rcs, nl.Earlier := by
        split
        · simp [Netlink.Earlier, queuedMessages]
        · exact earlier
      cases socket : if rcs.isNone && input.opens then some (⟨[], 0⟩ : Netlink) else rcs with
      | none =>
        simp only [socket] at run
        cases run
        simp
      | some nl =>
        simp only [socket] at run
        rw [socket] at opened
        cases link : nl.rtnlUpdateLink input.linkClock input.linkAnswer with
        | error fault =>
          rw [link] at run
          cases run
        | ok found =>
          obtain ⟨first, nl₁⟩ := found
          rw [link, Loop.ok_bind rfl] at run
          cases addr : nl₁.rtnlUpdateAddr input.addrClock input.addrAnswer with
          | error fault =>
            rw [addr] at run
            cases run
          | ok found =>
            obtain ⟨second, nl₂⟩ := found
            rw [addr] at run
            cases run
            simp only [List.forall_mem_cons] at answered
            obtain ⟨earlier₁, first_iff⟩ := Netlink.update_inv link (opened nl rfl) answered.1
            obtain ⟨earlier₂, second_iff⟩ := Netlink.update_inv addr earlier₁ answered.2.1
            simp [earlier₂, first_iff, second_iff]

theorem Netlink.update_ok {kind : DumpKind} {clock : Nat} {answer : List Received} (nl : Netlink)
    (ends : ∃ m ∈ queuedMessages answer, m.body = .done) :
    ∃ found, nl.update kind clock answer = .ok found := by
  obtain ⟨m, mem, isDone⟩ := ends
  have queued : m ∈ queuedMessages (nl.queue ++ answer) := by
    rw [queuedMessages_append]
    exact List.mem_append_right _ mem
  obtain ⟨u, received⟩ := @receiveDump_ok clock.toUInt32 _ ⟨m, queued, isDone⟩
  exact ⟨_, Loop.ok_bind received _⟩

/-- A poll whose requests are answered returns. -/
theorem osysmonRtnlPoll_ok {input : PollInput} (rcs : Option Netlink)
    (link : ∃ m ∈ queuedMessages input.linkAnswer, m.body = .done)
    (addr : ∃ m ∈ queuedMessages input.addrAnswer, m.body = .done) :
    ∃ found, Netlink.osysmonRtnlPoll input rcs = .ok found := by
  rw [Netlink.osysmonRtnlPoll]
  split
  · exact ⟨_, rfl⟩
  · split
    · exact ⟨_, rfl⟩
    · next nl _ =>
      obtain ⟨⟨first, nl₁⟩, run₁⟩ := @Netlink.update_ok .link input.linkClock _ nl link
      obtain ⟨⟨second, nl₂⟩, run₂⟩ := @Netlink.update_ok .addr input.addrClock _ nl₁ addr
      refine ⟨(0, [first, second], some nl₂), ?_⟩
      rw [Netlink.rtnlUpdateLink, Loop.ok_bind run₁]
      simp only
      rw [Netlink.rtnlUpdateAddr, Loop.ok_bind run₂]
      rfl

theorem Netlink.update_kind {kind : DumpKind} {clock : Nat} {answer : List Received}
    {nl nl' : Netlink} {ex : Exchange} (run : nl.update kind clock answer = .ok (ex, nl')) :
    ex.kind = kind := by
  obtain ⟨u, -, done⟩ := Loop.ok_bind_inv run
  cases done
  rfl

/-- Of two exchanges of a poll the first is for the links. -/
theorem pollStep_kinds {rcs rcs' : Option Netlink} {poll : PollInput × List Exchange}
    {link addr : Exchange} (step : PollStep rcs poll rcs') (both : poll.2 = [link, addr]) :
    link.kind = .link ∧ addr.kind = .addr := by
  cases step with
  | poll run _ =>
    obtain rfl := both
    rw [Netlink.osysmonRtnlPoll] at run
    split at run
    · cases run
    split at run
    · cases run
    · obtain ⟨⟨link', nl₁⟩, first, run⟩ := Loop.ok_bind_inv run
      obtain ⟨⟨addr', nl₂⟩, second, run⟩ := Loop.ok_bind_inv run
      cases run
      exact ⟨Netlink.update_kind first, Netlink.update_kind second⟩

section

variable {path : List (Run.Transition (Option Netlink) (PollInput × List Exchange))}

theorem exchanges_sound_iff (run : Run.Path PollStep none path) :
    ∀ x ∈ path, ∀ ex ∈ x.event.2, (ex.Sound ↔ ex.Undisturbed) := by
  have earlier := run.invariant (I := fun rcs => ∀ nl ∈ rcs, nl.Earlier) (by simp)
    fun rcs poll rcs' inv step => (pollStep_inv step inv).1
  exact fun x mem => (pollStep_inv (run.taken x mem) (earlier x mem).1).2

/-- **In a run of polls on one socket, every update passes on answers to its own request only
    and returns 0 only when it has handled its own answer to the end, if and only if every
    request is sent when nothing is queued, or when the first that is queued makes the update
    fail.** -/
theorem polls_sound_iff (run : Run.Path PollStep none path) :
    (∀ x ∈ path, ∀ ex ∈ x.event.2, ex.Sound) ↔
      ∀ x ∈ path, ∀ ex ∈ x.event.2, ex.Undisturbed :=
  forall₂_congr fun x mem => forall₂_congr (exchanges_sound_iff run x mem)

end

/-- A message of the `request`-th dump, sent in the second 100. -/
def msgOf (request : Nat) (body : NlBody) : NlMsg where
  request := request
  seq := 100
  interrupted := false
  body := body

def linkData : NlBody := .link ⟨1, iffUp, some (ascii "lo"), none⟩

def addrData : NlBody := .addr ⟨1, afInet, 8, some ⟨127, 0, 0, 1⟩⟩

/-- A poll within one second.  The first message of the link dump may be flagged as
    interrupted. -/
def pollWith (interrupted : Bool) : PollInput where
  configured := true
  opens := true
  linkClock := 100
  addrClock := 100
  linkAnswer := [.datagram { msgOf 0 linkData with interrupted } [],
    .datagram (msgOf 0 linkData) [msgOf 0 .done]]
  addrAnswer := [.datagram (msgOf 1 addrData) [msgOf 1 .done]]

/-- The exchanges of that poll. -/
def exchangesWith (interrupted : Bool) (left : List Received) (link addr : Update) :
    List Exchange :=
  [⟨.link, 0, 100, [], (pollWith interrupted).linkAnswer, link⟩,
    ⟨.addr, 1, 100, left, (pollWith interrupted).addrAnswer, addr⟩]

theorem exchangesWith_answered (interrupted : Bool) (left : List Received) (link addr : Update) :
    ∀ ex ∈ exchangesWith interrupted left link addr, ex.Answered := by
  simp only [exchangesWith, List.forall_mem_cons]
  refine ⟨⟨?_, [{ msgOf 0 linkData with interrupted }, msgOf 0 linkData], msgOf 0 .done, rfl, rfl,
    ?_⟩, ⟨?_, [msgOf 1 addrData], msgOf 1 .done, rfl, rfl, ?_⟩, by simp⟩ <;>
    simp [pollWith, queuedMessages, Received.messages, msgOf, linkData, addrData, Exchange.seq]

/-- Two dumps that are read to their ends. -/
theorem polls_sound_quiet :
    ∃ path, Run.Path PollStep none path ∧ path.length = 1 ∧
      ∀ x ∈ path, ∀ ex ∈ x.event.2, ex.Sound := by
  have poll : Netlink.osysmonRtnlPoll (pollWith false) none =
      .ok (0, exchangesWith false [] ⟨[msgOf 0 linkData, msgOf 0 linkData, msgOf 0 .done], 0, []⟩
        ⟨[msgOf 1 addrData, msgOf 1 .done], 0, []⟩, some ⟨[], 2⟩) := rfl
  have run := Run.Path.next (PollStep.poll poll (exchangesWith_answered _ _ _ _)) .stop
  refine ⟨_, run, rfl, (polls_sound_iff run).mpr ?_⟩
  simp [exchangesWith, Exchange.Undisturbed]

/-- What is left of an interrupted link dump is passed to `inet_data_cb`, and its end is taken
    for the end of the address dump, which is not looked at. -/
theorem polls_unsound_interrupted :
    ∃ path, Run.Path PollStep none path ∧ ∃ x ∈ path, ∃ ex ∈ x.event.2,
      ex.kind = .addr ∧ ex.passed = [msgOf 0 linkData] ∧ ex.update.ret = 0 ∧ ¬ ex.Sound := by
  have poll : Netlink.osysmonRtnlPoll (pollWith true) none =
      .ok (0, exchangesWith true [.datagram (msgOf 0 linkData) [msgOf 0 .done]]
        ⟨[], -1, [.datagram (msgOf 0 linkData) [msgOf 0 .done]]⟩
        ⟨[msgOf 0 linkData, msgOf 0 .done], 0, (pollWith true).addrAnswer⟩,
        some ⟨(pollWith true).addrAnswer, 2⟩) := rfl
  have run := Run.Path.next (PollStep.poll poll (exchangesWith_answered _ _ _ _)) .stop
  refine ⟨_, run, _, List.mem_cons_self, _, List.mem_cons_of_mem _ List.mem_cons_self, rfl,
    by decide, rfl, fun sound => ?_⟩
  have whole := sound.whole rfl
  revert whole
  decide

end OsmoSysmon
