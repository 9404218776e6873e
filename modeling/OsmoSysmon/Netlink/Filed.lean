import OsmoSysmon.Cycle.Netdev
import OsmoSysmon.Netlink.Dumps

/-! # What the dumps file

`data_cb` and `inet_data_cb` take every message for one of their own kind.  Behind requests
that find the socket undisturbed they are right, and what a poll makes of the tree is what
the kernel has answered to it: `polls_joined`.
-/

namespace OsmoSysmon

open CText Effect

def NlMsg.link? (m : NlMsg) : Option LinkMsg :=
  match m.body with
  | .link msg => some msg
  | _ => none

def NlMsg.addr? (m : NlMsg) : Option AddrMsg :=
  match m.body with
  | .addr msg => some msg
  | _ => none

/-- `data_cb` on a message of any kind.  It takes the payload for a `struct ifinfomsg`. -/
def passToDataCb (netdevs : List CStr) (vnNet : Option Ptr) (m : NlMsg) : NodeM Unit :=
  match m.body with
  | .link msg => dataCb netdevs vnNet msg
  | _ => throw .typeConfusion

/-- `inet_data_cb` on a message of any kind.  It takes the payload for a `struct ifaddrmsg`. -/
def passToInetDataCb (vnNet : Option Ptr) (m : NlMsg) : NodeM Unit :=
  match m.body with
  | .addr msg => inetDataCb vnNet msg
  | _ => throw .typeConfusion

/-- The answer to a request has messages of its kind. -/
def Exchange.Typed (ex : Exchange) : Prop :=
  ∀ m ∈ ex.passed, m.request = ex.request →
    match ex.kind with
    | .link => ∃ msg, m.body = .link msg
    | .addr => ∃ msg, m.body = .addr msg

theorem forM_filterMap {α : Type} {pass : NlMsg → NodeM Unit} {kind? : NlMsg → Option α}
    {file : α → NodeM Unit} {msgs : List NlMsg}
    (each : ∀ m ∈ msgs, ∃ a, kind? m = some a ∧ pass m = file a) :
    msgs.forM pass = (msgs.filterMap kind?).forM file := by
  induction msgs with
  | nil => rfl
  | cons m msgs ih =>
    rw [List.forall_mem_cons] at each
    obtain ⟨⟨a, isKind, here⟩, others⟩ := each
    rw [List.filterMap_cons_some isKind]
    show (pass m >>= fun _ => msgs.forM pass) = file a >>= fun _ => (msgs.filterMap kind?).forM file
    rw [here, ih others]

theorem rtnlUpdateLink_eq_forM (netdevs : List CStr) (vnNet : Option Ptr) (links : List LinkMsg) :
    rtnlUpdateLink netdevs vnNet links = links.forM (dataCb netdevs vnNet) := by
  induction links with
  | nil => rfl
  | cons msg links ih =>
    rw [rtnlUpdateLink, ih]
    rfl

theorem rtnlUpdateAddr_eq_forM (vnNet : Option Ptr) (addrs : List AddrMsg) :
    rtnlUpdateAddr vnNet addrs = addrs.forM (inetDataCb vnNet) := by
  induction addrs with
  | nil => rfl
  | cons msg addrs ih =>
    rw [rtnlUpdateAddr, ih]
    rfl

theorem forM_passToDataCb {msgs : List NlMsg} (typed : ∀ m ∈ msgs, ∃ msg, m.body = .link msg)
    (netdevs : List CStr) (vnNet : Option Ptr) :
    msgs.forM (passToDataCb netdevs vnNet) =
      rtnlUpdateLink netdevs vnNet (msgs.filterMap NlMsg.link?) := by
  rw [rtnlUpdateLink_eq_forM]
  refine forM_filterMap fun m mem => ?_
  obtain ⟨msg, isLink⟩ := typed m mem
  exact ⟨msg, by rw [NlMsg.link?, isLink], by rw [passToDataCb, isLink]⟩

theorem forM_passToInetDataCb {msgs : List NlMsg} (typed : ∀ m ∈ msgs, ∃ msg, m.body = .addr msg)
    (vnNet : Option Ptr) :
    msgs.forM (passToInetDataCb vnNet) =
      rtnlUpdateAddr vnNet (msgs.filterMap NlMsg.addr?) := by
  rw [rtnlUpdateAddr_eq_forM]
  refine forM_filterMap fun m mem => ?_
  obtain ⟨msg, isAddr⟩ := typed m mem
  exact ⟨msg, by rw [NlMsg.addr?, isAddr], by rw [passToInetDataCb, isAddr]⟩

/-- The callbacks of a poll on what is passed to them. -/
def fileDumps (netdevs : List CStr) (vnNet : Option Ptr) (link addr : Exchange) : NodeM Unit := do
  link.passed.forM (passToDataCb netdevs vnNet)
  addr.passed.forM (passToInetDataCb vnNet)

/-- The kernel's answer to a request for links. -/
def Exchange.links (ex : Exchange) : List LinkMsg := (queuedMessages ex.answer).filterMap NlMsg.link?

/-- The kernel's answer to a request for addresses. -/
def Exchange.addrs (ex : Exchange) : List AddrMsg := (queuedMessages ex.answer).filterMap NlMsg.addr?

/-- Sound exchanges file the messages of the two dumps, as `osysmonRtnlPoll` does. -/
theorem dumps_of_sound {link addr : Exchange} (isLink : link.kind = .link)
    (isAddr : addr.kind = .addr) (linkSound : link.Sound) (addrSound : addr.Sound)
    (linkTyped : link.Typed) (addrTyped : addr.Typed) (netdevs : List CStr) (vnNet : Option Ptr) :
    fileDumps netdevs vnNet link addr =
      (do rtnlUpdateLink netdevs vnNet (link.passed.filterMap NlMsg.link?)
          rtnlUpdateAddr vnNet (addr.passed.filterMap NlMsg.addr?)) := by
  rw [Exchange.Typed, isLink] at linkTyped
  rw [Exchange.Typed, isAddr] at addrTyped
  rw [fileDumps, forM_passToDataCb fun m mem => linkTyped m mem (linkSound.own m mem),
    forM_passToInetDataCb fun m mem => addrTyped m mem (addrSound.own m mem)]

section

variable {ex : Exchange}

/-- An update that returns 0 has passed on the whole answer, but for its `NLMSG_DONE`. -/
theorem Exchange.Sound.filterMap_passed (sound : ex.Sound) (complete : ex.update.ret = 0)
    {α : Type} {kind? : NlMsg → Option α} (ends : ∀ m, m.body = .done → kind? m = none) :
    ex.passed.filterMap kind? = (queuedMessages ex.answer).filterMap kind? := by
  rw [passed, sound.whole complete, List.filterMap_filter]
  refine List.filterMap_congr fun m _ => ?_
  by_cases isDone : m.body = .done
  · simp [isDone, ends m isDone]
  · simp [isDone]

end

section

variable {path : List (Run.Transition (Option Netlink) (PollInput × List Exchange))}

/-- **In a run of polls on one socket whose requests all find it undisturbed, a poll with two
    complete dumps leaves a node for each configured interface that the kernel has named, with
    exactly the addresses that the kernel has named for it, if and only if it has named no two
    addresses for one of them.** -/
theorem polls_joined (run : Run.Path PollStep none path)
    (undisturbed : ∀ x ∈ path, ∀ ex ∈ x.event.2, ex.Undisturbed)
    (typed : ∀ x ∈ path, ∀ ex ∈ x.event.2, ex.Typed) :
    ∀ x ∈ path, ∀ link addr, x.event.2 = [link, addr] →
      link.update.ret = 0 → addr.update.ret = 0 →
      (link.links.filterMap LinkMsg.ifname).Nodup → (link.links.map LinkMsg.index).Nodup →
      ∀ netdevs s q info, Holds s (.cons (q, info) .nil .nil) →
        ∃ g t, fileDumps netdevs (some q) link addr s = .ok ((), t) ∧
          Holds t (.cons (q, info) g .nil) ∧
          (List.Forall₂ (Joined addr.addrs) (configuredLinks netdevs link.links) g.shape.trees ↔
            ∀ l ∈ configuredLinks netdevs link.links, ∀ p ∈ pairsOf l.2.index addr.addrs,
              ∀ r ∈ pairsOf l.2.index addr.addrs, p = r) := by
  intro x mem link addr both linkComplete addrComplete names indices netdevs s q info holds
  have sound : ∀ ex ∈ x.event.2, ex.Sound := fun ex isEx =>
    (exchanges_sound_iff run x mem ex isEx).mpr (undisturbed x mem ex isEx)
  have types := typed x mem
  obtain ⟨isLink, isAddr⟩ := pollStep_kinds (run.taken x mem) both
  rw [both] at sound types
  simp only [List.forall_mem_cons] at sound types
  obtain ⟨linkSound, addrSound, -⟩ := sound
  obtain ⟨linkTyped, addrTyped, -⟩ := types
  have files := dumps_of_sound isLink isAddr linkSound addrSound linkTyped addrTyped netdevs (some q)
  rw [linkSound.filterMap_passed linkComplete fun m isDone => by rw [NlMsg.link?, isDone],
    addrSound.filterMap_passed addrComplete fun m isDone => by rw [NlMsg.addr?, isDone]] at files
  obtain ⟨g, t, filed, grown, trees⟩ := rtnlUpdate_trees netdevs addr.addrs holds names indices
  refine ⟨g, t, files ▸ filed, grown, ?_⟩
  rw [trees]
  exact forall₂_joined netdevs addr.addrs

end

/-- The loopback interface, named once and with one address. -/
def loopbackPoll : PollInput where
  configured := true
  opens := true
  linkClock := 100
  addrClock := 100
  linkAnswer := [.datagram (msgOf 0 linkData) [msgOf 0 .done]]
  addrAnswer := [.datagram (msgOf 1 addrData) [msgOf 1 .done]]

def loopbackLink : Exchange where
  kind := .link
  request := 0
  clock := 100
  queued := []
  answer := loopbackPoll.linkAnswer
  update := ⟨[msgOf 0 linkData, msgOf 0 .done], 0, []⟩

def loopbackAddr : Exchange where
  kind := .addr
  request := 1
  clock := 100
  queued := []
  answer := loopbackPoll.addrAnswer
  update := ⟨[msgOf 1 addrData, msgOf 1 .done], 0, []⟩

theorem loopback_answered : ∀ ex ∈ [loopbackLink, loopbackAddr], ex.Answered := by
  simp only [List.forall_mem_cons]
  refine ⟨⟨?_, [msgOf 0 linkData], msgOf 0 .done, rfl, rfl, ?_⟩,
    ⟨?_, [msgOf 1 addrData], msgOf 1 .done, rfl, rfl, ?_⟩, by simp⟩ <;>
    simp [loopbackLink, loopbackAddr, loopbackPoll, queuedMessages, Received.messages, msgOf,
      linkData, addrData, Exchange.seq]

theorem loopback_typed : ∀ ex ∈ [loopbackLink, loopbackAddr], ex.Typed := by
  simp [Exchange.Typed, Exchange.passed, loopbackLink, loopbackAddr, msgOf, linkData, addrData]

theorem polls_joined_loopback :
    ∃ path, Run.Path PollStep none path ∧ path.map (·.event.2) = [[loopbackLink, loopbackAddr]] ∧
      ∃ g t, fileDumps [ascii "lo"] (some 1) loopbackLink loopbackAddr sectionNode = .ok ((), t) ∧
        Holds t (.cons (1, rootInfo) g .nil) ∧
        List.Forall₂ (Joined loopbackAddr.addrs) (configuredLinks [ascii "lo"] loopbackLink.links)
          g.shape.trees := by
  have poll : Netlink.osysmonRtnlPoll loopbackPoll none =
      .ok (0, [loopbackLink, loopbackAddr], some ⟨[], 2⟩) := rfl
  have run := Run.Path.next (PollStep.poll poll loopback_answered) .stop
  obtain ⟨g, t, filed, grown, joined⟩ := polls_joined run
    (by simp [loopbackLink, loopbackAddr, Exchange.Undisturbed])
    (List.forall_mem_singleton.mpr loopback_typed) _ List.mem_cons_self loopbackLink loopbackAddr
    rfl rfl rfl (by decide) (by decide) [ascii "lo"] sectionNode 1 rootInfo holds_sectionNode
  refine ⟨_, run, rfl, g, t, filed, grown, joined.mpr ?_⟩
  decide

end OsmoSysmon
