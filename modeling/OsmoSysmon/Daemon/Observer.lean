import OsmoSysmon.Daemon.Start
import OsmoSysmon.SimpleCtrl.Remote

/-! # What the reports show of the hosts behind CTRL

A connection outlives the poll that has opened it, and so do its ids and what is still under
way on it.  An observer asks the hosts themselves.  All that it keeps of the polls before is
whether there is a connection, and that is all that the reports can tell of them: no value is
shown that a host has not held during that very poll.
-/

namespace OsmoSysmon

open CText Scanf Simulation

/-! ## The observer -/

/-- The hosts during one poll: which can be reached, and what they decide on a request for a
    variable. -/
structure Network where
  reached : HostCfg → Bool
  held : HostCfg → CStr → Verdict

def Verdict.isValue : Verdict → Bool
  | .accepts _ => true
  | .refuses _ => false

/-- The variables up to the first that is refused. -/
def observedItems (held : CStr → Verdict) : List CStr → List Item
  | [] => []
  | var :: vars =>
    match held var with
    | .accepts val => .value var ((word? val.text).getD []) :: observedItems held vars
    | .refuses _ => []

/-- What is shown of a host, and whether there is a connection afterwards. -/
def observe (cfg : HostCfg) (vars : List CStr) (net : Network) (up : Bool) : List Item × Bool :=
  if up || net.reached cfg then
    (observedItems (net.held cfg) vars, vars.all fun var => (net.held cfg var).isValue)
  else ([], false)

/-! ## Its network -/

namespace Network

/-- A host answers for itself, and is the same host afterwards. -/
def serve (net : Network) (c : Call) (host : HostCfg) : Verdict × HostCfg :=
  (net.held host c.var, host)

/-- The name of a variable that can be asked for: a word that fits a request. -/
structure Asked (var : CStr) : Prop where
  nonempty : var ≠ []
  word : ∀ c ∈ var, isspace c = false
  noNul : 0 ∉ var
  short : var.length ≤ 496

/-- The CTRL interface in this network: connections are made to the hosts that can be reached, and
    each request on an idle one is a round with the host behind it. -/
structure Serves (net : Network) (api : CtrlApi (Ends HostCfg)) : Prop where
  connect : ∀ cfg, api.connect cfg =
    if net.reached cfg then some ⟨⟨0, 1000⟩, ⟨[], [], []⟩, cfg⟩ else none
  query : ∀ l var, l.Idle → Asked var →
    ∃ o, Round net.serve (.get var) l o (api.query l var).2 ∧ o.answer = .inl (api.query l var).1

theorem Asked.plain {var : CStr} (asked : Asked var) : (Call.get var).Plain :=
  ⟨asked.nonempty, asked.word, asked.noNul⟩

theorem Asked.fits {var : CStr} (asked : Asked var) (id : UInt32) :
    ((Call.get var).request id).length ≤ 511 := by
  have bounded := id.toNat_lt
  have digits : (decimal id.toNat).length ≤ 10 :=
    (length_decimal_le_iff (by decide)).mpr (by omega)
  have short := asked.short
  simp [Call.request, getRequest, ascii]
  omega

/-- What a verdict on a GET request comes to. -/
def value? : Verdict → Option CStr
  | .accepts val => some ((word? val.text).getD [])
  | .refuses _ => none

theorem answer_get (v : Verdict) (var : CStr) : v.answer (.get var) = .inl (value? v) := by
  cases v with
  | accepts val => rfl
  | refuses reason => rfl

variable {net : Network} {api : CtrlApi (Ends HostCfg)} {l : Ends HostCfg}

/-- What a request comes to on an idle connection. -/
theorem Serves.asks (serves : net.Serves api) (idle : l.Idle) {var : CStr} (asked : Asked var) :
    (api.query l var).1 = value? (net.held l.peer var) ∧
      (api.query l var).2.Idle ∧ (api.query l var).2.peer = l.peer := by
  obtain ⟨o, round, isAnswer⟩ := serves.query l var idle asked
  obtain ⟨answer, isPeer, -, idle'⟩ := round_direct idle asked.plain (asked.fits _) round
  have same : Sum.inl (api.query l var).1 = (net.held l.peer var).answer (.get var) :=
    isAnswer.symm.trans answer
  rw [answer_get] at same
  exact ⟨Sum.inl.inj same, idle', isPeer⟩

/-- There is an interface in every network. -/
theorem exists_serves (net : Network) : ∃ api, net.Serves api := by
  classical
  have rounds (l : Ends HostCfg) (var : CStr) : ∃ r : Option CStr × Ends HostCfg,
      l.Idle → Asked var → ∃ o, Round net.serve (.get var) l o r.2 ∧ o.answer = .inl r.1 := by
    by_cases both : l.Idle ∧ Asked var
    · obtain ⟨idle, asked⟩ := both
      obtain ⟨o, l', round⟩ := exists_round net.serve idle asked.plain (asked.fits _)
      obtain ⟨answer, -⟩ := round_direct idle asked.plain (asked.fits _) round
      cases o with
      | value s => exact ⟨(s.map HeapStr.text, l'), fun _ _ => ⟨.value s, round, rfl⟩⟩
      | status ok =>
        have isValue : Sum.inr ok = (net.held l.peer var).answer (.get var) := answer
        rw [answer_get] at isValue
        cases isValue
    · exact ⟨(none, l), fun idle asked => absurd ⟨idle, asked⟩ both⟩
  choose query isRound using rounds
  exact ⟨⟨fun cfg => if net.reached cfg then some ⟨⟨0, 1000⟩, ⟨[], [], []⟩, cfg⟩ else none, query⟩,
    fun _ => rfl, isRound⟩

/-! ## One poll -/

theorem Serves.variables (serves : net.Serves api) {vars : List CStr} (idle : l.Idle)
    (asked : ∀ var ∈ vars, Asked var) :
    varItems api l vars = observedItems (net.held l.peer) vars ∧
      (varsAfter api l vars).isSome = vars.all (fun var => (net.held l.peer var).isValue) ∧
      ∀ l', varsAfter api l vars = some l' → l'.Idle ∧ l'.peer = l.peer := by
  induction vars generalizing l with
  | nil =>
    refine ⟨rfl, rfl, fun l' same => ?_⟩
    cases same
    exact ⟨idle, rfl⟩
  | cons var vars ih =>
    rw [List.forall_mem_cons] at asked
    obtain ⟨answer, idle', samePeer⟩ := serves.asks idle asked.1
    rw [varItems, varsAfter, observedItems, List.all_cons]
    cases query : api.query l var with
    | mk value next =>
      rw [query] at answer idle' samePeer
      dsimp only at answer idle' samePeer
      cases isVerdict : net.held l.peer var with
      | refuses reason =>
        rw [isVerdict, value?] at answer
        subst answer
        simp [Verdict.isValue]
      | accepts val =>
        rw [isVerdict, value?] at answer
        subst answer
        obtain ⟨items, kept, later⟩ := ih idle' asked.2
        rw [samePeer] at items kept later
        exact ⟨congrArg (Item.value var _ :: ·) items, by simpa [Verdict.isValue] using kept, later⟩

/-- The client has an idle connection to its own host, or none. -/
structure Connected (cc : CtrlClient (Ends HostCfg)) (up : Bool) : Prop where
  up : cc.sch.isSome = up
  idle : ∀ l, cc.sch = some l → l.Idle ∧ l.peer = cc.cfg

theorem Serves.poll (serves : net.Serves api) {cc : CtrlClient (Ends HostCfg)} {up : Bool}
    (connected : Connected cc up) (asked : ∀ var ∈ cc.getVars, Asked var) :
    ctrlSection api cc = ⟨cc.cfg.name, (observe cc.cfg cc.getVars net up).1, false⟩ ∧
      Connected (ctrlAfter api cc) (observe cc.cfg cc.getVars net up).2 := by
  have attempt := serves.connect cc.cfg
  have found : ∀ l, (cc.sch <|> api.connect cc.cfg) = some l → l.Idle ∧ l.peer = cc.cfg := by
    intro l isFound
    cases isSch : cc.sch with
    | some old =>
      rw [isSch] at isFound
      cases isFound
      exact connected.idle l isSch
    | none =>
      rw [isSch, attempt] at isFound
      have isNew : (if net.reached cc.cfg then some ⟨⟨0, 1000⟩, ⟨[], [], []⟩, cc.cfg⟩ else none) =
        some l := isFound
      split at isNew
      · cases isNew
        exact ⟨⟨rfl, rfl⟩, rfl⟩
      · cases isNew
  have isUp : (cc.sch <|> api.connect cc.cfg).isSome = (up || net.reached cc.cfg) := by
    rw [← connected.up, attempt]
    cases cc.sch <;> cases net.reached cc.cfg <;> rfl
  rw [ctrlSection, ctrlItems, observe]
  cases isFound : cc.sch <|> api.connect cc.cfg with
  | none =>
    rw [isFound] at isUp
    rw [← isUp]
    refine ⟨rfl, ⟨?_, ?_⟩⟩
    · simp [ctrlAfter, isFound]
    · simp [ctrlAfter, isFound]
  | some l =>
    obtain ⟨idle, isPeer⟩ := found l isFound
    obtain ⟨items, kept, later⟩ := serves.variables idle asked
    rw [isFound] at isUp
    rw [isPeer] at items kept later
    rw [← isUp]
    refine ⟨?_, ⟨?_, ?_⟩⟩
    · exact congrArg (fun shown => (⟨cc.cfg.name, shown, false⟩ : Section)) items
    · rw [ctrlAfter, isFound]
      exact kept
    · intro l' isAfter
      rw [ctrlAfter, isFound] at isAfter
      exact later l' isAfter

/-! ## Histories of polls -/

/-- A client after polls in these networks. -/
theorem connected_after {nets : List Network} {apis : List (CtrlApi (Ends HostCfg))}
    (serve : List.Forall₂ Serves nets apis) {cc : CtrlClient (Ends HostCfg)} {up : Bool}
    (connected : Connected cc up) (asked : ∀ var ∈ cc.getVars, Asked var) :
    Connected (apis.foldl (fun cc api => ctrlAfter api cc) cc)
        (final (observe cc.cfg cc.getVars) nets up) ∧
      (apis.foldl (fun cc api => ctrlAfter api cc) cc).cfg = cc.cfg ∧
      (apis.foldl (fun cc api => ctrlAfter api cc) cc).getVars = cc.getVars := by
  induction serve generalizing cc up with
  | nil => exact ⟨connected, rfl, rfl⟩
  | cons here _ ih => exact ih (here.poll connected asked).2 asked

end Network

open Network

/-- **What a report shows of the CTRL clients is what an observer of the hosts sees during that
    poll**: of the polls before nothing is left but whether there is a connection. -/
theorem reports_observed {p : Process (Ends HostCfg)} {os : OsysmonState (Ends HostCfg)}
    (loaded : Loaded p os) (distinct : os.rootNames.Nodup) (running : p.exited = false)
    (fresh : Fresh os) (asked : ∀ cc ∈ os.ctrlClients, ∀ var ∈ cc.getVars, Asked var)
    (events : List (MainEvent (Ends HostCfg))) :
    ∃ shown q, Simulation.runs Process.handle events p = .ok (shown, q) ∧
      ∀ before probes after, events = before ++ .timer probes :: after →
        (p.oneshot = true → pollsOf before = []) →
        ∀ nets net, List.Forall₂ Serves nets (pollsOf before) → net.Serves probes.ctrl →
          ∃ os', OsysmonState.Known os before os' ∧
            shown[before.length]? = some (some (os'.report probes)) ∧
            os'.ctrlClients.map (ctrlSection probes.ctrl) = os.ctrlClients.map fun cc =>
              ⟨cc.cfg.name, (observe cc.cfg cc.getVars net
                (final (observe cc.cfg cc.getVars) nets false)).1, false⟩ := by
  have implements : Implements p ⟨os, p.oneshot, false⟩ := ⟨loaded, distinct, rfl, running⟩
  obtain ⟨q, runs, -⟩ := handle_simulates.runs events implements
  refine ⟨_, q, runs, ?_⟩
  rintro before probes after rfl first nets net served serves
  have prints := handle_prints os p.oneshot before (.timer probes)
  rw [Prints, if_neg fun again => again.2 (first again.1)] at prints
  obtain ⟨os', known, isReport⟩ := prints
  refine ⟨os', known, by rw [getElem?_outputs, isReport], ?_⟩
  rw [known.ctrl, List.map_map]
  apply List.map_congr_left
  intro cc isClient
  have start : Connected cc false := by
    have closed := fresh.ctrl cc isClient
    exact ⟨by rw [closed]; rfl, by simp [closed]⟩
  obtain ⟨connected, cfg, getVars⟩ := connected_after served start (asked cc isClient)
  have shows := (serves.poll connected (getVars ▸ asked cc isClient)).1
  rw [cfg, getVars] at shows
  exact shows

/-- A client with one variable, before the first poll. -/
def bscClient : CtrlClient (Ends HostCfg) :=
  ⟨hostCfgAlloc (ascii "bsc") (some (ascii "10.0.0.1")) 4249, none, [ascii "rf"]⟩

def bscProcess : Process (Ends HostCfg) where
  sysmon :=
    { registries := { Registries.empty with
        ctrl := { CtrlState.empty with
          heap := (Talloc.Heap.empty.alloc none (.client bscClient.cfg [1])).alloc (some 0)
            (.getVar 0 (ascii "rf"))
          ctrlClients := [0] } }
      pings := []
      sysinfoEnabled := false }
  handles _ := none
  nodes := Nodes.empty
  pingInit := 0
  oneshot := false
  exited := false

/-- Every variable has this value. -/
def holding (val : AnswerText) : Network := ⟨fun _ => true, fun _ _ => .accepts val⟩

/-- Nothing but the CTRL interface answers. -/
def ctrlProbes {H : Type} (api : CtrlApi H) : Probes H where
  ctrl := api
  sysinfo := none
  netlink := none
  ping _ := ⟨none, none, none, none, none, none⟩
  file _ := none
  shell _ := .output []

/-- The second report shows the second value. -/
theorem reports_observed_bsc :
    ∃ api api' shown q os',
      (holding ⟨ascii "1", by decide, by decide⟩).Serves api ∧
      (holding ⟨ascii "2", by decide, by decide⟩).Serves api' ∧
      Simulation.runs Process.handle [.timer (ctrlProbes api), .timer (ctrlProbes api')] bscProcess =
        .ok (shown, q) ∧
      shown[1]? = some (some (OsysmonState.report os' (ctrlProbes api'))) ∧
      os'.ctrlClients.map (ctrlSection api') =
        [⟨ascii "bsc", [.value (ascii "rf") (ascii "2")], false⟩] := by
  have loaded : Loaded bscProcess (OsysmonState.onlyClient bscClient) :=
    ⟨.nil, List.nodup_nil, .nil, .nil, .nil, .cons ⟨rfl, [1], rfl, rfl⟩ .nil,
      List.nodup_singleton 0, rfl, rfl, rfl⟩
  have fresh : Fresh (OsysmonState.onlyClient bscClient) := by
    constructor
    · simp [OsysmonState.onlyClient, OsysmonState.bare]
    · simp [OsysmonState.onlyClient, OsysmonState.bare, bscClient]
  have asked : ∀ cc ∈ (OsysmonState.onlyClient bscClient).ctrlClients, ∀ var ∈ cc.getVars,
      Asked var := by
    intro cc isClient var isVar
    rw [List.mem_singleton.mp isClient] at isVar
    rw [List.mem_singleton.mp isVar]
    exact ⟨by decide, by simp [ascii, isspace], by decide, by decide⟩
  obtain ⟨api, serves⟩ := exists_serves (holding ⟨ascii "1", by decide, by decide⟩)
  obtain ⟨api', serves'⟩ := exists_serves (holding ⟨ascii "2", by decide, by decide⟩)
  obtain ⟨shown, q, runs, observed⟩ := reports_observed loaded (by decide) rfl fresh asked
    [.timer (ctrlProbes api), .timer (ctrlProbes api')]
  have once : bscProcess.oneshot = true → pollsOf [.timer (ctrlProbes api)] = [] := by
    intro isOnce
    cases isOnce
  obtain ⟨os', -, isReport, sections⟩ := observed [.timer (ctrlProbes api)] (ctrlProbes api') [] rfl
    once [_] _ (.cons serves .nil) serves'
  exact ⟨api, api', shown, q, os', serves, serves', runs, isReport, sections⟩

end OsmoSysmon
