import OsmoSysmon.Ctrl.Commands

/-! # The hosts that are pinged

`add_host` and the commands on top of it, in `osysmon_ping.c`.  The list of hosts is
liboping's, and what its functions do to it is a parameter; `Liboping.Documented` is what
the code relies on.  A failing `ping_host_add` may have linked the host all the same, and
`addHost_spec` says that the code then undoes exactly that.
-/

namespace OsmoSysmon

open CText

/-- The functions of liboping that change the list of hosts: the return value and the
    list. -/
structure Liboping where
  hostAdd : (hosts : List CStr) → (host : CStr) → Int × List CStr
  hostRemove : (hosts : List CStr) → (host : CStr) → Int × List CStr

/-- The host is linked somewhere in the list. -/
def Linked (hosts : List CStr) (host : CStr) (hosts' : List CStr) : Prop :=
  ∃ front back, hosts = front ++ back ∧ hosts' = front ++ host :: back

structure Liboping.Documented (api : Liboping) : Prop where
  /-- A host that is in the list is not added again. -/
  known : ∀ hosts host, host ∈ hosts → api.hostAdd hosts host = (0, hosts)
  success : ∀ hosts host, host ∉ hosts → 0 ≤ (api.hostAdd hosts host).1 →
    Linked hosts host (api.hostAdd hosts host).2
  /-- The failure may come before the host is linked, or after. -/
  failure : ∀ hosts host, host ∉ hosts → (api.hostAdd hosts host).1 < 0 →
    (api.hostAdd hosts host).2 = hosts ∨ Linked hosts host (api.hostAdd hosts host).2
  /-- The one entry with this user name is removed. -/
  removes : ∀ front host back, host ∉ front → host ∉ back →
    api.hostRemove (front ++ host :: back) host = (0, front ++ back)
  missing : ∀ hosts host, host ∉ hosts →
    (api.hostRemove hosts host).1 < 0 ∧ (api.hostRemove hosts host).2 = hosts

/-- The loop over the hosts, counting in an `unsigned`. -/
def iteratorCount (hosts : List CStr) : UInt32 := hosts.foldl (fun count _ => count + 1) 0

def addHost (api : Liboping) (pinger : List CStr) (host : CStr) : Int × List CStr :=
  let numHost := (iteratorCount pinger).toInt32
  let (rc, pinger) := api.hostAdd pinger host
  if rc < 0 then
    -- compared as `unsigned`
    if numHost.toUInt32 ≠ iteratorCount pinger then (rc, (api.hostRemove pinger host).2)
    else (rc, pinger)
  else (rc, pinger)

def cfgPing (api : Liboping) (host : CStr) (pinger : List CStr) : CmdResult × List CStr :=
  let (rc, pinger) := addHost api pinger host
  -- "[%d] Couldn't add pinger for %s: %s"
  if rc < 0 then (.warning, pinger) else (.success, pinger)

def cfgNoPing (api : Liboping) (host : CStr) (pinger : List CStr) : CmdResult × List CStr :=
  let (rc, pinger) := api.hostRemove pinger host
  -- "[%d] Couldn't remove %s pinger: %s"
  if rc < 0 then (.warning, pinger) else (.success, pinger)

/-! ## Counting -/

theorem iteratorCount_eq (hosts : List CStr) : iteratorCount hosts = hosts.length.toUInt32 := by
  have counted (count : UInt32) :
      hosts.foldl (fun count _ => count + 1) count = count + hosts.length.toUInt32 := by
    induction hosts generalizing count with
    | nil => simp
    | cons host hosts ih =>
      rw [List.foldl_cons, ih, List.length_cons]
      simp [Nat.toUInt32_eq, UInt32.add_assoc, UInt32.add_comm 1]
  rw [iteratorCount, counted, UInt32.zero_add]

/-- One host more is another count, also where the count wraps around. -/
theorem iteratorCount_of_linked {hosts hosts' : List CStr} {host : CStr}
    (linked : Linked hosts host hosts') : iteratorCount hosts ≠ iteratorCount hosts' := by
  obtain ⟨front, back, rfl, rfl⟩ := linked
  rw [iteratorCount_eq, iteratorCount_eq, List.length_append, List.length_append, List.length_cons,
    ← Nat.add_assoc]
  intro same
  simp at same

/-! ## Adding a host -/

variable {api : Liboping}

theorem addHost_of_known (documented : api.Documented) {hosts : List CStr} {host : CStr}
    (known : host ∈ hosts) : addHost api hosts host = (0, hosts) := by
  rw [addHost, documented.known hosts host known]
  rfl

/-- What is linked by a failing call is removed again. -/
theorem addHost_of_failure (documented : api.Documented) {hosts : List CStr} {host : CStr}
    (new : host ∉ hosts) (fails : (api.hostAdd hosts host).1 < 0) :
    addHost api hosts host = ((api.hostAdd hosts host).1, hosts) := by
  have outcome := documented.failure hosts host new fails
  rw [addHost]
  generalize api.hostAdd hosts host = added at fails outcome
  obtain ⟨rc, hosts'⟩ := added
  simp only [if_pos fails]
  rcases outcome with same | linked
  · rw [show hosts' = hosts from same, if_neg (by simp)]
  · rw [if_pos (by simpa using iteratorCount_of_linked linked)]
    obtain ⟨front, back, rfl, isLinked⟩ := linked
    rw [List.mem_append, not_or] at new
    rw [show hosts' = front ++ host :: back from isLinked,
      documented.removes front host back new.1 new.2]

theorem addHost_of_success (documented : api.Documented) {hosts : List CStr} {host : CStr}
    (new : host ∉ hosts) (succeeds : 0 ≤ (api.hostAdd hosts host).1) :
    addHost api hosts host = api.hostAdd hosts host ∧
      Linked hosts host (api.hostAdd hosts host).2 := by
  refine ⟨?_, documented.success hosts host new succeeds⟩
  rw [addHost]
  exact if_neg (Int.not_lt.mpr succeeds)

theorem Linked.sublist {hosts hosts' : List CStr} {host : CStr} (linked : Linked hosts host hosts') :
    hosts.Sublist hosts' := by
  obtain ⟨front, back, rfl, rfl⟩ := linked
  exact (List.sublist_cons_self host back).append_left front

theorem Linked.perm {hosts hosts' : List CStr} {host : CStr} (linked : Linked hosts host hosts') :
    hosts'.Perm (host :: hosts) := by
  obtain ⟨front, back, rfl, rfl⟩ := linked
  exact List.perm_middle

/-- **When `add_host` fails the list is the one before the call; when it succeeds the list
    has the host, once if it was not there twice, and the hosts it had before, in their
    order.** -/
theorem addHost_spec (documented : api.Documented) (pinger : List CStr) (host : CStr) :
    ((addHost api pinger host).1 < 0 → (addHost api pinger host).2 = pinger) ∧
    (0 ≤ (addHost api pinger host).1 →
      host ∈ (addHost api pinger host).2 ∧ pinger.Sublist (addHost api pinger host).2 ∧
      (∀ other ∈ (addHost api pinger host).2, other = host ∨ other ∈ pinger) ∧
      (pinger.count host ≤ 1 → (addHost api pinger host).2.count host = 1) ∧
      (pinger.Nodup → (addHost api pinger host).2.Nodup)) := by
  by_cases known : host ∈ pinger
  · rw [addHost_of_known documented known]
    refine ⟨fun _ => rfl, fun _ => ⟨known, .refl _, fun _ => .inr, fun once => ?_, id⟩⟩
    have counted : 0 < pinger.count host := List.count_pos_iff.mpr known
    show pinger.count host = 1
    omega
  · rcases Int.lt_or_le (api.hostAdd pinger host).1 0 with fails | succeeds
    · rw [addHost_of_failure documented known fails]
      exact ⟨fun _ => rfl, fun succeeds => absurd fails (Int.not_lt.mpr succeeds)⟩
    · obtain ⟨same, linked⟩ := addHost_of_success documented known succeeds
      rw [same]
      have perm := linked.perm
      refine ⟨fun fails => absurd fails (Int.not_lt.mpr succeeds), fun _ => ⟨?_, ?_, ?_, ?_, ?_⟩⟩
      · exact perm.mem_iff.mpr List.mem_cons_self
      · exact linked.sublist
      · exact fun other member => List.mem_cons.mp (perm.mem_iff.mp member)
      · intro _
        have absent : pinger.count host = 0 := List.count_eq_zero_of_not_mem known
        rw [perm.count_eq, List.count_cons_self, absent]
      · intro unique
        exact perm.nodup_iff.mpr (List.nodup_cons.mpr ⟨known, unique⟩)

/-- A library that resolves `localhost` only, and leaves linked what it cannot resolve. -/
def opingLocal : Liboping where
  hostAdd hosts host :=
    if hosts.contains host then (0, hosts)
    else if host = ascii "localhost" then (0, hosts ++ [host])
    else (-1, hosts ++ [host])
  hostRemove hosts host := if hosts.contains host then (0, hosts.erase host) else (-1, hosts)

theorem opingLocal_documented : opingLocal.Documented where
  known _ _ known := if_pos (List.contains_iff_mem.mpr known)
  success hosts host new succeeds := by
    have absent : ¬ hosts.contains host = true := mt List.contains_iff_mem.mp new
    simp only [opingLocal, if_neg absent] at succeeds ⊢
    split at succeeds
    · next isLocal =>
      rw [if_pos isLocal]
      exact ⟨hosts, [], (List.append_nil _).symm, rfl⟩
    · exact absurd succeeds (show ¬ (0 : Int) ≤ -1 by decide)
  failure hosts host new _ := by
    have absent : ¬ hosts.contains host = true := mt List.contains_iff_mem.mp new
    right
    refine ⟨hosts, [], (List.append_nil _).symm, ?_⟩
    simp only [opingLocal, if_neg absent]
    split <;> rfl
  removes front host back notBefore _ := by
    have known : (front ++ host :: back).contains host = true :=
      List.contains_iff_mem.mpr (List.mem_append_right _ List.mem_cons_self)
    simp only [opingLocal, if_pos known, List.erase_append_right _ notBefore,
      List.erase_cons_head]
  missing hosts host new := by
    have absent : ¬ hosts.contains host = true := mt List.contains_iff_mem.mp new
    simp only [opingLocal, if_neg absent]
    exact ⟨by decide, trivial⟩

/-- A host that cannot be resolved is taken out of the list again. -/
theorem addHost_spec_unresolved :
    (addHost opingLocal [ascii "localhost"] (ascii "nowhere")).2 = [ascii "localhost"] :=
  (addHost_spec opingLocal_documented [ascii "localhost"] (ascii "nowhere")).1 (by decide)

end OsmoSysmon
