import Mathlib.Data.Int.Notation
import Mathlib.Data.List.Nodup
import Mathlib.Data.List.Perm.Subperm
import Mathlib.Logic.Relation

/-! What the parent of a crashed worker reads from the process table, and the proof that it takes from it: the session
of the worker holds nothing but processes that are known. -/

namespace KernelGym.ProcessContainment

abbrev Pid := ℤ

structure LinuxProcessIdentity where
  pid : Pid
  startTicks : ℤ
  ppid : Pid
  pgid : Pid
  sid : Pid
  state : String
  deriving DecidableEq, Repr

/-- A dictionary from process numbers to processes. -/
structure Snapshot where
  items : List (Pid × LinuxProcessIdentity) := []
  nodup : (items.map Prod.fst).Nodup := by decide

namespace Snapshot

def get (s : Snapshot) (pid : Pid) : Option LinuxProcessIdentity := s.items.lookup pid

/-- `snapshot[pid] = identity` -/
def set (s : Snapshot) (pid : Pid) (identity : LinuxProcessIdentity) : Snapshot :=
  if h : pid ∈ s.items.map Prod.fst then
    ⟨s.items.map fun item => if item.1 = pid then (pid, identity) else item, by
      have hkeys : (s.items.map fun item => if item.1 = pid then (pid, identity) else item).map Prod.fst =
          s.items.map Prod.fst := by
        rw [List.map_map]
        refine List.map_congr_left fun item _ => ?_
        by_cases hpid : item.1 = pid
        · simp [hpid]
        · simp [hpid]
      rw [hkeys]
      exact s.nodup⟩
  else
    ⟨s.items ++ [(pid, identity)], by
      rw [List.map_append]
      exact List.Nodup.append s.nodup (List.nodup_singleton _) (List.disjoint_singleton.mpr h)⟩

end Snapshot

/-! ### The closure of child links -/

/-- One round: the processes whose parent is in the frontier and that are not known yet. -/
def children (s : Snapshot) (rootPid : Pid) (descendants : List (Pid × LinuxProcessIdentity)) (frontier : List Pid) :
    List (Pid × LinuxProcessIdentity) :=
  s.items.filter fun item =>
    decide (item.2.ppid ∈ frontier) && decide (item.1 ∉ descendants.map Prod.fst) && decide (item.1 ≠ rootPid)

/-- The loop of `_descendants_from_snapshot`; `none` if it has not ended after so many rounds. -/
def descendantsLoop (s : Snapshot) (rootPid : Pid) :
    ℕ → List (Pid × LinuxProcessIdentity) → List Pid → Option (List (Pid × LinuxProcessIdentity))
  | 0, _, _ => none
  | rounds + 1, descendants, frontier =>
    if frontier = [] then some descendants
    else if children s rootPid descendants frontier = [] then some descendants
    else
      descendantsLoop s rootPid rounds (descendants ++ children s rootPid descendants frontier)
        ((children s rootPid descendants frontier).map Prod.fst)

/-- `_descendants_from_snapshot` -/
def descendantsFromSnapshot (s : Snapshot) (rootPid : Pid) : List (Pid × LinuxProcessIdentity) :=
  (descendantsLoop s rootPid (s.items.length + 1) [] [rootPid]).getD []

/-! ### The session of a crashed worker -/

inductive ContainmentError
  | cannotEnumerate
  | cannotRead (pid : Pid)
  deriving DecidableEq, Repr

/-- What one check finds: the directory listing, each process when it is read, the own process, the resource tracker, and
the generations that are registered for the session. Each is read at a time of its own. -/
structure Observation where
  listing : Except ContainmentError (List Pid)
  /-- `_read_linux_process_identity`: nothing if the process is gone. -/
  read : Pid → Except ContainmentError (Option LinuxProcessIdentity)
  read_pid : ∀ pid identity, read pid = .ok (some identity) → identity.pid = pid
  outerPid : Pid
  trackerPid : Option Pid
  starting : List LinuxProcessIdentity
  active : List LinuxProcessIdentity

/-- The reads of `_snapshot_linux_processes`. -/
def readAll (read : Pid → Except ContainmentError (Option LinuxProcessIdentity)) :
    List Pid → Snapshot → Except ContainmentError Snapshot
  | [], s => .ok s
  | entry :: entries, s => do
    match ← read entry with
    | some identity => readAll read entries (s.set identity.pid identity)
    | none => readAll read entries s

/-- `_snapshot_linux_processes` -/
def snapshotLinuxProcesses (o : Observation) : Except ContainmentError Snapshot := do
  let entries ← o.listing
  readAll o.read entries {}

/-- `_same_process_generation` -/
def sameProcessGeneration (expected : LinuxProcessIdentity) (observed : Option LinuxProcessIdentity) : Bool :=
  observed.any fun observed => observed.startTicks = expected.startTicks

/-- A registration that is not that of the crashed worker. -/
def isOther (leader registered : LinuxProcessIdentity) : Bool :=
  registered.pid ≠ leader.pid || registered.startTicks ≠ leader.startTicks

def allowedPids (o : Observation) (s : Snapshot) (leader outer : LinuxProcessIdentity) : List Pid :=
  o.outerPid :: (o.trackerPid.filter fun trackerPid => (s.get trackerPid).any fun tracker =>
    tracker.ppid = o.outerPid && tracker.pgid = outer.pgid && tracker.sid = leader.sid).toList

def allowedStartingPids (o : Observation) (s : Snapshot) (leader : LinuxProcessIdentity) : List Pid :=
  (o.starting.filter fun registered =>
    isOther leader registered && sameProcessGeneration registered (s.get registered.pid) &&
      (s.get registered.pid).any fun observed => observed.sid = leader.sid).map LinuxProcessIdentity.pid

def allowedActivePids (o : Observation) (s : Snapshot) (leader : LinuxProcessIdentity) : List Pid :=
  o.active.flatMap fun registered =>
    match s.get registered.pid with
    | none => []
    | some observed =>
      if isOther leader registered && sameProcessGeneration registered (some observed) &&
          observed.sid = leader.sid && observed.pgid = registered.pgid then
        observed.pid :: (((descendantsFromSnapshot s observed.pid).map Prod.snd).filter fun descendant =>
          descendant.sid = leader.sid).map LinuxProcessIdentity.pid
      else []

/-- `_worker_session_is_contained_after_leader_exit` -/
def workerSessionIsContained (o : Observation) (leader : LinuxProcessIdentity) : Except ContainmentError Bool := do
  let s ← snapshotLinuxProcesses o
  match s.get o.outerPid with
  | none => return false
  | some outer =>
    if outer.sid ≠ leader.sid then return false
    return (s.items.map Prod.snd).all fun member =>
      member.sid ≠ leader.sid || member.pid ∈ allowedPids o s leader outer || member.pid ∈ allowedStartingPids o s leader ||
        member.pid ∈ allowedActivePids o s leader

/-! ### Snapshots -/

namespace Snapshot

variable {s : Snapshot} {pid pid' : Pid} {identity identity' : LinuxProcessIdentity}

theorem lookup_iff {items : List (Pid × LinuxProcessIdentity)} (h : (items.map Prod.fst).Nodup) :
    items.lookup pid = some identity ↔ (pid, identity) ∈ items := by
  induction items with
  | nil => simp
  | cons item rest ih =>
      obtain ⟨hnot, hrest⟩ := List.nodup_cons.mp h
      rw [List.lookup_cons]
      by_cases hpid : pid = item.1
      · subst hpid
        have hfresh : (item.1, identity) ∉ rest := fun hmem => hnot (List.mem_map.mpr ⟨_, hmem, rfl⟩)
        rw [beq_self_eq_true]
        simp [hfresh, Prod.ext_iff, eq_comm]
      · rw [beq_eq_false_iff_ne.mpr hpid, ih hrest]
        simp [Prod.ext_iff, hpid]

theorem get_iff : s.get pid = some identity ↔ (pid, identity) ∈ s.items := lookup_iff s.nodup

theorem mem_set_iff : (pid', identity') ∈ (s.set pid identity).items ↔
    (pid' = pid ∧ identity' = identity) ∨ (pid' ≠ pid ∧ (pid', identity') ∈ s.items) := by
  rw [set]
  split_ifs with h
  · obtain ⟨old, hold, hkey⟩ := List.mem_map.mp h
    constructor
    · intro hmem
      obtain ⟨item, hitem, heq⟩ := List.mem_map.mp hmem
      split_ifs at heq with hpid
      · exact .inl ⟨(Prod.ext_iff.mp heq).1.symm, (Prod.ext_iff.mp heq).2.symm⟩
      · subst heq
        exact .inr ⟨hpid, hitem⟩
    · rintro (⟨rfl, rfl⟩ | ⟨hne, hmem⟩)
      · exact List.mem_map.mpr ⟨old, hold, if_pos hkey⟩
      · exact List.mem_map.mpr ⟨_, hmem, if_neg hne⟩
  · have hfresh (hmem : (pid', identity') ∈ s.items) : pid' ≠ pid := by
      rintro rfl
      exact h (List.mem_map_of_mem (f := Prod.fst) hmem)
    rw [List.mem_append, List.mem_singleton, Prod.ext_iff]
    constructor
    · rintro (hmem | hnew)
      · exact .inr ⟨hfresh hmem, hmem⟩
      · exact .inl hnew
    · rintro (hnew | ⟨-, hmem⟩)
      · exact .inr hnew
      · exact .inl hmem

end Snapshot

/-- A child link: the process names its parent. -/
def ChildOf (s : Snapshot) (parent child : Pid) : Prop := ∃ identity, s.get child = some identity ∧ identity.ppid = parent

/-- The processes below a root. -/
def IsDescendant (s : Snapshot) (rootPid pid : Pid) : Prop := pid ≠ rootPid ∧ Relation.ReflTransGen (ChildOf s) rootPid pid

/-! ### The closure is exact -/

section

variable {s : Snapshot} {rootPid : Pid} {descendants : List (Pid × LinuxProcessIdentity)} {frontier : List Pid}

/-- The invariant of the loop. Links that leave the frontier are still to be followed. -/
structure Following (s : Snapshot) (rootPid : Pid) (descendants : List (Pid × LinuxProcessIdentity)) (frontier : List Pid) :
    Prop where
  nodup : descendants.Nodup
  subset : ∀ item ∈ descendants, item ∈ s.items
  below : ∀ pid ∈ descendants.map Prod.fst, IsDescendant s rootPid pid
  start : ∀ pid ∈ frontier, pid = rootPid ∨ pid ∈ descendants.map Prod.fst
  followed : ∀ item ∈ s.items, item.1 ≠ rootPid → item.2.ppid = rootPid ∨ item.2.ppid ∈ descendants.map Prod.fst →
    item.1 ∈ descendants.map Prod.fst ∨ item.2.ppid ∈ frontier

theorem mem_children {item : Pid × LinuxProcessIdentity} : item ∈ children s rootPid descendants frontier ↔
    item ∈ s.items ∧ item.2.ppid ∈ frontier ∧ item.1 ∉ descendants.map Prod.fst ∧ item.1 ≠ rootPid := by
  rw [children, List.mem_filter, Bool.and_eq_true, Bool.and_eq_true, decide_eq_true_eq, decide_eq_true_eq,
    decide_eq_true_eq, and_assoc]

theorem Following.initial (s : Snapshot) (rootPid : Pid) : Following s rootPid [] [rootPid] where
  nodup := List.nodup_nil
  subset _ h := absurd h List.not_mem_nil
  below _ h := absurd h List.not_mem_nil
  start _ h := .inl (List.mem_singleton.mp h)
  followed _ _ _ h := .inr (List.mem_singleton.mpr (h.resolve_right List.not_mem_nil))

/-- A child of the frontier lies below the root. -/
theorem Following.child_below (h : Following s rootPid descendants frontier) {item : Pid × LinuxProcessIdentity}
    (hitem : item ∈ children s rootPid descendants frontier) : IsDescendant s rootPid item.1 := by
  obtain ⟨hmem, hparent, -, hne⟩ := mem_children.mp hitem
  have hlink : ChildOf s item.2.ppid item.1 := ⟨item.2, Snapshot.get_iff.mpr hmem, rfl⟩
  refine ⟨hne, ?_⟩
  rcases h.start _ hparent with hroot | hbelow
  · exact .single (hroot ▸ hlink)
  · exact .tail (h.below _ hbelow).2 hlink

/-- One round keeps the invariant. -/
theorem Following.round (h : Following s rootPid descendants frontier) :
    Following s rootPid (descendants ++ children s rootPid descendants frontier)
      ((children s rootPid descendants frontier).map Prod.fst) where
  nodup := by
    have hitems : s.items.Nodup := List.Nodup.of_map _ s.nodup
    refine List.Nodup.append h.nodup (hitems.filter _) fun item hold hnew => ?_
    exact (mem_children.mp hnew).2.2.1 (List.mem_map_of_mem hold)
  subset item hitem := (List.mem_append.mp hitem).elim (h.subset item) fun hnew => (mem_children.mp hnew).1
  below pid hpid := by
    rw [List.map_append, List.mem_append] at hpid
    rcases hpid with hold | hnew
    · exact h.below pid hold
    · obtain ⟨item, hitem, rfl⟩ := List.mem_map.mp hnew
      exact h.child_below hitem
  start pid hpid := by
    rw [List.map_append]
    exact .inr (List.mem_append_right _ hpid)
  followed item hitem hne hparent := by
    rw [List.map_append, List.mem_append, ← or_assoc] at hparent
    rw [List.map_append, List.mem_append]
    rcases hparent with hold | hnew
    · rcases h.followed item hitem hne hold with hfound | hfrontier
      · exact .inl (.inl hfound)
      · by_cases hfound : item.1 ∈ descendants.map Prod.fst
        · exact .inl (.inl hfound)
        · exact .inl (.inr (List.mem_map_of_mem (mem_children.mpr ⟨hitem, hfrontier, hfound, hne⟩)))
    · exact .inr hnew

/-- Where a round finds nothing, everything below the root is found. -/
theorem Following.complete (h : Following s rootPid descendants frontier)
    (hend : children s rootPid descendants frontier = []) {pid : Pid} (hpid : IsDescendant s rootPid pid) :
    pid ∈ descendants.map Prod.fst := by
  have hreach : pid = rootPid ∨ pid ∈ descendants.map Prod.fst := by
    refine hpid.2.rec (.inl rfl) fun {parent child} _ hlink ih => ?_
    obtain ⟨identity, hget, hparent⟩ := hlink
    by_cases hroot : child = rootPid
    · exact .inl hroot
    · have hitem := Snapshot.get_iff.mp hget
      rcases h.followed (child, identity) hitem hroot (hparent.symm ▸ ih) with hfound | hfrontier
      · exact .inr hfound
      · by_contra hnot
        have hnew := mem_children.mpr ⟨hitem, hfrontier, fun hfound => hnot (.inr hfound), hroot⟩
        rw [hend] at hnew
        exact List.not_mem_nil hnew
  exact hreach.resolve_left hpid.1

theorem children_nil : children s rootPid descendants [] = [] := List.filter_eq_nil_iff.mpr fun item _ => by simp

/-- The loop ends within as many rounds as there are processes left, and what it gives is closed. -/
theorem Following.loop (h : Following s rootPid descendants frontier) {rounds : ℕ}
    (hrounds : s.items.length < rounds + descendants.length) :
    ∃ found frontier', (∀ more, descendantsLoop s rootPid (rounds + more) descendants frontier = some found) ∧
      Following s rootPid found frontier' ∧ children s rootPid found frontier' = [] := by
  induction rounds generalizing descendants frontier with
  | zero =>
      have hlength := (List.subperm_of_subset h.nodup h.subset).length_le
      omega
  | succ rounds ih =>
      by_cases hfrontier : frontier = []
      · subst hfrontier
        refine ⟨descendants, [], fun more => ?_, h, children_nil⟩
        rw [Nat.succ_add, descendantsLoop, if_pos rfl]
      · by_cases hend : children s rootPid descendants frontier = []
        · refine ⟨descendants, frontier, fun more => ?_, h, hend⟩
          rw [Nat.succ_add, descendantsLoop, if_neg hfrontier, if_pos hend]
        · have hgrows : s.items.length < rounds + (descendants ++ children s rootPid descendants frontier).length := by
            have hpos := List.length_pos_of_ne_nil hend
            rw [List.length_append]
            omega
          obtain ⟨found, frontier', hloop, hfound⟩ := ih h.round hgrows
          refine ⟨found, frontier', fun more => ?_, hfound⟩
          rw [Nat.succ_add, descendantsLoop, if_neg hfrontier, if_neg hend, hloop more]

/-- The closure is found, however many more rounds are allowed, and it is exact. -/
theorem descendants_exact (s : Snapshot) (rootPid : Pid) :
    (∀ rounds, s.items.length < rounds →
        descendantsLoop s rootPid rounds [] [rootPid] = some (descendantsFromSnapshot s rootPid)) ∧
      ∀ pid identity, (pid, identity) ∈ descendantsFromSnapshot s rootPid ↔
        s.get pid = some identity ∧ IsDescendant s rootPid pid := by
  obtain ⟨found, frontier, hloop, hfollowing, hend⟩ := (Following.initial s rootPid).loop
    (Nat.lt_succ_self s.items.length)
  have hfound : descendantsFromSnapshot s rootPid = found := by
    rw [descendantsFromSnapshot, ← Nat.add_zero (_ + 1), hloop 0, Option.getD_some]
  rw [hfound]
  refine ⟨fun rounds hrounds => ?_, fun pid identity => ⟨fun hmem => ?_, fun ⟨hget, hbelow⟩ => ?_⟩⟩
  · obtain ⟨more, rfl⟩ := Nat.exists_eq_add_of_lt hrounds
    rw [show s.items.length + more + 1 = s.items.length + 1 + more by omega, hloop more]
  · exact ⟨Snapshot.get_iff.mpr (hfollowing.subset _ hmem), hfollowing.below pid (List.mem_map_of_mem hmem)⟩
  · obtain ⟨⟨key, value⟩, hmem, hkey⟩ := List.mem_map.mp (hfollowing.complete hend hbelow)
    obtain rfl : key = pid := hkey
    have hvalue := (Snapshot.get_iff.mpr (hfollowing.subset _ hmem)).symm.trans hget
    rwa [Option.some.inj hvalue] at hmem

end

/-! ### The session is contained -/

variable {o : Observation} {leader : LinuxProcessIdentity}

/-- A member of the session of the worker that is alive while the check runs: it is listed, and it is there when it is
read. A process that is forked behind the listing is none of them: the check does not see it. -/
def IsLiveMember (o : Observation) (leader member : LinuxProcessIdentity) : Prop :=
  (∃ entries, o.listing = .ok entries ∧ member.pid ∈ entries) ∧ o.read member.pid = .ok (some member) ∧
    member.sid = leader.sid

/-- A registered generation that is still there, in the session of the worker, and that is not the worker. -/
def IsAuthenticated (leader registered observed : LinuxProcessIdentity) : Prop :=
  observed.pid = registered.pid ∧ observed.startTicks = registered.startTicks ∧ observed.sid = leader.sid ∧
    ¬ (registered.pid = leader.pid ∧ registered.startTicks = leader.startTicks)

/-- What may be in the session of a worker that is gone. -/
inductive IsKnown (o : Observation) (s : Snapshot) (leader member : LinuxProcessIdentity) : Prop
  | outer (h : member.pid = o.outerPid)
  | tracker (outer : LinuxProcessIdentity) (houter : s.get o.outerPid = some outer) (h : o.trackerPid = some member.pid)
      (hchild : member.ppid = o.outerPid) (hgroup : member.pgid = outer.pgid)
  | starting (registered : LinuxProcessIdentity) (hregistered : registered ∈ o.starting)
      (h : IsAuthenticated leader registered member)
  | active (registered : LinuxProcessIdentity) (hregistered : registered ∈ o.active)
      (h : IsAuthenticated leader registered member) (hgroup : member.pgid = registered.pgid)
  | descendant (registered sibling : LinuxProcessIdentity) (hregistered : registered ∈ o.active)
      (hsibling : s.get sibling.pid = some sibling) (h : IsAuthenticated leader registered sibling)
      (hgroup : sibling.pgid = registered.pgid) (hbelow : IsDescendant s sibling.pid member.pid)

/-- Every process that is listed and read stands in the snapshot, and nothing else does. -/
theorem readAll_get {read : Pid → Except ContainmentError (Option LinuxProcessIdentity)}
    (hread : ∀ pid identity, read pid = .ok (some identity) → identity.pid = pid) {entries : List Pid} {s s' : Snapshot}
    (h : readAll read entries s = .ok s') (pid : Pid) (identity : LinuxProcessIdentity) :
    s'.get pid = some identity ↔
      (pid ∈ entries ∧ read pid = .ok (some identity)) ∨
        ((pid ∈ entries → read pid = .ok none) ∧ s.get pid = some identity) := by
  induction entries generalizing s with
  | nil =>
      obtain rfl := Except.ok.inj h
      simp
  | cons entry entries ih =>
      cases hentry : read entry with
      | error failure =>
          rw [readAll, hentry] at h
          exact nomatch h
      | ok found =>
          rw [readAll, hentry] at h
          cases found with
          | none =>
              rw [ih h]
              by_cases hpid : pid = entry
              · subst hpid
                simp [hentry]
              · simp [hpid]
          | some observed =>
              rw [ih h, Snapshot.get_iff (s := s.set _ _), Snapshot.mem_set_iff, hread entry observed hentry, ← Snapshot.get_iff]
              by_cases hpid : pid = entry
              · subst hpid
                by_cases hmem : pid ∈ entries
                · simp [hmem, hentry]
                · simp [hmem, hentry, eq_comm]
              · simp [hpid]

/-- What the snapshot holds. -/
theorem snapshot_get {s : Snapshot} (h : snapshotLinuxProcesses o = .ok s) {pid : Pid} {identity : LinuxProcessIdentity} :
    s.get pid = some identity ↔
      (∃ entries, o.listing = .ok entries ∧ pid ∈ entries) ∧ o.read pid = .ok (some identity) := by
  cases hlisting : o.listing with
  | error failure =>
      rw [snapshotLinuxProcesses, hlisting] at h
      exact nomatch h
  | ok entries =>
      rw [snapshotLinuxProcesses, hlisting] at h
      rw [readAll_get o.read_pid h]
      have hempty : Snapshot.get {} pid = none := rfl
      simp [hempty]

theorem snapshot_pid {s : Snapshot} (h : snapshotLinuxProcesses o = .ok s) {pid : Pid} {identity : LinuxProcessIdentity}
    (hget : s.get pid = some identity) : identity.pid = pid :=
  o.read_pid pid identity ((snapshot_get h).mp hget).2

theorem isOther_iff {registered : LinuxProcessIdentity} :
    isOther leader registered = true ↔ ¬ (registered.pid = leader.pid ∧ registered.startTicks = leader.startTicks) := by
  rw [isOther, Bool.or_eq_true, decide_eq_true_eq, decide_eq_true_eq]
  exact (not_and_or).symm

section

variable {s : Snapshot} {member : LinuxProcessIdentity}

theorem known_of_allowed (hget : s.get member.pid = some member) {outer : LinuxProcessIdentity}
    (houter : s.get o.outerPid = some outer) (h : member.pid ∈ allowedPids o s leader outer) : IsKnown o s leader member := by
  rw [allowedPids, List.mem_cons, Option.mem_toList, Option.filter_eq_some_iff, hget] at h
  rcases h with hpid | ⟨htracker, hlinks⟩
  · exact .outer hpid
  · simp only [Option.any_some, Bool.and_eq_true, decide_eq_true_eq] at hlinks
    exact .tracker outer houter htracker hlinks.1.1 hlinks.1.2

theorem known_of_starting (hget : s.get member.pid = some member)
    (h : member.pid ∈ allowedStartingPids o s leader) : IsKnown o s leader member := by
  obtain ⟨registered, hmem, hpid⟩ := List.mem_map.mp h
  obtain ⟨hregistered, htest⟩ := List.mem_filter.mp hmem
  rw [hpid, hget, sameProcessGeneration] at htest
  simp only [Option.any_some, Bool.and_eq_true, decide_eq_true_eq, isOther_iff] at htest
  exact .starting registered hregistered ⟨hpid.symm, htest.1.2, htest.2, htest.1.1⟩

/-- A number that an active sibling brings in belongs to the sibling or to a process below it. -/
theorem known_of_active (hs : snapshotLinuxProcesses o = .ok s) (hget : s.get member.pid = some member)
    (h : member.pid ∈ allowedActivePids o s leader) : IsKnown o s leader member := by
  obtain ⟨registered, hregistered, hmem⟩ := List.mem_flatMap.mp h
  cases hobserved : s.get registered.pid with
  | none =>
      rw [hobserved] at hmem
      exact absurd hmem List.not_mem_nil
  | some observed =>
      have hpid := snapshot_pid hs hobserved
      simp only [hobserved] at hmem
      split_ifs at hmem with htest
      · simp only [sameProcessGeneration, Option.any_some, Bool.and_eq_true, decide_eq_true_eq, isOther_iff] at htest
        obtain ⟨⟨⟨hother, hticks⟩, hsid⟩, hgroup⟩ := htest
        have hsibling : IsAuthenticated leader registered observed := ⟨hpid, hticks, hsid, hother⟩
        rcases List.mem_cons.mp hmem with hself | hbelow
        · obtain rfl : observed = member := by
            rw [← hpid, ← hself] at hobserved
            exact Option.some.inj (hobserved.symm.trans hget)
          exact .active registered hregistered hsibling hgroup
        · obtain ⟨descendant, hdescendant, hkey⟩ := List.mem_map.mp hbelow
          obtain ⟨⟨key, value⟩, hitem, hvalue⟩ := List.mem_map.mp (List.mem_filter.mp hdescendant).1
          obtain rfl : value = descendant := hvalue
          obtain ⟨hgetKey, hbelow⟩ := ((descendants_exact s observed.pid).2 key value).mp hitem
          have hsame : key = member.pid := (snapshot_pid hs hgetKey).symm.trans hkey
          refine .descendant registered observed hregistered (hpid.symm ▸ hobserved) hsibling hgroup ?_
          rwa [← hsame]
      · exact absurd hmem List.not_mem_nil

end

/-- A check that passes has found the own process, and a reason for every member of the session. -/
theorem known_of_contained {s : Snapshot} (hs : snapshotLinuxProcesses o = .ok s)
    (h : workerSessionIsContained o leader = .ok true) {member : LinuxProcessIdentity} (hmember : IsLiveMember o leader member) :
    IsKnown o s leader member := by
  obtain ⟨hlisted, hread, hsid⟩ := hmember
  have hget : s.get member.pid = some member := (snapshot_get hs).mpr ⟨hlisted, hread⟩
  rw [workerSessionIsContained, hs] at h
  cases houter : s.get o.outerPid with
  | none =>
      simp only [bind, Except.bind, houter] at h
      exact absurd (Except.ok.inj h) Bool.false_ne_true
  | some outer =>
      simp only [bind, Except.bind, houter] at h
      split_ifs at h with hsession
      · exact absurd (Except.ok.inj h) Bool.false_ne_true
      · have htest := List.all_eq_true.mp (Except.ok.inj h) member
          (List.mem_map.mpr ⟨_, Snapshot.get_iff.mp hget, rfl⟩)
        simp only [hsid, ne_eq, not_true_eq_false, decide_false, Bool.false_or, Bool.or_eq_true, decide_eq_true_eq] at htest
        rcases htest with (hallowed | hstarting) | hactive
        · exact known_of_allowed hget houter hallowed
        · exact known_of_starting hget hstarting
        · exact known_of_active hs hget hactive

/-- **The closure of child links is exact and is found in every snapshot, and the check passes only for a session in which
every live member is known.** -/
theorem containment_closed :
    (∀ s rootPid,
      (∀ rounds, s.items.length < rounds →
        descendantsLoop s rootPid rounds [] [rootPid] = some (descendantsFromSnapshot s rootPid)) ∧
      ∀ pid identity, (pid, identity) ∈ descendantsFromSnapshot s rootPid ↔
        s.get pid = some identity ∧ IsDescendant s rootPid pid) ∧
    ∀ o leader, workerSessionIsContained o leader = .ok true →
      ∃ s, snapshotLinuxProcesses o = .ok s ∧ ∀ member, IsLiveMember o leader member → IsKnown o s leader member := by
  refine ⟨descendants_exact, fun o leader h => ?_⟩
  cases hs : snapshotLinuxProcesses o with
  | error failure =>
      rw [workerSessionIsContained, hs] at h
      exact nomatch h
  | ok s => exact ⟨s, rfl, fun member hmember => known_of_contained hs h hmember⟩

/-- A session with the own process, a registered sibling and a child of it. -/
def siblingSession : Observation :=
  let outer : LinuxProcessIdentity := ⟨7, 1, 1, 7, 7, "S"⟩
  let sibling : LinuxProcessIdentity := ⟨20, 5, 7, 20, 7, "S"⟩
  let child : LinuxProcessIdentity := ⟨21, 6, 20, 20, 7, "S"⟩
  { listing := .ok [7, 20, 21]
    read := fun pid => .ok ([outer, sibling, child].find? fun identity => identity.pid = pid)
    read_pid := by
      intro pid identity h
      have hpid := List.find?_some (Except.ok.inj h)
      exact of_decide_eq_true hpid
    outerPid := 7
    trackerPid := none
    starting := []
    active := [sibling] }

theorem containment_closed_sibling :
    workerSessionIsContained siblingSession ⟨15, 3, 7, 15, 7, "Z"⟩ = .ok true ∧
      ∃ s, snapshotLinuxProcesses siblingSession = .ok s ∧
        ∀ member, IsLiveMember siblingSession ⟨15, 3, 7, 15, 7, "Z"⟩ member →
          IsKnown siblingSession s ⟨15, 3, 7, 15, 7, "Z"⟩ member :=
  have hpasses : workerSessionIsContained siblingSession ⟨15, 3, 7, 15, 7, "Z"⟩ = .ok true := by rfl
  ⟨hpasses, containment_closed.2 siblingSession ⟨15, 3, 7, 15, 7, "Z"⟩ hpasses⟩

end KernelGym.ProcessContainment
