import KernelGym.WorkerRestart

/-! How the service command stops the workers of a host and registers new ones. It has its own copy of the monitor's
session shutdown, with waits that do not ask for the leader, and every failure is an answer instead of an exception. -/

namespace KernelGym.WorkerSession

open Library Routine

/-- `_session_is_drained` of the service command, where zombies alone are proof enough. -/
def serviceSessionIsDrained (session : Pid) : Look := fun observed =>
  Program.bind (liveSessionMembers session) fun
    | .error e => .done (.error e, observed)
    | .ok members =>
      if members = [] then
        Program.bind (groupsAreDrained observed) fun answer => .done (answer, observed)
      else .done (.ok (nothingRuns members), observed ∪ groupsOf members)

/-- `_force_kill_worker_session` of the service command -/
def serviceForceKill (session : LinuxSession) (observed : List Pid) : Routine Bool := do
  let frozen ← freezeWorkerSession session
  if frozen.1 then
    if ← killGroups .kill session frozen.2 then
      after (waitForSessionDrain (serviceSessionIsDrained session.pid) (observed ∪ frozen.2)) fun
        | .ok waited => pure waited.1
        | .error _ => pure false
    else pure false
  else pure false

/-- The session ends by itself, or is killed. -/
def drainOrForceKill (session : LinuxSession) (observed : List Pid) : Routine Bool :=
  after (waitForSessionDrain (serviceSessionIsDrained session.pid) observed) fun
    | .ok (true, _) => pure true
    | .ok (false, observed) => serviceForceKill session observed
    | .error _ => pure false

/-- The leader has gone: the session is drained, or is killed if the start time of the leader is known. -/
def drainWithoutLeader (pid : Pid) (expectedStartTicks : Option ℕ) : Routine Bool :=
  after (serviceSessionIsDrained pid [pid]) fun answer =>
    match answer.1, expectedStartTicks with
    | .ok true, _ => pure true
    | .ok false, some startTicks => serviceForceKill ⟨pid, startTicks⟩ answer.2
    | _, _ => pure false

/-- The leader is not what was recorded. A process that runs under its number is left alone. -/
def drainForeign (session : LinuxSession) : Routine Bool := do
  let latest ← readProcessIdentity session.pid
  if latest.any fun m => m.state ≠ .zombie then pure false else drainOrForceKill session [session.pid]

/-- A leader that does not run needs no command line. -/
def isForeign (identity : ProcessIdentity) : Routine Bool := do
  if identity.state = .zombie then pure false
  else do
    let matching ← ask (.cmdlineMatches identity.pid)
    pure (!matching)

/-- The last look at the leader before SIGTERM. -/
def terminateSession (session : LinuxSession) : Routine Bool := do
  match ← readProcessIdentity session.pid with
  | none => drainWithoutLeader session.pid (some session.startTicks)
  | some current =>
    if current.startTicks ≠ session.startTicks || current.processGroup ≠ session.pid ||
        current.sessionId ≠ session.pid then drainForeign session
    else do
      if ← isForeign current then drainForeign session
      else command (.killpg session.pid .term session) fun
        | .failed => pure false
        | _ => drainOrForceKill session [session.pid]

/-- `_stop_authenticated_worker_group` -/
def stopAuthenticatedWorkerGroup (pid : Pid) (expectedStartTicks : Option ℕ) (processGroup session : ℤ) :
    Routine Bool :=
  if pid ≤ 1 || processGroup ≠ pid || session ≠ pid then pure false
  else do
    match ← readProcessIdentity pid with
    | none => drainWithoutLeader pid expectedStartTicks
    | some identity =>
      if expectedStartTicks.any (· ≠ identity.startTicks) then pure false
      else if identity.processGroup ≠ pid || identity.sessionId ≠ pid then pure false
      else if identity.state = .zombie && expectedStartTicks.isNone then pure false
      else do
        if ← isForeign identity then drainForeign ⟨pid, identity.startTicks⟩
        else terminateSession ⟨pid, identity.startTicks⟩

/-- `_drain_registered_worker` -/
def drainRegisteredWorker : Routine Bool := do
  match ← hgetall with
  | none => pure true
  | some record =>
    match record.pid.toInt 0 with
    | none => refuse
    | some pid =>
      match record.processGroup.toInt pid, record.sessionId.toInt pid with
      | some processGroup, some session =>
        if pid ≤ 1 then refuse
        else do
          if ← stopAuthenticatedWorkerGroup pid.toNat record.startTicks processGroup session then
            (compareAndDelete pid.toNat record.startTicks record.processGroup record.sessionId).orReturn (pure false)
          else refuse
      | _, _ => refuse

/-- `_LAUNCHED_IDENTITIES.get(pid)` -/
def launchedIdentity (pid : Pid) : Routine (Option ProcessIdentity) := do
  let child ← retained
  pure ((child.filter fun c => c.pid = pid).bind Child.identity)

/-- `_abort_unregistered_launch` -/
def abortUnregisteredLaunch (pid : Pid) : Routine Bool := do
  let launched ← launchedIdentity pid
  let identity ← (if launched.isSome then pure launched else readProcessIdentity pid)
  let stopped ← (match identity with
    | none => after (serviceSessionIsDrained pid [pid]) fun answer => pure (answer.1.toOption = some true)
    | some i => stopAuthenticatedWorkerGroup i.pid (some i.startTicks) i.processGroup i.sessionId : Routine Bool)
  if stopped then pure true else refuse

/-- The launch is stopped, and `SystemExit` is raised. -/
def abortLaunch (pid : Pid) : Routine Bool := do
  let _ ← abortUnregisteredLaunch pid
  raise .failure

/-- `_register_expected_worker` -/
def registerExpectedWorker (pid : Pid) : Routine Bool := do
  let launched ← launchedIdentity pid
  after (readProcessIdentity pid) fun
    | .error _ => abortLaunch pid
    | .ok none => abortLaunch pid
    | .ok (some identity) =>
      if identity.state = .zombie || identity.processGroup ≠ pid || identity.sessionId ≠ pid then abortLaunch pid
      else if launched.any fun i => i.startTicks ≠ identity.startTicks || i.processGroup ≠ identity.processGroup ||
          i.sessionId ≠ identity.sessionId then abortLaunch pid
      else do
        if ← ask (.cmdlineMatches pid) then
          command (.register ⟨pid, identity.startTicks⟩) fun
            | .ok true => pure true
            | _ => do
              let stopped ← abortUnregisteredLaunch pid
              -- A registration whose answer was lost is taken back.
              let _ ← (if stopped then
                (compareAndDelete pid (some identity.startTicks) (.number pid) (.number pid)).orReturn (pure false)
                else pure false)
              raise .failure
        else abortLaunch pid

/-! ### What it guarantees -/

variable {u v w base : View} {pid process session : Pid} {expected : Option ℕ} {g : LinuxSession}
  {observed : List Pid}

theorem serviceSessionIsDrained_sound (session : Pid) : (serviceSessionIsDrained session).Sound session := by
  intro v observed
  refine grows.bind (liveSessionMembers_safe session) fun answer w hw hanswer => ?_
  cases answer with
  | error e => exact grows.done fun _ _ hr => by cases hr
  | ok members =>
      obtain ⟨-, hended⟩ := hanswer members rfl
      dsimp only
      split
      · rename_i hnone
        refine grows.bind (groupsAreDrained_safe _) fun r u hu _ => ?_
        exact grows.done fun t ht _ => (hended (by rw [hnone]; rfl)).later (hu.trans ht)
      · exact grows.done fun t ht hruns => (hended (Except.ok.inj hruns)).later ht

theorem serviceForceKill_safe (haimed : v.2.Aimed g.pid (some g.startTicks)) :
    (serviceForceKill g observed).Safe (fun stopped w => stopped = true → SessionEnded v g.pid w) v := by
  refine (freezeWorkerSession_safe haimed).bind fun frozen w hw hfrozen => ?_
  split
  swap
  · exact Safe.pure fun _ _ h => by cases h
  rename_i htrue
  refine (killGroups_safe (by simp) (haimed.later hw) (hfrozen htrue)).bind fun all u hu _ => ?_
  split
  swap
  · exact Safe.pure fun _ _ h => by cases h
  refine Safe.after (waitForSessionDrain_safe (serviceSessionIsDrained_sound g.pid)) fun answer t ht hanswer => ?_
  cases answer with
  | error e => exact Safe.pure fun _ _ h => by cases h
  | ok waited => exact Safe.pure fun x hx h => ((hanswer waited rfl h).since (hw.trans hu)).later hx

variable (observed) in
theorem drainOrForceKill_safe (haimed : v.2.Aimed g.pid (some g.startTicks)) :
    (drainOrForceKill g observed).Safe (fun stopped w => stopped = true → SessionEnded v g.pid w) v := by
  refine Safe.after (waitForSessionDrain_safe (serviceSessionIsDrained_sound g.pid)) fun answer w hw hanswer => ?_
  match answer, hanswer with
  | .error e, _ => exact Safe.pure fun _ _ h => by cases h
  | .ok (true, _), hanswer => exact Safe.pure fun x hx _ => (hanswer _ rfl rfl).later hx
  | .ok (false, _), _ =>
      exact (serviceForceKill_safe (haimed.later hw)).mono fun _ _ h htrue => (h htrue).since hw

theorem drainWithoutLeader_safe (haimed : ∀ t, expected = some t → v.2.Aimed pid (some t)) :
    (drainWithoutLeader pid expected).Safe (fun stopped w => stopped = true → SessionEnded v pid w) v := by
  refine Safe.after (serviceSessionIsDrained_sound pid v _) fun answer w hw hanswer => ?_
  split
  · rename_i hok
    exact Safe.pure fun x hx _ => (hanswer hok).later hx
  · rename_i startTicks _
    exact (serviceForceKill_safe (g := ⟨pid, startTicks⟩) ((haimed startTicks rfl).later hw)).mono
      fun _ _ h htrue => (h htrue).since hw
  · exact Safe.pure fun _ _ h => by cases h

theorem drainForeign_safe (haimed : v.2.Aimed g.pid (some g.startTicks)) :
    (drainForeign g).Safe (fun stopped w => stopped = true → SessionEnded v g.pid w) v := by
  refine (readProcessIdentity_safe g.pid).bind fun latest w hw _ => ?_
  split
  · exact Safe.pure fun _ _ h => by cases h
  · exact (drainOrForceKill_safe _ (haimed.later hw)).mono fun _ _ h htrue => (h htrue).since hw

theorem isForeign_safe (identity : ProcessIdentity) : (isForeign identity).Safe (fun _ _ => True) v := by
  unfold isForeign
  split
  · exact Safe.pure fun _ _ => trivial
  · exact (ask_safe _).bind fun _ _ _ _ => Safe.pure fun _ _ => trivial

theorem terminateSession_safe (haimed : v.2.Aimed g.pid (some g.startTicks)) :
    (terminateSession g).Safe (fun stopped w => stopped = true → SessionEnded v g.pid w) v := by
  refine (readProcessIdentity_safe g.pid).bind fun current w hw hcurrent => ?_
  cases current with
  | none =>
      refine (drainWithoutLeader_safe fun t ht => ?_).mono fun _ _ h htrue => (h htrue).since hw
      obtain rfl := Option.some.inj ht
      exact haimed.later hw
  | some current =>
      obtain ⟨hpid, hread, -⟩ := hcurrent current rfl
      dsimp only
      split
      · exact (drainForeign_safe (haimed.later hw)).mono fun _ _ h htrue => (h htrue).since hw
      rename_i hguard
      simp only [Bool.or_eq_true, decide_eq_true_eq, not_or, ne_eq, not_not] at hguard
      obtain ⟨⟨hticks, hgroup⟩, hsession⟩ := hguard
      refine (isForeign_safe current).bind fun foreign x hx _ => ?_
      have hvx := hw.trans hx
      split
      · exact (drainForeign_safe (haimed.later hvx)).mono fun _ _ h htrue => (h htrue).since hvx
      refine killpg_safe (fun y hy => ?_) fun how y hy => ?_
      · exact ⟨⟨rfl, haimed.later (hvx.trans hy),
          Trace.ReadLeader.later (v := w) ⟨current, hread, hpid, hticks, hgroup, hsession⟩ (hx.trans hy)⟩,
          fun _ h => by cases h⟩
      · have hkill := (drainOrForceKill_safe [g.pid] (haimed.later (hvx.trans hy))).mono
          fun _ _ h htrue => (h htrue).since (u := v) (hvx.trans hy)
        cases how with
        | failed => exact Safe.pure fun _ _ h => by cases h
        | sent | noSuchGroup => exact hkill

theorem stopAuthenticatedWorkerGroup_safe {processGroup sessionId : ℤ}
    (haimed : processGroup = pid → sessionId = pid → ∀ t, (∀ n, expected = some n → t = n) → v.2.Aimed pid (some t)) :
    (stopAuthenticatedWorkerGroup pid expected processGroup sessionId).Safe (fun stopped w => stopped = true →
      (processGroup = pid ∧ sessionId = pid) ∧ SessionEnded v pid w) v := by
  unfold stopAuthenticatedWorkerGroup
  split
  · exact Safe.pure fun _ _ h => by cases h
  rename_i hnumbers
  simp only [Bool.or_eq_true, decide_eq_true_eq, not_or, ne_eq, not_not] at hnumbers
  replace haimed := haimed hnumbers.1.2 hnumbers.2
  refine Safe.mono (P := fun stopped w => stopped = true → SessionEnded v pid w) ?_
    fun _ _ h htrue => ⟨⟨hnumbers.1.2, hnumbers.2⟩, h htrue⟩
  refine (readProcessIdentity_safe pid).bind fun identity w hw _ => ?_
  cases identity with
  | none =>
      refine (drainWithoutLeader_safe fun t ht => ?_).mono fun _ _ h htrue => (h htrue).since hw
      exact (haimed t fun n hn => Option.some.inj (ht.symm.trans hn)).later hw
  | some identity =>
      dsimp only
      split
      · exact Safe.pure fun _ _ h => by cases h
      rename_i hticks
      split
      · exact Safe.pure fun _ _ h => by cases h
      split
      · exact Safe.pure fun _ _ h => by cases h
      refine (isForeign_safe identity).bind fun foreign x hx _ => ?_
      have hvx := hw.trans hx
      have haim : x.2.Aimed pid (some identity.startTicks) := by
        refine (haimed _ fun n hn => ?_).later hvx
        by_contra hne
        refine hticks ?_
        rw [hn]
        exact decide_eq_true (Ne.symm hne)
      split
      · exact (drainForeign_safe (g := ⟨pid, identity.startTicks⟩) haim).mono fun _ _ h htrue => (h htrue).since hvx
      · exact (terminateSession_safe (g := ⟨pid, identity.startTicks⟩) haim).mono
          fun _ _ h htrue => (h htrue).since hvx

theorem drainRegisteredWorker_safe (h : v.2.target = none) :
    drainRegisteredWorker.Safe (fun drained w => drained = true → Contained v w) v := by
  refine hgetall_safe.bind fun found w hw hfound => ?_
  obtain ⟨base, hvb, hbw, hvalid, rfl, hread⟩ := hfound
  cases hreg : base.1.registered with
  | none =>
      exact Safe.pure fun u hu _ => (((contained_of_none hvalid hreg).later hbw).later hu).since hvb
  | some reg =>
      dsimp only [Option.map_some]
      split
      · exact contained_refuse
      rename_i number hnumber
      split
      swap
      · exact contained_refuse
      rename_i processGroup session hgroup hsession
      split
      · exact contained_refuse
      rename_i hlarge
      obtain ⟨pid, rfl⟩ : ∃ pid : ℕ, number = pid := Int.eq_ofNat_of_zero_le (by omega)
      have hfield := reg.pid_number hnumber
      have hpursues : Pursues base pid reg.record := ⟨hvalid, ⟨reg, hreg, rfl⟩, hfield⟩
      have haimed : processGroup = pid → session = pid → ∀ ticks : Option ℕ,
          (∀ n m, reg.record.startTicks = some n → ticks = some m → m = n) → w.2.Aimed pid ticks := by
        rintro rfl rfl ticks hticks
        refine .recorded _ (hread _ (by rw [hreg]; rfl)) ⟨hfield, hticks, hgroup, hsession⟩ fun target ht => ?_
        rw [hw.target, h] at ht
        cases ht
      refine (stopAuthenticatedWorkerGroup_safe fun hg hs t ht => ?_).bind fun stopped u hu hstopped => ?_
      · exact haimed hg hs _ fun n m hn hm => (Option.some.inj hm).symm.trans (ht n hn)
      split
      swap
      · exact contained_refuse
      rename_i htrue
      obtain ⟨⟨hleads, hbegan⟩, hended⟩ := hstopped htrue
      replace hended : SessionEnded base pid u := hended.since hbw
      have hcontained : Contained base u := hpursues.contained hended (hbw.trans hu)
      refine Safe.orReturn ?_ fun _ _ => Safe.pure fun _ _ h => by cases h
      refine (compareAndDelete_safe ?_ fun x reg' hx hreg' hrecord => ?_).later.mono
        fun _ x hx _ => (hcontained.later hx.1).since hvb
      · refine (haimed hleads hbegan _ fun n m hn hm => ?_).later hu
        exact Option.some.inj (hm.symm.trans hn)
      · refine hpursues.ended (hended.later hx) (hbw.trans (hu.trans hx)) hreg' ?_
        rw [hrecord, Int.toNat_natCast, ← hfield]

theorem launchedIdentity_safe (pid : Pid) : (launchedIdentity pid).Safe
    (fun i _ => ∀ identity, i = some identity → identity.pid = pid) v := by
  refine retained_safe.bind fun child w hw _ => Safe.pure fun _ _ identity hi => ?_
  obtain ⟨c, hc, hidentity⟩ := Option.bind_eq_some_iff.mp hi
  obtain ⟨-, hpid⟩ := Option.filter_eq_some_iff.mp hc
  exact (c.identity_pid identity hidentity).trans (of_decide_eq_true hpid)

theorem abortUnregisteredLaunch_safe (h : v.2.asked = some pid) : (abortUnregisteredLaunch pid).Safe
    (fun stopped w => stopped = true → SessionEnded v pid w) v := by
  refine (launchedIdentity_safe pid).bind fun launched w hw hlaunched => ?_
  refine Safe.bind (P := fun i _ => ∀ identity, i = some identity → identity.pid = pid) ?_ fun identity u hu hi => ?_
  · split
    · exact Safe.pure fun _ _ => hlaunched
    · exact (readProcessIdentity_safe pid).mono fun i x hx identity hi => (hx identity hi).1
  have hvu := hw.trans hu
  refine Safe.bind (P := fun stopped x => stopped = true → SessionEnded v pid x) ?_ fun stopped x hx hstopped => ?_
  · cases identity with
    | none =>
        refine Safe.after (serviceSessionIsDrained_sound pid u _) fun answer x hx hanswer => ?_
        refine Safe.pure fun y hy htrue => ((hanswer ?_).since hvu).later hy
        cases hok : answer.1 with
        | error e => simp [hok, Except.toOption] at htrue
        | ok b => simpa [hok, Except.toOption] using htrue
    | some i =>
        obtain rfl := hi i rfl
        exact (stopAuthenticatedWorkerGroup_safe fun _ _ t _ => .asked (hvu.asked.trans h)).mono
          fun _ _ hs htrue => (hs htrue).2.since hvu
  · split
    · rename_i htrue
      exact Safe.pure fun y hy _ => (hstopped htrue).later hy
    · exact refuse_safe fun _ _ h => by cases h

theorem registered_of_true {w : View} {x : Outcome} (h : exec v (.register g) x = some (.ok true, w)) :
    v.1.registered = none := by
  cases hreg : v.1.registered with
  | none => rfl
  | some reg =>
      cases x <;> simp only [exec, Host.registerIfEmpty, hreg, Option.some.injEq, reduceCtorEq] at h <;>
        cases congrArg Prod.fst h

theorem abortLaunch_safe {Q : Bool → View → Prop} (h : v.2.asked = some pid) : (abortLaunch pid).Safe Q v :=
  (abortUnregisteredLaunch_safe h).bind fun _ _ _ _ => Safe.raise

theorem registerExpectedWorker_safe (h : v.2.asked = some pid) (hseen : ∀ g ∈ v.2.seen, g ∈ v.1.ever) :
    (registerExpectedWorker pid).Safe (fun registered w => registered = true → SeenEnded w) v := by
  refine (launchedIdentity_safe pid).bind fun launched w hw _ => ?_
  refine Safe.after (readProcessIdentity_safe pid) fun answer u hu hanswer => ?_
  have hvu := hw.trans hu
  have habort : ∀ {x : View}, Later v x →
      (abortLaunch pid).Safe (fun registered w => registered = true → SeenEnded w) x := fun hx =>
    abortLaunch_safe (hx.asked.trans h)
  match answer, hanswer with
  | .error e, _ => exact habort hvu
  | .ok none, _ => exact habort hvu
  | .ok (some identity), hanswer =>
      obtain ⟨-, -, hbegun⟩ := hanswer (some identity) rfl identity rfl
      dsimp only
      split
      · exact habort hvu
      rename_i hguard
      simp only [Bool.or_eq_true, decide_eq_true_eq, not_or, ne_eq, not_not] at hguard
      split
      · exact habort hvu
      refine (ask_safe _).bind fun matching x hx _ => ?_
      have hvx := hvu.trans hx
      split
      swap
      · exact habort hvx
      refine Safe.command fun y o r hy hvalid hr => ?_
      have hfair := fair_register ((hx.trans hy).begun _ (hbegun hguard.2)) hr
      refine ⟨hfair, fun hlater => ?_⟩
      have hvr := hvx.trans hlater
      have hdrained : r.1 = .ok true → SeenEnded r.2 := by
        intro hok g hg
        have hnone := registered_of_true (w := r.2) (hr.trans (congrArg some (Prod.ext hok rfl)))
        refine (contained_of_none hvalid hnone).later hfair.later g ((hvx.trans hy).ever g (hseen g ?_))
        rwa [hvr.seen] at hg
      split
      · rename_i hok
        exact Safe.pure fun z hz _ => (hdrained hok).later hz
      refine (abortUnregisteredLaunch_safe (hvr.asked.trans h)).bind fun stopped z hz hstopped => ?_
      refine Safe.bind (P := fun _ _ => True) ?_ fun _ _ _ _ => Safe.raise
      split
      swap
      · exact Safe.pure fun _ _ => trivial
      rename_i htrue
      refine Safe.orReturn (compareAndDelete_safe (.asked ((hvr.trans hz).asked.trans h)) ?_)
        fun _ _ => Safe.pure fun _ _ => trivial
      intro t reg ht _ hrecord
      have hsame : reg.generation = ⟨pid, identity.startTicks⟩ := by
        rw [show pid = reg.generation.pid from Int.ofNat.inj (reg.pid_eq pid (by rw [hrecord])),
          reg.ticks_eq identity.startTicks (by rw [hrecord])]
      rw [hsame]
      exact ((hstopped htrue).later ht _ ((hx.trans hlater).begun _ (hbegun hguard.2)) rfl).2

end KernelGym.WorkerSession
