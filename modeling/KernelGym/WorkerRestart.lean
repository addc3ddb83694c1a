import KernelGym.WorkerContainment

/-! How the monitor replaces a worker. A record is removed by a script that compares it with what was read, after the
proof that its session is drained; a new process is started only when every session recorded before the call is drained,
and is stopped again unless it becomes the recorded one. -/

namespace KernelGym.WorkerSession

open Library

variable {u v w base : View} {α : Type} {Q : α → View → Prop} {pid process session group : Pid} {startTicks : ℕ}
  {expected ticks : Option ℕ} {g : LinuxSession} {identity : Option ProcessIdentity} {record : Record}
  {reg : Registration}

/-! ### Removing a record -/

theorem moves_deleteIfCurrent {h : Host} {ticks : Option ℕ} {processGroup sessionId : Field}
    (hended : ∀ reg, h.registered = some reg → reg.record = ⟨.number pid, ticks, processGroup, sessionId⟩ →
      h.Ended reg.generation) : h.Moves (h.deleteIfCurrent pid ticks processGroup sessionId).2 := by
  unfold Host.deleteIfCurrent
  split
  · rename_i reg hreg
    split
    · rename_i hrecord
      exact .removed hreg (hended reg hreg hrecord)
    · exact .same
  · exact .same

theorem fair_compareAndDelete {ticks : Option ℕ} {processGroup sessionId : Field} {x : Outcome}
    {r : Command.Answer (.compareAndDelete pid ticks processGroup sessionId) × View} (haimed : v.2.Aimed pid ticks)
    (hended : ∀ reg, v.1.registered = some reg →
      reg.record = ⟨.number pid, ticks, processGroup, sessionId⟩ → v.1.Ended reg.generation)
    (h : exec v (.compareAndDelete pid ticks processGroup sessionId) x = some r) : Fair v r.2 := by
  have hfair : Fair v ((v.1.deleteIfCurrent pid ticks processGroup sessionId).2, v.2.add (.removing pid ticks)) :=
    ⟨moves_deleteIfCurrent hended, rfl, rfl, rfl, Or.inr ⟨_, rfl, haimed, fun _ h => by cases h⟩⟩
  cases x <;> simp only [exec, Option.some.injEq, reduceCtorEq] at h <;> subst h
  · exact hfair
  · exact Fair.refl v
  · exact hfair

theorem compareAndDelete_safe {ticks : Option ℕ} {processGroup sessionId : Field} (haimed : v.2.Aimed pid ticks)
    (hended : ∀ w reg, Later v w → w.1.registered = some reg →
      reg.record = ⟨.number pid, ticks, processGroup, sessionId⟩ → w.1.Ended reg.generation) :
    (compareAndDelete pid ticks processGroup sessionId).Safe (fun _ _ => True) v := by
  refine grows.call fun w x r hw _ hr => ?_
  exact ⟨fair_compareAndDelete (haimed.later hw) (fun reg => hended w reg hw) hr,
    fun _ => grows.done fun _ _ _ _ => trivial⟩

/-! ### Processes that this monitor has started -/

/-- The monitor has started the process, and knows this much of it. -/
def Own (process : Pid) (identity : Option ProcessIdentity) (v : View) : Prop :=
  .spawned process ∈ v.2.log ∨ ∃ child, .retained child ∈ v.2.log ∧ child.pid = process ∧ child.identity = identity

theorem Own.later (h : Own process identity v) (hw : Later v w) : Own process identity w :=
  h.imp (hw.log _) fun ⟨child, hchild, hsame⟩ => ⟨child, hw.log _ hchild, hsame⟩

theorem Own.aimed {i : ProcessIdentity} (h : Own process (some i) v) : v.2.Aimed process (some i.startTicks) := by
  rcases h with h | ⟨child, hchild, hpid, hidentity⟩
  · exact .spawned h
  · refine .retained child hchild hpid fun j n hj hn => ?_
    rw [← Option.some.inj (hidentity.symm.trans hj)]
    exact Option.some.inj hn

theorem stopSpawnedProcess_safe (hown : Own process identity v) : (stopSpawnedProcess process identity).Safe
    (fun stopped w => stopped = true → SessionEnded v (identity.elim process ProcessIdentity.sessionId) w) v := by
  have hlook : ∀ {w : View} {r : Except Fault Bool × List Pid} {x : View}, Later v w →
      r.1.toOption = some true →
      (r.1 = .ok true → SessionEnded w (identity.elim process ProcessIdentity.sessionId) x) →
      (Pure.pure true : Routine Bool).Safe
        (fun stopped y => stopped = true → SessionEnded v (identity.elim process ProcessIdentity.sessionId) y) x := by
    intro w r x hw htrue hr
    have hok : r.1 = .ok true := by
      cases hr1 : r.1 with
      | error e => simp [hr1, Except.toOption] at htrue
      | ok b => simpa [hr1, Except.toOption] using htrue
    exact Routine.Safe.pure fun y hy _ => ((hr hok).since hw).later hy
  have hrefuse : ∀ {x : View}, refuse.Safe
      (fun stopped y => stopped = true → SessionEnded v (identity.elim process ProcessIdentity.sessionId) y) x :=
    refuse_safe fun _ _ h => by cases h
  refine (ask_safe _).bind fun exited w hw _ => ?_
  split
  · refine Routine.Safe.after (sessionIsDrained_sound _ _ _) fun r x hx hr => ?_
    split
    · rename_i htrue
      exact hlook hw htrue hr
    cases identity with
    | none => exact hrefuse
    | some i =>
        have haimed : ∀ t, some i.startTicks = some t → x.2.Aimed process (some t) := by
          rintro t ⟨⟩
          exact (hown.later (hw.trans hx)).aimed
        refine (forceKillWorkerSession_safe haimed).bind fun stopped y hy hs => ?_
        split
        · rename_i htrue
          exact Routine.Safe.pure fun z hz _ => ((hs htrue).since (hw.trans hx)).later hz
        · exact hrefuse
  · cases identity with
    | none =>
        refine (ask_safe _).bind fun exited x hx _ => ?_
        split
        · refine Routine.Safe.after (sessionIsDrained_sound _ _ _) fun r y hy hr => ?_
          split
          · rename_i htrue
            exact hlook (hw.trans hx) htrue hr
          · exact hrefuse
        · exact hrefuse
    | some i =>
        dsimp only
        split
        · exact hrefuse
        · refine Routine.Safe.orReturn ?_ fun _ _ => hrefuse
          exact (stopSession_safe (hown.later hw).aimed).mono fun _ _ h htrue => (h htrue).since hw

/-- What the monitor knows of a process that it has started. -/
structure Started (process : Pid) (identity : Option ProcessIdentity) (v : View) : Prop where
  own : Own process identity v
  begun : ∀ i, identity = some i → i.pid = process ∧
    (i.sessionId = process → ⟨process, i.startTicks⟩ ∈ v.1.table.begun)

theorem Started.later (h : Started process identity v) (hw : Later v w) : Started process identity w :=
  ⟨h.own.later hw, fun i hi => ⟨(h.begun i hi).1, fun hs => hw.begun _ ((h.begun i hi).2 hs)⟩⟩

theorem Started.none (h : Own process none v) : Started process none v := ⟨h, fun _ hi => by cases hi⟩

theorem removeSpawned_safe (h : Started process identity v)
    (hdrained : SessionEnded v (identity.elim process ProcessIdentity.sessionId) w) (hw : Later v w) :
    (removeSpawned identity).Safe (fun _ _ => True) w := by
  cases identity with
  | none => exact Routine.Safe.pure fun _ _ => trivial
  | some i =>
      obtain ⟨hpid, hbegun⟩ := h.begun i rfl
      subst hpid
      refine compareAndDelete_safe (h.own.later hw).aimed fun u reg hu _ hrecord => ?_
      have hnumber := reg.pid_eq i.pid (by rw [hrecord])
      have hticks := reg.ticks_eq i.startTicks (by rw [hrecord])
      have hsession := reg.session_eq i.sessionId (by rw [hrecord])
      have hsame : reg.generation = ⟨i.pid, i.startTicks⟩ := by
        rw [show i.pid = reg.generation.pid from Int.ofNat.inj hnumber, hticks]
      have hid : i.sessionId = i.pid := Int.ofNat.inj (hsession.trans hnumber.symm)
      rw [hsame]
      exact ((hdrained.later hu) _ (hbegun hid) hid.symm).2

theorem finishSpawnCleanup_safe (h : Started process identity v) :
    (finishSpawnCleanup process identity).Safe (fun _ _ => True) v := by
  refine (stopSpawnedProcess_safe h.own).bind fun stopped w hw hs => ?_
  have hremove : ((if stopped then removeSpawned identity else pure false) : Routine Bool).Safe
      (fun _ _ => True) w := by
    split
    · rename_i htrue
      exact removeSpawned_safe h (hs htrue) hw
    · exact Routine.Safe.pure fun _ _ => trivial
  refine hremove.bind fun _ x _ _ => ?_
  exact (ask_safe _).bind fun _ y _ _ => Routine.Safe.pure fun _ _ => trivial

/-! ### Recorded sessions -/

/-- Every session that had been registered by `base` has ended. -/
def Contained (base w : View) : Prop := ∀ g ∈ base.1.ever, g ∈ w.1.table.begun ∧ w.1.Ended g

theorem Contained.later (h : Contained base v) (hw : Later v w) : Contained base w :=
  fun g hg => ⟨hw.begun g (h g hg).1, hw.ended g (h g hg).1 (h g hg).2⟩

theorem Contained.since (h : Contained v w) (hu : Later u v) : Contained u w := fun g hg => h g (hu.ever g hg)

theorem contained_of_none (hvalid : base.1.Valid) (hnone : base.1.registered = none) : Contained base base := by
  intro g hg
  refine ⟨hvalid.begun g hg, (hvalid.contained g hg).resolve_right ?_⟩
  rintro ⟨reg, hreg, -⟩
  rw [hnone] at hreg
  cases hreg

/-- The call has read `record`, which names the session with number `pid`. -/
structure Pursues (base : View) (pid : Pid) (record : Record) : Prop where
  valid : base.1.Valid
  registered : ∃ reg, base.1.registered = some reg ∧ reg.record = record
  number : record.pid = .number pid

theorem Pursues.contained (h : Pursues base pid record) (hdrained : SessionEnded base pid v) (hv : Later base v) :
    Contained base v := by
  obtain ⟨reg, hreg, rfl⟩ := h.registered
  intro g hg
  have hbegun := h.valid.begun g hg
  rcases h.valid.contained g hg with hd | ⟨reg', hreg', rfl⟩
  · exact ⟨hv.begun g hbegun, hv.ended g hbegun hd⟩
  · obtain rfl := Option.some.inj (hreg.symm.trans hreg')
    exact hdrained _ hbegun (Int.ofNat.inj (reg.pid_eq pid h.number)).symm

/-- The entry that the script finds is the one that was read. -/
theorem Pursues.ended (h : Pursues base pid record) (hdrained : SessionEnded base pid v) (hv : Later base v)
    (hreg : v.1.registered = some reg) (hrecord : reg.record = record) : v.1.Ended reg.generation := by
  obtain ⟨first, hfirst, rfl⟩ := h.registered
  have hpid : ∀ other : Registration, other.record = first.record → other.generation.pid = pid := fun other hother =>
    (Int.ofNat.inj (other.pid_eq pid (by rw [hother, h.number]))).symm
  have hgeneration : reg.generation = first.generation := by
    rcases hv.registered reg hreg with hticks | hsame
    · obtain ⟨t, ht⟩ := Option.isSome_iff_exists.mp hticks
      have hfirst_ticks := first.ticks_eq t (by rw [← hrecord, ht])
      have hreg_ticks := reg.ticks_eq t ht
      have hpids : reg.generation.pid = first.generation.pid := (hpid reg hrecord).trans (hpid first rfl).symm
      cases hreg' : reg.generation
      cases hfirst' : first.generation
      simp_all
    · rw [Option.some.inj (hsame.symm.trans hfirst)]
  rw [hgeneration]
  exact (hdrained _ (h.valid.begun _ (h.valid.registered first hfirst)) (hpid first rfl)).2

theorem containmentProven_safe (h : Pursues base pid record) (hdrained : SessionEnded base pid v)
    (hv : Later base v) (haimed : v.2.Aimed pid record.startTicks) :
    (containmentProven pid record).Safe (fun _ w => Contained base w) v := by
  have hcontained := h.contained hdrained hv
  refine Routine.Safe.orReturn ?_ fun w hw => Routine.Safe.pure fun u hu => hcontained.later (hw.trans hu)
  refine Routine.Safe.bind (P := fun _ _ => True) (compareAndDelete_safe haimed fun w reg hw hreg hrecord => ?_)
    fun deleted w hw _ => ?_
  · refine h.ended (hdrained.later hw) (hv.trans hw) hreg ?_
    rw [hrecord, ← h.number]
  split
  · exact Routine.Safe.pure fun u hu => hcontained.later (hw.trans hu)
  · refine hgetall_safe.bind fun current u hu _ => ?_
    exact Routine.Safe.pure fun t ht => hcontained.later (hw.trans (hu.trans ht))

theorem contained_refuse : refuse.Safe (fun stopped w => stopped = true → Contained base w) v :=
  refuse_safe fun _ _ h => by cases h

section Kill

variable (h : Pursues base pid record) (hv : Later base v)

include h hv

theorem drainAfterLeader_safe (haimed : ∀ t, expected = some t → v.2.Aimed pid (some t))
    (hrecord : v.2.Aimed pid record.startTicks) :
    (drainAfterLeader pid expected record).Safe (fun stopped w => stopped = true → Contained base w) v := by
  refine (lookOnce_safe (sessionIsDrained_sound pid)).bind fun look w hw hlook => ?_
  split
  · rename_i htrue
    exact (containmentProven_safe h ((hlook htrue).since hv) (hv.trans hw) (hrecord.later hw)).mono
      fun _ _ hc _ => hc
  · refine (forceKillWorkerSession_safe fun t ht => (haimed t ht).later hw).bind fun stopped u hu hstopped => ?_
    have hwu := hw.trans hu
    split
    · rename_i htrue
      exact (containmentProven_safe h ((hstopped htrue).since (hv.trans hw)) (hv.trans hwu) (hrecord.later hwu)).mono
        fun _ _ hc _ => hc
    · exact contained_refuse

theorem killAuthenticated_safe (haimed : v.2.Aimed pid (some startTicks)) (hrecord : v.2.Aimed pid record.startTicks) :
    (killAuthenticated pid startTicks record).Safe (fun stopped w => stopped = true → Contained base w) v := by
  have haim : ∀ w, Later v w → ∀ t, some startTicks = some t → w.2.Aimed pid (some t) := by
    rintro w hw t ⟨⟩
    exact haimed.later hw
  refine Routine.Safe.after verifiedProcessIdentity_safe fun r w hw hr => ?_
  split
  · refine (sessionDrain_safe hw).later.bind fun waited u hu hwaited => ?_
    split
    · rename_i htrue
      exact (containmentProven_safe h ((hwaited.2 htrue).since hv) (hv.trans (hw.trans hu))
        (hrecord.later (hw.trans hu))).mono fun _ _ hc _ => hc
    · exact Routine.Safe.raise
  · exact Routine.Safe.raise
  · exact drainAfterLeader_safe h (hv.trans hw) (haim w hw) (hrecord.later hw)
  · rename_i identity
    split
    · exact Routine.Safe.raise
    split
    · exact Routine.Safe.raise
    have hreap : ((if identity.state = .zombie then reapExactZombie pid (some startTicks) else pure false) :
        Routine Bool).Safe (fun _ _ => True) w := by
      split
      · exact reapExactZombie_safe
      · exact Routine.Safe.pure fun _ _ => trivial
    refine hreap.bind fun reaped u hu _ => ?_
    have hvu := hw.trans hu
    split
    · exact drainAfterLeader_safe h (hv.trans hvu) (haim u hvu) (hrecord.later hvu)
    · refine (stopSession_safe (haimed.later hvu)).bind fun stopped x hx hstopped => ?_
      split
      · rename_i htrue
        exact (containmentProven_safe h ((hstopped htrue).since (hv.trans hvu)) (hv.trans (hvu.trans hx))
          (hrecord.later (hvu.trans hx))).mono fun _ _ hc _ => hc
      · exact Routine.Safe.pure fun _ _ hx => by cases hx

theorem killRecorded_safe (haimed : ∀ t, expected.or record.startTicks = some t → v.2.Aimed pid (some t))
    (hlegacy : expected.or record.startTicks = none → ∀ t, v.2.Aimed pid (some t))
    (hrecord : v.2.Aimed pid record.startTicks) :
    (killRecorded pid record expected).Safe (fun stopped w => stopped = true → Contained base w) v := by
  refine retained_safe.bind fun child w hw _ => ?_
  have haim : ∀ u, Later v u → ∀ t, (expected.or record.startTicks).or
      (((child.bind Child.identity).filter fun i => i.pid = pid).map ProcessIdentity.startTicks) = some t →
      u.2.Aimed pid (some t) := by
    intro u hu t ht
    cases hknown : expected.or record.startTicks with
    | some known =>
        rw [hknown, Option.some_or] at ht
        exact (haimed t (hknown.trans ht)).later hu
    | none => exact (hlegacy hknown t).later hu
  refine (readProcessIdentity_safe pid).bind fun identity u hu _ => ?_
  have hvu := hw.trans hu
  cases identity with
  | none => exact drainAfterLeader_safe h (hv.trans hvu) (haim u hvu) (hrecord.later hvu)
  | some identity =>
      dsimp only
      split
      · rename_i startTicks hticks
        exact killAuthenticated_safe h (hv.trans hvu) (haim u hvu _ hticks) (hrecord.later hvu)
      · rename_i hticks
        have hknown : expected.or record.startTicks = none := by
          cases hknown : expected.or record.startTicks with
          | none => rfl
          | some known =>
              rw [hknown, Option.some_or] at hticks
              cases hticks
        split
        · exact contained_refuse
        · refine (ask_safe _).bind fun yes x hx _ => ?_
          split
          · exact killAuthenticated_safe h (hv.trans (hvu.trans hx)) ((hlegacy hknown _).later (hvu.trans hx))
              (hrecord.later (hvu.trans hx))
          · exact contained_refuse

end Kill

theorem killUnrecorded_safe {expectedPid : Option ℤ} (hcontained : Contained base v) :
    (killUnrecorded expectedPid).Safe (fun _ w => Contained base w) v := by
  refine retained_safe.bind fun child w hw hchild => ?_
  have hpure : ∀ {x : View} (b : Bool), Later v x →
      (Pure.pure b : Routine Bool).Safe (fun _ w => Contained base w) x := fun b hx =>
    Routine.Safe.pure fun _ hu => hcontained.later (hx.trans hu)
  have hrefuse : ∀ {x : View}, Later v x → refuse.Safe (fun _ w => Contained base w) x := fun hx =>
    refuse_safe fun _ hu => hcontained.later (hx.trans hu)
  cases child with
  | none => exact hpure _ hw
  | some child =>
      have hown : Own child.pid child.identity w := Or.inr ⟨child, hchild child rfl, rfl, rfl⟩
      dsimp only
      split
      · rename_i hnone
        rw [hnone] at hown
        exact (finishSpawnCleanup_safe (Started.none hown)).later.mono fun _ u hu => hcontained.later (hw.trans hu.1)
      · rename_i i hi
        rw [hi] at hown
        refine (ask_safe _).bind fun exited u hu _ => ?_
        have hvu := hw.trans hu
        split
        · refine (lookOnce_safe (sessionIsDrained_sound _)).bind fun look x hx _ => ?_
          split
          · exact hpure _ (hvu.trans hx)
          · have haimed : ∀ t, some i.startTicks = some t → x.2.Aimed i.pid (some t) := by
              rintro t ⟨⟩
              rw [child.identity_pid i hi]
              exact (hown.later (hu.trans hx)).aimed
            refine (forceKillWorkerSession_safe haimed).bind fun stopped y hy _ => ?_
            split
            · exact hpure _ (hvu.trans (hx.trans hy))
            · exact hrefuse (hvu.trans (hx.trans hy))
        · exact (stopSpawnedProcess_safe (hown.later hu)).later.mono fun _ y hy => hcontained.later (hvu.trans hy.1)

/-- The request that a call was made for is what it hands on. -/
def Requested (v : View) (expectedPid : Option ℤ) (expectedStartTicks : Option ℕ) : Prop :=
  ∀ target, v.2.target = some target → expectedPid = some target.pid ∧ expectedStartTicks = target.startTicks

theorem Requested.later {expectedPid : Option ℤ} (h : Requested v expectedPid expected) (hw : Later v w) :
    Requested w expectedPid expected := fun target ht => h target (hw.target ▸ ht)

theorem Requested.aimed {expectedPid : Option ℤ} (h : Requested v expectedPid expected)
    (hread : .recorded record ∈ v.2.log) (hnames : record.Names pid ticks)
    (hpid : ¬expectedPid.any (· ≠ (pid : ℤ)) = true) (hticks : ∀ n m, expected = some n → ticks = some m → m = n) :
    v.2.Aimed pid ticks := by
  refine .recorded record hread hnames fun target ht => ?_
  obtain ⟨htarget, hexpected⟩ := h target ht
  refine ⟨?_, fun n m hn hm => hticks n m (hexpected.trans hn) hm⟩
  by_contra hne
  refine hpid ?_
  rw [htarget]
  exact decide_eq_true (Ne.symm hne)

theorem Registration.pid_number {n : ℤ} (reg : Registration) (h : reg.record.pid.toInt 0 = some n) :
    reg.record.pid = .number n := by
  cases hrecord : reg.record.pid with
  | missing => exact absurd hrecord reg.pid_ne
  | malformed =>
      rw [hrecord] at h
      cases h
  | number m =>
      rw [hrecord] at h
      rw [Option.some.inj h]

theorem killWorkerProcess_safe {expectedPid : Option ℤ} (h : Requested v expectedPid expected) :
    (killWorkerProcess expectedPid expected).Safe (fun stopped w => stopped = true → Contained v w) v := by
  refine Routine.Safe.orReturn ?_ fun _ _ => contained_refuse
  refine hgetall_safe.bind fun found w hw hfound => ?_
  obtain ⟨base, hvb, hbw, hvalid, rfl, hread⟩ := hfound
  cases hreg : base.1.registered with
  | none =>
      exact (killUnrecorded_safe ((contained_of_none hvalid hreg).later hbw)).mono fun _ _ hc _ => hc.since hvb
  | some reg =>
      dsimp only [Option.map_some]
      split
      · exact contained_refuse
      rename_i number hnumber
      split
      · exact contained_refuse
      rename_i hlarge
      split
      · exact Routine.Safe.pure fun _ _ hx => by cases hx
      rename_i hpid
      split
      · exact contained_refuse
      rename_i hgroups
      split
      · exact Routine.Safe.pure fun _ _ hx => by cases hx
      rename_i hticks
      obtain ⟨pid, rfl⟩ : ∃ pid : ℕ, number = pid := Int.eq_ofNat_of_zero_le (by omega)
      have hfield := reg.pid_number hnumber
      have hpursues : Pursues base pid reg.record := ⟨hvalid, ⟨reg, hreg, rfl⟩, hfield⟩
      have hagrees : ∀ n m, expected = some n → reg.record.startTicks = some m → m = n := by
        rintro n m rfl hm
        by_contra hne
        refine hticks ?_
        rw [hm]
        exact decide_eq_true hne
      simp only [Bool.or_eq_true, decide_eq_true_eq, not_or, ne_eq, not_not] at hgroups
      have haimed : ∀ ticks : Option ℕ, (∀ n m, reg.record.startTicks = some n → ticks = some m → m = n) →
          (∀ n m, expected = some n → ticks = some m → m = n) → w.2.Aimed pid ticks := fun ticks hrecord hexpected =>
        (h.later hw).aimed (hread _ (by rw [hreg]; rfl)) ⟨hfield, hrecord, hgroups.1, hgroups.2⟩ hpid hexpected
      have hsame : ∀ n m, reg.record.startTicks = some n → reg.record.startTicks = some m → m = n := by
        rintro n m hn hm
        exact Option.some.inj (hm.symm.trans hn)
      refine (killRecorded_safe hpursues hbw ?_ ?_ (haimed _ hsame hagrees)).mono fun _ _ hc htrue => (hc htrue).since hvb
      · intro t ht
        cases hknown : expected with
        | none =>
            rw [hknown, Option.none_or] at ht
            rw [← ht]
            exact haimed _ hsame hagrees
        | some n =>
            rw [hknown, Option.some_or] at ht
            obtain rfl := Option.some.inj ht
            refine haimed _ (fun k m hk hm => ?_) fun k m hk hm => ?_
            · rw [← Option.some.inj hm]
              exact (hagrees n k hknown hk).symm
            · rw [← Option.some.inj hm]
              exact Option.some.inj (hknown.symm.trans hk)
      · intro hnone t
        obtain ⟨hexpected, hrecord⟩ := Option.or_eq_none_iff.mp hnone
        refine haimed _ (fun n m hn => ?_) fun n m hn => ?_
        · rw [hrecord] at hn
          cases hn
        · rw [hexpected] at hn
          cases hn

theorem reconcileLeader_safe : (reconcileLeader pid startTicks).Safe (fun _ _ => True) v := by
  refine verifiedProcessIdentity_safe.bind fun i w hw _ => ?_
  cases i with
  | none => exact Routine.Safe.pure fun _ _ => trivial
  | some identity =>
      dsimp only
      split
      · exact Routine.Safe.raise
      split
      · exact Routine.Safe.raise
      · exact reapExactZombie_safe

theorem reconcileRecord_safe (h : Pursues base pid record) (hv : Later base v)
    (hfields : record = ⟨.number pid, some startTicks, .number pid, .number pid⟩)
    (haimed : v.2.Aimed pid record.startTicks) :
    (reconcileRecord pid startTicks).Safe (fun _ w => Contained base w) v := by
  refine retained_safe.bind fun child w hw _ => ?_
  split
  · exact Routine.Safe.raise
  refine reconcileLeader_safe.bind fun _ u hu _ => ?_
  refine (lookOnce_safe (sessionIsDrained_sound pid)).bind fun look x hx hlook => ?_
  split
  swap
  · exact Routine.Safe.raise
  rename_i htrue
  have hvx := hw.trans (hu.trans hx)
  have hdrained : SessionEnded base pid x := (hlook htrue).since (hv.trans (hw.trans hu))
  refine verifiedProcessIdentity_safe.bind fun i y hy _ => ?_
  split
  · exact Routine.Safe.raise
  subst hfields
  refine (compareAndDelete_safe (haimed.later (hvx.trans hy)) fun z reg hz hreg hrecord => ?_).later.mono
    fun _ z hz => (h.contained hdrained (hv.trans hvx)).later (hy.trans hz.1)
  exact h.ended (hdrained.later (hy.trans hz)) (hv.trans (hvx.trans (hy.trans hz))) hreg hrecord

theorem reconcileRecordedProcessGeneration_safe (h : v.2.target = none) :
    reconcileRecordedProcessGeneration.Safe (fun done w => done = true → Contained v w) v := by
  refine Routine.Safe.orReturn ?_ fun _ _ => Routine.Safe.pure fun _ _ hx => by cases hx
  refine hgetall_safe.bind fun found w hw hfound => ?_
  obtain ⟨base, hvb, hbw, hvalid, rfl, hread⟩ := hfound
  cases hreg : base.1.registered with
  | none =>
      exact Routine.Safe.pure fun u hu _ => (((contained_of_none hvalid hreg).later hbw).later hu).since hvb
  | some reg =>
      refine (ask_safe _).bind fun owned u hu _ => ?_
      split
      swap
      · exact Routine.Safe.raise
      split
      swap
      · exact Routine.Safe.raise
      rename_i number startTicks hnumber hticks
      split
      · exact Routine.Safe.raise
      rename_i hguard
      simp only [Bool.or_eq_true, decide_eq_true_eq, not_or, ne_eq, not_not] at hguard
      obtain ⟨⟨⟨hlarge, hgroup⟩, hsession⟩, -⟩ := hguard
      obtain ⟨pid, rfl⟩ : ∃ pid : ℕ, number = pid := Int.eq_ofNat_of_zero_le (by omega)
      have hpursues : Pursues base pid reg.record := ⟨hvalid, ⟨reg, hreg, rfl⟩, hnumber⟩
      refine (reconcileRecord_safe hpursues (hbw.trans hu) ?_ ?_).mono fun _ _ hc _ => hc.since hvb
      · rw [show reg.record = ⟨reg.record.pid, reg.record.startTicks, reg.record.processGroup, reg.record.sessionId⟩
          from rfl, hnumber, hticks, hgroup, hsession]
      · refine .recorded _ (hu.log _ (hread _ (by rw [hreg]; rfl))) ⟨hnumber, ?_, ?_, ?_⟩ fun target ht => ?_
        · intro n m hn hm
          exact Option.some.inj (hm.symm.trans hn)
        · rw [hgroup]
          rfl
        · rw [hsession]
          rfl
        · rw [(hvb.trans (hbw.trans hu)).target, h] at ht
          cases ht

/-! ### Restarts -/

theorem restartRequestGenerationIsCurrent_safe (request : Request) :
    (restartRequestGenerationIsCurrent request).Safe (fun _ _ => True) v := by
  refine hgetall_safe.bind fun record w hw _ => ?_
  split
  · exact Routine.Safe.pure fun _ _ => trivial
  split
  · exact Routine.Safe.pure fun _ _ => trivial
  split
  · exact Routine.Safe.pure fun _ _ => trivial
  refine Routine.Safe.bind (P := fun _ _ => True) ?_ fun identity u hu _ => ?_
  · split
    · exact Routine.Safe.pure fun _ _ => trivial
    · exact (readProcessIdentity_safe _).mono fun _ _ _ => trivial
  · split
    · exact Routine.Safe.pure fun _ _ => trivial
    · exact Routine.Safe.pure fun _ _ => trivial

theorem rescue_safe (h : Started process identity v) {p : Routine Bool} (hp : p.Safe (fun _ _ => True) v) :
    (rescue process identity p).Safe (fun _ _ => True) v := by
  refine Routine.Safe.orReturn hp fun w hw => ?_
  exact (finishSpawnCleanup_safe (h.later hw)).bind fun _ _ _ _ => Routine.Safe.pure fun _ _ => trivial

/-- The cleanup in the branches that report a failed start. -/
theorem rescuedCleanup_safe (h : Started process identity v) : (rescue process identity do
    let _ ← finishSpawnCleanup process identity
    pure false).Safe (fun _ _ => True) v :=
  rescue_safe h ((finishSpawnCleanup_safe h).bind fun _ _ _ _ => Routine.Safe.pure fun _ _ => trivial)

theorem moves_registerIfEmpty {h : Host} (hbegun : g ∈ h.table.begun) : h.Moves (h.registerIfEmpty g).2 := by
  unfold Host.registerIfEmpty
  split
  · rename_i hempty
    exact .registered hempty hbegun
  · exact .same

theorem fair_register {x : Outcome} {r : Command.Answer (.register g) × View} (hbegun : g ∈ v.1.table.begun)
    (h : exec v (.register g) x = some r) : Fair v r.2 := by
  have hfair : Fair v ((v.1.registerIfEmpty g).2, v.2) := ⟨moves_registerIfEmpty hbegun, rfl, rfl, rfl, Or.inl rfl⟩
  cases x <;> simp only [exec, Option.some.injEq, reduceCtorEq] at h <;> subst h
  · exact hfair
  · exact Fair.refl v
  · exact hfair

theorem register_safe {next : Except Fault Bool → Routine α} (hbegun : g ∈ v.1.table.begun)
    (hnext : ∀ answer w, Later v w → (next answer).Safe Q w) :
    (Routine.command (.register g) next).Safe Q v := by
  refine grows.call fun w x r hw _ hr => ?_
  exact ⟨fair_register (hw.begun g hbegun) hr, fun hlater => hnext r.1 r.2 hlater⟩

theorem SeenEnded.later (h : SeenEnded v) (hw : Later v w) : SeenEnded w := fun g hg =>
  have hg' := h g (hw.seen ▸ hg)
  ⟨hw.begun g hg'.1, hw.ended g hg'.1 hg'.2⟩

theorem fair_popen {x : Outcome} {r : Command.Answer .popen × View} (hseen : SeenEnded v)
    (h : exec v .popen x = some r) : Fair v r.2 ∧ ∀ child, r.1 = .ok child → .spawned child ∈ r.2.2.log := by
  cases x <;> simp only [exec, Option.some.injEq, reduceCtorEq] at h
  · subst h
    exact ⟨Fair.refl v, fun _ hc => by cases hc⟩
  · obtain ⟨t, ht, rfl⟩ := Option.map_eq_some_iff.mp h
    refine ⟨⟨.process ht, rfl, rfl, rfl, Or.inr ⟨_, rfl, trivial, fun _ _ => hseen⟩⟩, fun child hc => ?_⟩
    obtain rfl := Except.ok.inj hc
    exact List.mem_cons_self

theorem spawnReplacement_safe (hseen : SeenEnded v) : spawnReplacement.Safe (fun _ _ => True) v := by
  unfold spawnReplacement
  refine Routine.Safe.command fun w x r hw _ hr => ?_
  obtain ⟨hfair, hspawned⟩ := fair_popen (hseen.later hw) hr
  refine ⟨hfair, fun hlater => ?_⟩
  obtain ⟨answer, w⟩ := r
  cases answer with
  | error e => exact Routine.Safe.raise
  | ok process =>
      have hown : ∀ identity, Own process identity w := fun _ => Or.inl (hspawned process rfl)
      refine Routine.Safe.after (readProcessIdentity_safe process) fun answer u hu hanswer => ?_
      have hnone : Started process none u := Started.none ((hown none).later hu)
      rcases answer with e | none | identity
      · exact rescue_safe hnone Routine.Safe.raise
      · exact rescuedCleanup_safe hnone
      · obtain ⟨rfl, -, hbegun⟩ := hanswer (some identity) rfl identity rfl
        have hstarted : Started identity.pid (some identity) u := by
          refine ⟨(hown _).later hu, fun i hi => ?_⟩
          obtain rfl := Option.some.inj hi
          exact ⟨rfl, hbegun⟩
        dsimp only
        split
        · exact rescuedCleanup_safe hstarted
        rename_i hguard
        simp only [Bool.or_eq_true, decide_eq_true_eq, not_or, ne_eq, not_not] at hguard
        have hcleanup : ∀ {y : View} (e : Fault), Later u y → Routine.Safe (do
            let _ ← rescue identity.pid (some identity) (finishSpawnCleanup identity.pid (some identity))
            Routine.raise e : Routine Bool) (fun _ _ => True) y := fun e hy =>
          (rescue_safe (hstarted.later hy) (finishSpawnCleanup_safe (hstarted.later hy))).bind
            fun _ _ _ _ => Routine.Safe.raise
        refine register_safe (hbegun hguard.2) fun answer y hy => ?_
        rcases answer with e | false | true
        · exact hcleanup e hy
        · exact rescuedCleanup_safe (hstarted.later hy)
        · refine Routine.Safe.after (ask_safe _) fun slept z hz _ => ?_
          have hyz := hy.trans hz
          cases slept with
          | error e => exact hcleanup e hyz
          | ok _ =>
              refine rescue_safe (hstarted.later hyz) ((ask_safe _).bind fun exited t ht _ => ?_)
              split
              · exact (finishSpawnCleanup_safe (hstarted.later (hyz.trans ht))).bind
                  fun _ _ _ _ => Routine.Safe.pure fun _ _ => trivial
              · exact Routine.Safe.pure fun _ _ => trivial

theorem restartWorker_safe {request : Option Request}
    (htarget : v.2.target = request.map fun r => ⟨r.pid, r.startTicks⟩) (hseen : ∀ g ∈ v.2.seen, g ∈ v.1.ever) :
    (restartWorker request).Safe (fun restarted w => restarted = some true → SeenEnded w) v := by
  have hrequested : Requested v (request.map Request.pid) (request.bind Request.startTicks) := by
    intro target ht
    rw [htarget] at ht
    obtain ⟨r, rfl, rfl⟩ := Option.map_eq_some_iff.mp ht
    exact ⟨rfl, rfl⟩
  refine Routine.Safe.orReturn ?_ fun _ _ => Routine.Safe.pure fun _ _ h => by cases h
  refine (ask_safe _).bind fun quarantined w hw _ => ?_
  split
  · exact Routine.Safe.pure fun _ _ h => by cases h
  have hcurrent : (request.elim (pure true) restartRequestGenerationIsCurrent).Safe (fun _ _ => True) w := by
    cases request with
    | none => exact Routine.Safe.pure fun _ _ => trivial
    | some r => exact restartRequestGenerationIsCurrent_safe r
  refine hcurrent.bind fun current u hu _ => ?_
  split
  swap
  · exact Routine.Safe.pure fun _ _ h => by cases h
  refine Routine.Safe.bind (P := fun _ _ => True) ?_ fun recovered x hx _ => ?_
  · split
    · exact Routine.Safe.pure fun _ _ => trivial
    · exact ask_safe _
  split
  · exact Routine.Safe.pure fun _ _ h => by cases h
  have hvx := hw.trans (hu.trans hx)
  refine (killWorkerProcess_safe (hrequested.later hvx)).bind fun stopped y hy hstopped => ?_
  split
  swap
  · exact Routine.Safe.pure fun _ _ h => by cases h
  rename_i htrue
  have hdrained : SeenEnded y := by
    intro g hg
    refine hstopped htrue g (hvx.ever g (hseen g ?_))
    rwa [hy.seen, hvx.seen] at hg
  refine (ask_safe _).bind fun _ z hz _ => ?_
  refine (ask_safe _).bind fun latched t ht _ => ?_
  split
  · exact Routine.Safe.pure fun _ _ h => by cases h
  · refine (spawnReplacement_safe (hdrained.later (hz.trans ht))).bind fun spawned r hr _ => ?_
    exact Routine.Safe.pure fun _ h _ => hdrained.later (hz.trans (ht.trans (hr.trans h)))

end KernelGym.WorkerSession
