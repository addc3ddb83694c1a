import KernelGym.NotificationPhysical
import KernelGym.NotificationWorker

/-! Operators are paged at most once for a latch. Its files are kept in order by every operation that names
its GPU under the lock, so that a call that sends holds the latch as it is stored. -/

namespace KernelGym.Quarantine

open Library

variable {l : Latch} {s t : State} {a : Action} {w w' w₀ : Paging} {id : CallId} {path : GpuPath}
  {c : Claim} {store : Store}

/-! ### The latch under the operations in order -/

/-- The latch files hold the latch as operations in order leave it. -/
def Latch.Guard (l : Latch) (s : State) : Prop :=
  match l.owner with
  | none => PhysicalGuard l s
  | some owner => WorkerGuard l owner s

theorem guard_cases (hg : l.Guard s) :
    (l.owner = none ∧ PhysicalGuard l s) ∨ ∃ owner, l.owner = some owner ∧ WorkerGuard l owner s := by
  unfold Latch.Guard at hg
  split at hg
  · exact Or.inl ⟨by assumption, hg⟩
  · exact Or.inr ⟨_, by assumption, hg⟩

theorem guard_step (hg : l.Guard s) (horder : l.inOrder s.store a)
    (hread : ∀ worker gpu, a ≠ .read worker gpu) (h : step s a = some t) :
    l.Guard t ∧ Follows l s a t := by
  rcases guard_cases hg with ⟨howner, hg⟩ | ⟨owner, howner, hg⟩
  · simp only [Latch.inOrder, howner] at horder
    simp only [Latch.Guard, howner]
    exact hg.step horder hread h
  · simp only [Latch.inOrder, howner] at horder
    simp only [Latch.Guard, howner]
    exact hg.step horder hread h

/-- The latch of a claim that may still send is durable, and its page was not sent. -/
theorem guard_claimed (hg : l.Guard s) (hc : s.held path = some c) (hactive : c.active)
    (hgen : generation c.record = l.generation) : l.Durable s.store ∧ ¬l.Sent s.store := by
  rcases guard_cases hg with ⟨-, hg⟩ | ⟨owner, -, hg⟩
  · obtain ⟨hphysical, rfl, hsending⟩ := hg.claims.latch path c hc hactive hgen
    obtain ⟨hscoped, -, hfile⟩ := hg.claims.path _ c hc hactive hphysical
    obtain ⟨hgpu, hstored⟩ := hfile rfl
    have hhome : l.home s.store = some (normalizeDeviceRecord l.gpu c.record) := by
      rw [hg.identity.home_eq, hstored, Option.map_some]
    refine ⟨⟨_, hhome, ?_⟩, ?_⟩
    · rw [(normalizeDevice_of_same (same_of_deviceScoped hscoped hgpu)).generation, hgen]
    · rintro ⟨r, hr, -, hsent⟩
      obtain rfl := Option.some.inj (hhome.symm.trans hr)
      rw [isSent_normalizeDevice, isSent, hsending] at hsent
      exact absurd hsent (by decide)
  · obtain ⟨-, hscope, hsending, hstored⟩ := hg.claims.latch path c hc hactive hgen
    have hhome := home_of_holder hg.identity hstored hscope
    refine ⟨⟨_, hhome, hgen⟩, ?_⟩
    rintro ⟨r, hr, -, hsent⟩
    obtain rfl := Option.some.inj (hhome.symm.trans hr)
    rw [isSent, hsending] at hsent
    exact absurd hsent (by decide)

/-- A completed claim of the latch leaves it sent. -/
theorem guard_finished (hg : l.Guard s) (hc : s.held path = some c) (hactive : c.active)
    (hgen : generation c.record = l.generation) {error now : String}
    (h : Quarantine.step s (.finish path true error now) = some t) : l.Sent t.store := by
  have hevent := sameEvent_outcome c true error now
  have hsent : isSent (c.outcome true error now) := pageState_outcome c true error now
  have ht : t.store = s.store.publish { worker := c.workerId, record := c.outcome true error now } := by
    rw [step_publishes h rfl, State.publication, hc]
    rfl
  rcases guard_cases hg with ⟨-, hg⟩ | ⟨owner, -, hg⟩
  · obtain ⟨hphysical, rfl, -⟩ := hg.claims.latch path c hc hactive hgen
    obtain ⟨hscoped, -, hfile⟩ := hg.claims.path _ c hc hactive hphysical
    have hgpu := hevent.recordGpu.trans (hfile rfl).1
    have houtcome := hevent.deviceScoped.trans hscoped
    refine ⟨normalizeDeviceRecord l.gpu (c.outcome true error now), ?_, ?_,
      isSent_normalizeDevice.mpr hsent⟩
    · rw [hg.identity.home_eq, ht, Store.gpuFiles_publish, if_pos ⟨rfl, houtcome, by rw [hgpu]⟩,
        Option.map_some]
    · rw [(normalizeDevice_of_same (same_of_deviceScoped houtcome hgpu)).generation, hevent.generation,
        hgen]
  · obtain ⟨hpath, hscope, -, hstored⟩ := hg.claims.latch path c hc hactive hgen
    obtain ⟨howner, -, -⟩ := hg.claims.path path c hc hactive hpath
    have hid : (c.outcome true error now).get "worker_id" = some c.workerId := by
      rw [hevent "worker_id" (by decide), howner]
      exact hg.files.owned _ hstored
    refine ⟨c.outcome true error now, ?_, hevent.generation.trans hgen, hsent⟩
    rw [hg.identity.home_eq, ht, Store.workerFiles_publish, if_pos ⟨rfl, hpath.symm⟩, aliasRecord,
      if_pos hid, Option.filter_some, if_pos]
    exact decide_eq_true ((hevent "scope" (by decide)).trans hscope)

/-- A claim that neither sends nor is superseded has found its latch delivered. -/
theorem claimLatch_deduplicated {input : Record} {pid now : String}
    {durableWorker durableDevice : Option Record}
    (hsend : (store.claimLatch input pid now durableWorker durableDevice).2.shouldSend = false)
    (hcurrent : (store.claimLatch input pid now durableWorker durableDevice).2.superseded = false) :
    ∃ current, claimedLatch input durableWorker durableDevice = some current ∧
      generation current = generation input ∧ isSent current := by
  rw [Store.claimLatch] at hsend hcurrent
  by_cases hstale : (!isPhysical input && durableDevice.isSome) = true
  · rw [if_pos hstale] at hcurrent
    exact absurd hcurrent (by simp)
  · rw [if_neg hstale] at hsend hcurrent
    cases hclaimed : claimedLatch input durableWorker durableDevice with
    | none =>
        rw [hclaimed] at hcurrent
        exact absurd hcurrent (by simp)
    | some current =>
        simp only [hclaimed] at hsend hcurrent
        by_cases hgen : generation current = generation input
        · rw [if_neg (not_not.mpr hgen)] at hsend
          by_cases hsent : pageState current = some "sent"
          · exact ⟨current, rfl, hgen, hsent⟩
          · rw [if_neg hsent] at hsend
            exact absurd hsend (by simp)
        · rw [if_pos hgen] at hcurrent
          exact absurd hcurrent (by simp)

theorem guard_deduplicated (hg : l.Guard s) {input : Record} {pid now : String}
    (horder : l.inOrder s.store (.claim input pid now)) (hscope : claimableScope input = true)
    (hnamed : (recordGpu input).named = true) {result : Store × Claim}
    (hresult : s.store.acquireClaim input pid now = some result) (hsend : result.2.shouldSend = false)
    (hsuperseded : result.2.superseded = false) (hgen : generation input = l.generation) :
    l.Sent s.store := by
  obtain ⟨durableWorker, durableDevice, hworker, hdevice, rfl⟩ := Store.acquireClaim_eq_some hresult
  obtain ⟨current, hcurrent, hsame, hsent⟩ := claimLatch_deduplicated hsend hsuperseded
  have hlatch := hsame.trans hgen
  unfold claimedLatch at hcurrent
  by_cases hphysical : isPhysical input = true
  · rw [if_pos hphysical] at hcurrent
    obtain ⟨d, rfl, rfl⟩ := Option.map_eq_some_iff.mp hcurrent
    have hd : s.store.gpuFiles.get (deviceLatchPath (recordGpu input)) = some d :=
      (readJson_ok_iff.mp hdevice).1.symm
    rcases guard_cases hg with ⟨howner, hg⟩ | ⟨owner, -, hg⟩
    · simp only [Latch.inOrder, howner] at horder
      by_cases hpath : deviceLatchPath (recordGpu input) = l.path
      · have hgpu : recordGpu input = l.gpu := horder hnamed hpath
        rw [hgpu] at hlatch hsent hd
        refine ⟨_, ?_, hlatch, hsent⟩
        rw [hg.identity.home_eq, hd, Option.map_some]
      · exact absurd hlatch (hg.files.devices _ d hpath hd)
    · exact absurd (hg.identity.of_normalizeDevice hlatch) (hg.files.devices _ d hd)
  · rw [if_neg hphysical] at hcurrent
    obtain ⟨hfile, hscope'⟩ := Option.filter_eq_some_iff.mp hcurrent
    have hinput : input.get "scope" = some "worker_process" := by
      simpa [claimableScope, hphysical] using hscope
    have hcscope : current.get "scope" = some "worker_process" :=
      (of_decide_eq_true hscope').trans hinput
    rw [hfile] at hworker
    have he : s.store.workerFiles.get (workerLatchPath (text input "worker_id")) = some current :=
      (readJson_ok_iff.mp hworker).1.symm
    rcases guard_cases hg with ⟨-, hg⟩ | ⟨owner, -, hg⟩
    · obtain ⟨-, hsame, -⟩ := hg.files.aliases _ current he hlatch
      exact absurd ((not_physical_of_worker hcscope).symm.trans (isPhysical_of_same hsame)) (by simp)
    · obtain ⟨hpath, -⟩ := hg.files.holders _ current he hlatch
      rw [hpath] at he
      exact ⟨current, home_of_holder hg.identity he hcscope, hlatch, hsent⟩

/-! ### Calls and locks -/

/-- The lock that a call holds. -/
def CallPhase.lock : CallPhase → Option GpuPath
  | .sending path | .releasing path _ => some path
  | _ => none

def Paging.lock (w : Paging) (id : CallId) : Option GpuPath := (w.calls id).bind CallPhase.lock

/-- Every lock of a call is held by it alone, and a call that sends has a claim. -/
structure Locks (w : Paging) : Prop where
  held : ∀ id path, w.lock id = some path → (w.base.held path).isSome
  alone : ∀ id id' path, w.lock id = some path → w.lock id' = some path → id = id'
  active : ∀ id path, w.calls id = some (.sending path) → ∃ c, w.base.held path = some c ∧ c.active

/-- One call goes on; it takes free locks and touches its own only. -/
theorem Locks.move (hw : Locks w) (id : CallId) {phase : CallPhase}
    (hcalls : w'.calls = Function.update w.calls id (some phase))
    (hkept : ∀ path, w'.base.held path = w.base.held path ∨ w.lock id = some path ∨
      w.base.held path = none)
    (htaken : ∀ path, phase.lock = some path → (w'.base.held path).isSome ∧
      (w.lock id = some path ∨ w.base.held path = none))
    (hactive : ∀ path, phase = .sending path → ∃ c, w'.base.held path = some c ∧ c.active) :
    Locks w' := by
  have hself : w'.lock id = phase.lock := by
    rw [Paging.lock, hcalls, Function.update_self, Option.bind_some]
  have hothers : ∀ id', id' ≠ id → w'.calls id' = w.calls id' := by
    intro id' hne
    rw [hcalls, Function.update_of_ne hne]
  have hlock : ∀ id', id' ≠ id → w'.lock id' = w.lock id' := by
    intro id' hne
    rw [Paging.lock, hothers id' hne, Paging.lock]
  have hstays : ∀ id' path, id' ≠ id → w.lock id' = some path → w'.base.held path = w.base.held path := by
    intro id' path hne hid'
    rcases hkept path with hsame | hown | hfree
    · exact hsame
    · exact absurd (hw.alone id' id path hid' hown) hne
    · have hheld := hw.held id' path hid'
      rw [hfree] at hheld
      exact absurd hheld (by simp)
  have hfresh : ∀ id' path, id' ≠ id → w.lock id' = some path → phase.lock ≠ some path := by
    intro id' path hne hid' hphase
    rcases (htaken path hphase).2 with hown | hfree
    · exact hne (hw.alone id' id path hid' hown)
    · have hheld := hw.held id' path hid'
      rw [hfree] at hheld
      exact absurd hheld (by simp)
  constructor
  · intro id' path hid'
    by_cases hne : id' = id
    · rw [hne, hself] at hid'
      exact (htaken path hid').1
    · rw [hlock id' hne] at hid'
      rw [hstays id' path hne hid']
      exact hw.held id' path hid'
  · intro id' id'' path hid' hid''
    by_cases hne : id' = id
    · by_cases hne' : id'' = id
      · rw [hne, hne']
      · rw [hne, hself] at hid'
        rw [hlock id'' hne'] at hid''
        exact absurd hid' (hfresh id'' path hne' hid'')
    · rw [hlock id' hne] at hid'
      by_cases hne' : id'' = id
      · rw [hne', hself] at hid''
        exact absurd hid'' (hfresh id' path hne hid')
      · rw [hlock id'' hne'] at hid''
        exact hw.alone id' id'' path hid' hid''
  · intro id' path hid'
    by_cases hne : id' = id
    · rw [hne, hcalls, Function.update_self, Option.some.injEq] at hid'
      exact hactive path hid'
    · rw [hothers id' hne] at hid'
      rw [hstays id' path hne (by rw [Paging.lock, hid']; rfl)]
      exact hw.active id' path hid'

theorem external_held (ha : a.external = true) (h : step s a = some t) : t.held = s.held := by
  cases a with
  | write worker gpu fault physicalScope eventId now =>
      obtain ⟨-, rfl⟩ := step_write.mp h
      rfl
  | update worker gpu scope expected outcome error now =>
      obtain ⟨-, rfl⟩ := step_update.mp h
      rfl
  | clear worker gpu seen =>
      obtain ⟨-, rfl⟩ := step_clear.mp h
      rfl
  | _ => exact absurd ha (by simp [Action.external])

/-- What a step of a call or of another process does. -/
inductive Moves (w : Paging) (w' : Paging) : PageAction → Prop
  /-- A step of a call that does not touch the latches. -/
  | idle {action : PageAction} {id : CallId} {phase : CallPhase} (free : w.lock id = none) (unlocked : phase.lock = none)
      (eq : w' = w.setCall id phase) :
      Moves w w' action
  | claimed {id : CallId} {record : Record} {pid now : String} {cancelled : Bool} {base : State}
      {c : Claim}
      (calls : w.calls id = some (.claiming record))
      (claimable : claimableScope record = true) (named : (recordGpu record).named = true)
      (free : w.base.free (recordGpu record))
      (base_step : step w.base (.claim record pid now) = some base)
      (held : base.held (deviceLatchPath (recordGpu record)) = some c)
      (eq : w' = { w with base := base }.setCall id
        (Paging.afterClaim (deviceLatchPath (recordGpu record)) c cancelled)) :
      Moves w w' (.acquire id pid now cancelled)
  | exchanged {id : CallId} {path : GpuPath} {answer : Exchange} {now : String} {cancelled : Bool}
      {base : State} {c : Claim}
      (calls : w.calls id = some (.sending path)) (held : w.base.held path = some c)
      (base_step : step w.base (.finish path (answer = .success) answer.errorText now) = some base)
      (eq : w' = { w with
        base := base
        pages := (if answer = Exchange.success then [generation c.record] else []) ++ w.pages
        recorded := (if answer = Exchange.success then [generation c.record] else []) ++ w.recorded }.setCall id
          (.releasing path (if cancelled then .cancelled else .exchanged answer))) :
      Moves w w' (.exchange id answer now cancelled)
  | released {action : PageAction} {id : CallId} {path : GpuPath} {base : State} {phase : CallPhase}
      (lock : w.lock id = some path)
      (unlocked : phase.lock = none) (base_step : step w.base (.release path) = some base)
      (eq : w' = { w with base := base }.setCall id phase) : Moves w w' action
  | other {o : Action} {base : State} (external : o.external = true) (base_step : step w.base o = some base)
      (eq : w' = { w with base := base, recorded := w.base.store.marks o ++ w.recorded }) :
      Moves w w' (.other o)

theorem lock_of_calls {phase : CallPhase} (h : w.calls id = some phase) : w.lock id = phase.lock := by
  rw [Paging.lock, h, Option.bind_some]

theorem moves_of_step {a : PageAction} (h : Paging.step w a = some w') : Moves w w' a := by
  cases a with
  | call id record expected =>
      simp only [Paging.step, Option.ite_none_right_eq_some, Option.some.injEq] at h
      obtain ⟨⟨hnone, -⟩, rfl⟩ := h
      refine @Moves.idle w _ _ id _ ?_ ?_ rfl
      · rw [Paging.lock, Option.isNone_iff_eq_none.mp hnone, Option.bind_none]
      · split_ifs <;> rfl
  | acquire id pid now cancelled =>
      rw [Paging.step] at h
      cases hcall : w.calls id with
      | none => simp [hcall] at h
      | some phase =>
          cases phase with
          | claiming record =>
              have hidle : ∀ result, w' = w.setCall id (.returned result) →
                  Moves w w' (.acquire id pid now cancelled) := fun result heq =>
                Moves.idle (lock_of_calls hcall) rfl heq
              simp only [hcall, Paging.acquire] at h
              by_cases hclaimable : claimableScope record ∧ (recordGpu record).named ∧
                  text record "worker_id" ≠ ""
              · rw [if_pos hclaimable, Option.ite_none_right_eq_some] at h
                obtain ⟨hfree, h⟩ := h
                cases hbase : step w.base (.claim record pid now) with
                | none =>
                    rw [hbase] at h
                    exact hidle _ (Option.some.inj h).symm
                | some base =>
                    rw [hbase] at h
                    obtain ⟨c, hc, rfl⟩ := Option.map_eq_some_iff.mp h
                    exact Moves.claimed hcall hclaimable.1 hclaimable.2.1 hfree hbase hc rfl
              · rw [if_neg hclaimable] at h
                exact hidle _ (Option.some.inj h).symm
          | _ => simp [hcall] at h
  | exchange id answer now cancelled =>
      rw [Paging.step] at h
      cases hcall : w.calls id with
      | none => simp [hcall] at h
      | some phase =>
          cases phase with
          | sending path =>
              simp only [hcall, Paging.exchange, Option.bind_eq_some_iff, Option.map_eq_some_iff] at h
              obtain ⟨c, hc, base, hbase, rfl⟩ := h
              exact Moves.exchanged hcall hc hbase rfl
          | _ => simp [hcall] at h
  | release id =>
      rw [Paging.step] at h
      cases hcall : w.calls id with
      | none => simp [hcall] at h
      | some phase =>
          cases phase with
          | releasing path result =>
              simp only [hcall, Option.map_eq_some_iff] at h
              obtain ⟨base, hbase, rfl⟩ := h
              exact Moves.released (lock_of_calls hcall) rfl hbase rfl
          | _ => simp [hcall] at h
  | crash id =>
      rw [Paging.step] at h
      cases hcall : w.calls id with
      | none => simp [hcall] at h
      | some phase =>
          cases phase with
          | claiming record =>
              simp only [hcall, Option.some.injEq] at h
              exact Moves.idle (lock_of_calls hcall) rfl h.symm
          | sending path | releasing path result =>
              simp only [hcall, Option.map_eq_some_iff] at h
              obtain ⟨base, hbase, rfl⟩ := h
              exact Moves.released (lock_of_calls hcall) rfl hbase rfl
          | _ => simp [hcall] at h
  | other a =>
      simp only [Paging.step, Option.ite_none_right_eq_some, Option.map_eq_some_iff] at h
      obtain ⟨hexternal, base, hbase, rfl⟩ := h
      exact Moves.other hexternal hbase rfl

/-- A claim that is made holds the lock of its GPU, and may still send if it says so. -/
theorem claim_held {record : Record} {pid now : String} (h : step s (.claim record pid now) = some t)
    (hc : t.held (deviceLatchPath (recordGpu record)) = some c) :
    s.store.acquireClaim record pid now = some (t.store, c) ∧ c.finished = false ∧
      ∀ path, path ≠ deviceLatchPath (recordGpu record) → t.held path = s.held path := by
  have hresult := claim_result h hc
  refine ⟨hresult, ?_, fun path hpath => ?_⟩
  · obtain ⟨durableWorker, durableDevice, -, -, hclaim⟩ := Store.acquireClaim_eq_some hresult
    refine (congrArg (fun made : Store × Claim => made.2.finished) hclaim).trans ?_
    rw [Store.claimLatch]
    split_ifs
    · rfl
    · cases claimedLatch record durableWorker (durableDevice.map (normalizeDeviceRecord
          (recordGpu record))) with
      | none => rfl
      | some current =>
          dsimp only
          split_ifs <;> rfl
  · obtain ⟨-, result, -, rfl⟩ := step_claim.mp h
    exact Function.update_of_ne hpath _ _

theorem afterClaim_lock (path : GpuPath) (c : Claim) (cancelled : Bool) :
    (Paging.afterClaim path c cancelled).lock = some path := by
  unfold Paging.afterClaim
  split_ifs <;> rfl

theorem afterClaim_sending {path' : GpuPath} {cancelled : Bool}
    (h : Paging.afterClaim path c cancelled = .sending path') : path' = path ∧ c.shouldSend = true := by
  unfold Paging.afterClaim at h
  split_ifs at h with hcancelled hsend
  injection h with h
  exact ⟨h.symm, hsend⟩

theorem Locks.step (hw : Locks w) {a : PageAction} (h : Paging.step w a = some w') : Locks w' := by
  cases moves_of_step h with
  | @idle _ id phase free unlocked eq =>
      subst eq
      refine hw.move id rfl (fun _ => Or.inl rfl) ?_ ?_
      · intro path hpath
        exact absurd (unlocked.symm.trans hpath) (by simp)
      · rintro path rfl
        exact absurd unlocked (by simp [CallPhase.lock])
  | @claimed id record pid now cancelled base c calls claimable named free base_step held eq =>
      subst eq
      obtain ⟨-, hfinished, hothers⟩ := claim_held base_step held
      refine hw.move id rfl (fun path => ?_) ?_ ?_
      · by_cases hpath : path = deviceLatchPath (recordGpu record)
        · rw [hpath]
          exact Or.inr (Or.inr (free named))
        · exact Or.inl (hothers path hpath)
      · intro path hpath
        rw [afterClaim_lock, Option.some.injEq] at hpath
        subst hpath
        change (base.held _).isSome ∧ _
        rw [held]
        exact ⟨rfl, Or.inr (free named)⟩
      · intro path hpath
        obtain ⟨rfl, hsend⟩ := afterClaim_sending hpath
        exact ⟨c, held, hsend, hfinished⟩
  | @exchanged id path answer now cancelled base c calls held base_step eq =>
      subst eq
      obtain ⟨c', hc', -, rfl⟩ := step_finish.mp base_step
      have hlock : w.lock id = some path := lock_of_calls calls
      refine hw.move id rfl (fun path' => ?_) ?_ ?_
      · by_cases hpath : path' = path
        · rw [hpath]
          exact Or.inr (Or.inl hlock)
        · exact Or.inl (Function.update_of_ne hpath _ _)
      · intro path' hpath
        obtain rfl : path = path' := Option.some.inj hpath
        refine ⟨?_, Or.inl hlock⟩
        change (Function.update w.base.held path _ path).isSome
        rw [Function.update_self]
        rfl
      · intro path' hpath
        exact absurd hpath (by simp)
  | @released _ id path base phase lock unlocked base_step eq =>
      subst eq
      obtain ⟨c, -, rfl⟩ := step_release.mp base_step
      refine hw.move id rfl (fun path' => ?_) ?_ ?_
      · by_cases hpath : path' = path
        · rw [hpath]
          exact Or.inr (Or.inl lock)
        · exact Or.inl (Function.update_of_ne hpath _ _)
      · intro path' hpath
        exact absurd (unlocked.symm.trans hpath) (by simp)
      · rintro path' rfl
        exact absurd unlocked (by simp [CallPhase.lock])
  | @other a base external base_step eq =>
      subst eq
      have hheld := external_held external base_step
      refine ⟨fun id path hlock => ?_, hw.alone, fun id path hcall => ?_⟩
      · change (base.held path).isSome
        rw [hheld]
        exact hw.held id path hlock
      · change ∃ c, base.held path = some c ∧ c.active
        rw [hheld]
        exact hw.active id path hcall

/-! ### Pages of one latch -/

/-- The pages of the latch since `w₀`: at most one was delivered, and only while the latch was durable and
its page not recorded. -/
structure PagedOnce (l : Latch) (w₀ w : Paging) : Prop where
  locks : Locks w
  guard : l.Guard w.base
  once : w.pages.count l.generation ≤ 1
  delivered : l.generation ∈ w.pages → l.Durable w.base.store → l.Sent w.base.store
  recorded : l.Sent w.base.store → l.Sent w₀.base.store ∨ l.generation ∈ w.recorded

/-- A step of the latch files that delivers no page of the latch. -/
theorem PagedOnce.move (hw : PagedOnce l w₀ w) (hlocks : Locks w') (hguard : l.Guard w'.base)
    (hfollows : Follows l w.base a w'.base)
    (hpages : w'.pages.count l.generation = w.pages.count l.generation)
    (hrecorded : l.generation ∈ w.recorded → l.generation ∈ w'.recorded)
    (hmarks : a.marksSent → ∀ p, w.base.publication a = some p → generation p.record = l.generation →
      l.generation ∈ w'.recorded) : PagedOnce l w₀ w' := by
  refine ⟨hlocks, hguard, by rw [hpages]; exact hw.once, fun hpaged hdurable => ?_, fun hsent => ?_⟩
  · have hold : l.generation ∈ w.pages := by
      rw [← List.count_pos_iff, ← hpages, List.count_pos_iff]
      exact hpaged
    exact hfollows.sent (hw.delivered hold (hfollows.durable hdurable)) hdurable
  · rcases hfollows.origin hsent with hold | ⟨hmarked, p, hp, hgen⟩
    · exact (hw.recorded hold).imp_right hrecorded
    · exact Or.inr (hmarks hmarked p hp hgen)

theorem inOrder_of_quiet (store : Store) (h : (∃ path, a = .release path) ∨
    ∃ path sent error now, a = .finish path sent error now) : l.inOrder store a := by
  unfold Latch.inOrder
  rcases h with ⟨path, rfl⟩ | ⟨path, sent, error, now, rfl⟩ <;> split <;> exact trivial

/-- The delivery of a page. -/
theorem PagedOnce.exchanged (hw : PagedOnce l w₀ w) (hlocks : Locks w') {answer : Exchange}
    {error now : String} {base : State} (hc : w.base.held path = some c)
    (h : step w.base (.finish path (answer = .success) error now) = some base)
    (hbase : w'.base = base)
    (hpages : w'.pages = (if answer = Exchange.success then [generation c.record] else []) ++ w.pages)
    (hrecorded : w'.recorded =
      (if answer = Exchange.success then [generation c.record] else []) ++ w.recorded) :
    PagedOnce l w₀ w' := by
  obtain ⟨c', hc', hactive, -⟩ := step_finish.mp h
  obtain rfl := Option.some.inj (hc.symm.trans hc')
  obtain ⟨hguard, hfollows⟩ := guard_step hw.guard
    (inOrder_of_quiet _ (Or.inr ⟨path, _, error, now, rfl⟩)) (by simp) h
  rw [← hbase] at hguard hfollows
  by_cases hsuccess : answer = .success ∧ generation c.record = l.generation
  · obtain ⟨rfl, hgen⟩ := hsuccess
    obtain ⟨hdurable, hunsent⟩ := guard_claimed hw.guard hc hactive hgen
    have hfirst : w.pages.count l.generation = 0 := by
      rw [List.count_eq_zero]
      exact fun hpaged => hunsent (hw.delivered hpaged hdurable)
    rw [if_pos rfl, hgen] at hpages hrecorded
    have hsent : l.Sent w'.base.store := by
      rw [hbase]
      exact guard_finished hw.guard hc hactive hgen h
    refine ⟨hlocks, hguard, ?_, fun _ _ => hsent, fun _ => Or.inr ?_⟩
    · have hcount : w'.pages.count l.generation = 0 + 1 := by
        rw [hpages, List.singleton_append, List.count_cons_self, hfirst]
      exact Nat.le_of_eq hcount
    · rw [hrecorded]
      exact List.mem_cons_self
  · refine hw.move hlocks hguard hfollows ?_ ?_ ?_
    · rw [hpages, List.count_append]
      split_ifs with hanswer
      · rw [List.count_singleton, if_neg, Nat.zero_add]
        simpa using fun heq => hsuccess ⟨hanswer, heq⟩
      · rw [List.count_nil, Nat.zero_add]
    · intro hold
      rw [hrecorded]
      exact List.mem_append_right _ hold
    · intro hmarked p hp hgen
      obtain ⟨c', hc', rfl⟩ := Option.map_eq_some_iff.mp hp
      obtain rfl := Option.some.inj (hc.symm.trans hc')
      refine absurd ⟨of_decide_eq_true hmarked, ?_⟩ hsuccess
      exact (sameEvent_outcome c _ error now).generation.symm.trans hgen

/-- A latch that is durable was durable before, and a page that was sent stays so with its latch. -/
structure Latch.Kept (l : Latch) (store store' : Store) : Prop where
  durable : l.Durable store' → l.Durable store
  sent : l.Sent store → l.Durable store' → l.Sent store'

theorem Follows.kept (h : Follows l s a t) : l.Kept s.store t.store := ⟨h.durable, h.sent⟩

theorem kept_refl (l : Latch) (store : Store) : l.Kept store store := ⟨fun h => h, fun h _ => h⟩

theorem kept_trans {store' store'' : Store} (h : l.Kept store store') (h' : l.Kept store' store'') :
    l.Kept store store'' :=
  ⟨fun hd => h.durable (h'.durable hd), fun hs hd => h'.sent (h.sent hs (h'.durable hd)) hd⟩

/-- A step in order keeps the pages of the latch. -/
theorem PagedOnce.step (hw : PagedOnce l w₀ w) {action : PageAction} (horder : l.pageOrder w action)
    (h : Paging.step w action = some w') :
    PagedOnce l w₀ w' ∧ l.Kept w.base.store w'.base.store := by
  have hlocks := hw.locks.step h
  cases moves_of_step h with
  | idle free unlocked eq =>
      subst eq
      exact ⟨⟨hlocks, hw.guard, hw.once, hw.delivered, hw.recorded⟩, kept_refl l _⟩
  | @claimed id record pid now cancelled base c calls claimable named free base_step held eq =>
      have ho : l.inOrder w.base.store (.claim record pid now) := by
        refine horder _ ?_
        rw [Paging.operation, calls]
      obtain ⟨hguard, hfollows⟩ := guard_step hw.guard ho (by simp) base_step
      subst eq
      exact ⟨hw.move hlocks hguard hfollows rfl (fun hold => hold) (fun hmarked => hmarked.elim),
        hfollows.kept⟩
  | @exchanged id path answer now cancelled base c calls held base_step eq =>
      obtain ⟨-, hfollows⟩ := guard_step hw.guard
        (inOrder_of_quiet _ (Or.inr ⟨path, _, _, now, rfl⟩)) (by simp) base_step
      subst eq
      exact ⟨hw.exchanged hlocks held base_step rfl rfl rfl, hfollows.kept⟩
  | @released _ id path base phase lock unlocked base_step eq =>
      obtain ⟨hguard, hfollows⟩ :=
        guard_step hw.guard (inOrder_of_quiet _ (Or.inl ⟨path, rfl⟩)) (by simp) base_step
      subst eq
      exact ⟨hw.move hlocks hguard hfollows rfl (fun hold => hold) (fun hmarked => hmarked.elim),
        hfollows.kept⟩
  | @other o base external base_step eq =>
      have hread : ∀ worker gpu, o ≠ .read worker gpu := by
        rintro worker gpu rfl
        exact absurd external (by simp [Action.external])
      obtain ⟨hguard, hfollows⟩ := guard_step hw.guard (horder o rfl) hread base_step
      subst eq
      refine ⟨hw.move hlocks hguard hfollows rfl (List.mem_append_right _) fun hmarked p hp hgen => ?_,
        hfollows.kept⟩
      cases o with
      | update worker gpu scope expected outcome error now =>
          obtain rfl : outcome = .sent := hmarked
          obtain ⟨r, hr, rfl⟩ := Option.map_eq_some_iff.mp hp
          obtain ⟨-, hexpected, -⟩ := updatedRecord_origin hr
          refine List.mem_append_left _ ?_
          rw [Store.marks, hr, ← hgen]
          exact List.mem_singleton.mpr hexpected
      | finish path sent error now => exact absurd external (by simp [Action.external])
      | _ => exact hmarked.elim

theorem PagedOnce.run (hw : PagedOnce l w₀ w) (hrun : RunWhen Paging.step l.pageOrder w w') :
    PagedOnce l w₀ w' ∧ l.Kept w.base.store w'.base.store := by
  refine hrun.invariant (I := fun u => PagedOnce l w₀ u ∧ l.Kept w.base.store u.base.store) ?_
    ⟨hw, kept_refl l _⟩
  rintro u action u' ⟨hu, hkept⟩ horder h
  obtain ⟨hu', hlast⟩ := hu.step horder h
  exact ⟨hu', kept_trans hkept hlast⟩

/-- A latch as its files hold it before any call. -/
structure Latch.Settled (l : Latch) (w : Paging) : Prop where
  guard : l.Guard w.base
  calls : ∀ id, w.calls id = none
  pages : w.pages = []

theorem PagedOnce.of_settled (h : l.Settled w) : PagedOnce l w w where
  locks := by
    have hnone : ∀ id, w.lock id = none := by
      intro id
      rw [Paging.lock, h.calls id, Option.bind_none]
    refine ⟨fun id path hid => ?_, fun id id' path hid => ?_, fun id path hid => ?_⟩
    · exact absurd ((hnone id).symm.trans hid) (by simp)
    · exact absurd ((hnone id).symm.trans hid) (by simp)
    · exact absurd ((h.calls id).symm.trans hid) (by simp)
  guard := h.guard
  once := by
    rw [h.pages]
    exact Nat.zero_le 1
  delivered hpaged := by
    rw [h.pages] at hpaged
    exact absurd hpaged List.not_mem_nil
  recorded := Or.inl

/-- The call ends without a page because it has found the page delivered. -/
def Paging.deduplicates (w w' : Paging) (id : CallId) (record : Record) : Prop :=
  w.calls id = some (.claiming record) ∧ ∃ path, w'.calls id = some (.releasing path .deduplicated)

/-- A latch that is the first one of empty storage is settled. -/
theorem settled_write {worker : WorkerId} {gpu : Gpu} {fault : Fault} {physicalScope : Bool}
    {eventId now : String} (hgpu : gpu.named = true)
    (h : Paging.step {} (.other (.write worker gpu fault physicalScope eventId now)) = some w) :
    Latch.Settled ⟨gpu, if physicalScope then none else some worker, .event (strip eventId)⟩ w := by
  obtain ⟨base, hbase, rfl⟩ : ∃ base, step {} (.write worker gpu fault physicalScope eventId now) =
      some base ∧ { base := base, recorded := [] } = w := by
    simpa [Paging.step, Action.external, Store.marks, Option.map_eq_some_iff] using h
  refine ⟨?_, fun _ => rfl, rfl⟩
  have hvalid := step_claimsValid (s := {}) (fun path c hc => absurd hc (by simp)) hbase
  obtain ⟨⟨-, hevent, -⟩, rfl⟩ := step_write.mp hbase
  set r := pendingPage (newQuarantineRecord worker gpu fault physicalScope eventId now) with hr
  have hstore : ({} : Store).write worker gpu fault physicalScope eventId now =
      ({} : Store).publish (Store.everywhere worker r) := by
    have hnone : ({} : Store).existingDurableRecord worker gpu = .ok none := by
      unfold Store.existingDurableRecord
      split_ifs
      rfl
    rw [Store.write_eq, Store.writing_ok fault physicalScope eventId now hnone]
    rfl
  have hgen : generation r = .event (strip eventId) :=
    new_generation worker gpu fault physicalScope now hevent
  have hcomplete := new_complete worker gpu fault physicalScope now hevent
  have hphysical : isPhysical r = physicalScope :=
    new_physical worker gpu fault physicalScope eventId now
  obtain ⟨hscoped, hrecord⟩ := deviceScoped_complete hgpu hcomplete
  have hworker : ∀ path e, (({} : Store).publish (Store.everywhere worker r)).workerFiles.get path =
      some e → path = workerLatchPath worker ∧ e = aliasRecord worker r := by
    intro path e he
    rw [Store.workerFiles_publish] at he
    split_ifs at he with hwrites
    · exact ⟨hwrites.2, (Option.some.inj he).symm⟩
    · exact absurd he (by simp)
  have hdevice : ∀ path e, (({} : Store).publish (Store.everywhere worker r)).gpuFiles.get path =
      some e → physicalScope = true ∧ path = deviceLatchPath gpu := by
    intro path e he
    rw [Store.gpuFiles_publish] at he
    split_ifs at he with hwrites
    · refine ⟨?_, ?_⟩
      · rw [← hphysical, ← hscoped]
        exact hwrites.2.1
      · rw [← hrecord]
        exact hwrites.2.2
    · exact absurd he (by simp)
  have hissued : ∀ id, Generation.event (strip eventId) = .event id →
      Generation.event id ∈ [Generation.event (strip eventId)] := by
    intro id hid
    rw [hid]
    exact List.mem_singleton_self _
  cases physicalScope with
  | true =>
      have hdurable : (({} : Store).publish (Store.everywhere worker r)).gpuFiles.get
          (deviceLatchPath gpu) = some r := by
        rw [Store.gpuFiles_publish, if_pos ⟨rfl, hscoped.trans hphysical, congrArg deviceLatchPath
          hrecord.symm⟩]
        rfl
      have hsame : samePhysicalGpu gpu r = true := same_of_deviceScoped (hscoped.trans hphysical) hrecord
      refine (⟨?_, ?_, ?_, hvalid⟩ : PhysicalGuard ⟨gpu, none, .event (strip eventId)⟩ _)
      · exact ⟨rfl, hgpu, hissued, fun i hi => absurd hi (by simp)⟩
      · change PhysicalFiles _ (({} : Store).write worker gpu fault true eventId now)
        rw [hstore]
        constructor
        · intro gpu' e hpath he
          exact absurd (hdevice _ e he).2 hpath
        · intro path e he hegen
          obtain ⟨-, rfl⟩ := hworker path e he
          refine ⟨state_aliasRecord.trans hcomplete.state, ?_, normalizeDeviceRecord gpu r, ?_, ?_⟩
          · refine same_of_deviceScoped ?_ (recordGpu_alias.trans hrecord)
            rw [deviceScoped_alias]
            exact hscoped.trans hphysical
          · rw [Latch.home, hdurable, Option.map_some]
          · rw [(normalizeDevice_of_same hsame).generation, hgen]
        · intro path e he _ _
          obtain ⟨-, rfl⟩ := hworker path e he
          exact recordGpu_alias.trans hrecord
      · exact ⟨fun path c hc => absurd hc (by simp), fun path c hc => absurd hc (by simp)⟩
  | false =>
      refine (⟨?_, ?_, ?_⟩ : WorkerGuard ⟨gpu, some worker, .event (strip eventId)⟩ worker _)
      · exact ⟨rfl, hgpu, hissued, fun i hi => absurd hi (by simp)⟩
      · change WorkerFiles _ worker (({} : Store).write worker gpu fault false eventId now)
        rw [hstore]
        constructor
        · intro e he
          obtain ⟨-, rfl⟩ := hworker _ e he
          exact worker_alias
        · intro path e he
          exact absurd (hdevice path e he).1 (by simp)
        · intro path e he _
          obtain ⟨hpath, rfl⟩ := hworker path e he
          refine ⟨hpath, ?_⟩
          rw [alias_get (by decide) (by decide)]
          exact hcomplete.scope_of_not_physical hphysical
      · exact ⟨fun path c hc => absurd hc (by simp), fun path c hc => absurd hc (by simp)⟩

/-- Only the claim of the call itself ends so, and it has found its latch sent. -/
theorem PagedOnce.deduplicated (hw : PagedOnce l w₀ w) {action : PageAction}
    (horder : l.pageOrder w action) (h : Paging.step w action = some w') {record : Record}
    (hcall : w.deduplicates w' id record) (hgen : generation record = l.generation) :
    l.Sent w.base.store := by
  obtain ⟨hbefore, path, hafter⟩ := hcall
  have hself : ∀ {id'} {phase : CallPhase}, w'.calls = Function.update w.calls id' (some phase) →
      id' = id ∧ phase = .releasing path .deduplicated := by
    intro id' phase heq
    rw [heq] at hafter
    by_cases hid : id = id'
    · rw [hid, Function.update_self, Option.some.injEq] at hafter
      exact ⟨hid.symm, hafter⟩
    · rw [Function.update_of_ne hid, hbefore] at hafter
      exact absurd hafter (by simp)
  cases moves_of_step h with
  | idle free unlocked eq =>
      obtain ⟨-, rfl⟩ := hself (by rw [eq]; rfl)
      exact absurd unlocked (by simp [CallPhase.lock])
  | @claimed id' record' pid now cancelled base c calls claimable named free base_step held eq =>
      obtain ⟨rfl, hphase⟩ := hself (by rw [eq]; rfl)
      rw [calls, Option.some.injEq, CallPhase.claiming.injEq] at hbefore
      subst hbefore
      have ho : l.inOrder w.base.store (.claim record' pid now) := by
        refine horder _ ?_
        rw [Paging.operation, calls]
      unfold Paging.afterClaim at hphase
      split_ifs at hphase with hcancelled hsend hsuperseded
      · exact absurd hphase (by simp)
      · exact absurd hphase (by simp)
      · obtain ⟨hresult, -⟩ := claim_held base_step held
        exact guard_deduplicated hw.guard ho claimable named hresult (by simpa using hsend)
          (by simpa using hsuperseded) hgen
  | exchanged calls held base_step eq =>
      obtain ⟨rfl, -⟩ := hself (by rw [eq]; rfl)
      exact absurd (calls.symm.trans hbefore) (by simp)
  | released lock unlocked base_step eq =>
      obtain ⟨-, rfl⟩ := hself (by rw [eq]; rfl)
      exact absurd unlocked (by simp [CallPhase.lock])
  | other external base_step eq =>
      subst eq
      exact absurd (hbefore.symm.trans hafter) (by simp)

/-- **A latch is paged at most once.** In every run of calls and other processes whose operations on the
latch files are in order, at most one page of the latch is delivered, a call sends only for a durable
latch, a call is deduplicated only after a recorded delivery, and a page that was sent stays so. -/
theorem paged_once (h : l.Settled w₀) (hrun : RunWhen Paging.step l.pageOrder w₀ w) :
    w.pages.count l.generation ≤ 1 ∧
      (∀ id path, w.calls id = some (.sending path) → ∃ c, w.base.held path = some c ∧
        (generation c.record = l.generation → l.Durable w.base.store)) ∧
      (∀ action w' id record, l.pageOrder w action → Paging.step w action = some w' →
        w.deduplicates w' id record → generation record = l.generation →
        l.Sent w.base.store ∧ (l.Sent w₀.base.store ∨ l.generation ∈ w.recorded)) ∧
      ∀ w', RunWhen Paging.step l.pageOrder w w' → l.Sent w.base.store → l.Durable w'.base.store →
        l.Sent w'.base.store := by
  obtain ⟨hw, -⟩ := (PagedOnce.of_settled h).run hrun
  refine ⟨hw.once, fun id path hcall => ?_, fun action w' id record horder hstep hcall hgen => ?_,
    fun w' hlater => (hw.run hlater).2.sent⟩
  · obtain ⟨c, hc, hactive⟩ := hw.locks.active id path hcall
    exact ⟨c, hc, fun hgen => (guard_claimed hw.guard hc hactive hgen).1⟩
  · have hsent := hw.deduplicated horder hstep hcall hgen
    exact ⟨hsent, hw.recorded hsent⟩

/-! ### A delivered page -/

/-- The operation names the GPU of the latch. -/
def Latch.names (l : Latch) (w : Paging) (action : PageAction) : Bool :=
  match w.operation action with
  | none => true
  | some (.claim input _ _) => recordGpu input = l.gpu
  | some _ => false

theorem pageOrder_of_names (howner : l.owner = none) (w : Paging) (action : PageAction)
    (h : l.names w action = true) : l.pageOrder w action := by
  intro o ho
  simp only [Latch.names, ho] at h
  cases o with
  | claim input pid now =>
      simp only [Latch.inOrder, howner]
      exact fun _ _ => of_decide_eq_true h
  | _ => exact absurd h (by simp)

def node21Latch : Latch := ⟨node21, none, .event "a"⟩

def node21Record : Record :=
  pendingPage (newQuarantineRecord "gpu_0" node21 { reason := "illegal access" } true "a" "t0")

def latchedPaging : Paging :=
  (Paging.step {} (.other (.write "gpu_0" node21 { reason := "illegal access" } true "a" "t0"))).getD {}

/-- The page is delivered by one call, and a second call claims the latch. -/
def deliveredPaging : Option Paging :=
  execute (fun w a => if node21Latch.names w a then Paging.step w a else none)
    [.call 0 node21Record .physicalGpu, .acquire 0 "17" "t1" false, .exchange 0 .success "t2" false,
      .release 0, .call 1 node21Record .physicalGpu] latchedPaging

theorem paged_once_delivered : ∃ w, deliveredPaging = some w ∧ w.pages = [.event "a"] ∧
    w.pages.count (.event "a") ≤ 1 ∧
    (∀ action w' id record, node21Latch.pageOrder w action → Paging.step w action = some w' →
      w.deduplicates w' id record → generation record = .event "a" →
      node21Latch.Sent w.base.store ∧
        (node21Latch.Sent latchedPaging.base.store ∨ .event "a" ∈ w.recorded)) := by
  have hpages : deliveredPaging.any fun w => w.pages = [.event "a"] := by decide +kernel
  obtain ⟨w, hw, hpaged⟩ := Option.any_eq_true _ _ |>.mp hpages
  have hsettled : node21Latch.Settled latchedPaging := settled_write (by decide)
    (step_getD (show (Paging.step {} (.other (.write "gpu_0" node21 { reason := "illegal access" } true
      "a" "t0"))).isSome by decide +kernel))
  have hrun : RunWhen Paging.step node21Latch.pageOrder latchedPaging w :=
    execute_run_of_test (pageOrder_of_names rfl) hw
  obtain ⟨honce, -, hdeduplicated, -⟩ := paged_once hsettled hrun
  exact ⟨w, hw, of_decide_eq_true hpaged, honce, hdeduplicated⟩

/-! ### A call that sends for a latch that is gone -/

/-- A page is sent for the exclusion of `gpu_0` on one GPU while a fault on another one, under the lock of
that one, latches the worker anew. -/
def supersededPaging : Option Paging :=
  execute Paging.step
    [.other (.write "gpu_0" node21 { reason := "hang" } false "a" "t0"),
      .call 0 (pendingPage (newQuarantineRecord "gpu_0" node21 { reason := "hang" } false "a" "t0"))
        .workerProcess,
      .acquire 0 "17" "t1" false,
      .other (.write "gpu_0" ⟨"node21", "cuda:1"⟩ { reason := "illegal access" } true "b" "t2")] {}

/-- No latch file holds the generation. -/
def Store.forgets (s : Store) (g : Generation) : Prop :=
  (∀ path r, s.gpuFiles.get path = some r → generation r ≠ g) ∧
    ∀ path r, s.workerFiles.get path = some r → generation r ≠ g

theorem forgets_of_keysWhere {g : Generation}
    (hgpus : store.gpuFiles.keysWhere (fun _ r => generation r = g) = [])
    (hworkers : store.workerFiles.keysWhere (fun _ r => generation r = g) = []) : store.forgets g := by
  refine ⟨fun path r hr hgen => ?_, fun path r hr hgen => ?_⟩
  · exact List.eq_nil_iff_forall_not_mem.mp hgpus path
      ((Dict.mem_keysWhere _).mpr ⟨r, hr, decide_eq_true hgen⟩)
  · exact List.eq_nil_iff_forall_not_mem.mp hworkers path
      ((Dict.mem_keysWhere _).mpr ⟨r, hr, decide_eq_true hgen⟩)

/-- The claim that a call sends for. -/
def Paging.sendingClaim (w : Paging) (id : CallId) : Option Claim :=
  match w.calls id with
  | some (.sending path) => w.base.held path
  | _ => none

/-- A call sends for an exclusion that no latch file holds any more. -/
theorem sends_for_lost_latch : ∃ w c, Run Paging.step {} w ∧ w.sendingClaim 0 = some c ∧
    generation c.record = .event "a" ∧ w.base.store.forgets (.event "a") := by
  have hcheck : supersededPaging.any fun w =>
      ((w.sendingClaim 0).any fun c => generation c.record = .event "a") &&
        (w.base.store.gpuFiles.keysWhere fun _ r => generation r = .event "a") = [] &&
        (w.base.store.workerFiles.keysWhere fun _ r => generation r = .event "a") = [] := by
    decide +kernel
  obtain ⟨w, hw, hall⟩ := Option.any_eq_true _ _ |>.mp hcheck
  simp only [Bool.and_eq_true, decide_eq_true_eq] at hall
  obtain ⟨⟨hsends, hgpus⟩, hworkers⟩ := hall
  obtain ⟨c, hc, hgen⟩ := Option.any_eq_true _ _ |>.mp hsends
  refine ⟨w, c, execute_run (fun _ _ => trivial) hw, hc, of_decide_eq_true hgen, ?_⟩
  exact forgets_of_keysWhere hgpus hworkers

end KernelGym.Quarantine
