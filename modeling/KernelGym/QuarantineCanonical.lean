import KernelGym.QuarantinePublish

/-! Records in canonical form: normalization leaves them as they are, and a Redis hash that holds all of
their fields is read with all of their fields. What a merge answers for a named GPU is canonical. -/

namespace KernelGym.Quarantine

open Library

/-- The two records have the same fields. -/
def Same (r r' : Record) : Prop := ∀ key, r.get key = r'.get key

/-- Normalization for the worker on the GPU changes nothing. -/
structure Canonical (worker : WorkerId) (gpu : Gpu) (r : Record) : Prop where
  state : r.get "state" = some "quarantined"
  manual : r.get "manual_clear_required" = some "true"
  page : (pageState r).isSome
  scope : knownScope r = true
  worker : r.get "worker_id" = some (textOr r "worker_id" worker)
  hostname : r.get "hostname" = some (textOr r "hostname" gpu.hostname)
  device : r.get "device" = some (textOr r "device" gpu.device)

variable {worker : WorkerId} {gpu : Gpu} {r r' : Record} {key : String}

theorem Same.symm (h : Same r r') : Same r' r := fun key => (h key).symm

theorem Same.trans {r'' : Record} (h : Same r r') (h' : Same r' r'') : Same r r'' :=
  fun key => (h key).trans (h' key)

theorem Same.sameEvent (h : Same r r') : SameEvent r r' := fun key _ => h key

theorem Same.text (h : Same r r') (key : String) : text r key = text r' key := by
  rw [Quarantine.text, h key, Quarantine.text]

theorem Same.pageState (h : Same r r') : pageState r = pageState r' := h "page_user_state"

theorem Same.isPhysical (h : Same r r') : isPhysical r = isPhysical r' := by
  rw [Quarantine.isPhysical, h "scope", Quarantine.isPhysical]

theorem contains_of_same (h : Same r r') {x : Record} (hx : x.contains r = true) :
    x.contains r' = true := by
  rw [Dict.contains_iff] at hx ⊢
  exact fun key v hv => hx key v ((h key).trans hv)

theorem sameAlias (h : Same r r') : Same (aliasRecord worker r) (aliasRecord worker r') := by
  intro key
  rw [aliasRecord, aliasRecord, h "worker_id"]
  split_ifs
  · exact h key
  · rw [Dict.get_set, Dict.get_set, Dict.get_setDefault, Dict.get_setDefault, h.text, h, h]

/-! ### Normalization -/

/-- Every field of a normalized record whose scope is known. -/
theorem get_normalize_known (h : knownScope r = true) (key : String) :
    (normalizeReadRecord worker gpu r).get key =
      if key = "device" then some (textOr r "device" gpu.device)
      else if key = "hostname" then some (textOr r "hostname" gpu.hostname)
      else if key = "worker_id" then some (textOr r "worker_id" worker)
      else if key = "page_user_state" then some ((pageState r).getD "pending")
      else if key = "manual_clear_required" then some "true"
      else if key = "state" then some "quarantined"
      else r.get key := by
  have hmarked : knownScope (markPositive r) = true := by
    rw [knownScope, scope_markPositive]
    exact h
  have hfields : ∀ key fallback, key = "worker_id" ∨ key = "hostname" ∨ key = "device" →
      textOr (markPositive r) key fallback = textOr r key fallback := by
    intro key fallback hkey
    have htext : text (markPositive r) key = text r key := by
      rcases hkey with rfl | rfl | rfl <;>
        rw [text, get_markPositive (by decide) (by decide) (by decide), text]
    rw [textOr, htext, textOr]
  have hpage : ((r.set "state" "quarantined").set "manual_clear_required" "true").get
      "page_user_state" = pageState r := by
    rw [Dict.get_set_of_ne _ (by decide), Dict.get_set_of_ne _ (by decide), pageState]
  rw [normalizeReadRecord, fillIdentity, upgradeScope, if_pos hmarked, hfields _ _ (by simp),
    hfields _ _ (by simp), hfields _ _ (by simp), Dict.get_set, Dict.get_set, Dict.get_set,
    markPositive, Dict.get_setDefault, hpage, Dict.get_set, Dict.get_set]

theorem normalize_same (h : Canonical worker gpu r) : Same (normalizeReadRecord worker gpu r) r := by
  intro key
  rw [get_normalize_known h.scope]
  split_ifs with h1 h2 h3 h4 h5 h6
  · rw [h1, h.device]
  · rw [h2, h.hostname]
  · rw [h3, h.worker]
  · obtain ⟨page, hpage⟩ := Option.isSome_iff_exists.mp h.page
    rw [h4, hpage, Option.getD_some]
    exact hpage.symm
  · rw [h5, h.manual]
  · rw [h6, h.state]
  · rfl

theorem Canonical.of_same (h : Canonical worker gpu r) (hsame : Same r r') :
    Canonical worker gpu r' where
  state := (hsame _).symm.trans h.state
  manual := (hsame _).symm.trans h.manual
  page := by
    rw [← hsame.pageState]
    exact h.page
  scope := by
    rw [knownScope, ← hsame.text]
    exact h.scope
  worker := by
    rw [textOr, ← hsame.text, ← textOr, ← hsame]
    exact h.worker
  hostname := by
    rw [textOr, ← hsame.text, ← textOr, ← hsame]
    exact h.hostname
  device := by
    rw [textOr, ← hsame.text, ← textOr, ← hsame]
    exact h.device

/-- A record that was read without a change in its normalization is canonical. -/
theorem canonical_normalize (hgpu : gpu.named = true) (r : Record) :
    Canonical worker gpu (normalizeReadRecord worker gpu r) := by
  obtain ⟨hhost, hdevice⟩ := Gpu.named_iff.mp hgpu
  have hworker : (normalizeReadRecord worker gpu r).get "worker_id" =
      some (textOr r "worker_id" worker) := by
    rw [normalizeReadRecord, fillIdentity, Dict.get_set_of_ne _ (by decide),
      Dict.get_set_of_ne _ (by decide), Dict.get_set_self, textOr, identity_upgradeScope (Or.inl rfl),
      textOr]
  have hmarked : ∀ key value, key = "state" ∧ value = "quarantined" ∨
      key = "manual_clear_required" ∧ value = "true" →
      (normalizeReadRecord worker gpu r).get key = some value := by
    rintro key value (⟨rfl, rfl⟩ | ⟨rfl, rfl⟩) <;>
      rw [normalizeReadRecord, get_fillIdentity (by decide) (by decide) (by decide),
        get_upgradeScope (by decide) (by decide), markPositive, Dict.get_setDefault,
        if_neg (by decide)] <;> simp [Dict.get_set]
  refine
    { state := hmarked _ _ (Or.inl ⟨rfl, rfl⟩)
      manual := hmarked _ _ (Or.inr ⟨rfl, rfl⟩)
      page := ?_
      scope := ?_
      worker := ?_
      hostname := ?_
      device := ?_ }
  · rw [pageState, normalizeReadRecord, get_fillIdentity (by decide) (by decide) (by decide),
      upgradeScope]
    split_ifs
    · rw [markPositive, Dict.get_setDefault, if_pos rfl]
      rfl
    · rw [Dict.get_set_self]
      rfl
  · rw [knownScope, text, scope_normalizeReadRecord]
    by_cases h : text r "scope" = "worker_process" <;> simp [h]
  · rw [textOr_of_get hworker, hworker, textOr]
    split_ifs <;> simp_all
  · rw [textOr_of_get hostname_normalizeReadRecord, hostname_normalizeReadRecord, textOr]
    split_ifs <;> simp_all
  · rw [textOr_of_get device_normalizeReadRecord, device_normalizeReadRecord, textOr]
    split_ifs <;> simp_all

theorem canonical_constrain (h : Canonical worker gpu r) :
    Canonical worker gpu (constrainWorkerRecord gpu r) := by
  unfold constrainWorkerRecord
  split_ifs
  · exact h
  · have hkeep : ∀ key, isPageKey key = false → key ≠ "scope" →
        ((withoutPage (r.set "scope" "worker_process")).set "page_user_state" "not_applicable").get
          key = r.get key := by
      intro key hpage hscope
      rw [Dict.get_set_of_ne _ (pageKey_ne hpage isPageKey_state), get_withoutPage hpage,
        Dict.get_set_of_ne _ hscope]
    refine
      { state := (hkeep _ (by decide) (by decide)).trans h.state
        manual := (hkeep _ (by decide) (by decide)).trans h.manual
        page := by rw [pageState, Dict.get_set_self]; rfl
        scope := ?_
        worker := ?_
        hostname := ?_
        device := ?_ }
    · rw [knownScope, text, Dict.get_set_of_ne _ (by decide), get_withoutPage (by decide),
        Dict.get_set_self]
      decide
    all_goals rw [textOr, text, hkeep _ (by decide) (by decide), ← text, ← textOr]
    · exact h.worker
    · exact h.hostname
    · exact h.device

theorem Canonical.of_sameEvent (h : Canonical worker gpu r) (hsame : SameEvent r' r)
    (hpage : (pageState r').isSome) : Canonical worker gpu r' where
  state := (hsame _ (by decide)).trans h.state
  manual := (hsame _ (by decide)).trans h.manual
  page := hpage
  scope := by
    rw [knownScope, text, hsame _ (by decide)]
    exact h.scope
  worker := by
    rw [textOr, text, hsame _ (by decide)]
    exact h.worker
  hostname := by
    rw [textOr, text, hsame _ (by decide)]
    exact h.hostname
  device := by
    rw [textOr, text, hsame _ (by decide)]
    exact h.device

theorem alias_worker : (aliasRecord worker r).get "worker_id" = some worker := by
  unfold aliasRecord
  split_ifs with h
  · exact h
  · rw [Dict.get_set_self]

theorem alias_of_worker (h : r.get "worker_id" = some worker) : aliasRecord worker r = r := if_pos h

theorem canonical_alias (h : Canonical worker gpu r) : Canonical worker gpu (aliasRecord worker r) where
  state := (alias_get (by decide) (by decide)).trans h.state
  manual := (alias_get (by decide) (by decide)).trans h.manual
  page := by
    rw [pageState, alias_get (by decide) (by decide)]
    exact h.page
  scope := by
    rw [knownScope, text, alias_get (by decide) (by decide)]
    exact h.scope
  worker := by
    rw [textOr_of_get alias_worker, alias_worker, ite_self]
  hostname := by
    rw [textOr, text, alias_get (by decide) (by decide)]
    exact h.hostname
  device := by
    rw [textOr, text, alias_get (by decide) (by decide)]
    exact h.device

theorem isPhysical_alias : isPhysical (aliasRecord worker r) = isPhysical r := by
  rw [isPhysical, alias_get (by decide) (by decide), isPhysical]

theorem pageState_alias : pageState (aliasRecord worker r) = pageState r := alias_get (by decide) (by decide)

/-! ### Hashes that hold a canonical record -/

/-- A copy with all fields of a canonical record is read with all of them. -/
theorem normalize_contains {x : Record} (h : Canonical worker gpu r) (hx : x.contains r = true) :
    (normalizeReadRecord worker gpu x).contains r = true := by
  rw [Dict.contains_iff] at hx ⊢
  have hknown : knownScope x = true := by
    cases hscope : r.get "scope" with
    | none =>
        have hr := h.scope
        simp [knownScope, text, hscope] at hr
    | some scope =>
        have hr := h.scope
        rw [knownScope, text, hscope, Option.getD_some] at hr
        rw [knownScope, text, hx "scope" scope hscope, Option.getD_some]
        exact hr
  have hfield : ∀ key fallback, r.get key = some (textOr r key fallback) →
      textOr x key fallback = textOr r key fallback := by
    intro key fallback hkey
    rw [textOr_of_get (hx key _ hkey), textOr]
    split_ifs <;> simp_all
  intro key v hv
  rw [get_normalize_known hknown]
  split_ifs with h1 h2 h3 h4 h5 h6
  · rw [hfield _ _ h.device, ← h.device, ← h1, hv]
  · rw [hfield _ _ h.hostname, ← h.hostname, ← h2, hv]
  · rw [hfield _ _ h.worker, ← h.worker, ← h3, hv]
  · rw [pageState, ← h4, hx key v hv, Option.getD_some]
  · rw [← hv, h5, h.manual]
  · rw [← hv, h6, h.state]
  · exact hx key v hv

theorem contains_update (x r : Record) : (x.update r).contains r = true := by
  rw [Dict.contains_iff]
  intro key v hv
  rw [Dict.get_update, hv, Option.some_or]

theorem normalizeDevice_same (h : samePhysicalGpu gpu r = true) : Same (normalizeDeviceRecord gpu r) r :=
  get_normalizeDevice h

theorem normalizeDevice_contains {x : Record} (h : samePhysicalGpu gpu r = true)
    (hx : x.contains r = true) : (normalizeDeviceRecord gpu x).contains r = true := by
  have hsame := normalizeDevice_same h
  rw [Dict.contains_iff] at hx ⊢
  intro key v hv
  have hkept := (hsame key).trans hv
  rw [normalizeDeviceRecord, Dict.get_set, Dict.get_set, Dict.get_set] at hkept ⊢
  split_ifs at hkept ⊢
  · exact hkept
  · exact hkept
  · exact hkept
  · exact hx key v hv

theorem isEmpty_of_contains {x : Record} (key : String) (hr : (r.get key).isSome) (hx : x.contains r = true) :
    x.isEmpty = false := by
  obtain ⟨v, hv⟩ := Option.isSome_iff_exists.mp hr
  cases hempty : x.isEmpty with
  | false => rfl
  | true =>
      have hnone := (Dict.isEmpty_iff x).mp hempty key
      rw [(Dict.contains_iff x r).mp hx key v hv] at hnone
      exact absurd hnone (by simp)

theorem fetched_of_contains {x : Record} (h : Canonical worker gpu r) (hx : x.contains r = true) :
    fetched x = some x := by
  rw [fetched, isEmpty_of_contains "state" (by rw [h.state]; rfl) hx]
  rfl

end KernelGym.Quarantine
