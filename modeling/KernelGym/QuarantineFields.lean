import KernelGym.QuarantineRecords

/-! What normalization and constraining do to the fields of a latch record. -/

namespace KernelGym.Quarantine

open Library

variable {worker : WorkerId} {gpu : Gpu} {r : Record} {key : String}

/-! ### Fields of normalized records -/

theorem isPageKey_state : isPageKey "page_user_state" = true := by decide

theorem pageKey_ne (h : isPageKey key = false) {page : String} (hpage : isPageKey page = true) :
    key ≠ page := by
  rintro rfl
  rw [h] at hpage
  exact absurd hpage (by simp)

theorem get_withoutPage (h : isPageKey key = false) : (withoutPage r).get key = r.get key := by
  rw [withoutPage, Dict.get_keep, h]
  rfl

theorem get_markPositive (hstate : key ≠ "state") (hclear : key ≠ "manual_clear_required")
    (hpage : isPageKey key = false) : (markPositive r).get key = r.get key := by
  rw [markPositive, Dict.get_setDefault, if_neg (pageKey_ne hpage isPageKey_state),
    Dict.get_set_of_ne _ hclear, Dict.get_set_of_ne _ hstate]

theorem get_upgradeScope (hscope : key ≠ "scope") (hpage : isPageKey key = false) :
    (upgradeScope r).get key = r.get key := by
  unfold upgradeScope
  split_ifs
  · rfl
  · rw [Dict.get_set_of_ne _ (pageKey_ne hpage isPageKey_state), get_withoutPage hpage,
      Dict.get_set_of_ne _ hscope]

/-- The fields that normalization fills or overwrites. -/
def normalizedKey (key : String) : Bool :=
  ["state", "manual_clear_required", "scope", "worker_id", "hostname", "device"].contains key ||
    isPageKey key

theorem get_fillIdentity (hworker : key ≠ "worker_id") (hhost : key ≠ "hostname")
    (hdevice : key ≠ "device") : (fillIdentity worker gpu r).get key = r.get key := by
  rw [fillIdentity, Dict.get_set_of_ne _ hdevice, Dict.get_set_of_ne _ hhost,
    Dict.get_set_of_ne _ hworker]

/-- Normalization keeps every field that is not about identity, admission or paging. -/
theorem get_normalizeReadRecord (h : normalizedKey key = false) :
    (normalizeReadRecord worker gpu r).get key = r.get key := by
  simp only [normalizedKey, Bool.or_eq_false_iff, List.contains_eq_mem, List.mem_cons,
    List.not_mem_nil, or_false, decide_eq_false_iff_not, not_or] at h
  obtain ⟨⟨hstate, hclear, hscope, hworker, hhost, hdevice⟩, hpage⟩ := h
  rw [normalizeReadRecord, get_fillIdentity hworker hhost hdevice, get_upgradeScope hscope hpage,
    get_markPositive hstate hclear hpage]

theorem scope_markPositive : text (markPositive r) "scope" = text r "scope" := by
  rw [text, get_markPositive (by decide) (by decide) (by decide), text]

theorem scope_upgradeScope : (upgradeScope r).get "scope" =
    some (if text r "scope" = "worker_process" then "worker_process" else "physical_gpu") := by
  unfold upgradeScope
  by_cases hknown : knownScope r = true
  · rw [if_pos hknown]
    have hsome : text r "scope" = "worker_process" ∨ text r "scope" = "physical_gpu" := by
      simpa [knownScope, or_comm] using hknown
    cases hget : r.get "scope" with
    | none =>
        simp [text, hget] at hsome
    | some scope =>
        simp only [text, hget, Option.getD_some] at hsome ⊢
        rcases hsome with rfl | rfl <;> rfl
  · rw [if_neg hknown, Dict.get_set_of_ne _ (by decide), get_withoutPage (by decide),
      Dict.get_set_self, if_neg]
    intro hworker
    exact hknown (by simp [knownScope, hworker])

/-- A normalized record is physical unless it says `worker_process`. -/
theorem scope_normalizeReadRecord : (normalizeReadRecord worker gpu r).get "scope" =
    some (if text r "scope" = "worker_process" then "worker_process" else "physical_gpu") := by
  rw [normalizeReadRecord, get_fillIdentity (by decide) (by decide) (by decide), scope_upgradeScope,
    scope_markPositive]

theorem isPhysical_normalizeReadRecord :
    isPhysical (normalizeReadRecord worker gpu r) = !decide (text r "scope" = "worker_process") := by
  rw [isPhysical, scope_normalizeReadRecord]
  by_cases h : text r "scope" = "worker_process" <;> simp [h]

theorem identity_upgradeScope (hkey : key = "worker_id" ∨ key = "hostname" ∨ key = "device") :
    text (upgradeScope (markPositive r)) key = text r key := by
  rcases hkey with rfl | rfl | rfl <;>
    rw [text, get_upgradeScope (by decide) (by decide),
      get_markPositive (by decide) (by decide) (by decide), text]

theorem hostname_normalizeReadRecord : (normalizeReadRecord worker gpu r).get "hostname" =
    some (textOr r "hostname" gpu.hostname) := by
  rw [normalizeReadRecord, fillIdentity, Dict.get_set_of_ne _ (by decide), Dict.get_set_self, textOr,
    identity_upgradeScope (Or.inr (Or.inl rfl)), textOr]

theorem device_normalizeReadRecord : (normalizeReadRecord worker gpu r).get "device" =
    some (textOr r "device" gpu.device) := by
  rw [normalizeReadRecord, fillIdentity, Dict.get_set_self, textOr,
    identity_upgradeScope (Or.inr (Or.inr rfl)), textOr]

theorem Gpu.named_iff : gpu.named = true ↔ gpu.hostname ≠ "" ∧ gpu.device ≠ "" := by
  simp [Gpu.named]

/-- The copy under the key of a GPU is read as a physical latch of that GPU. -/
theorem samePhysicalGpu_device (hgpu : gpu.named = true) :
    samePhysicalGpu gpu (normalizeReadRecord worker gpu (normalizeDeviceRecord gpu r)) = true := by
  obtain ⟨hhost, hdevice⟩ := Gpu.named_iff.mp hgpu
  have hscope : text (normalizeDeviceRecord gpu r) "scope" = "physical_gpu" := by
    simp [text, normalizeDeviceRecord, Dict.get_set]
  have hfields : text (normalizeDeviceRecord gpu r) "hostname" = gpu.hostname ∧
      text (normalizeDeviceRecord gpu r) "device" = gpu.device := by
    simp [text, normalizeDeviceRecord, Dict.get_set]
  simp [samePhysicalGpu, isPhysical_normalizeReadRecord, hscope, hgpu, hostname_normalizeReadRecord,
    device_normalizeReadRecord, textOr, hfields, hhost, hdevice]

/-- A copy of a device file is one of the GPU. -/
theorem samePhysicalGpu_normalizeDevice (hgpu : gpu.named = true) :
    samePhysicalGpu gpu (normalizeDeviceRecord gpu r) = true := by
  simp [samePhysicalGpu, isPhysical, normalizeDeviceRecord, Dict.get_set, hgpu]

theorem isPhysical_of_same (h : samePhysicalGpu gpu r = true) : isPhysical r = true := by
  simp only [samePhysicalGpu, Bool.and_eq_true] at h
  exact h.1.1.1

/-- A constrained alias is physical only for its own GPU, and is then unchanged. -/
theorem constrain_of_same (h : samePhysicalGpu gpu r = true) : constrainWorkerRecord gpu r = r := by
  rw [constrainWorkerRecord, if_pos (by simp [h])]

theorem isPhysical_constrain (hgpu : gpu.named = true) :
    isPhysical (constrainWorkerRecord gpu r) = samePhysicalGpu gpu r := by
  cases hsame : samePhysicalGpu gpu r with
  | true => rw [constrain_of_same hsame, isPhysical_of_same hsame]
  | false =>
      rw [constrainWorkerRecord]
      by_cases hphysical : isPhysical r = true
      · rw [if_neg (by simp [hphysical, hgpu, hsame]), isPhysical, Dict.get_set_of_ne _ (by decide),
          get_withoutPage (by decide), Dict.get_set_self]
        decide
      · rw [if_pos (by simp [hphysical])]
        simpa using hphysical

/-- The scope of a merged source that is not physical. -/
theorem scope_constrain (h : isPhysical (constrainWorkerRecord gpu
    (normalizeReadRecord worker gpu r)) = false) :
    (constrainWorkerRecord gpu (normalizeReadRecord worker gpu r)).get "scope" =
      some "worker_process" := by
  unfold constrainWorkerRecord at h ⊢
  split_ifs at h ⊢ with hkeep
  · rw [scope_normalizeReadRecord]
    rw [isPhysical_normalizeReadRecord] at h
    rw [if_pos (by simpa using h)]
  · rw [Dict.get_set_of_ne _ (by decide), get_withoutPage (by decide), Dict.get_set_self]

/-! ### Fields that are not about paging -/

/-- The records differ at most in their page fields. -/
def SameEvent (r r' : Record) : Prop := ∀ key, isPageKey key = false → r.get key = r'.get key

theorem SameEvent.refl (r : Record) : SameEvent r r := fun _ _ => rfl

theorem SameEvent.text {r' : Record} (h : SameEvent r r') {key : String}
    (hkey : isPageKey key = false) : text r key = text r' key := by
  rw [Quarantine.text, h key hkey, Quarantine.text]

theorem SameEvent.generation {r' : Record} (h : SameEvent r r') :
    generation r = generation r' := by
  have htext : ∀ key, isPageKey key = false → Quarantine.text r key = Quarantine.text r' key :=
    fun _ hkey => h.text hkey
  simp only [Quarantine.generation, legacyIdentity, htext "event_id" (by decide),
    htext "created_at" (by decide), htext "scope" (by decide), htext "hostname" (by decide),
    htext "device" (by decide), htext "worker_id" (by decide), htext "fault_class" (by decide),
    htext "reason" (by decide), htext "task_id" (by decide)]

theorem SameEvent.physical {r' : Record} (h : SameEvent r r') : isPhysical r = isPhysical r' := by
  rw [isPhysical, h "scope" (by decide), isPhysical]

theorem SameEvent.samePhysicalGpu {r' : Record} (h : SameEvent r r') :
    samePhysicalGpu gpu r = samePhysicalGpu gpu r' := by
  rw [Quarantine.samePhysicalGpu, h.physical, h "hostname" (by decide), h "device" (by decide),
    Quarantine.samePhysicalGpu]

/-- A record of the GPU has its three fields already. -/
theorem get_normalizeDevice (h : samePhysicalGpu gpu r = true) (key : String) :
    (normalizeDeviceRecord gpu r).get key = r.get key := by
  simp only [samePhysicalGpu, isPhysical, Bool.and_eq_true, decide_eq_true_eq] at h
  obtain ⟨⟨⟨hscope, -⟩, hhost⟩, hdevice⟩ := h
  rw [normalizeDeviceRecord, Dict.get_set, Dict.get_set, Dict.get_set]
  split_ifs with h1 h2 h3
  · rw [h1, hdevice]
  · rw [h2, hhost]
  · rw [h3, hscope]
  · rfl

end KernelGym.Quarantine
