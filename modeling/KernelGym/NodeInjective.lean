import KernelGym.NodeAllocate
import KernelGym.Library.Runs

/-! Node ids are injective and stable in every run in which an id is bound only while no other host has it,
and a host with automatic calls is not bound to a second id. Every call is verified on its own under the
steps of the others, which keep owners and the effective ids of automatic hosts. -/

namespace KernelGym.NodeAllocate

open Library

/-- What a call shares with the others: Redis, and the hosts with an automatic call. -/
structure World where
  redis : Redis
  automatic : List Hostname

/-- Every entry of `names` and `hosts` binds its host, and no two hosts have one id. -/
structure Consistent (r : Redis) : Prop where
  names : ∀ n h, r.primary.names.get n = some h → h ∈ r.owners n
  hosts : ∀ h n, r.primary.hosts.get h = some n → h ∈ r.owners n
  injective : r.Injective

/-- What a step of any call keeps. -/
structure Later (w w' : World) : Prop where
  consistent : Consistent w.redis → Consistent w'.redis
  owners : ∀ n h, h ∈ w.redis.owners n → h ∈ w'.redis.owners n
  automatic : ∀ h ∈ w.automatic, h ∈ w'.automatic
  effective : ∀ h ∈ w.automatic, ∀ n, w.redis.effective h = some n → w'.redis.effective h = some n
  legacy : w'.redis.legacy = w.redis.legacy

theorem Later.refl (w : World) : Later w w :=
  ⟨id, fun _ _ h => h, fun _ h => h, fun _ _ _ h => h, rfl⟩

/-- A call as a program whose surroundings may do whatever `Later` allows. -/
def machine : Machine Ans World World Unit where
  env _ w' := some w'
  exec w c _ := some ((w.redis.exec c).1, { w with redis := (w.redis.exec c).2 })

def rules : Rules World World Command where
  env := Later
  own w c := c.binds w.redis w.automatic = true

/-- The rest of a call, under the steps of the others. -/
abbrev Safe (Q : Response → World → Prop) (p : Handler) (w : World) : Prop := p.Holds machine rules Later Q w

/-- A fact that no step of a call undoes. -/
def Lasting (P : World → Prop) : Prop := ∀ w w', Later w w' → P w → P w'

variable {P P' : World → Prop} {Q : Response → World → Prop} {w : World} {h : Hostname} {n : NodeId}

theorem Lasting.and (hP : Lasting P) (hP' : Lasting P') : Lasting fun w => P w ∧ P' w :=
  fun w w' hlater hw => ⟨hP w w' hlater hw.1, hP' w w' hlater hw.2⟩

theorem lasting_const (p : Prop) : Lasting fun _ => p := fun _ _ _ hp => hp

theorem lasting_consistent : Lasting fun w => Consistent w.redis := fun _ _ hlater => hlater.consistent

theorem lasting_owner : Lasting fun w => h ∈ w.redis.owners n := fun _ _ hlater => hlater.owners n h

theorem lasting_automatic : Lasting fun w => h ∈ w.automatic := fun _ _ hlater => hlater.automatic h

/-- The host has automatic calls, and they have the id. -/
def Bound (h : Hostname) (n : NodeId) (w : World) : Prop :=
  h ∈ w.automatic ∧ w.redis.effective h = some n

theorem lasting_bound : Lasting (Bound h n) :=
  fun _ _ hlater hw => ⟨hlater.automatic h hw.1, hlater.effective h hw.1 n hw.2⟩

/-- The host has automatic calls, and the legacy entry is the one that they find. -/
def Settled (h : Hostname) (w : World) : Prop :=
  h ∈ w.automatic ∧ ∀ n, given (w.redis.legacyHashes.hosts.get h) = some n → w.redis.effective h = some n

theorem lasting_settled : Lasting (Settled h) := by
  intro w w' hlater hw
  refine ⟨hlater.automatic h hw.1, fun n hn => hlater.effective h hw.1 n (hw.2 n ?_)⟩
  rwa [Redis.legacyHashes, hlater.legacy] at hn

theorem Lasting.stable (hP : Lasting P) : Stable machine rules P := by
  intro w w' t hw hlater ht
  obtain rfl := Option.some.inj ht
  exact hP w w' hlater hw

/-! ### Owners and effective ids after a write -/

theorem mem_owners {r : Redis} : h ∈ r.owners n ↔ r.primary.nodes.get n = some h ∨
    r.legacyHashes.names.get n = some h ∨ r.legacyHashes.hosts.get h = some n := by
  simp [Redis.owners, Dict.mem_keysWhere]

theorem owners_hset_nodes {r : Redis} {n' : NodeId} (hfree : ∀ h' ∈ r.owners n, h' = h) {h' : Hostname} :
    h' ∈ (r.exec (.hset .nodes n h)).2.owners n' ↔ h' ∈ r.owners n' ∨ (n' = n ∧ h' = h) := by
  have hset : (r.exec (.hset .nodes n h)).2.primary.nodes = r.primary.nodes.set n h := rfl
  have hlegacy : (r.exec (.hset .nodes n h)).2.legacyHashes = r.legacyHashes := rfl
  rw [mem_owners, mem_owners, hset, hlegacy, Dict.get_set]
  by_cases hn : n' = n
  · subst hn
    rw [if_pos rfl, Option.some.injEq]
    constructor
    · rintro (rfl | hold)
      · exact .inr ⟨rfl, rfl⟩
      · exact .inl (.inr hold)
    · rintro ((hold | hold) | ⟨-, rfl⟩)
      · exact .inl (hfree h' (mem_owners.2 (.inl hold))).symm
      · exact .inr hold
      · exact .inl rfl
  · rw [if_neg hn]
    exact ⟨.inl, fun hor => hor.resolve_right fun hand => hn hand.1⟩

theorem Later.hset_nodes (hbinds : (Command.hset .nodes n h).binds w.redis w.automatic = true) :
    Later w { w with redis := (w.redis.exec (.hset .nodes n h)).2 } := by
  have hfree : ∀ h' ∈ w.redis.owners n, h' = h := by simpa [Command.binds] using hbinds
  have howners : ∀ n' h', h' ∈ w.redis.owners n' → h' ∈ (w.redis.exec (.hset .nodes n h)).2.owners n' :=
    fun n' h' hmem => (owners_hset_nodes hfree).2 (.inl hmem)
  refine ⟨fun hw => ⟨fun n' h' hget => ?_, fun h' n' hget => ?_, fun n' h₁ h₂ hn' h₁mem h₂mem => ?_⟩, howners,
    fun _ hmem => hmem, fun _ _ _ heff => heff, rfl⟩
  · exact howners n' h' (hw.names n' h' hget)
  · exact howners n' h' (hw.hosts h' n' hget)
  · rcases (owners_hset_nodes hfree).1 h₁mem with h₁old | ⟨rfl, rfl⟩ <;>
      rcases (owners_hset_nodes hfree).1 h₂mem with h₂old | ⟨hsame, rfl⟩
    · exact hw.injective n' h₁ h₂ hn' h₁old h₂old
    · subst hsame
      exact hfree h₁ h₁old
    · exact (hfree h₂ h₂old).symm
    · rfl

theorem Later.hset_names (howner : h ∈ w.redis.owners n) :
    Later w { w with redis := (w.redis.exec (.hset .names n h)).2 } := by
  refine ⟨fun hw => ⟨fun n' h' hget => ?_, hw.hosts, hw.injective⟩, fun _ _ hmem => hmem, fun _ hmem => hmem,
    fun _ _ _ heff => heff, rfl⟩
  change (w.redis.primary.names.set n h).get n' = some h' at hget
  change h' ∈ w.redis.owners n'
  rw [Dict.get_set] at hget
  split_ifs at hget with hn
  · obtain rfl := Option.some.inj hget
    rwa [hn]
  · exact hw.names n' h' hget

theorem effective_hset_hosts {r : Redis} (hn : n ≠ "") : (r.exec (.hset .hosts h n)).2.effective h = some n := by
  change (given ((r.primary.hosts.set h n).get h)).or _ = some n
  rw [Dict.get_set_self, given_eq_some.2 ⟨rfl, hn⟩, Option.some_or]

theorem Later.hset_hosts (howner : h ∈ w.redis.owners n) (hn : n ≠ "")
    (hbinds : (Command.hset .hosts h n).binds w.redis w.automatic = true) :
    Later w { w with redis := (w.redis.exec (.hset .hosts h n)).2 } := by
  refine ⟨fun hw => ⟨hw.names, fun h' n' hget => ?_, hw.injective⟩, fun _ _ hmem => hmem, fun _ hmem => hmem,
    fun h' hauto m heff => ?_, rfl⟩
  · change (w.redis.primary.hosts.set h n).get h' = some n' at hget
    change h' ∈ w.redis.owners n'
    rw [Dict.get_set] at hget
    split_ifs at hget with hh
    · obtain rfl := Option.some.inj hget
      rwa [hh]
    · exact hw.hosts h' n' hget
  · by_cases hh : h' = h
    · subst hh
      have hsame : m = n := by simpa [Command.binds, hauto, heff] using hbinds
      rw [hsame]
      exact effective_hset_hosts hn
    · change (given ((w.redis.primary.hosts.set h n).get h')).or _ = some m
      rw [Dict.get_set_of_ne _ hh]
      exact heff

/-! ### One call -/

def World.hset (w : World) (hash : Hash) (field value : String) : World :=
  { w with redis := (w.redis.exec (.hset hash field value)).2 }

theorem Safe.hget {keys : KeyPrefix} {hash : Hash} {field : String} {next : Option String → Handler}
    (hP : Lasting P) (hw : Consistent w.redis) (hp : P w)
    (hnext : ∀ t, Consistent t.redis → P t → Safe Q (next (t.redis.exec (.hget keys hash field)).1) t) :
    Safe Q (.call (.hget keys hash field) next) w := by
  refine Program.Holds.call (lasting_consistent.and hP).stable ⟨hw, hp⟩ ?_
  intro t _ r ⟨ht, hpt⟩ _ hr
  obtain rfl := Option.some.inj hr
  cases keys with
  | primary => exact ⟨Later.refl t, hnext t ht hpt⟩
  | legacy => exact ⟨Later.refl t, hnext t ht hpt⟩

theorem exec_hget_primary {r : Redis} {hash : Hash} {field : String} :
    (r.exec (.hget .primary hash field)).1 = r.primary.get hash field := rfl

/-- The rule of a write: what it establishes, besides that it keeps what the others rely on. -/
theorem Safe.hset {hash : Hash} {field value : String} {next : Handler} (hP : Lasting P)
    (hw : Consistent w.redis) (hp : P w)
    (hwrite : ∀ t, P t → (Command.hset hash field value).binds t.redis t.automatic = true →
      Later t (t.hset hash field value) ∧ P' (t.hset hash field value))
    (hnext : ∀ t, Consistent t.redis → P' t → Safe Q next t) :
    Safe Q (.call (.hset hash field value) fun _ => next) w := by
  refine Program.Holds.call (lasting_consistent.and hP).stable ⟨hw, hp⟩ ?_
  intro t _ r ⟨ht, hpt⟩ hbinds hr
  obtain rfl := Option.some.inj hr
  obtain ⟨hlater, hp'⟩ := hwrite t hpt hbinds
  exact ⟨hlater, hnext _ (hlater.consistent ht) hp'⟩

theorem Safe.hset_nodes {next : Handler} (hP : Lasting P) (hw : Consistent w.redis) (hp : P w)
    (hnext : ∀ t, Consistent t.redis → P t ∧ h ∈ t.redis.owners n → Safe Q next t) :
    Safe Q (.call (.hset .nodes n h) fun _ => next) w := by
  refine Safe.hset hP hw hp (fun t hpt hbinds => ?_) hnext
  have hlater := Later.hset_nodes hbinds
  have hfree : ∀ h' ∈ t.redis.owners n, h' = h := by simpa [Command.binds] using hbinds
  exact ⟨hlater, hP _ _ hlater hpt, (owners_hset_nodes hfree).2 (.inr ⟨rfl, rfl⟩)⟩

theorem Safe.hset_names {next : Handler} (hP : Lasting P) (howner : ∀ t, P t → h ∈ t.redis.owners n)
    (hw : Consistent w.redis) (hp : P w) (hnext : ∀ t, Consistent t.redis → P t → Safe Q next t) :
    Safe Q (.call (.hset .names n h) fun _ => next) w := by
  refine Safe.hset hP hw hp (fun t hpt _ => ?_) hnext
  have hlater := Later.hset_names (howner t hpt)
  exact ⟨hlater, hP _ _ hlater hpt⟩

theorem Safe.hset_hosts {next : Handler} (hP : Lasting P) (howner : ∀ t, P t → h ∈ t.redis.owners n)
    (hn : n ≠ "") (hw : Consistent w.redis) (hp : P w)
    (hnext : ∀ t, Consistent t.redis → P t ∧ (h ∈ t.automatic → Bound h n t) → Safe Q next t) :
    Safe Q (.call (.hset .hosts h n) fun _ => next) w := by
  refine Safe.hset hP hw hp (fun t hpt hbinds => ?_) hnext
  have hlater := Later.hset_hosts (howner t hpt) hn hbinds
  exact ⟨hlater, hP _ _ hlater hpt, fun hauto => ⟨hauto, effective_hset_hosts hn⟩⟩

theorem Safe.incr {next : ℕ → Handler} (hP : Lasting P) (hw : Consistent w.redis) (hp : P w)
    (hnext : ∀ t seq, Consistent t.redis → P t → Safe Q (next seq) t) : Safe Q (.call .incr next) w := by
  refine Program.Holds.call (lasting_consistent.and hP).stable ⟨hw, hp⟩ ?_
  intro t _ r ⟨ht, hpt⟩ _ hr
  obtain rfl := Option.some.inj hr
  have hlater : Later t { t with redis := (t.redis.exec .incr).2 } :=
    ⟨fun ht => ⟨ht.names, ht.hosts, ht.injective⟩, fun _ _ hmem => hmem, fun _ hmem => hmem,
      fun _ _ _ heff => heff, rfl⟩
  exact ⟨hlater, hnext _ _ (hlater.consistent ht) (hP _ _ hlater hpt)⟩

/-- The rule of a lookup, with what a miss of the primary keys tells. -/
theorem Safe.lookup {keysLegacy : Bool} {hash : Hash} {field : String} {next : Option String → Handler}
    {miss : World → Prop} (hP : Lasting P) (hmiss : Lasting miss) (hw : Consistent w.redis) (hp : P w)
    (hmissed : ∀ t, P t → given (t.redis.primary.get hash field) = none → miss t)
    (hprimary : ∀ t v, Consistent t.redis → P t → given (t.redis.primary.get hash field) = some v →
      Safe Q (next (some v)) t)
    (hlegacy : ∀ t v, Consistent t.redis → P t ∧ miss t →
      given (t.redis.legacyHashes.get hash field) = some v → Safe Q (next (some v)) t)
    (hnone : ∀ t, Consistent t.redis → P t ∧ miss t → Safe Q (next none) t) :
    Safe Q (NodeAllocate.lookup keysLegacy hash field next) w := by
  unfold NodeAllocate.lookup
  refine Safe.hget hP hw hp fun t ht hpt => ?_
  rw [exec_hget_primary]
  cases hvalue : given (t.redis.primary.get hash field) with
  | some v => exact hprimary t v ht hpt hvalue
  | none =>
      have hmisst := hmissed t hpt hvalue
      cases keysLegacy with
      | false => exact hnone t ht ⟨hpt, hmisst⟩
      | true =>
          refine Safe.hget (hP.and hmiss) ht ⟨hpt, hmisst⟩ fun u hu hpu => ?_
          change Safe Q (next (given (u.redis.legacyHashes.get hash field))) u
          cases hold : given (u.redis.legacyHashes.get hash field) with
          | some v => exact hlegacy u v hu hpu hold
          | none => exact hnone u hu hpu

theorem Safe.migrate {keysLegacy : Bool} {hash : Hash} {field : String}
    {writes : List (Hash × String × String)} {response : Response} (hP : Lasting P)
    (hw : Consistent w.redis) (hp : P w)
    (hwrites : ∀ t, Consistent t.redis → P t → Safe Q (store writes (.done response)) t)
    (hdone : ∀ t, Consistent t.redis → P t → Safe Q (.done response) t) :
    Safe Q (NodeAllocate.migrate keysLegacy hash field writes response) w := by
  unfold NodeAllocate.migrate
  cases keysLegacy with
  | false => exact hdone w hw hp
  | true =>
      refine Safe.hget hP hw hp fun t ht hpt => ?_
      rw [exec_hget_primary]
      cases given (t.redis.primary.get hash field) with
      | some v => exact hdone t ht hpt
      | none => exact hwrites t ht hpt

/-- What a call has when it returns: it owns its id, which is the name it asked for or the host's one. -/
def Answered (hostname : Hostname) (mode : Option NodeId) : Response → World → Prop
  | .allocated n _, w => Consistent w.redis ∧ (n ≠ "" ∧ hostname ∈ w.redis.owners n) ∧
      match mode with
      | some name => n = name
      | none => Bound hostname n w
  | .refused _ _, _ => True

theorem lasting_answered {mode : Option NodeId} {response : Response} :
    Lasting (Answered h mode response) := by
  cases response with
  | refused statusCode detail => exact lasting_const True
  | allocated n hostname =>
      cases mode with
      | some name =>
          exact lasting_consistent.and (((lasting_const _).and lasting_owner).and (lasting_const _))
      | none => exact lasting_consistent.and (((lasting_const _).and lasting_owner).and lasting_bound)

theorem Safe.answer {mode : Option NodeId} {response : Response} (hanswer : Answered h mode response w) :
    Safe (Answered h mode) (.done response) w :=
  Program.Holds.done lasting_answered.stable hanswer

theorem Safe.refuse {mode : Option NodeId} {statusCode : ℕ} {detail : String} :
    Safe (Answered h mode) (.done (.refused statusCode detail)) w :=
  Safe.answer trivial

theorem safe_named {keysLegacy : Bool} (hn : n ≠ "") (hw : Consistent w.redis) :
    Safe (Answered h (some n)) (allocateNamed keysLegacy h n) w := by
  have howned : ∀ t, Consistent t.redis → h ∈ t.redis.owners n →
      Safe (Answered h (some n)) (.done (.allocated n h)) t :=
    fun t ht howner => Safe.answer ⟨ht, ⟨hn, howner⟩, rfl⟩
  have hfound : ∀ t v, Consistent t.redis → (v = h → h ∈ t.redis.owners n) →
      Safe (Answered h (some n)) (allocateAssigned keysLegacy h n v) t := by
    intro t v ht howner
    unfold allocateAssigned
    split_ifs with hv
    · exact Safe.refuse
    · refine Safe.migrate lasting_owner ht (howner (not_not.1 hv)) (fun t ht howner => ?_) howned
      refine Safe.hset_names lasting_owner (fun _ howner => howner) ht howner fun t ht howner => ?_
      refine Safe.hset_nodes lasting_owner ht howner fun t ht howner => ?_
      refine Safe.hset_hosts lasting_owner (fun _ howner => howner) hn ht howner.1 fun t ht howner => ?_
      exact howned t ht howner.1
  refine Safe.lookup (lasting_const True) (lasting_const True) hw trivial (fun _ _ _ => trivial)
    (fun t v ht _ hvalue => ?_) (fun t v ht _ hvalue => ?_) fun t ht _ => ?_
  · exact hfound t v ht fun hv => ht.names n h (hv ▸ (given_eq_some.1 hvalue).1)
  · exact hfound t v ht fun hv => mem_owners.2 (.inr (.inl (hv ▸ (given_eq_some.1 hvalue).1)))
  · refine Safe.hset_nodes (lasting_const True) ht trivial fun t ht howner => ?_
    refine Safe.hset_names lasting_owner (fun _ howner => howner) ht howner.2 fun t ht howner => ?_
    refine Safe.hset_hosts lasting_owner (fun _ howner => howner) hn ht howner fun t ht howner => ?_
    exact howned t ht howner.1

theorem safe_automatic {keysLegacy : Bool} (hw : Consistent w.redis) (hauto : h ∈ w.automatic) :
    Safe (Answered h none) (allocateAutomatic keysLegacy h) w := by
  have hanswer : ∀ t n, Consistent t.redis → n ≠ "" → h ∈ t.redis.owners n ∧ Bound h n t →
      Safe (Answered h none) (.done (.allocated n h)) t :=
    fun t n ht hn hbound => Safe.answer ⟨ht, ⟨hn, hbound.1⟩, hbound.2⟩
  have hfound : ∀ t n, Consistent t.redis → n ≠ "" → h ∈ t.redis.owners n ∧ Bound h n t →
      Safe (Answered h none) (NodeAllocate.migrate keysLegacy .hosts h [(.hosts, h, n), (.nodes, n, h)]
        (.allocated n h)) t := by
    intro t n ht hn hbound
    have hlasting : Lasting fun w => h ∈ w.redis.owners n ∧ Bound h n w := lasting_owner.and lasting_bound
    refine Safe.migrate hlasting ht hbound (fun t ht hbound => ?_) fun t ht => hanswer t n ht hn
    refine Safe.hset_hosts hlasting (fun _ hbound => hbound.1) hn ht hbound fun t ht hbound => ?_
    refine Safe.hset_nodes hlasting ht hbound.1 fun t ht hbound => ?_
    exact hanswer t n ht hn hbound.1
  refine Safe.lookup (lasting_automatic (h := h)) (lasting_settled (h := h)) hw hauto
    (fun t hauto hnone => ⟨hauto, fun n hn => ?_⟩) (fun t n ht hauto hvalue => ?_)
    (fun t n ht hsettled hvalue => ?_) fun t ht hsettled => ?_
  · change (given (t.redis.primary.hosts.get h)).or _ = some n
    rw [show given (t.redis.primary.hosts.get h) = none from hnone, Option.none_or, hn]
  · obtain ⟨hget, hn⟩ := given_eq_some.1 hvalue
    refine hfound t n ht hn ⟨ht.hosts h n hget, hauto, ?_⟩
    change (given (t.redis.primary.hosts.get h)).or _ = some n
    rw [show given (t.redis.primary.hosts.get h) = some n from hvalue, Option.some_or]
  · obtain ⟨hget, hn⟩ := given_eq_some.1 hvalue
    exact hfound t n ht hn ⟨mem_owners.2 (.inr (.inr hget)), hsettled.1, hsettled.2.2 n hvalue⟩
  · refine Safe.incr lasting_automatic ht hsettled.1 fun t seq ht hauto => ?_
    have hn : "node-" ++ toString seq ≠ "" := by simp [String.append_eq_empty_iff]
    refine Safe.hset_nodes lasting_automatic ht hauto fun t ht howner => ?_
    refine Safe.hset_hosts (lasting_automatic.and lasting_owner) (fun _ howner => howner.2) hn ht howner
      fun t ht hbound => ?_
    exact hanswer t _ ht hn ⟨hbound.1.2, hbound.2 hbound.1.1⟩

theorem safe_request {keysLegacy : Bool} {nodeName : Option String} (hw : Consistent w.redis)
    (hauto : given nodeName = none → h ∈ w.automatic) :
    Safe (Answered h (given nodeName)) (allocateNodeId keysLegacy h nodeName) w := by
  unfold allocateNodeId
  cases hgiven : given nodeName with
  | some name => exact safe_named (given_eq_some.1 hgiven).2 hw
  | none => exact safe_automatic hw (hauto hgiven)

/-! ### All calls -/

def System.world (s : System) : World := ⟨s.redis, s.automatic⟩

def Call.Safe (c : Call) (w : World) : Prop := NodeAllocate.Safe (Answered c.hostname c.mode) c.rest w

/-- Redis is consistent and the rest of every call is safe. -/
structure System.Valid (s : System) : Prop where
  consistent : Consistent s.redis
  calls : ∀ c ∈ s.calls, c.Safe s.world

theorem Call.Safe.later {c : Call} {w' : World} (hc : c.Safe w) (hlater : Later w w') : c.Safe w' :=
  Program.Holds.interfered hc (RunWhen.single (a := w') hlater rfl)

theorem mem_automatic {s : System} {h : Hostname} :
    h ∈ s.automatic ↔ ∃ c ∈ s.calls, c.mode = none ∧ c.hostname = h := by
  simp [System.automatic, and_assoc]

theorem automatic_set {s : System} {id : ℕ} {call : Call} {rest : Handler} {redis : Redis}
    (hcall : s.calls[id]? = some call) (hauto : h ∈ s.automatic) :
    h ∈ (⟨redis, s.calls.set id { call with rest := rest }⟩ : System).automatic := by
  obtain ⟨c, hc, hmode, rfl⟩ := mem_automatic.1 hauto
  obtain ⟨i, hi⟩ := List.mem_iff_getElem?.1 hc
  rw [mem_automatic]
  by_cases hid : id = i
  · subst hid
    obtain rfl := Option.some.inj (hcall.symm.trans hi)
    have hlt : id < s.calls.length := (List.getElem?_eq_some_iff.1 hi).1
    exact ⟨_, List.mem_set hlt _, hmode, rfl⟩
  · refine ⟨c, List.mem_iff_getElem?.2 ⟨i, ?_⟩, hmode, rfl⟩
    rw [List.getElem?_set_ne hid, hi]

/-- A step of one call, when it keeps what the others rely on. -/
theorem System.Valid.set {s : System} {id : ℕ} {call : Call} {rest : Handler} {redis : Redis}
    (hs : s.Valid) (hcall : s.calls[id]? = some call) (hlater : Later s.world ⟨redis, s.automatic⟩)
    (hsafe : Call.Safe { call with rest := rest } ⟨redis, s.automatic⟩) :
    (⟨redis, s.calls.set id { call with rest := rest }⟩ : System).Valid := by
  have hgrown : ∀ w : World, w.redis = redis → w.automatic = s.automatic →
      Later w (⟨redis, s.calls.set id { call with rest := rest }⟩ : System).world := by
    rintro ⟨_, _⟩ rfl rfl
    exact ⟨fun hw => hw, fun _ _ hmem => hmem, fun _ => automatic_set hcall, fun _ _ _ heff => heff, rfl⟩
  refine ⟨hlater.consistent hs.consistent, fun c hc => ?_⟩
  obtain hold | rfl := List.mem_or_eq_of_mem_set hc
  · exact ((hs.calls c hold).later hlater).later (hgrown _ rfl rfl)
  · exact hsafe.later (hgrown _ rfl rfl)

/-- The next command of a call. -/
theorem Call.Safe.step {call : Call} {c : Command} {next : Ans c → Handler} (hsafe : call.Safe w)
    (hrest : call.rest = .call c next) (hbinds : c.binds w.redis w.automatic = true) :
    Later w ⟨(w.redis.exec c).2, w.automatic⟩ ∧
      Call.Safe { call with rest := next (w.redis.exec c).1 } ⟨(w.redis.exec c).2, w.automatic⟩ := by
  rw [Call.Safe, hrest] at hsafe
  exact hsafe w Relation.ReflTransGen.refl hbinds () _ rfl

theorem System.Valid.step {s t : System} {a : Action} (hs : s.Valid) (hbinds : s.binds a = true)
    (h : s.step a = some t) : t.Valid := by
  cases a with
  | request hostname nodeName =>
      obtain rfl := Option.some.inj h
      have hgrown : Later s.world (⟨s.redis, s.calls ++ [⟨hostname, nodeName,
          allocateNodeId s.redis.legacy.isSome hostname nodeName⟩]⟩ : System).world := by
        refine ⟨fun hw => hw, fun _ _ hmem => hmem, fun h hmem => ?_, fun _ _ _ heff => heff, rfl⟩
        obtain ⟨c, hc, hmode⟩ := mem_automatic.1 hmem
        exact mem_automatic.2 ⟨c, List.mem_append_left _ hc, hmode⟩
      refine ⟨hs.consistent, fun c hc => ?_⟩
      rcases List.mem_append.1 hc with hold | hnew
      · exact (hs.calls c hold).later hgrown
      · obtain rfl := List.mem_singleton.1 hnew
        exact safe_request hs.consistent fun hmode => mem_automatic.2 ⟨_, hc, hmode, rfl⟩
  | command id =>
      simp only [System.step, Option.bind_eq_some_iff] at h
      obtain ⟨call, hcall, h⟩ := h
      simp only [System.binds, hcall, Option.all_some] at hbinds
      cases hrest : call.rest with
      | done response => simp [hrest] at h
      | call c next =>
          simp only [hrest, Option.some.injEq] at h hbinds
          subst h
          obtain ⟨hlater, hsafe⟩ := (hs.calls call (List.mem_of_getElem? hcall)).step hrest hbinds
          exact hs.set hcall hlater hsafe
  | fail id applied detail =>
      simp only [System.step, Option.bind_eq_some_iff] at h
      obtain ⟨call, hcall, h⟩ := h
      simp only [System.binds, hcall, Option.all_some] at hbinds
      cases hrest : call.rest with
      | done response => simp [hrest] at h
      | call c next =>
          simp only [hrest, Option.some.injEq] at h hbinds
          subst h
          obtain ⟨hlater, -⟩ := (hs.calls call (List.mem_of_getElem? hcall)).step hrest hbinds
          refine hs.set hcall ?_ Safe.refuse
          cases applied with
          | true => exact hlater
          | false => exact Later.refl _

theorem System.Valid.sound {s : System} (hs : s.Valid) : s.Sound := by
  have hanswered : ∀ c ∈ s.calls, ∀ n, c.answer = some n →
      (n ≠ "" ∧ c.hostname ∈ s.redis.owners n) ∧
        match c.mode with
        | some name => n = name
        | none => Bound c.hostname n s.world := by
    intro c hc n hn
    have hsafe := hs.calls c hc
    unfold Call.answer at hn
    split at hn
    · rename_i nodeId hostname hrest
      obtain rfl := Option.some.inj hn
      rw [Call.Safe, hrest] at hsafe
      exact (Program.Holds.result hsafe).2
    · cases hn
  intro c hc d hd n m hn hm
  obtain ⟨⟨hne, hown⟩, hc⟩ := hanswered c hc n hn
  obtain ⟨⟨-, hown'⟩, hd⟩ := hanswered d hd m hm
  refine ⟨fun hhost hmode => ?_, fun hhost hsame => ?_⟩
  · rw [← hmode, ← hhost] at hd
    cases hcm : c.mode with
    | some name =>
        simp only [hcm] at hc hd
        exact hc.trans hd.symm
    | none =>
        simp only [hcm] at hc hd
        exact Option.some.inj (hc.2.symm.trans hd.2)
  · subst hsame
    exact hhost (hs.consistent.injective n _ _ hne hown hown')

theorem valid_start {legacy : Option Hashes} (hlegacy : (start legacy).redis.Injective) :
    (start legacy).Valid :=
  ⟨⟨fun _ _ h => absurd h (by simp [start]), fun _ _ h => absurd h (by simp [start]), hlegacy⟩,
    fun _ h => absurd h (by simp [start])⟩

/-- **Node ids are stable and injective** in every run that binds an id only while no other host has it, and
does not bind a host with automatic calls to a second id. -/
theorem node_ids_sound {legacy : Option Hashes} {s : System} (hlegacy : (start legacy).redis.Injective)
    (hrun : RunWhen System.step (fun s a => s.binds a = true) (start legacy) s) : s.Sound :=
  (hrun.invariant (fun _ _ _ hs hbinds hstep => hs.step hbinds hstep) (valid_start hlegacy)).sound

/-- A host with an automatic id and one with a name, from an earlier deployment. -/
def earlier : Hashes where
  nodes := ⟨[("node-7", "h1"), ("node2", "h2")]⟩
  hosts := ⟨[("h1", "node-7"), ("h2", "node2")]⟩
  names := ⟨[("node2", "h2")]⟩

/-- The first host asks again while the second one does, and a third one gets a new id. -/
def laterCalls : List Action :=
  [.request "h1" none, .request "h2" (some "node2"), .command 0, .command 1, .command 0, .command 1,
    .command 0, .command 1, .command 0, .command 0, .command 1, .command 1, .command 1, .request "h3" none,
    .command 2, .command 2, .command 2, .command 2, .command 2]

theorem injective_earlier : (start (some earlier)).redis.Injective := by
  have hnames : ∀ n h, earlier.names.get n = some h → n = "node2" ∧ h = "h2" := by
    intro n h hget
    simpa [earlier] using Dict.mem_entries _ hget
  have hhosts : ∀ h n, earlier.hosts.get h = some n → (h = "h1" ∧ n = "node-7") ∨ (h = "h2" ∧ n = "node2") := by
    intro h n hget
    simpa [earlier] using Dict.mem_entries _ hget
  have howner : ∀ n h, h ∈ (start (some earlier)).redis.owners n →
      (n = "node-7" ∧ h = "h1") ∨ (n = "node2" ∧ h = "h2") := by
    intro n h hmem
    rcases mem_owners.1 hmem with hnode | hname | hhost
    · exact absurd hnode (by simp [start])
    · exact .inr (hnames n h hname)
    · exact (hhosts h n hhost).imp (fun hand => ⟨hand.2, hand.1⟩) fun hand => ⟨hand.2, hand.1⟩
  intro n h h' _ hmem hmem'
  rcases howner n h hmem with ⟨rfl, rfl⟩ | ⟨rfl, rfl⟩ <;>
    rcases howner _ h' hmem' with ⟨hn, rfl⟩ | ⟨hn, rfl⟩
  · rfl
  · exact absurd hn (by decide)
  · exact absurd hn (by decide)
  · rfl

theorem node_ids_sound_earlier : ∃ s,
    execute (fun s a => if s.binds a then System.step s a else none) laterCalls (start (some earlier)) = some s ∧
      s.calls.map Call.answer = [some "node-7", some "node2", some "node-1"] ∧ s.Sound := by
  have hcheck : (execute (fun s a => if s.binds a then System.step s a else none) laterCalls
      (start (some earlier))).any
        (fun s => s.calls.map Call.answer = [some "node-7", some "node2", some "node-1"]) := by
    decide +kernel
  obtain ⟨s, hs, hanswers⟩ := Option.any_eq_true _ _ |>.mp hcheck
  exact ⟨s, hs, of_decide_eq_true hanswers,
    node_ids_sound injective_earlier (execute_run_of_test (fun _ _ hbinds => hbinds) hs)⟩

/-- One host gets an automatic id, and another one asks for that id by name. -/
def sharedName : List Action :=
  [.request "h1" none, .command 0, .command 0, .command 0, .command 0, .request "h2" (some "node-1"),
    .command 1, .command 1, .command 1, .command 1]

/-- The id that two hosts get, one after the other and with no legacy mapping. -/
theorem node_id_shared : (start none).redis.Injective ∧
    ∃ s, Run System.step (start none) s ∧ s.calls.map Call.hostname = ["h1", "h2"] ∧
      s.calls.map Call.answer = [some "node-1", some "node-1"] ∧ ¬s.Sound := by
  have hcheck : (execute System.step sharedName (start none)).any fun s =>
      s.calls.map Call.hostname = ["h1", "h2"] ∧
        s.calls.map Call.answer = [some "node-1", some "node-1"] := by
    decide +kernel
  obtain ⟨s, hs, hboth⟩ := Option.any_eq_true _ _ |>.mp hcheck
  obtain ⟨hhosts, hanswers⟩ := of_decide_eq_true hboth
  refine ⟨fun n h _ _ hmem _ => ?_, s, execute_run (fun _ _ => trivial) hs, hhosts, hanswers, fun hsound => ?_⟩
  · exact absurd (mem_owners.1 hmem) (by simp [start, Redis.legacyHashes])
  · obtain ⟨c, _, hcalls, hc, hrest⟩ := List.map_eq_cons_iff.1 hhosts
    obtain ⟨d, _, rfl, hd, -⟩ := List.map_eq_cons_iff.1 hrest
    rw [hcalls] at hanswers
    rw [System.Sound, hcalls] at hsound
    simp only [List.map_cons, List.cons.injEq] at hanswers
    have hne : c.hostname ≠ d.hostname := by
      rw [hc, hd]
      decide
    exact (hsound c (by simp) d (by simp) _ _ hanswers.1 hanswers.2.1).2 hne rfl

end KernelGym.NodeAllocate
