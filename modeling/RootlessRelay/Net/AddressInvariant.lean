import RootlessRelay.Net.Directory

/-!
# What every run keeps of the directory

Whatever the sessions send, the registry's tables agree with one another, a
route names a session that has the address, and addresses come from the pool.
What a run need not keep, that a session's route and lease stay its own, is the
subject of the modules on ownership and conservation.

The invariant is proved for actions of the directory, one lemma for each, and
carried over to the relay by the simulation. Every condition of the later
modules is stated for reachable relays, and `Reachable.wellFormed` is all they
need to know about how these came about.
-/

namespace RootlessRelay

open InsertionMap Transition

namespace Directory

variable {cfg : RelaySettings} {d d' : Directory} {id s : SessionId} {mac m : MAC}
  {ip a : Address} {registry : Registry}

/-- What every run keeps: consistent tables, routes to sessions that have the
address, addresses of the pool, and session names that are not used twice. -/
structure WellFormed (cfg : RelaySettings) (d : Directory) : Prop where
  tables : d.registry.Consistent cfg
  routes : ∀ a s, d.registry.routeOf a = some s → d.vmIP s = some a
  pool : ∀ s a, d.vmIP s = some a → ∃ i, i ≠ 2 ∧ a = poolAddress i
  fresh : ∀ s, d.nextSession ≤ s → d.vmIP s = none
  created : ∀ s ∈ d.activeSessions, s < d.nextSession
  nodup : d.activeSessions.Nodup

/-- Frames and closes come from open sessions. Nothing else is asked of an
action. -/
def enabled (d : Directory) : AddressAction → Prop
  | .frame id _ _ => id ∈ d.activeSessions
  | .close id => id ∈ d.activeSessions
  | _ => True

@[simp] theorem learnFrom_vmIP (d : Directory) (id : SessionId) (srcMAC : Option MAC) :
    (d.learnFrom id srcMAC).vmIP = d.vmIP := by
  cases srcMAC <;> rfl

@[simp] theorem learnFrom_registry (d : Directory) (id : SessionId) (srcMAC : Option MAC) :
    (d.learnFrom id srcMAC).registry = d.registry := by
  cases srcMAC <;> rfl

@[simp] theorem learnFrom_activeSessions (d : Directory) (id : SessionId) (srcMAC : Option MAC) :
    (d.learnFrom id srcMAC).activeSessions = d.activeSessions := by
  cases srcMAC <;> rfl

@[simp] theorem learnFrom_nextSession (d : Directory) (id : SessionId) (srcMAC : Option MAC) :
    (d.learnFrom id srcMAC).nextSession = d.nextSession := by
  cases srcMAC <;> rfl

theorem WellFormed.learnFrom (h : WellFormed cfg d) (id : SessionId) (srcMAC : Option MAC) :
    WellFormed cfg (d.learnFrom id srcMAC) := by
  cases srcMAC with
  | none => exact h
  | some mac => exact ⟨h.tables, h.routes, h.pool, h.fresh, h.created, h.nodup⟩

theorem WellFormed.allocated (h : WellFormed cfg d)
    (halloc : d.registry.allocateIP cfg mac = .ok (ip, registry)) :
    WellFormed cfg { d with registry := registry } := by
  refine ⟨h.tables.allocateIP halloc, ?_, h.pool, h.fresh, h.created, h.nodup⟩
  intro a s hs
  rw [Registry.allocateIP_routeOf halloc] at hs
  exact h.routes a s hs

/-- Assigning a leased address to a session without one keeps the directory well
formed. -/
theorem WellFormed.assign (h : WellFormed cfg d) (hid : id < d.nextSession)
    (hnone : d.vmIP id = none) (hlease : d.registry.leaseOf mac = some ip) :
    WellFormed cfg (d.assign id ip) := by
  refine ⟨h.tables.register hlease id, ?_, ?_, ?_, h.created, h.nodup⟩
  · intro a s hs
    change (d.registry.register ip id).routeOf a = some s at hs
    change Function.update d.vmIP id (some ip) s = some a
    rw [Registry.routeOf_register] at hs
    rw [Function.update_apply]
    split at hs
    · rename_i ha
      rw [if_pos (Option.some.inj hs).symm, ha]
    · have hne : s ≠ id := by
        rintro rfl
        have := h.routes a s hs
        rw [hnone] at this
        cases this
      rw [if_neg hne]
      exact h.routes a s hs
  · intro s a hs
    change Function.update d.vmIP id (some ip) s = some a at hs
    rw [Function.update_apply] at hs
    split at hs
    · obtain ⟨i, -, -, htwo, hip⟩ := h.tables.pool mac ip hlease
      exact ⟨i, htwo, (Option.some.inj hs).symm.trans hip⟩
    · exact h.pool s a hs
  · intro s hs
    change Function.update d.vmIP id (some ip) s = none
    rw [Function.update_apply, if_neg (by rintro rfl; exact absurd hid (not_lt.mpr hs))]
    exact h.fresh s hs

/-- What a frame does after its source is learnt: nothing, an allocation for a
session that has an address already, or an allocation its session takes. -/
theorem apply_frame_cases (cfg : RelaySettings) (d : Directory) (id : SessionId)
    (srcMAC requested : Option MAC) :
    d.apply cfg (.frame id srcMAC requested) = d.learnFrom id srcMAC ∨
    (∃ mac ip registry own, requested = some mac ∧ d.vmIP id = some own ∧
      d.registry.allocateIP cfg mac = .ok (ip, registry) ∧
      d.apply cfg (.frame id srcMAC requested) =
        { d.learnFrom id srcMAC with registry := registry }) ∨
    (∃ mac ip registry, requested = some mac ∧ d.vmIP id = none ∧
      d.registry.allocateIP cfg mac = .ok (ip, registry) ∧
      d.apply cfg (.frame id srcMAC requested) =
        { d.learnFrom id srcMAC with registry := registry }.assign id ip) := by
  have hregistry := learnFrom_registry d id srcMAC
  have hvmIP := learnFrom_vmIP d id srcMAC
  cases requested with
  | none => exact .inl rfl
  | some mac =>
      change (d.learnFrom id srcMAC).request cfg id mac = _ ∨ _
      cases halloc : d.registry.allocateIP cfg mac with
      | error message =>
          rw [← hregistry] at halloc
          exact .inl (request_error halloc)
      | ok outcome =>
          obtain ⟨ip, registry⟩ := outcome
          have halloc' := hregistry.symm ▸ halloc
          cases hip : d.vmIP id with
          | none =>
              exact .inr (.inr ⟨mac, ip, registry, rfl, rfl, halloc,
                request_none halloc' (by rw [hvmIP]; exact hip)⟩)
          | some own =>
              exact .inr (.inl ⟨mac, ip, registry, own, rfl, rfl, halloc,
                request_some halloc' (by rw [hvmIP]; exact hip)⟩)

/-- Closing a session releases one lease and its route at most; everything else
stays as it is. -/
theorem WellFormed.close (h : WellFormed cfg d) (id : SessionId) : WellFormed cfg (d.close id) := by
  have hreleased : ∀ mac, WellFormed cfg { d with registry := d.registry.releaseIP mac } := by
    intro mac
    refine ⟨h.tables.releaseIP mac, ?_, h.pool, h.fresh, h.created, h.nodup⟩
    intro a s hs
    change (d.registry.releaseIP mac).routeOf a = some s at hs
    cases hmac : d.registry.leaseOf mac with
    | none =>
        rw [Registry.releaseIP_of_none hmac] at hs
        exact h.routes a s hs
    | some ip =>
        rw [Registry.routeOf_releaseIP hmac] at hs
        split at hs
        · cases hs
        · exact h.routes a s hs
  have hclosed : ∀ r, WellFormed cfg { d with registry := r } →
      WellFormed cfg { d with
        registry := r, activeSessions := d.activeSessions.filter (· ≠ id) } := by
    intro r hr
    exact ⟨hr.tables, hr.routes, hr.pool, hr.fresh,
      fun s hs => hr.created s (List.mem_filter.mp hs).1, hr.nodup.filter _⟩
  unfold Directory.close
  cases d.vmMAC id with
  | none => exact hclosed _ h
  | some mac => exact hclosed _ (hreleased mac)

/-- A new session has no address yet. -/
theorem WellFormed.connect (h : WellFormed cfg d) : WellFormed cfg d.connect := by
  have hip : ∀ s, d.connect.vmIP s = if s = d.nextSession then none else d.vmIP s :=
    fun s => Function.update_apply _ _ _ _
  have hnone := h.fresh d.nextSession le_rfl
  have hsame : ∀ s, d.connect.vmIP s = d.vmIP s := by
    intro s
    rw [hip]
    split
    · rename_i hs
      rw [hs, hnone]
    · rfl
  refine ⟨h.tables, ?_, ?_, ?_, ?_, ?_⟩
  · intro a s hs
    rw [hsame]
    exact h.routes a s hs
  · intro s a hs
    rw [hsame] at hs
    exact h.pool s a hs
  · intro s hs
    rw [hsame]
    exact h.fresh s (Nat.le_of_succ_le hs)
  · intro s hs
    rcases List.mem_append.mp hs with hold | hnew
    · exact Nat.lt_succ_of_lt (h.created s hold)
    · rw [List.mem_singleton.mp hnew]
      exact Nat.lt_succ_self _
  · refine List.Nodup.append h.nodup (List.nodup_singleton _) ?_
    intro s hold hnew
    rw [List.mem_singleton.mp hnew] at hold
    exact lt_irrefl _ (h.created _ hold)

/-- The step lemma: every action that is enabled keeps the directory well
formed. -/
theorem WellFormed.apply (h : WellFormed cfg d) {action : AddressAction}
    (henabled : d.enabled action) : WellFormed cfg (d.apply cfg action) := by
  cases action with
  | idle => exact h
  | connect => exact h.connect
  | close id => exact h.close id
  | frame id srcMAC requested =>
      have hlearnt := h.learnFrom id srcMAC
      rcases apply_frame_cases cfg d id srcMAC requested with
        heq | ⟨mac, ip, registry, own, -, -, halloc, heq⟩ | ⟨mac, ip, registry, -, hnone, halloc, heq⟩
      · rw [heq]
        exact hlearnt
      · rw [heq]
        exact hlearnt.allocated (by rw [learnFrom_registry]; exact halloc)
      · rw [heq]
        have hallocated := hlearnt.allocated (by rw [learnFrom_registry]; exact halloc)
        refine hallocated.assign ?_ ?_ (Registry.allocateIP_leaseOf halloc)
        · simpa using h.created id henabled
        · simpa using hnone

/-- A session that has an address keeps it, until it closes and after: no action
takes it back. -/
theorem WellFormed.apply_vmIP (h : WellFormed cfg d) (action : AddressAction)
    (hip : d.vmIP s = some a) : (d.apply cfg action).vmIP s = some a := by
  cases action with
  | idle => exact hip
  | close id => exact hip
  | connect =>
      change Function.update d.vmIP d.nextSession none s = some a
      have hne : s ≠ d.nextSession := by
        rintro rfl
        rw [h.fresh _ le_rfl] at hip
        cases hip
      rw [Function.update_apply, if_neg hne]
      exact hip
  | frame id srcMAC requested =>
      rcases apply_frame_cases cfg d id srcMAC requested with
        heq | ⟨_, _, _, _, -, -, -, heq⟩ | ⟨_, ip, registry, -, hnone, -, heq⟩
      · rw [heq, learnFrom_vmIP]
        exact hip
      · rw [heq]
        change (d.learnFrom id srcMAC).vmIP s = some a
        rw [learnFrom_vmIP]
        exact hip
      · rw [heq]
        change Function.update (d.learnFrom id srcMAC).vmIP id (some ip) s = some a
        have hne : s ≠ id := by
          rintro rfl
          rw [hnone] at hip
          cases hip
        rw [Function.update_apply, if_neg hne, learnFrom_vmIP]
        exact hip

end Directory

namespace Relay

variable {cfg : RelaySettings} {c c' : Relay} {event : Event}

variable (cfg) in
theorem enabled_directory (h : c.enabled event) :
    c.directory.enabled (c.addressAction cfg event) := by
  cases event with
  | frame env id data => exact (decide_eq_true_iff (p := id ∈ c.activeSessions)).mp h
  | close id => exact (decide_eq_true_iff (p := id ∈ c.activeSessions)).mp h
  | _ => trivial

theorem wellFormed_init : ({} : Relay).directory.WellFormed cfg where
  tables := Registry.consistent_init
  routes := by intro a s h; cases h
  pool := by intro s a h; cases h
  fresh := fun _ _ => rfl
  created := by intro s h; cases h
  nodup := List.nodup_nil

theorem wellFormed_step (h : c.directory.WellFormed cfg) (hstep : Step cfg c event c') :
    c'.directory.WellFormed cfg := by
  obtain ⟨henabled, rfl⟩ := hstep
  rw [directory_handle]
  exact h.apply (enabled_directory cfg henabled)

theorem Reachable.wellFormed (h : Reachable cfg c) : c.directory.WellFormed cfg := by
  have reach : Reaches (Step cfg) {} c := h
  exact reach.invariant (P := fun c => c.directory.WellFormed cfg)
    (fun _ _ _ => wellFormed_step) wellFormed_init

end Relay

end RootlessRelay
