import Mathlib.Data.Finset.Basic
import RootlessRelay.Library.InsertionMap
import RootlessRelay.Net.Packets

/-!
# The address registry

The three module-level tables of `relay.js`: which hardware address holds which
pool address, which session an address is routed to, and which last octets are
in use. Leases are keyed by hardware address, routes by address. `Consistent`
relates the tables; it is kept by every operation, whatever the callers do.

What the callers do wrong is therefore not in this module. A session that leases
with one hardware address and releases with another leaves all three tables
consistent with each other and an address without an owner, and that is a
statement about runs of the relay.
-/

namespace RootlessRelay

open InsertionMap

/-- The identity of a session object. -/
abbrev SessionId := Nat

/-- `macToIP`, `ipToSession` and `usedIPs`. The octet of the default gateway is
in use from the start. -/
structure Registry where
  macToIP : List (MAC × Address) := []
  ipToSession : List (Address × SessionId) := []
  usedIPs : Finset Nat := {2}
  deriving DecidableEq

/-- The pool address with last octet `i`, as `allocateIP` writes it. -/
def poolAddress (i : Nat) : Address := ⟨10, 0, 2, i⟩

theorem poolAddress_inj {i j : Nat} : poolAddress i = poolAddress j ↔ i = j := by
  simp [poolAddress]

namespace Registry

variable (cfg : RelaySettings)

/-- The search of `allocateIP`: the first octet from `DHCP_START` to `DHCP_END`
not in use. -/
def freeOctet (r : Registry) : Option Nat :=
  (List.range' cfg.dhcpStart (cfg.dhcpEnd + 1 - cfg.dhcpStart)).find? (· ∉ r.usedIPs)

/-- `usedIPs.add(i)` and `macToIP.set(mac, ip)` with the address of octet `i`.
`allocateIP` does both together, so neither is modelled alone. -/
def lease (r : Registry) (mac : MAC) (i : Nat) : Registry :=
  { r with
    usedIPs := insert i r.usedIPs
    macToIP := set r.macToIP mac (poolAddress i) }

/-- `allocateIP`: the address that is leased already, else the first free one,
else an error. -/
def allocateIP (r : Registry) (mac : MAC) : Except String (Address × Registry) :=
  match get r.macToIP mac with
  | some ip => .ok (ip, r)
  | none =>
      match r.freeOctet cfg with
      | none => .error "No available IPs in pool"
      | some i => .ok (poolAddress i, r.lease mac i)

/-- `releaseIP`: the lease, the route and the octet of the address go together;
without a lease nothing happens. -/
def releaseIP (r : Registry) (mac : MAC) : Registry :=
  match get r.macToIP mac with
  | none => r
  | some ip =>
      { macToIP := delete r.macToIP mac
        ipToSession := delete r.ipToSession ip
        usedIPs := r.usedIPs.erase ip.d }

/-- `ipToSession.set(ip, session)`, in place of whatever route there was. -/
def register (r : Registry) (ip : Address) (s : SessionId) : Registry :=
  { r with ipToSession := set r.ipToSession ip s }

/-- The address that a hardware address holds. -/
def leaseOf (r : Registry) (mac : MAC) : Option Address := get r.macToIP mac

/-- The session that an address is routed to. -/
def routeOf (r : Registry) (ip : Address) : Option SessionId := get r.ipToSession ip

variable {cfg} {r r' : Registry} {mac : MAC} {ip : Address}

theorem freeOctet_spec {i : Nat} (h : r.freeOctet cfg = some i) :
    cfg.dhcpStart ≤ i ∧ i ≤ cfg.dhcpEnd ∧ i ∉ r.usedIPs := by
  have hfree : i ∉ r.usedIPs := by simpa using List.find?_some h
  have hmem := List.mem_of_find?_eq_some h
  rw [List.mem_range'_1] at hmem
  exact ⟨hmem.1, by omega, hfree⟩

theorem freeOctet_eq_none_iff :
    r.freeOctet cfg = none ↔ ∀ i, cfg.dhcpStart ≤ i → i ≤ cfg.dhcpEnd → i ∈ r.usedIPs := by
  simp only [freeOctet, List.find?_eq_none, List.mem_range'_1, decide_eq_true_eq, not_not]
  exact ⟨fun h i hlo hhi => h i ⟨hlo, by omega⟩, fun h i hi => h i hi.1 (by omega)⟩

theorem allocateIP_of_lease (h : r.leaseOf mac = some ip) :
    r.allocateIP cfg mac = .ok (ip, r) := by
  rw [leaseOf] at h
  rw [allocateIP, h]

theorem allocateIP_of_free {i : Nat} (h : r.leaseOf mac = none) (hfree : r.freeOctet cfg = some i) :
    r.allocateIP cfg mac = .ok (poolAddress i, r.lease mac i) := by
  rw [leaseOf] at h
  rw [allocateIP, h, hfree]

theorem allocateIP_of_full (h : r.leaseOf mac = none) (hfull : r.freeOctet cfg = none) :
    r.allocateIP cfg mac = .error "No available IPs in pool" := by
  rw [leaseOf] at h
  rw [allocateIP, h, hfull]

/-- What an allocation does: nothing to a lease that exists, else a free octet
is taken, else it fails. -/
theorem allocateIP_cases {outcome : Except String (Address × Registry)}
    (h : r.allocateIP cfg mac = outcome) :
    (∃ ip, r.leaseOf mac = some ip ∧ outcome = .ok (ip, r)) ∨
    (r.leaseOf mac = none ∧ ∃ i, r.freeOctet cfg = some i ∧
      outcome = .ok (poolAddress i, r.lease mac i)) ∨
    (r.leaseOf mac = none ∧ r.freeOctet cfg = none ∧
      outcome = .error "No available IPs in pool") := by
  unfold allocateIP at h
  split at h
  · rename_i ip hlease
    exact .inl ⟨ip, hlease, h.symm⟩
  · rename_i hlease
    split at h
    · rename_i hfull
      exact .inr (.inr ⟨hlease, hfull, h.symm⟩)
    · rename_i i hfree
      exact .inr (.inl ⟨hlease, i, hfree, h.symm⟩)

/-- The tables agree: leases are pairwise distinct pool addresses, the octets in
use are theirs and the gateway's, and only leased addresses are routed. -/
structure Consistent (cfg : RelaySettings) (r : Registry) : Prop where
  injective : ∀ m m' ip, r.leaseOf m = some ip → r.leaseOf m' = some ip → m = m'
  pool : ∀ m ip, r.leaseOf m = some ip →
    ∃ i, cfg.dhcpStart ≤ i ∧ i ≤ cfg.dhcpEnd ∧ i ≠ 2 ∧ ip = poolAddress i
  used : ∀ i, i ∈ r.usedIPs ↔ i = 2 ∨ ∃ m, r.leaseOf m = some (poolAddress i)
  routed : ∀ ip s, r.routeOf ip = some s → ∃ m, r.leaseOf m = some ip

theorem consistent_init : Consistent cfg {} where
  injective := by intro m m' ip h; cases h
  pool := by intro m ip h; cases h
  used := by
    intro i
    simp [leaseOf]
  routed := by intro ip s h; cases h

theorem leaseOf_lease (r : Registry) (mac m : MAC) (i : Nat) :
    (r.lease mac i).leaseOf m = if mac = m then some (poolAddress i) else r.leaseOf m :=
  get_set _ _ _ _

/-- Leasing a free octet keeps the tables in agreement. -/
theorem Consistent.lease (h : Consistent cfg r) {i : Nat} (hmac : r.leaseOf mac = none)
    (hfree : r.freeOctet cfg = some i) :
    Consistent cfg (r.lease mac i) := by
  obtain ⟨hlo, hhi, hunused⟩ := freeOctet_spec hfree
  have hfresh : ∀ m, r.leaseOf m ≠ some (poolAddress i) :=
    fun m hm => hunused ((h.used i).mpr (.inr ⟨m, hm⟩))
  have htwo : i ≠ 2 := fun hi => hunused ((h.used i).mpr (.inl hi))
  refine ⟨?_, ?_, ?_, ?_⟩
  · intro m m' ip hm hm'
    rw [leaseOf_lease] at hm hm'
    split at hm <;> split at hm'
    · rename_i h₁ h₂
      exact h₁.symm.trans h₂
    · rw [← hm] at hm'
      exact absurd hm' (hfresh m')
    · rw [← hm'] at hm
      exact absurd hm (hfresh m)
    · exact h.injective m m' ip hm hm'
  · intro m ip hm
    rw [leaseOf_lease] at hm
    split at hm
    · exact ⟨i, hlo, hhi, htwo, (Option.some.inj hm).symm⟩
    · exact h.pool m ip hm
  · intro j
    change j ∈ insert i r.usedIPs ↔ _
    rw [Finset.mem_insert, h.used]
    simp only [leaseOf_lease]
    constructor
    · rintro (rfl | rfl | ⟨m, hm⟩)
      · exact .inr ⟨mac, if_pos rfl⟩
      · exact .inl rfl
      · have hne : mac ≠ m := by
          rintro rfl
          rw [hmac] at hm
          cases hm
        exact .inr ⟨m, by rw [if_neg hne]; exact hm⟩
    · rintro (rfl | ⟨m, hm⟩)
      · exact .inr (.inl rfl)
      · split at hm
        · exact .inl (poolAddress_inj.mp (Option.some.inj hm)).symm
        · exact .inr (.inr ⟨m, hm⟩)
  · intro ip s hs
    obtain ⟨m, hm⟩ := h.routed ip s hs
    have hne : mac ≠ m := by
      rintro rfl
      rw [hmac] at hm
      cases hm
    exact ⟨m, by rw [leaseOf_lease, if_neg hne]; exact hm⟩

theorem Consistent.allocateIP (h : Consistent cfg r) (halloc : r.allocateIP cfg mac = .ok (ip, r')) :
    Consistent cfg r' := by
  rcases allocateIP_cases halloc with ⟨_, _, heq⟩ | ⟨hmac, i, hfree, heq⟩ | ⟨_, _, heq⟩
  · cases heq
    exact h
  · cases heq
    exact h.lease hmac hfree
  · cases heq

/-- An allocation leaves the hardware address holding the address it returns,
whether it is new or not. -/
theorem allocateIP_leaseOf (halloc : r.allocateIP cfg mac = .ok (ip, r')) :
    r'.leaseOf mac = some ip := by
  rcases allocateIP_cases halloc with ⟨_, hlease, heq⟩ | ⟨_, i, _, heq⟩ | ⟨_, _, heq⟩
  · cases heq
    exact hlease
  · cases heq
    rw [leaseOf_lease, if_pos rfl]
  · cases heq

theorem allocateIP_leaseOf_of_some {m : MAC} {a : Address}
    (halloc : r.allocateIP cfg mac = .ok (ip, r')) (hm : r.leaseOf m = some a) :
    r'.leaseOf m = some a := by
  rcases allocateIP_cases halloc with ⟨_, _, heq⟩ | ⟨hmac, i, _, heq⟩ | ⟨_, _, heq⟩
  · cases heq
    exact hm
  · cases heq
    have hne : mac ≠ m := by
      rintro rfl
      rw [hmac] at hm
      cases hm
    rw [leaseOf_lease, if_neg hne]
    exact hm
  · cases heq

theorem allocateIP_routeOf (halloc : r.allocateIP cfg mac = .ok (ip, r')) (a : Address) :
    r'.routeOf a = r.routeOf a := by
  rcases allocateIP_cases halloc with ⟨_, _, heq⟩ | ⟨_, _, _, heq⟩ | ⟨_, _, heq⟩ <;> cases heq <;> rfl

theorem routeOf_register (r : Registry) (ip a : Address) (s : SessionId) :
    (r.register ip s).routeOf a = if ip = a then some s else r.routeOf a :=
  get_set _ _ _ _

theorem Consistent.register (h : Consistent cfg r) {m : MAC} (hm : r.leaseOf m = some ip)
    (s : SessionId) : Consistent cfg (r.register ip s) := by
  refine ⟨h.injective, h.pool, h.used, ?_⟩
  intro a t ht
  rw [routeOf_register] at ht
  split at ht
  · rename_i ha
    exact ⟨m, ha ▸ hm⟩
  · exact h.routed a t ht

theorem releaseIP_of_none (h : r.leaseOf mac = none) : r.releaseIP mac = r := by
  unfold releaseIP
  rw [leaseOf] at h
  rw [h]

theorem leaseOf_releaseIP (r : Registry) (mac m : MAC) :
    (r.releaseIP mac).leaseOf m = if mac = m then none else r.leaseOf m := by
  unfold releaseIP
  split
  · rename_i hnone
    split
    · rename_i hm
      exact hm ▸ hnone
    · rfl
  · exact get_delete _ _ _

theorem routeOf_releaseIP (h : r.leaseOf mac = some ip) (a : Address) :
    (r.releaseIP mac).routeOf a = if ip = a then none else r.routeOf a := by
  unfold releaseIP
  rw [leaseOf] at h
  rw [h]
  exact get_delete _ _ _

theorem usedIPs_releaseIP (h : r.leaseOf mac = some ip) :
    (r.releaseIP mac).usedIPs = r.usedIPs.erase ip.d := by
  unfold releaseIP
  rw [leaseOf] at h
  rw [h]

/-- Releasing a lease keeps them in agreement; a MAC without a lease changes
nothing. -/
theorem Consistent.releaseIP (h : Consistent cfg r) (mac : MAC) :
    Consistent cfg (r.releaseIP mac) := by
  cases hmac : r.leaseOf mac with
  | none =>
      rw [releaseIP_of_none hmac]
      exact h
  | some ip =>
      obtain ⟨i, -, -, htwo, rfl⟩ := h.pool mac ip hmac
      refine ⟨?_, ?_, ?_, ?_⟩
      · intro m m' a hm hm'
        rw [leaseOf_releaseIP] at hm hm'
        split at hm
        · cases hm
        · split at hm'
          · cases hm'
          · exact h.injective m m' a hm hm'
      · intro m a hm
        rw [leaseOf_releaseIP] at hm
        split at hm
        · cases hm
        · exact h.pool m a hm
      · intro j
        rw [usedIPs_releaseIP hmac, Finset.mem_erase, h.used]
        simp only [leaseOf_releaseIP]
        constructor
        · rintro ⟨hj, rfl | ⟨m, hm⟩⟩
          · exact .inl rfl
          · have hne : mac ≠ m := by
              rintro rfl
              rw [hmac] at hm
              exact hj (poolAddress_inj.mp (Option.some.inj hm)).symm
            exact .inr ⟨m, by rw [if_neg hne]; exact hm⟩
        · rintro (rfl | ⟨m, hm⟩)
          · exact ⟨Ne.symm htwo, .inl rfl⟩
          · split at hm
            · cases hm
            · rename_i hne
              refine ⟨?_, .inr ⟨m, hm⟩⟩
              rintro rfl
              exact hne (h.injective mac m _ hmac hm)
      · intro a s hs
        rw [routeOf_releaseIP hmac] at hs
        split at hs
        · cases hs
        · rename_i hne
          obtain ⟨m, hm⟩ := h.routed a s hs
          have hmne : mac ≠ m := by
            rintro rfl
            rw [hmac] at hm
            exact hne (Option.some.inj hm)
          exact ⟨m, by rw [leaseOf_releaseIP, if_neg hmne]; exact hm⟩

end Registry

end RootlessRelay
