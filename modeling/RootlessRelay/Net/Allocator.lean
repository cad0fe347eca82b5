import Mathlib.Data.Finset.Image
import RootlessRelay.Library.NumberText
import RootlessRelay.Net.IPv4Packet
import RootlessRelay.Net.Registry

/-!
# The allocator and its texts

`allocateIP` and `releaseIP` with the strings that they keep: `usedIPs` has
octets, `macToIP` the texts of addresses, and a release finds the octet of a
text again by splitting and parsing it. The pool bounds are whatever `parseInt`
made of the settings, and the hardware addresses any keys. The registry of
addresses is these tables without the texts.

The pool is not assumed to lie within a byte or to leave out the gateway's
octet. Over every pool and every sequence of calls the tables stay consistent,
an allocation takes the lowest octet that is free, and a release gives back
exactly what was leased. The last section relates the two models: the registry,
which the rest of the development uses, makes the same moves as the tables of
texts.
-/

namespace RootlessRelay

open InsertionMap NumberText

/-- `DHCP_START` and `DHCP_END`; a setting that is not a number is compared as
`NaN`, with which every comparison fails. -/
structure DhcpPool where
  dhcpStart : Option Int
  dhcpEnd : Option Int
  deriving DecidableEq, Repr

/-- An octet from `DHCP_START` to `DHCP_END`. The pool is empty if one of the
bounds is no number. -/
def DhcpPool.Has (pool : DhcpPool) (i : Int) : Prop :=
  ∃ first last, pool.dhcpStart = some first ∧ pool.dhcpEnd = some last ∧ first ≤ i ∧ i ≤ last

/-- The tables of the module, by whatever the hardware addresses are written as.
Any type with decidable equality will do. -/
structure Allocator (κ : Type) where
  macToIP : List (κ × List Char) := []
  ipToSession : List (List Char × SessionId) := []
  usedIPs : Finset Int := {2}
  deriving DecidableEq

/-- The address that `allocateIP` writes for an octet, which is not checked to
be one. -/
def poolText (i : Int) : List Char := ['1', '0', '.', '0', '.', '2', '.'] ++ intText i

/-- `parseInt(ip.split(".")[3])`, the octet that `releaseIP` finds in a text. -/
def lastOctet (ip : List Char) : Option Int := (ip.splitOn '.')[3]?.bind parseInt

/-- The loop of `allocateIP` from `i` on: the first octet that is not in use, up
to the last of the pool. -/
def freeFrom (usedIPs : Finset Int) (last i : Int) : Option Int :=
  if i ≤ last then
    if i ∉ usedIPs then some i else freeFrom usedIPs last (i + 1)
  else none
termination_by (last + 1 - i).toNat
decreasing_by omega

namespace Allocator

variable {κ : Type} [DecidableEq κ]

/-- The search of `allocateIP`. No octet is compared with a bound that is not a
number. -/
def freeOctet (t : Allocator κ) (pool : DhcpPool) : Option Int :=
  pool.dhcpStart.bind fun first => pool.dhcpEnd.bind fun last => freeFrom t.usedIPs last first

/-- `allocateIP`: what the call returns or throws, and the tables it leaves. A
call that throws changes none of them. -/
def allocateIP (pool : DhcpPool) (t : Allocator κ) (mac : κ) :
    Except String (List Char) × Allocator κ :=
  match get t.macToIP mac with
  | some ip => (.ok ip, t)
  | none =>
      match t.freeOctet pool with
      | some i =>
          (.ok (poolText i),
            { t with usedIPs := insert i t.usedIPs, macToIP := set t.macToIP mac (poolText i) })
      | none => (.error "No available IPs in pool", t)

/-- `releaseIP`, with the octet found in the text again. What is no number is
deleted from `usedIPs` without effect. -/
def releaseIP (t : Allocator κ) (mac : κ) : Allocator κ :=
  match get t.macToIP mac with
  | none => t
  | some ip =>
      if ip = [] then t
      else
        { usedIPs := match lastOctet ip with
            | some i => t.usedIPs.erase i
            | none => t.usedIPs
          macToIP := delete t.macToIP mac
          ipToSession := delete t.ipToSession ip }

/-- The text of the address that a hardware address holds. -/
def leaseOf (t : Allocator κ) (mac : κ) : Option (List Char) := get t.macToIP mac

/-- What happens to the tables: a call, or a route that is set elsewhere in the
relay. -/
inductive Call (κ : Type)
  | allocate (mac : κ)
  | release (mac : κ)
  | register (ip : List Char) (session : SessionId)

/-- A call that throws leaves what it leaves, and the relay goes on. -/
def call (pool : DhcpPool) (t : Allocator κ) : Call κ → Allocator κ
  | .allocate mac => (t.allocateIP pool mac).2
  | .release mac => t.releaseIP mac
  | .register ip session => { t with ipToSession := set t.ipToSession ip session }

/-- From the tables as the module sets them up, through the calls in their
order. -/
def run (pool : DhcpPool) (calls : List (Call κ)) : Allocator κ := calls.foldl (call pool) {}

/-- Every hardware address has one address and no two the same, the octets in
use are those of the addresses and the gateway's, and the addresses are texts of
pool octets. -/
structure Consistent (pool : DhcpPool) (t : Allocator κ) : Prop where
  keys : (keys t.macToIP).Nodup
  injective : ∀ m m' ip, t.leaseOf m = some ip → t.leaseOf m' = some ip → m = m'
  used : ∀ i, i ∈ t.usedIPs ↔ i = 2 ∨ ∃ m ip, t.leaseOf m = some ip ∧ lastOctet ip = some i
  pool : ∀ m ip, t.leaseOf m = some ip → ∃ i, pool.Has i ∧ i ≠ 2 ∧ ip = poolText i

/-- The lowest octet of the pool that is not in use. There is at most one. -/
structure LowestFree (pool : DhcpPool) (t : Allocator κ) (i : Int) : Prop where
  mem : pool.Has i
  free : i ∉ t.usedIPs
  lowest : ∀ j, pool.Has j → j < i → j ∈ t.usedIPs

/-- What `allocateIP` is to do for a hardware address: nothing twice, the lowest
free octet, and an error only when there is none. -/
structure Allocates (pool : DhcpPool) (t : Allocator κ) (mac : κ) : Prop where
  idempotent : ∀ ip, t.leaseOf mac = some ip → t.allocateIP pool mac = (.ok ip, t)
  lowest : ∀ ip, t.leaseOf mac = none → (t.allocateIP pool mac).1 = .ok ip →
    ∃ i, LowestFree pool t i ∧ ip = poolText i ∧ (t.allocateIP pool mac).2 =
      { t with usedIPs := insert i t.usedIPs, macToIP := set t.macToIP mac ip }
  full : t.leaseOf mac = none →
    ((∃ message, (t.allocateIP pool mac).1 = .error message) ↔ ∀ i, pool.Has i → i ∈ t.usedIPs)
  unchanged : ∀ message, (t.allocateIP pool mac).1 = .error message → (t.allocateIP pool mac).2 = t

/-- What `releaseIP` is to do for a hardware address: free the octet of its
lease, and nothing without one. -/
structure Releases (t : Allocator κ) (mac : κ) : Prop where
  freed : ∀ ip, t.leaseOf mac = some ip → ∃ i, lastOctet ip = some i ∧ i ∈ t.usedIPs ∧
    (t.releaseIP mac).usedIPs = t.usedIPs.erase i
  leases : ∀ m, (t.releaseIP mac).leaseOf m = if m = mac then none else t.leaseOf m
  nothing : t.leaseOf mac = none → t.releaseIP mac = t

theorem lastOctet_poolText (i : Int) : lastOctet (poolText i) = some i := by
  have htext : poolText i = ['.'].intercalate [['1', '0'], ['0'], ['2'], intText i] := by
    simp [poolText]
  have hsplit : (poolText i).splitOn '.' = [['1', '0'], ['0'], ['2'], intText i] := by
    rw [htext]
    refine List.splitOn_intercalate '.' ?_ (by simp)
    simp only [List.forall_mem_cons]
    exact ⟨by decide, by decide, by decide, dot_not_mem_intText i, by simp⟩
  unfold lastOctet
  rw [hsplit]
  exact parseInt_intText i

theorem poolText_ne_nil (i : Int) : poolText i ≠ [] := List.cons_ne_nil _ _

theorem freeFrom_eq_some {usedIPs : Finset Int} {last i found : Int}
    (h : freeFrom usedIPs last i = some found) :
    i ≤ found ∧ found ≤ last ∧ found ∉ usedIPs ∧ ∀ j, i ≤ j → j < found → j ∈ usedIPs := by
  fun_induction freeFrom usedIPs last i with
  | case1 i hle hfree =>
      obtain rfl := Option.some.inj h
      exact ⟨Int.le_refl _, hle, hfree, fun j hj hlt => by omega⟩
  | case2 i hle hused ih =>
      obtain ⟨hlow, hhigh, hnot, hbefore⟩ := ih h
      refine ⟨by omega, hhigh, hnot, fun j hj hlt => ?_⟩
      by_cases hji : j = i
      · exact hji ▸ not_not.mp hused
      · exact hbefore j (by omega) hlt
  | case3 i hgt => cases h

theorem freeFrom_eq_none {usedIPs : Finset Int} {last i : Int}
    (h : freeFrom usedIPs last i = none) : ∀ j, i ≤ j → j ≤ last → j ∈ usedIPs := by
  fun_induction freeFrom usedIPs last i with
  | case1 i hle hfree => cases h
  | case2 i hle hused ih =>
      intro j hj hlast
      by_cases hji : j = i
      · exact hji ▸ not_not.mp hused
      · exact ih h j (by omega) hlast
  | case3 i hgt =>
      intro j hj hlast
      omega

variable {pool : DhcpPool} {t : Allocator κ} {mac : κ}

omit [DecidableEq κ] in
theorem freeOctet_eq_some {i : Int} (h : t.freeOctet pool = some i) : LowestFree pool t i := by
  unfold freeOctet at h
  obtain ⟨first, hfirst, h⟩ := Option.bind_eq_some_iff.mp h
  obtain ⟨last, hlast, h⟩ := Option.bind_eq_some_iff.mp h
  obtain ⟨hlow, hhigh, hnot, hbefore⟩ := freeFrom_eq_some h
  refine ⟨⟨first, last, hfirst, hlast, hlow, hhigh⟩, hnot, ?_⟩
  rintro j ⟨first', last', hfirst', -, hj, -⟩ hlt
  obtain rfl := Option.some.inj (hfirst.symm.trans hfirst')
  exact hbefore j hj hlt

omit [DecidableEq κ] in
theorem freeOctet_eq_none (h : t.freeOctet pool = none) : ∀ i, pool.Has i → i ∈ t.usedIPs := by
  rintro i ⟨first, last, hfirst, hlast, hlow, hhigh⟩
  unfold freeOctet at h
  rw [hfirst, Option.bind_some, hlast, Option.bind_some] at h
  exact freeFrom_eq_none h i hlow hhigh

/-- What `allocateIP` can do: one of three things, which the lemmas below take
up in turn. -/
theorem allocateIP_cases (pool : DhcpPool) (t : Allocator κ) (mac : κ) :
    (∃ ip, t.leaseOf mac = some ip ∧ t.allocateIP pool mac = (.ok ip, t)) ∨
    (∃ i, t.leaseOf mac = none ∧ LowestFree pool t i ∧ t.allocateIP pool mac = (.ok (poolText i),
      { t with usedIPs := insert i t.usedIPs, macToIP := set t.macToIP mac (poolText i) })) ∨
    (t.leaseOf mac = none ∧ (∀ i, pool.Has i → i ∈ t.usedIPs) ∧
      t.allocateIP pool mac = (.error "No available IPs in pool", t)) := by
  unfold allocateIP leaseOf
  cases hlease : get t.macToIP mac with
  | some ip => exact .inl ⟨ip, rfl, rfl⟩
  | none =>
      cases hfree : t.freeOctet pool with
      | some i => exact .inr (.inl ⟨i, rfl, freeOctet_eq_some hfree, rfl⟩)
      | none => exact .inr (.inr ⟨rfl, freeOctet_eq_none hfree, rfl⟩)

/-- What an allocation does: the lease that there is, the lowest free octet, or
an error. -/
theorem allocates (pool : DhcpPool) (t : Allocator κ) (mac : κ) : Allocates pool t mac := by
  obtain ⟨ip, hlease, hcall⟩ | ⟨i, hlease, hlowest, hcall⟩ | ⟨hlease, hfull, hcall⟩ :=
    allocateIP_cases pool t mac
  · refine ⟨fun ip' h => ?_, fun ip' h => ?_, fun h => ?_, fun message h => ?_⟩
    · rw [hlease] at h
      rw [← Option.some.inj h, hcall]
    · rw [hlease] at h
      cases h
    · rw [hlease] at h
      cases h
    · rw [hcall]
  · refine ⟨fun ip' h => ?_, fun ip' _ h => ?_, fun _ => ?_, fun message h => ?_⟩
    · rw [hlease] at h
      cases h
    · rw [hcall] at h ⊢
      obtain rfl := Except.ok.inj h
      exact ⟨i, hlowest, rfl, rfl⟩
    · rw [hcall]
      refine iff_of_false ?_ fun hall => hlowest.free (hall i hlowest.mem)
      rintro ⟨message, h⟩
      cases h
    · rw [hcall] at h
      cases h
  · refine ⟨fun ip' h => ?_, fun ip' _ h => ?_, fun _ => ?_, fun message h => ?_⟩
    · rw [hlease] at h
      cases h
    · rw [hcall] at h
      cases h
    · rw [hcall]
      exact iff_of_true ⟨_, rfl⟩ hfull
    · rw [hcall]

theorem releaseIP_of_none (h : t.leaseOf mac = none) : t.releaseIP mac = t := by
  unfold releaseIP
  rw [leaseOf] at h
  rw [h]

/-- A release of an address finds its octet, since the text was written from it. -/
theorem releaseIP_of_some {i : Int} (h : t.leaseOf mac = some (poolText i)) :
    t.releaseIP mac = {
      usedIPs := t.usedIPs.erase i
      macToIP := delete t.macToIP mac
      ipToSession := delete t.ipToSession (poolText i) } := by
  unfold releaseIP
  rw [leaseOf] at h
  rw [h]
  dsimp only
  rw [if_neg (poolText_ne_nil i), lastOctet_poolText]

/-- What a release does: the octet of the lease is free again, and no other one. -/
theorem releases (h : t.Consistent pool) (mac : κ) : Releases t mac := by
  cases hlease : t.leaseOf mac with
  | none =>
      refine ⟨fun ip h => ?_, fun m => ?_, fun _ => releaseIP_of_none hlease⟩
      · rw [hlease] at h
        cases h
      · rw [releaseIP_of_none hlease]
        split
        · rename_i hm
          rw [hm, hlease]
        · rfl
  | some ip =>
      obtain ⟨i, -, -, rfl⟩ := h.pool mac ip hlease
      have hrelease := releaseIP_of_some hlease
      refine ⟨fun ip h' => ?_, fun m => ?_, fun h' => ?_⟩
      · rw [hlease] at h'
        obtain rfl := Option.some.inj h'
        have hused := (h.used i).mpr (.inr ⟨mac, _, hlease, lastOctet_poolText i⟩)
        exact ⟨i, lastOctet_poolText i, hused, by rw [hrelease]⟩
      · rw [hrelease]
        unfold leaseOf
        rw [get_delete]
        simp only [eq_comm]
      · rw [hlease] at h'
        cases h'

theorem leaseOf_set (t : Allocator κ) (mac m : κ) (usedIPs : Finset Int) (ip : List Char) :
    leaseOf { t with usedIPs := usedIPs, macToIP := set t.macToIP mac ip } m =
      if mac = m then some ip else t.leaseOf m := get_set _ _ _ _

/-- A lease of the lowest free octet keeps the two tables in agreement. -/
theorem Consistent.lease (h : t.Consistent pool) {i : Int} (hmac : t.leaseOf mac = none)
    (hlowest : LowestFree pool t i) :
    Consistent pool { t with
      usedIPs := insert i t.usedIPs, macToIP := set t.macToIP mac (poolText i) } := by
  have hfresh : ∀ m, t.leaseOf m ≠ some (poolText i) := fun m hm =>
    hlowest.free ((h.used i).mpr (.inr ⟨m, _, hm, lastOctet_poolText i⟩))
  have hkey : mac ∉ InsertionMap.keys t.macToIP := get_eq_none_iff.mp hmac
  constructor
  · rw [set_of_fresh hkey]
    exact keys_append_nodup h.keys hkey
  · intro m m' ip hm hm'
    rw [leaseOf_set] at hm hm'
    split at hm <;> split at hm'
    · rename_i h₁ h₂
      exact h₁.symm.trans h₂
    · rw [← hm] at hm'
      exact absurd hm' (hfresh m')
    · rw [← hm'] at hm
      exact absurd hm (hfresh m)
    · exact h.injective m m' ip hm hm'
  · intro j
    rw [Finset.mem_insert, h.used]
    simp only [leaseOf_set]
    constructor
    · rintro (rfl | rfl | ⟨m, ip, hm, hoctet⟩)
      · exact .inr ⟨mac, _, if_pos rfl, lastOctet_poolText j⟩
      · exact .inl rfl
      · have hne : mac ≠ m := by
          rintro rfl
          rw [hmac] at hm
          cases hm
        exact .inr ⟨m, ip, by rw [if_neg hne, hm], hoctet⟩
    · rintro (rfl | ⟨m, ip, hm, hoctet⟩)
      · exact .inr (.inl rfl)
      · split at hm
        · rw [← Option.some.inj hm, lastOctet_poolText] at hoctet
          exact .inl (Option.some.inj hoctet).symm
        · exact .inr (.inr ⟨m, ip, hm, hoctet⟩)
  · intro m ip hm
    rw [leaseOf_set] at hm
    split at hm
    · refine ⟨i, hlowest.mem, ?_, (Option.some.inj hm).symm⟩
      rintro rfl
      exact hlowest.free ((h.used 2).mpr (.inl rfl))
    · exact h.pool m ip hm

/-- So does a release. -/
theorem Consistent.release (h : t.Consistent pool) (mac : κ) :
    (t.releaseIP mac).Consistent pool := by
  have hleases := (releases h mac).leases
  cases hlease : t.leaseOf mac with
  | none =>
      rw [releaseIP_of_none hlease]
      exact h
  | some ip =>
      obtain ⟨i, -, htwo, rfl⟩ := h.pool mac ip hlease
      have hkept : ∀ m ip, (t.releaseIP mac).leaseOf m = some ip → m ≠ mac ∧ t.leaseOf m = some ip := by
        intro m ip hm
        rw [hleases] at hm
        split at hm
        · cases hm
        · rename_i hne
          exact ⟨hne, hm⟩
      constructor
      · rw [releaseIP_of_some hlease]
        exact keys_delete_nodup h.keys mac
      · intro m m' ip hm hm'
        exact h.injective m m' ip (hkept m ip hm).2 (hkept m' ip hm').2
      · intro j
        have hused : (t.releaseIP mac).usedIPs = t.usedIPs.erase i := by
          rw [releaseIP_of_some hlease]
        rw [hused, Finset.mem_erase, h.used]
        constructor
        · rintro ⟨hj, rfl | ⟨m, ip, hm, hoctet⟩⟩
          · exact .inl rfl
          · refine .inr ⟨m, ip, ?_, hoctet⟩
            rw [hleases, if_neg, hm]
            rintro rfl
            rw [hlease] at hm
            rw [← Option.some.inj hm, lastOctet_poolText] at hoctet
            exact hj (Option.some.inj hoctet).symm
        · rintro (rfl | ⟨m, ip, hm, hoctet⟩)
          · exact ⟨Ne.symm htwo, .inl rfl⟩
          · obtain ⟨hne, hm⟩ := hkept m ip hm
            refine ⟨?_, .inr ⟨m, ip, hm, hoctet⟩⟩
            rintro rfl
            obtain ⟨k, -, -, rfl⟩ := h.pool m ip hm
            rw [lastOctet_poolText] at hoctet
            obtain rfl := Option.some.inj hoctet
            exact hne (h.injective m mac _ hm hlease)
      · intro m ip hm
        exact h.pool m ip (hkept m ip hm).2

theorem consistent_init (pool : DhcpPool) : Consistent pool ({ } : Allocator κ) where
  keys := List.nodup_nil
  injective := by
    intro m m' ip hm
    cases hm
  used := by
    intro i
    simp [leaseOf]
  pool := by
    intro m ip hm
    cases hm

theorem Consistent.call (h : t.Consistent pool) (c : Call κ) : (t.call pool c).Consistent pool := by
  cases c with
  | allocate mac =>
      change (t.allocateIP pool mac).2.Consistent pool
      obtain ⟨ip, -, hcall⟩ | ⟨i, hlease, hlowest, hcall⟩ | ⟨-, -, hcall⟩ :=
        allocateIP_cases pool t mac
      · rw [hcall]
        exact h
      · rw [hcall]
        exact h.lease hlease hlowest
      · rw [hcall]
        exact h
  | release mac => exact h.release mac
  | register ip session => exact ⟨h.keys, h.injective, h.used, h.pool⟩

theorem run_consistent (pool : DhcpPool) (calls : List (Call κ)) :
    (run pool calls).Consistent pool := by
  induction calls using List.reverseRecOn with
  | nil => exact consistent_init pool
  | append_singleton calls c ih =>
      rw [run, List.foldl_append]
      exact ih.call c

/-- After every sequence of calls the tables are consistent, and every next call
does what it is to do. The pool and the keys are arbitrary. -/
theorem run_allocator (pool : DhcpPool) (calls : List (Call κ)) :
    (run pool calls).Consistent pool ∧ ∀ mac,
      Allocates pool (run pool calls) mac ∧ Releases (run pool calls) mac :=
  ⟨run_consistent pool calls, fun mac =>
    ⟨allocates pool _ mac, releases (run_consistent pool calls) mac⟩⟩

end Allocator

/-- The tables of a registry, written as texts: the relation between the two
models. -/
def Registry.texts (r : Registry) : Allocator MAC where
  macToIP := r.macToIP.map (Prod.map id Address.text)
  ipToSession := r.ipToSession.map (Prod.map Address.text id)
  usedIPs := r.usedIPs.image Int.ofNat

/-- The pool of the settings, whose bounds are numbers. -/
def RelaySettings.pool (cfg : RelaySettings) : DhcpPool :=
  ⟨some cfg.dhcpStart, some cfg.dhcpEnd⟩

theorem Address.splitOn_text (a : Address) :
    a.text.splitOn '.' = [a.a, a.b, a.c, a.d].map (Nat.toDigits 10) := by
  refine List.splitOn_intercalate '.' ?_ (by simp)
  have hdot : ∀ n, '.' ∉ Nat.toDigits 10 n := fun n => dot_not_mem_intText (.ofNat n)
  simp only [List.map_cons, List.map_nil, List.forall_mem_cons]
  exact ⟨hdot _, hdot _, hdot _, hdot _, by simp⟩

theorem lastOctet_text (a : Address) : lastOctet a.text = some (a.d : Int) := by
  unfold lastOctet
  rw [a.splitOn_text]
  exact parseInt_intText (.ofNat a.d)

theorem Address.text_injective : Function.Injective Address.text := by
  intro a a' h
  have hsplit := congrArg (List.splitOn '.') h
  rw [a.splitOn_text, a'.splitOn_text] at hsplit
  have hnumber : ∀ n n', Nat.toDigits 10 n = Nat.toDigits 10 n' → n = n' := fun n n' h =>
    Int.ofNat.inj (@intText_injective (.ofNat n) (.ofNat n') h)
  simp only [List.map_cons, List.map_nil, List.cons.injEq, and_true] at hsplit
  obtain ⟨ha, hb, hc, hd⟩ := hsplit
  cases a
  cases a'
  rw [Address.mk.injEq]
  exact ⟨hnumber _ _ ha, hnumber _ _ hb, hnumber _ _ hc, hnumber _ _ hd⟩

theorem text_poolAddress (n : Nat) : (poolAddress n).text = poolText n := by
  have hten : Nat.toDigits 10 10 = ['1', '0'] := by decide
  have htwo : Nat.toDigits 10 2 = ['2'] := by decide
  simp [Address.text, poolAddress, poolText, intText, hten, htwo]

namespace Registry

variable {cfg : RelaySettings} {r : Registry} {mac : MAC}

theorem leaseOf_texts (r : Registry) (mac : MAC) :
    r.texts.leaseOf mac = (r.leaseOf mac).map Address.text :=
  get_relabel Function.injective_id Address.text r.macToIP mac

theorem mem_usedIPs_texts (r : Registry) (n : Nat) : (n : Int) ∈ r.texts.usedIPs ↔ n ∈ r.usedIPs := by
  change Int.ofNat n ∈ r.usedIPs.image Int.ofNat ↔ _
  rw [Finset.mem_image]
  constructor
  · rintro ⟨n', hn', heq⟩
    rwa [← Int.ofNat.inj heq]
  · exact fun hn => ⟨n, hn, rfl⟩

/-- The two searches find the same octet, or none. -/
theorem freeOctet_texts (cfg : RelaySettings) (r : Registry) :
    r.texts.freeOctet cfg.pool = (r.freeOctet cfg).map Int.ofNat := by
  cases hfree : r.freeOctet cfg with
  | none =>
      cases htexts : r.texts.freeOctet cfg.pool with
      | none => rfl
      | some i =>
          obtain ⟨⟨first, last, hfirst, hlast, hlow, hhigh⟩, hnot, -⟩ :=
            Allocator.freeOctet_eq_some htexts
          obtain rfl := Option.some.inj hfirst
          obtain rfl := Option.some.inj hlast
          obtain ⟨n, rfl⟩ := Int.eq_ofNat_of_zero_le (Int.le_trans (Int.natCast_nonneg _) hlow)
          have hused := freeOctet_eq_none_iff.mp hfree n (by omega) (by omega)
          exact absurd ((mem_usedIPs_texts r n).mpr hused) hnot
  | some n =>
      have hfound := hfree
      rw [freeOctet, List.find?_range'_eq_some] at hfound
      obtain ⟨-, -, hbefore⟩ := hfound
      obtain ⟨hlow, hhigh, hnot⟩ := freeOctet_spec hfree
      have hhas : cfg.pool.Has n :=
        ⟨_, _, rfl, rfl, Int.ofNat_le.mpr hlow, Int.ofNat_le.mpr hhigh⟩
      have hunused : (n : Int) ∉ r.texts.usedIPs := fun h => hnot ((mem_usedIPs_texts r n).mp h)
      cases htexts : r.texts.freeOctet cfg.pool with
      | none => exact absurd (Allocator.freeOctet_eq_none htexts n hhas) hunused
      | some i =>
          obtain ⟨⟨first, last, hfirst, hlast, hlow', hhigh'⟩, hnot', hlowest⟩ :=
            Allocator.freeOctet_eq_some htexts
          obtain rfl := Option.some.inj hfirst
          obtain rfl := Option.some.inj hlast
          obtain ⟨n', rfl⟩ := Int.eq_ofNat_of_zero_le (Int.le_trans (Int.natCast_nonneg _) hlow')
          have hle : n' ≤ n := by
            by_contra hgt
            exact hunused (hlowest n hhas (by omega))
          have hge : n ≤ n' := by
            by_contra hlt
            have hused : n' ∈ r.usedIPs := by simpa using hbefore n' (by omega) (by omega)
            exact hnot' ((mem_usedIPs_texts r n').mpr hused)
          rw [Nat.le_antisymm hle hge]
          rfl

theorem texts_lease (r : Registry) (mac : MAC) (n : Nat) :
    (r.lease mac n).texts = { r.texts with
      usedIPs := insert (n : Int) r.texts.usedIPs
      macToIP := InsertionMap.set r.texts.macToIP mac (poolText n) } := by
  unfold texts lease
  rw [Finset.image_insert, ← text_poolAddress]
  congr 1
  exact (set_relabel Function.injective_id Address.text r.macToIP mac (poolAddress n)).symm

/-- An allocation in the registry is the allocation of the texts, and leaves the
same tables. -/
theorem allocateIP_texts {ip : Address} {r' : Registry} (h : r.allocateIP cfg mac = .ok (ip, r')) :
    r.texts.allocateIP cfg.pool mac = (.ok ip.text, r'.texts) := by
  have hlease := leaseOf_texts r mac
  unfold Allocator.leaseOf at hlease
  obtain ⟨a, hmac, heq⟩ | ⟨hmac, n, hfree, heq⟩ | ⟨-, -, heq⟩ := allocateIP_cases h
  · cases heq
    rw [hmac] at hlease
    unfold Allocator.allocateIP
    rw [hlease]
    rfl
  · cases heq
    rw [hmac] at hlease
    unfold Allocator.allocateIP
    rw [hlease, freeOctet_texts, hfree, texts_lease, text_poolAddress]
    rfl
  · cases heq

/-- Where the registry throws, the texts do, with the same message, and stay as
they are. -/
theorem allocateIP_texts_error {message : String} (h : r.allocateIP cfg mac = .error message) :
    r.texts.allocateIP cfg.pool mac = (.error message, r.texts) := by
  have hlease := leaseOf_texts r mac
  unfold Allocator.leaseOf at hlease
  obtain ⟨a, -, heq⟩ | ⟨-, n, -, heq⟩ | ⟨hmac, hfree, heq⟩ := allocateIP_cases h
  · cases heq
  · cases heq
  · cases heq
    rw [hmac] at hlease
    unfold Allocator.allocateIP
    rw [hlease, freeOctet_texts, hfree]
    rfl

/-- A release from the registry is the release of the texts, found again by
parsing. -/
theorem releaseIP_texts (r : Registry) (mac : MAC) :
    r.texts.releaseIP mac = (r.releaseIP mac).texts := by
  have hlease := leaseOf_texts r mac
  cases hmac : r.leaseOf mac with
  | none =>
      rw [hmac] at hlease
      rw [Allocator.releaseIP_of_none hlease, releaseIP_of_none hmac]
  | some ip =>
      have hne : ip.text ≠ [] := by
        intro hnil
        have hoctet := lastOctet_text ip
        rw [hnil] at hoctet
        cases hoctet
      rw [hmac] at hlease
      unfold Allocator.leaseOf at hlease
      unfold leaseOf at hmac
      unfold Allocator.releaseIP releaseIP
      rw [hlease, hmac]
      dsimp only [Option.map_some]
      rw [if_neg hne, lastOctet_text]
      unfold texts
      congr 1
      · exact delete_relabel Function.injective_id Address.text r.macToIP mac
      · exact delete_relabel Address.text_injective id r.ipToSession ip
      · exact (Finset.image_erase Int.ofNat_injective _ _).symm

end Registry

end RootlessRelay
