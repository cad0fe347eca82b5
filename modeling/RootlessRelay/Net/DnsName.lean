import Mathlib.Order.Interval.Finset.Nat
import RootlessRelay.Library.Acyclic
import RootlessRelay.Net.Relay

/-!
# The name in a DNS question

`parseDnsQuestionName` reads the name that is logged for a query. Its loop walks over the
labels from an offset on; at a compression pointer the function calls itself on the
offset that the packet names. The model of the relay gives the calls the stack they have
and does not tell a read past the packet from a stack that is used up; here they are told
apart. The function returns, or throws the error of a read, exactly when the pointers,
followed from the first offset on, come to an end before the stack does. Some stack is
high enough exactly when they do not come back to where they have been.
-/

namespace RootlessRelay

/-- What a read of two bytes at `offset` throws in a buffer it does not fit; a
buffer of less than two bytes has a text of its own. -/
def boundsError (offset length : Nat) : String :=
  if length < 2 then "Attempt to access memory outside buffer bounds"
  else "The value of \"offset\" is out of range. It must be >= 0 and <= " ++
    toString (length - 2) ++ ". Received " ++ toString offset

namespace Unbounded

/-- The loop of `parseDnsQuestionName`, with `follow` for its recursive call and
the name read so far. `none` is a call that has not returned. -/
def questionLabels (dnsPacket : Bytes) (follow : Nat → Option (Except String Bytes))
    (currentOffset : Nat) (name : Bytes) : Option (Except String Bytes) :=
  if currentOffset < dnsPacket.length ∧ byteAt dnsPacket currentOffset ≠ 0 then
    let len := byteAt dnsPacket currentOffset
    if len &&& 0xC0 = 0xC0 then
      if dnsPacket.length < currentOffset + 2 then
        some (.error (boundsError currentOffset dnsPacket.length))
      else
        (follow (readUInt16BE dnsPacket currentOffset &&& 0x3FFF)).map (Except.map (name ++ ·))
    else
      let text := (slice dnsPacket (currentOffset + 1) (currentOffset + 1 + len)).map (· &&& 0x7f)
      let next := currentOffset + len + 1
      let dot := if next < dnsPacket.length ∧ byteAt dnsPacket next = 0 then [] else [46]
      questionLabels dnsPacket follow next (name ++ text ++ dot)
  else some (.ok name)
termination_by dnsPacket.length - currentOffset

/-- `parseDnsQuestionName` on a stack with room for `depth` calls inside each
other. One more call throws `Maximum call stack size exceeded`, which nothing up
to `handleUDP` catches: `none` stands for that as well. -/
def parseDnsQuestionName (dnsPacket : Bytes) : Nat → Nat → Option (Except String Bytes)
  | 0, _ => none
  | depth + 1, offset => questionLabels dnsPacket (parseDnsQuestionName dnsPacket depth) offset []

end Unbounded

/-- On a stack with room for `depth` calls, the call returns a name or throws
the error of a read. It does not run out of stack. -/
def NameReturns (depth : Nat) (dnsPacket : Bytes) (offset : Nat) : Prop :=
  ∃ result, Unbounded.parseDnsQuestionName dnsPacket depth offset = some result

/-- The labels from `off` on end in a compression pointer to the given offset.
There is one such offset at most. -/
inductive PointsTo (dnsPacket : Bytes) : Nat → Nat → Prop
  | label {off target : Nat} (inside : off < dnsPacket.length) (more : byteAt dnsPacket off ≠ 0)
      (plain : byteAt dnsPacket off &&& 0xC0 ≠ 0xC0)
      (rest : PointsTo dnsPacket (off + byteAt dnsPacket off + 1) target) :
      PointsTo dnsPacket off target
  | pointer {off : Nat} (inside : off + 2 ≤ dnsPacket.length)
      (marked : byteAt dnsPacket off &&& 0xC0 = 0xC0) :
      PointsTo dnsPacket off (readUInt16BE dnsPacket off &&& 0x3FFF)

variable {dnsPacket : Bytes} {off target : Nat}

namespace PointsTo

theorem unique {target' : Nat} (h : PointsTo dnsPacket off target)
    (h' : PointsTo dnsPacket off target') : target = target' := by
  induction h with
  | label inside more plain rest ih =>
      cases h' with
      | label _ _ _ rest' => exact ih rest'
      | pointer _ marked => exact absurd marked plain
  | pointer inside marked =>
      cases h' with
      | label _ _ plain _ => exact absurd marked plain
      | pointer _ _ => rfl

/-- Pointers have 14 bits, so there are finitely many offsets to lead to,
whatever the size of the packet. -/
theorem target_lt (h : PointsTo dnsPacket off target) : target < 2 ^ 14 := by
  induction h with
  | label _ _ _ _ ih => exact ih
  | pointer _ _ => exact Nat.and_lt_two_pow _ (by decide)

theorem targets_finite (dnsPacket : Bytes) :
    {target | ∃ off, PointsTo dnsPacket off target}.Finite :=
  (Set.finite_Iio (2 ^ 14)).subset fun _ ⟨_, h⟩ => h.target_lt

end PointsTo

section Loop

variable {follow follow' : Nat → Option (Except String Bytes)}

/-- The loop returns when the call it makes returns, if it makes one. It makes
one call at most, and then its own labels are done. -/
theorem Unbounded.questionLabels_returns_iff (off : Nat) (name : Bytes) :
    (∃ result, Unbounded.questionLabels dnsPacket follow off name = some result) ↔
      ∀ target, PointsTo dnsPacket off target → ∃ result, follow target = some result := by
  induction off, name using Unbounded.questionLabels.induct dnsPacket with
  | case1 off name hmore len hmarked hshort =>
      unfold Unbounded.questionLabels
      rw [if_pos hmore, if_pos hmarked, if_pos hshort]
      refine iff_of_true ⟨_, rfl⟩ fun target htarget => ?_
      cases htarget with
      | label _ _ plain _ => exact absurd hmarked plain
      | pointer inside _ => omega
  | case2 off name hmore len hmarked hinside =>
      unfold Unbounded.questionLabels
      rw [if_pos hmore, if_pos hmarked, if_neg hinside]
      have hpoints : PointsTo dnsPacket off (readUInt16BE dnsPacket off &&& 0x3FFF) :=
        .pointer (by omega) hmarked
      constructor
      · rintro ⟨result, hresult⟩ target htarget
        rw [htarget.unique hpoints]
        obtain ⟨rest, hrest, -⟩ := Option.map_eq_some_iff.mp hresult
        exact ⟨rest, hrest⟩
      · intro hcall
        obtain ⟨rest, hrest⟩ := hcall _ hpoints
        exact ⟨rest.map (name ++ ·), Option.map_eq_some_iff.mpr ⟨rest, hrest, rfl⟩⟩
  | case3 off name hmore len hplain text next dot ih =>
      unfold Unbounded.questionLabels
      rw [if_pos hmore, if_neg hplain]
      refine ih.trans (forall_congr' fun target => imp_congr_left ?_)
      constructor
      · exact PointsTo.label hmore.1 hmore.2 hplain
      · intro htarget
        cases htarget with
        | label _ _ _ rest => exact rest
        | pointer _ marked => exact absurd marked hplain
  | case4 off name hend =>
      unfold Unbounded.questionLabels
      rw [if_neg hend]
      refine iff_of_true ⟨_, rfl⟩ fun target htarget => ?_
      cases htarget with
      | label inside more _ _ => exact absurd ⟨inside, more⟩ hend
      | pointer inside marked =>
          refine absurd ⟨by omega, fun hzero => ?_⟩ hend
          rw [hzero] at marked
          cases marked

/-- A function that returns where another one does can be called in its place,
with the same result. -/
theorem Unbounded.questionLabels_mono
    (h : ∀ target result, follow target = some result → follow' target = some result)
    (off : Nat) (name : Bytes) {result : Except String Bytes}
    (hresult : Unbounded.questionLabels dnsPacket follow off name = some result) :
    Unbounded.questionLabels dnsPacket follow' off name = some result := by
  induction off, name using Unbounded.questionLabels.induct dnsPacket with
  | case1 off name hmore len hmarked hshort =>
      unfold Unbounded.questionLabels at hresult ⊢
      rw [if_pos hmore, if_pos hmarked, if_pos hshort] at hresult ⊢
      exact hresult
  | case2 off name hmore len hmarked hinside =>
      unfold Unbounded.questionLabels at hresult ⊢
      rw [if_pos hmore, if_pos hmarked, if_neg hinside] at hresult ⊢
      obtain ⟨rest, hrest, hname⟩ := Option.map_eq_some_iff.mp hresult
      exact Option.map_eq_some_iff.mpr ⟨rest, h _ _ hrest, hname⟩
  | case3 off name hmore len hplain text next dot ih =>
      unfold Unbounded.questionLabels at hresult ⊢
      rw [if_pos hmore, if_neg hplain] at hresult ⊢
      exact ih hresult
  | case4 off name hend =>
      unfold Unbounded.questionLabels at hresult ⊢
      rw [if_neg hend] at hresult ⊢
      exact hresult

/-- Without telling them apart, the loop is the one of the model of the relay. -/
theorem questionLabels_eq {follow₀ : Nat → Option Bytes}
    (h : ∀ target, follow₀ target = (follow target).bind Except.toOption) (off : Nat)
    (name : Bytes) : questionLabels dnsPacket follow₀ off name =
      (Unbounded.questionLabels dnsPacket follow off name).bind Except.toOption := by
  induction off, name using Unbounded.questionLabels.induct dnsPacket with
  | case1 off name hmore len hmarked hshort =>
      unfold questionLabels Unbounded.questionLabels
      rw [if_pos hmore, if_pos hmore, if_pos hmarked, if_pos hmarked, if_pos hshort, if_pos hshort]
      rfl
  | case2 off name hmore len hmarked hinside =>
      unfold questionLabels Unbounded.questionLabels
      rw [if_pos hmore, if_pos hmore, if_pos hmarked, if_pos hmarked, if_neg hinside,
        if_neg hinside, h]
      cases follow (readUInt16BE dnsPacket off &&& 0x3FFF) with
      | none => rfl
      | some result => cases result <;> rfl
  | case3 off name hmore len hplain text next dot ih =>
      unfold questionLabels Unbounded.questionLabels
      rw [if_pos hmore, if_pos hmore, if_neg hplain, if_neg hplain]
      exact ih
  | case4 off name hend =>
      unfold questionLabels Unbounded.questionLabels
      rw [if_neg hend, if_neg hend]
      rfl

end Loop

/-- How many calls may stand inside each other decides whether there is a
result, not which. A higher stack changes nothing that a lower one returns. -/
theorem Unbounded.parseDnsQuestionName_mono {depth depth' : Nat} (hle : depth ≤ depth')
    {result : Except String Bytes}
    (h : Unbounded.parseDnsQuestionName dnsPacket depth off = some result) :
    Unbounded.parseDnsQuestionName dnsPacket depth' off = some result := by
  induction depth generalizing depth' off result with
  | zero => cases h
  | succ depth ih =>
      obtain ⟨depth', rfl⟩ := Nat.exists_eq_add_of_le' (Nat.zero_lt_of_lt hle)
      have hless : depth ≤ depth' := Nat.le_of_succ_le_succ hle
      exact Unbounded.questionLabels_mono (fun target result hcall => ih hless hcall) off [] h

/-- The name that the relay logs is the one that is returned within its stack:
the two models agree. -/
theorem parseDnsQuestionName_eq (dnsPacket : Bytes) (depth off : Nat) :
    parseDnsQuestionName dnsPacket depth off =
      (Unbounded.parseDnsQuestionName dnsPacket depth off).bind Except.toOption := by
  induction depth generalizing off with
  | zero => rfl
  | succ depth ih => exact questionLabels_eq ih off []

theorem not_nameReturns_zero (dnsPacket : Bytes) (off : Nat) : ¬NameReturns 0 dnsPacket off := by
  rintro ⟨result, hnone⟩
  cases hnone

/-- A call returns where the call at the offset that its pointer names does,
with one call less to spare. -/
theorem nameReturns_succ (depth : Nat) (dnsPacket : Bytes) (off : Nat) :
    NameReturns (depth + 1) dnsPacket off ↔
      ∀ target, PointsTo dnsPacket off target → NameReturns depth dnsPacket target :=
  Unbounded.questionLabels_returns_iff off []

/-- The name of a question is read to its end, or a read throws, exactly when
the pointers that lead on from the first offset are fewer than the calls the
stack has room for. -/
theorem parseDnsQuestionName_returns_iff (depth : Nat) (dnsPacket : Bytes) (offset : Nat) :
    NameReturns depth dnsPacket offset ↔ Acyclic.Shorter (PointsTo dnsPacket) depth offset :=
  Acyclic.iff_shorter (P := fun depth off => NameReturns depth dnsPacket off)
    (not_nameReturns_zero dnsPacket) (fun depth off => nameReturns_succ depth dnsPacket off)
    depth offset

/-- Some stack is high enough exactly when no offset that the pointers lead to
from the first one on is led back to. -/
theorem exists_nameReturns_iff (dnsPacket : Bytes) (offset : Nat) :
    (∃ depth, NameReturns depth dnsPacket offset) ↔
      Acyclic.From (PointsTo dnsPacket) offset := by
  rw [← Acyclic.acc_iff_from (PointsTo.targets_finite dnsPacket)]
  simp only [parseDnsQuestionName_returns_iff]
  constructor
  · rintro ⟨depth, hshorter⟩
    exact Acyclic.acc_of_shorter hshorter
  · exact Acyclic.shorter_of_acc fun off target target' htarget => htarget.unique

/-- A query whose name is a pointer to itself. A VM can send it. -/
def selfPointerQuery : Bytes := [0, 7, 1, 0, 0, 1, 0, 0, 0, 0, 0, 0, 0xc0, 12, 0, 1, 0, 1]

/-- However high the stack is, the call neither returns nor throws the error of
a read. -/
theorem parseDnsQuestionName_selfPointer : ¬∃ depth, NameReturns depth selfPointerQuery 12 := by
  rintro ⟨depth, hreturns⟩
  have hpoints : PointsTo selfPointerQuery 12 12 :=
    @PointsTo.pointer selfPointerQuery 12 (by decide) (by decide)
  induction depth with
  | zero => exact not_nameReturns_zero _ _ hreturns
  | succ depth ih => exact ih ((nameReturns_succ depth _ 12).mp hreturns 12 hpoints)

end RootlessRelay
