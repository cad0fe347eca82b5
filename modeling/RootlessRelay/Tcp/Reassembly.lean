import Mathlib.Order.Interval.Finset.Nat
import RootlessRelay.Tcp.Utils

/-!
# Out-of-order payload

What `bufferTCPOutOfOrder` and `drainTCPOutOfOrder` do, seen from the place in
the stream at which a byte is buffered. `Holds origin ranges k b` says that `b`
is buffered `k` bytes after `origin`; buffering adds the bytes of the payload
that are not held yet, and draining hands over the bytes that follow `vmSeq`
without a gap.

Both functions loop over the ranges in the order of their offsets, and the
invariant (`Sound`) is that the ranges are disjoint, lie within the capacity,
and are counted byte by byte. Numbers are residues, so every statement carries a
bound that keeps offsets below the turn of the sequence space. Which byte was
buffered first at a place decides what is held there; that is the behaviour of
the source, which never overwrites a buffered byte.
-/

namespace RootlessRelay

open SequenceSpace

namespace Reassembly

/-- The byte buffered `k` places after `origin`, in whichever range it lies. -/
def Holds (origin : Seq) (ranges : List (Seq × Bytes)) (k : Nat) (b : Byte) : Prop :=
  ∃ e ∈ ranges, ∃ i, distance e.1 origin + i = k ∧ e.2[i]? = some b

/-- The number of bytes in some ranges. -/
def totalBytes (ranges : List (Seq × Bytes)) : Nat := (ranges.map fun e => e.2.length).sum

/-- Two ranges that do not overlap, as seen from `origin`. -/
def Apart (origin : Seq) (a b : Seq × Bytes) : Prop :=
  distance a.1 origin + a.2.length ≤ distance b.1 origin ∨
    distance b.1 origin + b.2.length ≤ distance a.1 origin

/-- Non-empty disjoint ranges strictly after `origin` and within `capacity`. -/
structure Buffered (origin : Seq) (capacity : Nat) (ranges : List (Seq × Bytes)) : Prop where
  nonempty : ∀ e ∈ ranges, e.2 ≠ []
  inside : ∀ e ∈ ranges, 0 < distance e.1 origin ∧
    distance e.1 origin + e.2.length ≤ capacity
  apart : ranges.Pairwise (Apart origin)

/-- The invariant of reassembly between two calls: the ranges are in order, and
the counter counts their bytes. -/
structure Sound (conn : Reassembly) (capacity : Nat) : Prop where
  buffered : Buffered conn.vmSeq capacity conn.vmOutOfOrder
  bytes : conn.vmOutOfOrderBytes = totalBytes conn.vmOutOfOrder

variable {origin : Seq} {ranges ranges' : List (Seq × Bytes)} {capacity k : Nat} {b : Byte}
  {conn : Reassembly}

@[simp] theorem totalBytes_nil : totalBytes [] = 0 := rfl

@[simp] theorem totalBytes_cons (e : Seq × Bytes) (ranges : List (Seq × Bytes)) :
    totalBytes (e :: ranges) = e.2.length + totalBytes ranges := by
  simp [totalBytes]

theorem totalBytes_append (ranges ranges' : List (Seq × Bytes)) :
    totalBytes (ranges ++ ranges') = totalBytes ranges + totalBytes ranges' := by
  simp [totalBytes]

theorem totalBytes_perm (h : ranges.Perm ranges') : totalBytes ranges = totalBytes ranges' :=
  (h.map _).sum_nat

theorem Apart.symm {a e : Seq × Bytes} (h : Apart origin a e) : Apart origin e a := Or.symm h

theorem holds_perm (h : ranges.Perm ranges') : Holds origin ranges k b ↔ Holds origin ranges' k b := by
  simp only [Holds, h.mem_iff]

theorem holds_append : Holds origin (ranges ++ ranges') k b ↔
    Holds origin ranges k b ∨ Holds origin ranges' k b := by
  simp only [Holds, List.mem_append, or_and_right, exists_or]

/-- A place is covered by a range exactly when a byte is held there. -/
theorem exists_holds_iff : (∃ b, Holds origin ranges k b) ↔
    ∃ e ∈ ranges, distance e.1 origin ≤ k ∧ k < distance e.1 origin + e.2.length := by
  constructor
  · rintro ⟨b, e, he, i, rfl, hb⟩
    have hi : i < e.2.length := (List.getElem?_eq_some_iff.mp hb).1
    exact ⟨e, he, Nat.le_add_right _ _, by omega⟩
  · rintro ⟨e, he, hle, hlt⟩
    have hi : k - distance e.1 origin < e.2.length := by omega
    exact ⟨e.2[k - distance e.1 origin], e, he, k - distance e.1 origin, by omega,
      List.getElem?_eq_getElem hi⟩

theorem Holds.exists_range (h : Holds origin ranges k b) :
    ∃ e ∈ ranges, distance e.1 origin ≤ k ∧ k < distance e.1 origin + e.2.length :=
  exists_holds_iff.mp ⟨b, h⟩

theorem Buffered.holds_bound (h : Buffered origin capacity ranges)
    (hb : Holds origin ranges k b) : 0 < k ∧ k < capacity := by
  obtain ⟨e, he, hle, hlt⟩ := hb.exists_range
  have := h.inside e he
  omega

theorem Buffered.perm (h : Buffered origin capacity ranges) (hp : ranges.Perm ranges') :
    Buffered origin capacity ranges' where
  nonempty e he := h.nonempty e (hp.mem_iff.mpr he)
  inside e he := h.inside e (hp.mem_iff.mpr he)
  apart := (hp.pairwise_iff fun hab => hab.symm).mp h.apart

theorem Buffered.sublist (h : Buffered origin capacity ranges) (hs : ranges'.Sublist ranges) :
    Buffered origin capacity ranges' where
  nonempty e he := h.nonempty e (hs.subset he)
  inside e he := h.inside e (hs.subset he)
  apart := h.apart.sublist hs

/-- Disjoint ranges have different keys, so the map has an entry for each. -/
theorem Buffered.keys_nodup (h : Buffered origin capacity ranges) :
    (InsertionMap.keys ranges).Nodup := by
  rw [InsertionMap.keys, List.Nodup, List.pairwise_map]
  refine h.apart.imp_of_mem fun {a e} ha he hap heq => ?_
  have hlenA := List.length_pos_iff.mpr (h.nonempty a ha)
  have hlenE := List.length_pos_iff.mpr (h.nonempty e he)
  simp only [Apart, heq] at hap
  omega

/-- A byte is held `k` places after `origin`, whichever it is. -/
def Covered (origin : Seq) (ranges : List (Seq × Bytes)) (k : Nat) : Prop :=
  ∃ e ∈ ranges, distance e.1 origin ≤ k ∧ k < distance e.1 origin + e.2.length

instance : DecidablePred (Covered origin ranges) := fun k =>
  inferInstanceAs (Decidable (∃ e ∈ ranges, distance e.1 origin ≤ k ∧
    k < distance e.1 origin + e.2.length))

/-- Disjoint ranges hold one byte for each place they cover. The counter of
bytes thus bounds the places. -/
theorem Buffered.totalBytes_eq (h : Buffered origin capacity ranges) :
    totalBytes ranges = ((Finset.range capacity).filter (Covered origin ranges)).card := by
  induction ranges with
  | nil =>
      have hnone : (Finset.range capacity).filter (Covered origin []) = ∅ :=
        Finset.filter_false_of_mem fun k _ => by simp [Covered]
      rw [hnone, Finset.card_empty, totalBytes_nil]
  | cons e rest ih =>
      have hrest := h.sublist (List.sublist_cons_self e rest)
      have hinside := (h.inside e List.mem_cons_self).2
      have happart := (List.pairwise_cons.mp h.apart).1
      -- The places of `e`, and those of the other ranges.
      have hsplit : (Finset.range capacity).filter (Covered origin (e :: rest)) =
          Finset.Ico (distance e.1 origin) (distance e.1 origin + e.2.length) ∪
            (Finset.range capacity).filter (Covered origin rest) := by
        ext k
        simp only [Finset.mem_filter, Finset.mem_range, Finset.mem_union, Finset.mem_Ico, Covered,
          List.exists_mem_cons_iff]
        constructor
        · rintro ⟨hk, hhead | htail⟩
          · exact .inl hhead
          · exact .inr ⟨hk, htail⟩
        · rintro (hhead | ⟨hk, htail⟩)
          · exact ⟨by omega, .inl hhead⟩
          · exact ⟨hk, .inr htail⟩
      have hdisjoint : Disjoint
          (Finset.Ico (distance e.1 origin) (distance e.1 origin + e.2.length))
          ((Finset.range capacity).filter (Covered origin rest)) := by
        rw [Finset.disjoint_left]
        intro k hk hk'
        obtain ⟨-, a, ha, hle, hlt⟩ := Finset.mem_filter.mp hk'
        have := Finset.mem_Ico.mp hk
        rcases happart a ha with hbefore | hafter <;> omega
      rw [totalBytes_cons, ih hrest, hsplit, Finset.card_union_of_disjoint hdisjoint, Nat.card_Ico]
      omega

theorem chunk_getElem? (payload : Bytes) {start lo : Nat} (hi : Nat) (hlo : start ≤ lo) (i : Nat) :
    ((payload.take (hi - start)).drop (lo - start))[i]? =
      if lo + i < hi then payload[lo + i - start]? else none := by
  rw [List.getElem?_drop, List.getElem?_take, show lo - start + i = lo + i - start by omega]
  split <;> split <;> first | rfl | omega

theorem chunk_length (payload : Bytes) {start lo hi : Nat} (hlo : start ≤ lo)
    (hhi : hi ≤ start + payload.length) :
    ((payload.take (hi - start)).drop (lo - start)).length = hi - lo := by
  rw [List.length_drop, List.length_take]
  omega

/-- What a buffering step leaves: the old ranges, and bytes of the payload
between two offsets where nothing was held. -/
structure Filled (conn conn' : Reassembly) (capacity start lo hi : Nat) (payload : Bytes) :
    Prop where
  sound : conn'.Sound capacity
  vmSeq : conn'.vmSeq = conn.vmSeq
  keeps : ∀ e ∈ conn.vmOutOfOrder, e ∈ conn'.vmOutOfOrder
  holds : ∀ k b, Holds conn.vmSeq conn'.vmOutOfOrder k b ↔
    Holds conn.vmSeq conn.vmOutOfOrder k b ∨
      (lo ≤ k ∧ k < hi ∧ (¬∃ b, Holds conn.vmSeq conn.vmOutOfOrder k b) ∧
        payload[k - start]? = some b)

/-- `add` between two offsets with nothing held in between: the one way in which
the buffer grows. -/
theorem Sound.add (h : conn.Sound capacity) (hcap : capacity ≤ 65535) (payload : Bytes)
    {start lo hi : Nat} (hpos : 0 < lo) (hlo : start ≤ lo) (hhi : hi ≤ start + payload.length)
    (hroom : hi ≤ capacity)
    (hfree : ∀ k, lo ≤ k → k < hi → ¬∃ b, Holds conn.vmSeq conn.vmOutOfOrder k b) :
    Filled conn (conn.add payload start lo hi) capacity start lo hi payload := by
  unfold Reassembly.add
  split
  · rename_i hempty
    refine ⟨h, rfl, fun e he => he, fun k b => ⟨.inl, ?_⟩⟩
    rintro (hb | ⟨hk, hk', -⟩)
    · exact hb
    · omega
  rename_i hlt
  have hlen := chunk_length payload hlo hhi
  have hget := chunk_getElem? payload hi hlo
  generalize (payload.take (hi - start)).drop (lo - start) = chunk at hlen hget
  have hdist : distance (conn.vmSeq + BitVec.ofNat 32 lo) conn.vmSeq = lo := by
    rw [← position, distance_position_self]
    exact Nat.mod_eq_of_lt (by omega)
  generalize conn.vmSeq + BitVec.ofNat 32 lo = key at hdist
  have hne : chunk ≠ [] := fun hnil => by
    rw [hnil, List.length_nil] at hlen
    omega
  have hfresh : key ∉ InsertionMap.keys conn.vmOutOfOrder := by
    intro hmem
    obtain ⟨e, he, rfl⟩ := List.mem_map.mp hmem
    refine hfree lo (Nat.le_refl _) (by omega) (exists_holds_iff.mpr ⟨e, he, by omega, ?_⟩)
    have := List.length_pos_iff.mpr (h.buffered.nonempty e he)
    omega
  dsimp only
  rw [InsertionMap.set_of_fresh hfresh]
  refine ⟨⟨⟨?_, ?_, ?_⟩, ?_⟩, rfl, fun e he => List.mem_append_left _ he, fun k b => ?_⟩
  · intro e he
    rcases List.mem_append.mp he with he | he
    · exact h.buffered.nonempty e he
    · rw [List.mem_singleton.mp he]
      exact hne
  · intro e he
    rcases List.mem_append.mp he with he | he
    · exact h.buffered.inside e he
    · rw [List.mem_singleton.mp he, hdist, hlen]
      omega
  · rw [List.pairwise_append]
    refine ⟨h.buffered.apart, List.pairwise_singleton _ _, fun e he e' he' => ?_⟩
    rw [List.mem_singleton.mp he']
    change distance e.1 conn.vmSeq + e.2.length ≤ distance key conn.vmSeq ∨
      distance key conn.vmSeq + chunk.length ≤ distance e.1 conn.vmSeq
    rw [hdist, hlen]
    -- A range that reaches into the gap would hold one of its bytes.
    by_contra hover
    refine hfree (max lo (distance e.1 conn.vmSeq)) (by omega) (by omega)
      (exists_holds_iff.mpr ⟨e, he, by omega, ?_⟩)
    have := List.length_pos_iff.mpr (h.buffered.nonempty e he)
    omega
  · rw [totalBytes_append, h.bytes]
    simp
  · rw [holds_append]
    refine or_congr_right ⟨?_, ?_⟩
    · rintro ⟨e, he, i, rfl, hb⟩
      rw [List.mem_singleton.mp he] at hb ⊢
      rw [hget] at hb
      rw [hdist]
      split at hb
      · exact ⟨by omega, by assumption, hfree _ (by omega) (by assumption), hb⟩
      · cases hb
    · rintro ⟨hle, hlt', -, hb⟩
      refine ⟨_, List.mem_singleton.mpr rfl, k - lo, by rw [hdist]; omega, ?_⟩
      rw [hget, if_pos (by omega), show lo + (k - lo) - start = k - start by omega]
      exact hb

/-- The upper offset matters only where nothing is held. -/
theorem Filled.resize {conn' : Reassembly} {payload : Bytes} {start lo hi hi' : Nat}
    (h : Filled conn conn' capacity start lo hi payload)
    (hsame : ∀ k, lo ≤ k → (¬∃ b, Holds conn.vmSeq conn.vmOutOfOrder k b) →
      (k < hi ↔ k < hi')) : Filled conn conn' capacity start lo hi' payload := by
  refine ⟨h.sound, h.vmSeq, h.keeps, fun k b => (h.holds k b).trans (or_congr_right ?_)⟩
  constructor
  · rintro ⟨hk, hk', hfree, hb⟩
    exact ⟨hk, (hsame k hk hfree).mp hk', hfree, hb⟩
  · rintro ⟨hk, hk', hfree, hb⟩
    exact ⟨hk, (hsame k hk hfree).mpr hk', hfree, hb⟩

/-- Two buffering steps, with everything held between the end of the first and
the start of the second. -/
theorem Filled.trans {conn₁ conn₂ : Reassembly} {payload : Bytes} {start lo mid mid' hi : Nat}
    (h : Filled conn conn₁ capacity start lo mid payload)
    (h' : Filled conn₁ conn₂ capacity start mid' hi payload) (hlo : lo ≤ mid') (hhi : mid ≤ hi)
    (hbetween : ∀ k, lo ≤ k → mid ≤ k → k < mid' →
      ∃ b, Holds conn.vmSeq conn.vmOutOfOrder k b) :
    Filled conn conn₂ capacity start lo hi payload := by
  refine ⟨h'.sound, h'.vmSeq.trans h.vmSeq, fun e he => h'.keeps e (h.keeps e he),
    fun k b => ?_⟩
  have hsecond := h'.holds k b
  rw [h.vmSeq] at hsecond
  rw [hsecond, h.holds k b]
  constructor
  · rintro ((hb | ⟨hk, hk', hfree, hb⟩) | ⟨hk, hk', hfree, hb⟩)
    · exact .inl hb
    · exact .inr ⟨hk, by omega, hfree, hb⟩
    · exact .inr ⟨by omega, hk', fun ⟨b', hb'⟩ => hfree ⟨b', (h.holds k b').mpr (.inl hb')⟩, hb⟩
  · rintro (hb | ⟨hk, hk', hfree, hb⟩)
    · exact .inl (.inl hb)
    · by_cases hmid : k < mid
      · exact .inl (.inr ⟨hk, hmid, hfree, hb⟩)
      · have hmid' : mid' ≤ k := by
          by_contra hlt
          exact hfree (hbetween k hk (by omega) (by omega))
        refine .inr ⟨hmid', hk', ?_, hb⟩
        rintro ⟨b', hb'⟩
        rcases (h.holds k b').mp hb' with hold | ⟨-, hlt, -⟩
        · exact hfree ⟨b', hold⟩
        · omega

/-- The loop adds exactly the bytes from `cursor` on that are not held.
`pending` are the ranges it has not passed, in order; they hold whatever is held
from `cursor` on. -/
theorem Sound.fillGaps (h : conn.Sound capacity) (hcap : capacity ≤ 65535) {payload : Bytes}
    {start stop cursor : Nat} {pending : List (Seq × Bytes)} (hpos : 0 < start)
    (hcursor : start ≤ cursor) (hstop : stop ≤ start + payload.length) (hroom : stop ≤ capacity)
    (hsorted : pending.Pairwise fun a e => distance a.1 conn.vmSeq ≤ distance e.1 conn.vmSeq)
    (hmem : ∀ e ∈ pending, e ∈ conn.vmOutOfOrder)
    (hahead : ∀ k b, cursor ≤ k → Holds conn.vmSeq conn.vmOutOfOrder k b →
      Holds conn.vmSeq pending k b) :
    Filled conn (conn.fillGaps payload start stop cursor pending) capacity start cursor stop
      payload := by
  induction pending generalizing conn cursor with
  | nil =>
      refine h.add hcap payload (by omega) hcursor hstop hroom fun k hk _ ⟨b, hb⟩ => ?_
      obtain ⟨e, he, -⟩ := hahead k b hk hb
      cases he
  | cons e rest ih =>
      obtain ⟨hfirst, hsorted'⟩ := List.pairwise_cons.mp hsorted
      -- Nothing is held between the cursor and the first pending range.
      have hgap : ∀ k, cursor ≤ k → k < distance e.1 conn.vmSeq →
          ¬∃ b, Holds conn.vmSeq conn.vmOutOfOrder k b := by
        rintro k hk hlt ⟨b, hb⟩
        obtain ⟨r, hr, hle, -⟩ := (hahead k b hk hb).exists_range
        rcases List.mem_cons.mp hr with rfl | hr
        · omega
        · have := hfirst r hr
          omega
      -- Past the first range, the others hold what is held.
      have hrest : ∀ k b, cursor ≤ k → distance e.1 conn.vmSeq + e.2.length ≤ k →
          Holds conn.vmSeq conn.vmOutOfOrder k b → Holds conn.vmSeq rest k b := by
        intro k b hk hend hb
        obtain ⟨r, hr, i, hi, hget⟩ := hahead k b hk hb
        rcases List.mem_cons.mp hr with rfl | hr
        · have := (List.getElem?_eq_some_iff.mp hget).1
          omega
        · exact ⟨r, hr, i, hi, hget⟩
      simp only [Reassembly.fillGaps]
      change Filled conn (if distance e.1 conn.vmSeq ≥ stop then _ else _) _ _ _ _ _
      split
      · exact h.add hcap payload (by omega) hcursor hstop hroom fun k hk hlt =>
          hgap k hk (by omega)
      rename_i hbefore
      change Filled conn (if distance e.1 conn.vmSeq + e.2.length ≤ cursor then _ else _) _ _ _ _ _
      split
      · rename_i hpassed
        exact ih h hcursor hsorted' (fun r hr => hmem r (List.mem_cons_of_mem _ hr))
          fun k b hk hb => hrest k b hk (by omega) hb
      rename_i hlate
      have hoffset : conn.offset e.1 = distance e.1 conn.vmSeq := rfl
      simp only [hoffset]
      rw [Nat.min_eq_left (Nat.le_of_lt (Nat.lt_of_not_ge hbefore))]
      have hadd : Filled conn (conn.add payload start cursor (distance e.1 conn.vmSeq)) capacity
          start cursor (distance e.1 conn.vmSeq) payload :=
        h.add hcap payload (by omega) hcursor (by omega) (by omega) hgap
      have hheld : ∀ k, distance e.1 conn.vmSeq ≤ k → k < distance e.1 conn.vmSeq + e.2.length →
          ∃ b, Holds conn.vmSeq conn.vmOutOfOrder k b := fun k hk hk' =>
        exists_holds_iff.mpr ⟨e, hmem e (List.mem_cons_self ..), hk, hk'⟩
      split
      · rename_i hdone
        refine hadd.resize fun k hk hfree => ⟨fun hlt => by omega, fun hlt => ?_⟩
        by_contra hge
        exact hfree (hheld k (by omega) (by omega))
      rename_i hmore
      refine hadd.trans (ih hadd.sound ?_ ?_ ?_ ?_) (by omega) (by omega) fun k hk hk' hlt =>
        hheld k hk' (by omega)
      · omega
      · rw [hadd.vmSeq]
        exact hsorted'
      · exact fun r hr => hadd.keeps r (hmem r (List.mem_cons_of_mem _ hr))
      · intro k b hk hb
        rw [hadd.vmSeq] at hb ⊢
        rcases (hadd.holds k b).mp hb with hold | ⟨-, hlt, -⟩
        · exact hrest k b (by omega) (by omega) hold
        · have := List.length_pos_iff.mpr
            (h.buffered.nonempty e (hmem e (List.mem_cons_self ..)))
          omega

/-- The bytes a call of `bufferTCPOutOfOrder` adds: those of the payload that
lie within the capacity and are not held yet. A payload that starts at `vmSeq`
or outside the capacity is dropped. -/
theorem Sound.bufferTCPOutOfOrder (h : conn.Sound capacity) (hcap : capacity ≤ 65535)
    (sequence : Seq) (payload : Bytes) :
    let start := distance sequence conn.vmSeq
    let conn' := RootlessRelay.bufferTCPOutOfOrder conn sequence payload capacity
    conn'.Sound capacity ∧ conn'.vmSeq = conn.vmSeq ∧
      ∀ k b, Holds conn.vmSeq conn'.vmOutOfOrder k b ↔
        Holds conn.vmSeq conn.vmOutOfOrder k b ∨
          (0 < start ∧ start ≤ k ∧ k < capacity ∧
            (¬∃ b, Holds conn.vmSeq conn.vmOutOfOrder k b) ∧ payload[k - start]? = some b) := by
  intro start
  by_cases hout : start = 0 ∨ start ≥ capacity
  · have he : RootlessRelay.bufferTCPOutOfOrder conn sequence payload capacity = conn := by
      unfold RootlessRelay.bufferTCPOutOfOrder
      exact if_pos hout
    rw [he]
    refine ⟨h, rfl, fun k b => ⟨.inl, ?_⟩⟩
    rintro (hb | ⟨hpos, hk, hk', -⟩)
    · exact hb
    · omega
  let before := fun a b : Seq × Bytes => distance a.1 conn.vmSeq ≤ distance b.1 conn.vmSeq
  have he : RootlessRelay.bufferTCPOutOfOrder conn sequence payload capacity =
      conn.fillGaps payload start (min (start + payload.length) capacity) start
        (conn.vmOutOfOrder.insertionSort before) := by
    unfold RootlessRelay.bufferTCPOutOfOrder
    exact if_neg hout
  have : Std.Total before := ⟨fun a b => Nat.le_total _ _⟩
  have : IsTrans _ before := ⟨fun a b c => Nat.le_trans⟩
  have hfilled : Filled conn (conn.fillGaps payload start
      (min (start + payload.length) capacity) start (conn.vmOutOfOrder.insertionSort before))
      capacity start start (min (start + payload.length) capacity) payload :=
    h.fillGaps hcap (by omega) (Nat.le_refl start) (Nat.min_le_left _ _) (Nat.min_le_right _ _)
    (List.pairwise_insertionSort before conn.vmOutOfOrder)
    (fun e he => (List.mem_insertionSort before).mp he)
    fun k b _ hb => (holds_perm (List.perm_insertionSort before conn.vmOutOfOrder)).mpr hb
  rw [he]
  refine ⟨hfilled.sound, hfilled.vmSeq, fun k b => (hfilled.holds k b).trans
    (or_congr_right ?_)⟩
  constructor
  · rintro ⟨hk, hk', hfree, hb⟩
    exact ⟨by omega, hk, by omega, hfree, hb⟩
  · rintro ⟨-, hk, hk', hfree, hb⟩
    have := (List.getElem?_eq_some_iff.mp hb).1
    exact ⟨hk, by omega, hfree, hb⟩

/-- Whatever is buffered, the sink is written to in order, and `vmSeq` moves
over what is written. -/
theorem drainLoop_sink {ω : Type} (write : ω → Bytes → ω) (conn : Reassembly) (sink : ω)
    (delivered : Nat) (ranges : List (Seq × Bytes)) :
    ∃ drained : List Bytes, (drainLoop write conn sink delivered ranges).2.1 =
        drained.foldl write sink ∧
      (drainLoop write conn sink delivered ranges).1.vmSeq =
        position conn.vmSeq drained.flatten.length := by
  induction ranges generalizing conn sink delivered with
  | nil => exact ⟨[], rfl, (position_zero _).symm⟩
  | cons e rest ih =>
      simp only [drainLoop]
      split
      · exact ⟨[], rfl, (position_zero _).symm⟩
      split
      · exact ih _ sink delivered
      · obtain ⟨drained, hsink, hseq⟩ := ih { conn with
            vmOutOfOrder := InsertionMap.delete conn.vmOutOfOrder e.1
            vmOutOfOrderBytes := conn.vmOutOfOrderBytes - e.2.length
            vmSeq := conn.vmSeq + BitVec.ofNat 32 (e.2.drop (conn.vmSeq - e.1).toNat).length }
          (write sink (e.2.drop (conn.vmSeq - e.1).toNat)) (delivered + 1)
        refine ⟨_ :: drained, hsink, hseq.trans ?_⟩
        rw [List.flatten_cons, List.length_append, ← position_add]
        rfl

theorem drainTCPOutOfOrder_sink {ω : Type} (write : ω → Bytes → ω) (conn : Reassembly)
    (sink : ω) : ∃ drained : List Bytes, (drainTCPOutOfOrder write conn sink).2.1 =
        drained.foldl write sink ∧
      (drainTCPOutOfOrder write conn sink).1.vmSeq =
        position conn.vmSeq drained.flatten.length := by
  unfold drainTCPOutOfOrder
  split
  · exact ⟨[], rfl, (position_zero _).symm⟩
  · exact drainLoop_sink _ _ _ _ _

/-- What draining leaves when `vmSeq` stands `a` bytes after `origin`: `drained`
are the held bytes that follow without a gap, and the ranges they reach are
gone. -/
structure Drained (origin : Seq) (a : Nat) (ranges : List (Seq × Bytes)) (conn' : Reassembly)
    (drained : List Bytes) : Prop where
  vmSeq : conn'.vmSeq = position origin (a + drained.flatten.length)
  content : ∀ i b, drained.flatten[i]? = some b → Holds origin ranges (a + i) b
  passed : ∃ front, ranges.Perm (front ++ conn'.vmOutOfOrder) ∧
    ∀ e ∈ front, distance e.1 origin + e.2.length ≤ a + drained.flatten.length
  beyond : ∀ e ∈ conn'.vmOutOfOrder, a + drained.flatten.length < distance e.1 origin
  bytes : conn'.vmOutOfOrderBytes = totalBytes conn'.vmOutOfOrder
  nonempty : [] ∉ drained

/-- The loop over ranges sorted by their place. Each range is behind `vmSeq`,
meets it, or ends the loop. -/
theorem drainLoop_spec {ω : Type} (write : ω → Bytes → ω) (sink : ω) (delivered : Nat) {a : Nat}
    (hseq : conn.vmSeq = position origin a) (ha : a < 2 ^ 30) (hcap : capacity < 2 ^ 30)
    (hinside : ∀ e ∈ ranges, distance e.1 origin + e.2.length ≤ capacity)
    (hsorted : ranges.Pairwise fun a e => distance a.1 origin ≤ distance e.1 origin)
    (hkeys : (InsertionMap.keys ranges).Nodup) (hperm : conn.vmOutOfOrder.Perm ranges)
    (hbytes : conn.vmOutOfOrderBytes = totalBytes ranges) :
    ∃ drained, Drained origin a ranges (drainLoop write conn sink delivered ranges).1 drained ∧
      (drainLoop write conn sink delivered ranges).2 =
        (drained.foldl write sink, delivered + drained.length) := by
  induction ranges generalizing conn sink delivered a with
  | nil =>
      refine ⟨[], ⟨hseq, by simp, ⟨[], hperm.symm, by simp⟩, ?_, ?_, by simp⟩, rfl⟩
      · simp [drainLoop, hperm.eq_nil]
      · simp [drainLoop, hperm.eq_nil, hbytes]
  | cons e rest ih =>
      obtain ⟨hfirst, hsorted'⟩ := List.pairwise_cons.mp hsorted
      have hend := hinside e (List.mem_cons_self ..)
      have hplace : e.1 = position origin (distance e.1 origin) := (position_distance _ _).symm
      have htest : (e.1 - conn.vmSeq).toInt > 0 ↔ a < distance e.1 origin := by
        have hdiff : (e.1 - conn.vmSeq).toInt = (distance e.1 origin : Int) - a := by
          rw [hseq]
          conv_lhs => rw [hplace]
          exact toInt_sub_position (by omega) origin (by omega) (by omega)
        rw [hdiff]
        omega
      simp only [drainLoop]
      by_cases hahead : a < distance e.1 origin
      · rw [if_pos (htest.mpr hahead)]
        refine ⟨[], ⟨hseq, by simp, ⟨[], hperm.symm, by simp⟩, ?_, ?_, by simp⟩, rfl⟩
        · intro r hr
          simp only [List.flatten_nil, List.length_nil, Nat.add_zero]
          rcases List.mem_cons.mp (hperm.mem_iff.mp hr) with rfl | hr
          · exact hahead
          · exact Nat.lt_of_lt_of_le hahead (hfirst r hr)
        · exact hbytes.trans (totalBytes_perm hperm).symm
      rw [if_neg (mt htest.mp hahead)]
      -- The range is removed, whether or not it brings anything new.
      have hconsumed : (conn.vmSeq - e.1).toNat = a - distance e.1 origin := by
        change distance conn.vmSeq e.1 = _
        rw [hseq]
        conv_lhs => rw [hplace]
        exact distance_position_of_le origin (by omega) (by omega)
      have hnodup : (InsertionMap.keys conn.vmOutOfOrder).Nodup :=
        ((hperm.map Prod.fst).nodup_iff).mpr hkeys
      have hkeys' : (InsertionMap.keys rest).Nodup := (List.nodup_cons.mp hkeys).2
      have hinside' : ∀ r ∈ rest, distance r.1 origin + r.2.length ≤ capacity :=
        fun r hr => hinside r (List.mem_cons_of_mem _ hr)
      obtain ⟨conn₁, hconn₁⟩ : ∃ conn₁ : Reassembly, conn₁ = { conn with
        vmOutOfOrder := InsertionMap.delete conn.vmOutOfOrder e.1
        vmOutOfOrderBytes := conn.vmOutOfOrderBytes - e.2.length } := ⟨_, rfl⟩
      have hperm₁ : conn₁.vmOutOfOrder.Perm rest := by
        rw [hconn₁]
        exact ((InsertionMap.perm_cons_delete hnodup
          (hperm.mem_iff.mpr (List.mem_cons_self ..))).symm.trans hperm).cons_inv
      have hbytes₁ : conn₁.vmOutOfOrderBytes = totalBytes rest := by
        rw [hconn₁]
        change conn.vmOutOfOrderBytes - e.2.length = _
        rw [hbytes, totalBytes_cons, Nat.add_sub_cancel_left]
      have hseq₁ : conn₁.vmSeq = position origin a := by
        rw [hconn₁]
        exact hseq
      rw [← hconn₁, hconsumed]
      by_cases hold : a - distance e.1 origin ≥ e.2.length
      · rw [if_pos hold]
        obtain ⟨drained, hd, he⟩ := ih sink delivered hseq₁ ha hinside' hsorted' hkeys' hperm₁
          hbytes₁
        obtain ⟨front, hfront, hpassed⟩ := hd.passed
        refine ⟨drained, ⟨hd.vmSeq, fun i b hb => ?_, ⟨e :: front, hfront.cons e, ?_⟩, hd.beyond,
          hd.bytes, hd.nonempty⟩, he⟩
        · obtain ⟨r, hr, hi⟩ := hd.content i b hb
          exact ⟨r, List.mem_cons_of_mem _ hr, hi⟩
        · intro r hr
          rcases List.mem_cons.mp hr with rfl | hr
          · omega
          · exact hpassed r hr
      · rw [if_neg hold]
        have hlen : (e.2.drop (a - distance e.1 origin)).length =
            distance e.1 origin + e.2.length - a := by
          rw [List.length_drop]
          omega
        have hmoved : ({ conn₁ with
            vmSeq := conn.vmSeq + BitVec.ofNat 32 (e.2.drop (a - distance e.1 origin)).length } :
              Reassembly).vmSeq = position origin (distance e.1 origin + e.2.length) := by
          change position conn.vmSeq _ = _
          rw [hlen, hseq, position_add]
          congr 1
          omega
        have htail : ∀ i, (e.2.drop (a - distance e.1 origin))[i]? =
            e.2[a - distance e.1 origin + i]? := fun i => List.getElem?_drop
        subst hconn₁
        generalize e.2.drop (a - distance e.1 origin) = tail at hlen hmoved htail ⊢
        obtain ⟨drained, hd, he⟩ := ih (write sink tail) (delivered + 1) hmoved (by omega) hinside'
          hsorted' hkeys' hperm₁ hbytes₁
        obtain ⟨front, hfront, hpassed⟩ := hd.passed
        have hmeet : a + (tail :: drained).flatten.length =
            distance e.1 origin + e.2.length + drained.flatten.length := by
          simp only [List.flatten_cons, List.length_append, hlen]
          omega
        refine ⟨tail :: drained, ⟨?_, fun i b hb => ?_, ⟨e :: front, hfront.cons e, ?_⟩, ?_,
          hd.bytes, ?_⟩, ?_⟩
        · rw [hmeet]
          exact hd.vmSeq
        · rw [List.flatten_cons] at hb
          by_cases hi : i < tail.length
          · rw [List.getElem?_append_left hi, htail] at hb
            exact ⟨e, List.mem_cons_self .., _, by omega, hb⟩
          · rw [List.getElem?_append_right (by omega)] at hb
            obtain ⟨r, hr, j, hj, hget⟩ := hd.content _ b hb
            exact ⟨r, List.mem_cons_of_mem _ hr, j, by omega, hget⟩
        · rw [hmeet]
          intro r hr
          rcases List.mem_cons.mp hr with rfl | hr
          · omega
          · exact hpassed r hr
        · rw [hmeet]
          exact hd.beyond
        · simp only [List.mem_cons, not_or]
          refine ⟨fun hnil => ?_, hd.nonempty⟩
          rw [← hnil, List.length_nil] at hlen
          omega
        · rw [he, List.foldl_cons, List.length_cons]
          congr 1
          omega

/-- Draining after `vmSeq` has moved `a` bytes past the place the ranges are
measured from. -/
theorem drainTCPOutOfOrder_spec {ω : Type} (write : ω → Bytes → ω) (sink : ω) {a : Nat}
    (hseq : conn.vmSeq = position origin a) (ha : a < 2 ^ 30) (hcap : capacity < 2 ^ 30)
    (hb : Buffered origin capacity conn.vmOutOfOrder)
    (hbytes : conn.vmOutOfOrderBytes = totalBytes conn.vmOutOfOrder) :
    ∃ drained, Drained origin a conn.vmOutOfOrder (drainTCPOutOfOrder write conn sink).1 drained ∧
      (drainTCPOutOfOrder write conn sink).2 = (drained.foldl write sink, drained.length) := by
  unfold drainTCPOutOfOrder
  split
  · rename_i hnil
    rw [hnil]
    exact ⟨[], ⟨hseq, by simp, ⟨[], by simp [hnil], by simp⟩, by simp [hnil],
      by simp [hbytes, hnil], by simp⟩, rfl⟩
  let before := fun a b : Seq × Bytes =>
    (a.1 - conn.vmSeq).toInt ≤ (b.1 - conn.vmSeq).toInt
  have : Std.Total before := ⟨fun a b => Int.le_total _ _⟩
  have : IsTrans _ before := ⟨fun a b c => Int.le_trans⟩
  have hperm := List.perm_insertionSort before conn.vmOutOfOrder
  have hsorted : (conn.vmOutOfOrder.insertionSort before).Pairwise
      fun a e => distance a.1 origin ≤ distance e.1 origin := by
    refine (List.pairwise_insertionSort before conn.vmOutOfOrder).imp_of_mem
      fun {r e} hr he hle => ?_
    have hplace : ∀ e ∈ conn.vmOutOfOrder,
        (e.1 - conn.vmSeq).toInt = (distance e.1 origin : Int) - a := by
      intro e he
      have := hb.inside e he
      rw [hseq]
      conv_lhs => rw [(position_distance e.1 origin).symm]
      exact toInt_sub_position (by omega) origin (by omega) (by omega)
    change (r.1 - conn.vmSeq).toInt ≤ (e.1 - conn.vmSeq).toInt at hle
    rw [hplace r (hperm.mem_iff.mp hr), hplace e (hperm.mem_iff.mp he)] at hle
    omega
  have hb' := hb.perm hperm.symm
  obtain ⟨drained, hd, he⟩ := drainLoop_spec write sink 0 hseq ha hcap
    (fun e he => (hb'.inside e he).2) hsorted hb'.keys_nodup hperm.symm
    (hbytes.trans (totalBytes_perm hperm).symm)
  obtain ⟨front, hfront, hpassed⟩ := hd.passed
  refine ⟨drained, ⟨hd.vmSeq, fun i b hi => ?_, ⟨front, hperm.symm.trans hfront, hpassed⟩,
    hd.beyond, hd.bytes, hd.nonempty⟩, ?_⟩
  · exact (holds_perm hperm).mp (hd.content i b hi)
  · rw [he, Nat.zero_add]

namespace Drained

variable {a : Nat} {conn' : Reassembly} {drained : List Bytes}

theorem range_distance (h : Drained origin a ranges conn' drained)
    {e : Seq × Bytes} (he : e ∈ conn'.vmOutOfOrder) :
    distance e.1 conn'.vmSeq = distance e.1 origin - (a + drained.flatten.length) := by
  have hbeyond := h.beyond e he
  have hlt := distance_lt e.1 origin
  rw [h.vmSeq]
  conv_lhs => rw [(position_distance e.1 origin).symm]
  exact distance_position_of_le origin (by omega) (by omega)

/-- What is left after a drain is in order, and seen from the new `vmSeq` it is
in range. -/
theorem sound (h : Drained origin a ranges conn' drained)
    (hb : Buffered origin capacity ranges) : conn'.Sound capacity := by
  obtain ⟨front, hfront, -⟩ := h.passed
  have hback : Buffered origin capacity conn'.vmOutOfOrder :=
    (hb.perm hfront).sublist (List.sublist_append_right _ _)
  refine ⟨⟨hback.nonempty, fun e he => ?_, ?_⟩, h.bytes⟩
  · have hinside := hback.inside e he
    have hbeyond := h.beyond e he
    rw [h.range_distance he]
    omega
  · refine hback.apart.imp_of_mem fun {r e} hr he hap => ?_
    have hr' := h.beyond r hr
    have he' := h.beyond e he
    simp only [Apart] at hap ⊢
    rw [h.range_distance hr, h.range_distance he]
    omega

/-- What is still held is what was held beyond the new `vmSeq`. -/
theorem holds_iff (h : Drained origin a ranges conn' drained) (k : Nat) (b : Byte) :
    Holds conn'.vmSeq conn'.vmOutOfOrder k b ↔
      Holds origin ranges (a + drained.flatten.length + k) b := by
  obtain ⟨front, hfront, hpassed⟩ := h.passed
  rw [holds_perm hfront, holds_append, or_iff_right]
  · constructor
    · rintro ⟨e, he, i, hi, hget⟩
      have hbeyond := h.beyond e he
      rw [h.range_distance he] at hi
      exact ⟨e, he, i, by omega, hget⟩
    · rintro ⟨e, he, i, hi, hget⟩
      have hbeyond := h.beyond e he
      refine ⟨e, he, i, ?_, hget⟩
      rw [h.range_distance he]
      omega
  · rintro ⟨e, he, i, hi, hget⟩
    have hi' := (List.getElem?_eq_some_iff.mp hget).1
    have := hpassed e he
    omega

end Drained

end Reassembly

end RootlessRelay
