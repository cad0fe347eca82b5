import RootlessRelay.Library.SequenceSpace
import Mathlib.Data.List.Basic

/-!
# Delivery of a numbered stream

A sender cuts a stream into segments and may cut and send any part of it again;
a channel loses, repeats and reorders them. The receiver takes from a segment
what lies behind the items it has, and answers with the number of the item it
expects.

Numbers are residues, so a segment must not be too old when it arrives: `Recent`
bounds how far behind the stream the place of a segment can be by what has been
emitted since. That is a statement about the emissions alone, without a clock or
a lifetime. Under it the receiver always has a prefix of the stream (`Follows`),
and an acknowledgement number names one place.
-/

namespace Delivery

open SequenceSpace

variable {w : Nat} {ι : Type}

/-- The receiving end: the number it expects, and the items it has, in order. -/
structure Receiver (w : Nat) (ι : Type) where
  next : BitVec w
  received : List ι

namespace Receiver

/-- Take the items of a segment that are still missing, if it reaches up to
them. A segment that starts beyond the expected item is dropped, and so is one
that brings nothing new. -/
def accept (r : Receiver w ι) (sequence : BitVec w) (items : List ι) : Receiver w ι :=
  let known := distance r.next sequence
  if known < items.length then
    { next := position sequence items.length, received := r.received ++ items.drop known }
  else r

/-- The receiver has a prefix of the stream, and expects the item behind it.
Here `base` is the number of the first item. -/
structure Follows (base : BitVec w) (stream : List ι) (r : Receiver w ι) : Prop where
  next : r.next = position base r.received.length
  received : r.received <+: stream

variable {base : BitVec w} {stream stream' : List ι} {r : Receiver w ι}

theorem Follows.mono (h : r.Follows base stream) (hstream : stream <+: stream') :
    r.Follows base stream' :=
  ⟨h.next, h.received.trans hstream⟩

theorem Follows.start (base : BitVec w) (stream : List ι) :
    (⟨base, []⟩ : Receiver w ι).Follows base stream :=
  ⟨(position_zero base).symm, List.nil_prefix⟩

/-- What was received stays received: a segment only ever appends. -/
theorem accept_received (r : Receiver w ι) (sequence : BitVec w) (items : List ι) :
    r.received <+: (r.accept sequence items).received := by
  unfold accept
  dsimp only
  split
  · exact List.prefix_append _ _
  · exact List.prefix_rfl

/-- A segment cut from the stream, less than one turn behind its end and
reaching less than one turn beyond the receiver, keeps the receiver on the
stream. -/
theorem Follows.accept (h : r.Follows base stream) {place : Nat} {items : List ι}
    (hcut : items <+: stream.drop place) (hpast : stream.length < place + 2 ^ w)
    (hahead : place + items.length ≤ r.received.length + 2 ^ w) :
    (r.accept (position base place) items).Follows base stream := by
  have hlength := h.received.length_le
  unfold Receiver.accept
  dsimp only
  split
  swap
  · exact h
  rename_i hreaches
  rw [h.next] at hreaches ⊢
  rcases Nat.lt_or_ge r.received.length place with hgap | hle
  · -- The segment lies beyond a gap: its number is almost one turn ahead.
    rw [distance_position_of_lt base hgap (by omega)] at hreaches
    omega
  have hknown : distance (position base r.received.length) (position base place) =
      r.received.length - place := distance_position_of_le base hle (by omega)
  rw [hknown] at hreaches ⊢
  have hsplit : stream = r.received ++ stream.drop r.received.length := by
    conv_lhs => rw [← List.take_append_drop r.received.length stream]
    rw [← List.prefix_iff_eq_take.mp h.received]
  have hmissing : items.drop (r.received.length - place) <+: stream.drop r.received.length := by
    have hdrop := hcut.drop (r.received.length - place)
    rwa [List.drop_drop, Nat.add_sub_cancel' hle] at hdrop
  constructor
  · dsimp only
    rw [position_add, List.length_append, List.length_drop]
    congr 1
    omega
  · rw [hsplit]
    exact (List.prefix_append_right_inj _).mpr hmissing

end Receiver

/-- The number of items in some emissions, each counted as often as it was
emitted. -/
def volume {κ : Type} (emitted : List (κ × List ι)) : Nat := (emitted.flatMap Prod.snd).length

theorem volume_append {κ : Type} (xs ys : List (κ × List ι)) :
    volume (xs ++ ys) = volume xs + volume ys := by
  simp [volume]

theorem volume_map {κ κ' : Type} (f : κ → κ') (emitted : List (κ × List ι)) :
    volume (emitted.map fun emission => (f emission.1, emission.2)) = volume emitted := by
  simp [volume, List.flatMap_map]

/-- An emission lies at most `limit` behind the end of the stream, and what has
been emitted since. A segment that is sent again counts once more, so an old one
that is still on its way has been overtaken by that much. -/
def Recent (limit : Nat) (stream : List ι) (emitted : List (Nat × List ι)) : Prop :=
  ∀ before place items after, emitted = before ++ (place, items) :: after →
    stream.length ≤ place + limit + volume ((place, items) :: after)

variable {limit : Nat} {stream stream' : List ι} {emitted : List (Nat × List ι)}

/-- One more emission, by as much as the stream grows. What is sent again must
lie within the limit when it is sent. -/
theorem Recent.snoc (h : Recent limit stream emitted) {place : Nat} {items : List ι}
    (hgrowth : stream'.length ≤ stream.length + items.length)
    (hplace : stream'.length ≤ place + limit + items.length) :
    Recent limit stream' (emitted ++ [(place, items)]) := by
  intro before place' items' after hsplit
  rcases List.eq_nil_or_concat after with rfl | ⟨rest, last, rfl⟩
  · obtain ⟨-, hlast⟩ := List.append_inj' hsplit rfl
    obtain ⟨rfl, rfl⟩ := Prod.mk.inj (List.singleton_inj.mp hlast)
    simpa [volume] using hplace
  · rw [List.concat_eq_append, ← List.cons_append, ← List.append_assoc] at hsplit
    obtain ⟨hemitted, hlast⟩ := List.append_inj' hsplit rfl
    obtain rfl := List.singleton_inj.mp hlast
    have hold := h before place' items' rest hemitted
    rw [List.concat_eq_append, ← List.cons_append, volume_append]
    have hnew : volume [(place, items)] = items.length := by simp [volume]
    omega

/-- The same stream and the same emissions. Only the length of the stream
matters. -/
theorem Recent.congr (h : Recent limit stream emitted) (hlength : stream'.length = stream.length) :
    Recent limit stream' emitted := by
  intro before place items after hsplit
  rw [hlength]
  exact h before place items after hsplit

theorem Recent.first (items : List ι) : Recent limit items [(0, items)] := by
  have hnone : Recent limit ([] : List ι) [] := by
    intro before place items after hsplit
    exact absurd hsplit.symm (List.append_ne_nil_of_right_ne_nil _ (List.cons_ne_nil _ _))
  exact hnone.snoc (Nat.le_add_left _ _) (Nat.le_add_left _ _)

/-- An acknowledgement number is that of one place only, among places less than
one turn apart. -/
theorem acknowledged_place {base number : BitVec w} {sent place : Nat}
    (hsent : number = position base sent) (hplace : number = position base place)
    (hbehind : place < sent + 2 ^ w) (hahead : sent < place + 2 ^ w) : sent = place := by
  have heq := hsent.symm.trans hplace
  exact (position_inj (by omega) (by omega)).mp heq

end Delivery
