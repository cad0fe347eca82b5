import RootlessRelay.Library.TypeLengthValue
import RootlessRelay.Tcp.Header

/-!
# TCP options

`parseTCPOptions` of `tcp_utils.js`. The options of a segment are read by their
offsets in the packet; what is returned is what a decoder of the option list
returns for the bytes between the bounds.

The decoder is the one for lists of kind, length and value, with END and NOP as
the two kinds without a length. A list that breaks off, or a length below two,
ends it. The offset of the loop corresponds to the rest of the list, and a byte
outside of the bounds is never asked for.
-/

namespace RootlessRelay

open TypeLengthValue (lastValue)

/-- The object `parseTCPOptions` returns, with what it has found. -/
structure TCPOptions where
  mss : Option Nat := none
  windowScale : Option Nat := none
  deriving DecidableEq, Repr

namespace TCPOptions

/-- The loop, from `offset` on, with the bytes of the packet that `read` gives. -/
def scan (read : Nat → Option Nat) (stop offset : Nat) (options : TCPOptions) :
    Option TCPOptions :=
  if offset < stop then do
    let kind ← read offset
    if kind = 0 then some options
    else if kind = 1 then scan read stop (offset + 1) options
    else if offset + 1 ≥ stop then some options
    else
      let length ← read (offset + 1)
      if _hlength : length < 2 ∨ offset + length > stop then some options
      else if kind = 2 ∧ length = 4 then
        let high ← read (offset + 2)
        let low ← read (offset + 3)
        let mss := high * 256 + low
        scan read stop (offset + length) (if mss > 0 then { options with mss } else options)
      else if kind = 3 ∧ length = 3 then
        let windowScale ← read (offset + 2)
        scan read stop (offset + length) { options with windowScale }
      else scan read stop (offset + length) options
  else some options
termination_by stop - offset
decreasing_by all_goals omega

/-- `parseTCPOptions`. A byte outside the packet is `undefined`; the bounds are
checked first. -/
def parseTCPOptions (packet : Bytes) (start stop : Int) : Except String TCPOptions :=
  if start < 0 ∨ stop < start ∨ stop > packet.length then .error "invalid TCP option bounds"
  else
    match scan (byteAt? packet) stop.toNat start.toNat {} with
    | some options => .ok options
    | none => .error "undefined"

/-- The bounds that are accepted: in order, and inside the packet. -/
structure AcceptedBounds (packet : Bytes) (start stop : Int) : Prop where
  nonneg : 0 ≤ start
  ordered : start ≤ stop
  inside : stop ≤ packet.length

/-- The bytes between the bounds, and no others. -/
def within (packet : Bytes) (start stop : Nat) (i : Nat) : Option Nat :=
  if start ≤ i ∧ i < stop then byteAt? packet i else none

/-- The MSS an item sets, if it is an MSS option that is not zero. -/
def mssValue : TypeLengthValue.Item → Option Nat
  | .field kind [high, low] =>
      if kind = 2 ∧ high.toNat * 256 + low.toNat > 0 then some (high.toNat * 256 + low.toNat)
      else none
  | _ => none

/-- The window scale an item sets. -/
def windowScaleValue : TypeLengthValue.Item → Option Nat
  | .field kind [shift] => if kind = 3 then some shift.toNat else none
  | _ => none

/-- What the items say: the last MSS that is not zero and the last window scale. -/
def ofItems (items : List TypeLengthValue.Item) : TCPOptions where
  mss := lastValue mssValue items
  windowScale := lastValue windowScaleValue items

variable {packet : Bytes}

theorem within_eq {start stop i : Nat} (hlo : start ≤ i) (hhi : i < stop)
    (hstop : stop ≤ packet.length) : within packet start stop i = some (byteAt packet i) := by
  rw [within, if_pos ⟨hlo, hhi⟩, byteAt?_eq (by omega)]

/-- What is left of the window from `offset` on. -/
theorem slice_cons {offset stop : Nat} (hlt : offset < stop) (hstop : stop ≤ packet.length) :
    ∃ b, byteAt packet offset = b.toNat ∧
      slice packet offset stop = b :: slice packet (offset + 1) stop := by
  have hlen : offset < (packet.take stop).length := by
    rw [List.length_take]
    omega
  refine ⟨packet[offset], byteAt_of_lt (by omega), ?_⟩
  rw [slice, List.drop_eq_getElem_cons hlen, List.getElem_take]
  rfl

theorem slice_of_ge {offset stop : Nat} (hge : stop ≤ offset) : slice packet offset stop = [] := by
  refine List.drop_eq_nil_of_le ?_
  rw [List.length_take]
  omega

theorem length_slice {offset stop : Nat} (hstop : stop ≤ packet.length) :
    (slice packet offset stop).length = stop - offset := by
  rw [slice, List.length_drop, List.length_take, Nat.min_eq_left hstop]

theorem drop_slice (offset stop n : Nat) :
    (slice packet offset stop).drop n = slice packet (offset + n) stop := by
  rw [slice, slice, List.drop_drop]

/-- The options after the items of the list have been read. -/
def after (options : TCPOptions) (items : List TypeLengthValue.Item) : TCPOptions where
  mss := (lastValue mssValue items).or options.mss
  windowScale := (lastValue windowScaleValue items).or options.windowScale

@[simp] theorem after_nil (options : TCPOptions) : options.after [] = options := rfl

theorem after_cons (options : TCPOptions) (item : TypeLengthValue.Item)
    (items : List TypeLengthValue.Item) :
    options.after (item :: items) = (options.after [item]).after items := by
  simp only [after, TypeLengthValue.lastValue_cons, TypeLengthValue.lastValue_nil, Option.or_assoc,
    Option.none_or]

theorem empty_after (items : List TypeLengthValue.Item) :
    ({} : TCPOptions).after items = ofItems items := by
  simp only [after, ofItems, Option.or_none]

/-- An item of another kind or length is passed over. -/
theorem after_other {kind : UInt8} {data : List UInt8} (options : TCPOptions)
    (hmss : ¬(kind.toNat = 2 ∧ data.length = 2))
    (hscale : ¬(kind.toNat = 3 ∧ data.length = 1)) :
    options.after [.field kind data] = options := by
  have hmssValue : mssValue (.field kind data) = none := by
    unfold mssValue
    split
    · rename_i heq
      cases heq
      refine if_neg fun hkind => hmss ⟨?_, rfl⟩
      rw [hkind.1]
      rfl
    · rfl
  have hscaleValue : windowScaleValue (.field kind data) = none := by
    unfold windowScaleValue
    split
    · rename_i heq
      cases heq
      refine if_neg fun hkind => hscale ⟨?_, rfl⟩
      rw [hkind]
      rfl
    · rfl
  simp only [after, TypeLengthValue.lastValue_cons, TypeLengthValue.lastValue_nil, hmssValue,
    hscaleValue, Option.none_or]

theorem after_mss (options : TCPOptions) (high low : UInt8) :
    options.after [.field 2 [high, low]] =
      if high.toNat * 256 + low.toNat > 0 then
        { options with mss := some (high.toNat * 256 + low.toNat) }
      else options := by
  have hmss : mssValue (.field 2 [high, low]) =
      if high.toNat * 256 + low.toNat > 0 then some (high.toNat * 256 + low.toNat) else none := by
    simp only [mssValue, true_and]
  have hscale : windowScaleValue (.field 2 [high, low]) = none := rfl
  simp only [after, TypeLengthValue.lastValue_cons, TypeLengthValue.lastValue_nil, hmss, hscale,
    Option.none_or]
  split
  · rfl
  · rfl

theorem after_windowScale (options : TCPOptions) (shift : UInt8) :
    options.after [.field 3 [shift]] = { options with windowScale := some shift.toNat } := by
  have hmss : mssValue (.field 3 [shift]) = none := rfl
  have hscale : windowScaleValue (.field 3 [shift]) = some shift.toNat := rfl
  simp only [after, TypeLengthValue.lastValue_cons, TypeLengthValue.lastValue_nil, hmss, hscale,
    Option.none_or, Option.some_or]

theorem byte_eq_iff {b : UInt8} {n : Nat} (hn : n < 256) : b.toNat = n ↔ b = UInt8.ofNat n := by
  constructor
  · rintro rfl
    exact (UInt8.ofNat_toNat).symm
  · rintro rfl
    exact UInt8.toNat_ofNat_of_lt' hn

/-- The scan returns what the decoder makes of the rest of the window, and needs
no byte outside of it. -/
theorem scan_eq {read : Nat → Option Nat} {start stop : Nat}
    (hread : ∀ i, start ≤ i → i < stop → read i = some (byteAt packet i))
    (hstop : stop ≤ packet.length) (offset : Nat) (hlo : start ≤ offset) (options : TCPOptions) :
    scan read stop offset options =
      some (options.after (TypeLengthValue.decode (slice packet offset stop))) := by
  induction hleft : stop - offset using Nat.strong_induction_on generalizing offset options with
  | _ left ih =>
  subst hleft
  by_cases hlt : offset < stop
  · obtain ⟨kind, hkind, hslice⟩ := slice_cons hlt hstop
    rw [scan, if_pos hlt, hread offset hlo hlt, hslice, hkind]
    simp only [Option.bind_eq_bind, Option.bind_some]
    by_cases hend : kind.toNat = 0
    · obtain rfl := (byte_eq_iff (by decide)).mp hend
      rw [if_pos hend]
      exact congrArg (fun items => some (options.after items))
        (TypeLengthValue.decode_end _).symm
    rw [if_neg hend]
    by_cases hpad : kind.toNat = 1
    · obtain rfl := (byte_eq_iff (by decide)).mp hpad
      rw [if_pos hpad, ih _ (by omega) (offset + 1) (by omega) options rfl]
      refine congrArg some ?_
      change _ = options.after (TypeLengthValue.decode (1 :: _))
      rw [TypeLengthValue.decode_pad, after_cons]
      rfl
    rw [if_neg hpad]
    have hendByte : kind ≠ 0 := fun h => hend (h ▸ rfl)
    have hpadByte : kind ≠ 1 := fun h => hpad (h ▸ rfl)
    by_cases hshort : offset + 1 ≥ stop
    · rw [if_pos hshort, slice_of_ge hshort, TypeLengthValue.decode_truncated hpadByte, after_nil]
    rw [if_neg hshort]
    obtain ⟨length, hlength, hbody⟩ := slice_cons (Nat.lt_of_not_ge hshort) hstop
    have hsize : (slice packet (offset + 1 + 1) stop).length = stop - (offset + 2) :=
      length_slice hstop
    rw [hread (offset + 1) (by omega) (by omega), hbody, hlength]
    simp only [Option.bind_some]
    by_cases hbad : length.toNat < 2 ∨ offset + length.toNat > stop
    · rw [dif_pos hbad, TypeLengthValue.decode_malformed hendByte hpadByte (by omega), after_nil]
    rw [dif_neg hbad, TypeLengthValue.decode_field hendByte hpadByte (by omega) (by omega),
      drop_slice, show offset + 1 + 1 + (length.toNat - 2) = offset + length.toNat by omega,
      after_cons]
    have hnext : ∀ options', scan read stop (offset + length.toNat) options' = some
        (options'.after (TypeLengthValue.decode (slice packet (offset + length.toNat) stop))) :=
      fun options' => ih _ (by omega) (offset + length.toNat) (by omega) options' rfl
    by_cases hmss : kind.toNat = 2 ∧ length.toNat = 4
    · obtain rfl := (byte_eq_iff (by decide)).mp hmss.1
      obtain ⟨high, hhigh, hfirst⟩ := slice_cons (show offset + 2 < stop by omega) hstop
      obtain ⟨low, hlow, hsecond⟩ := slice_cons (show offset + 3 < stop by omega) hstop
      rw [if_pos hmss, hread (offset + 2) (by omega) (by omega),
        hread (offset + 3) (by omega) (by omega), hhigh, hlow, hfirst, hsecond, hmss.2]
      rw [hmss.2] at hnext
      simp only [Option.bind_some]
      rw [hnext]
      exact congrArg (fun options' => some (TCPOptions.after options' _)) (after_mss _ _ _).symm
    rw [if_neg hmss]
    by_cases hscale : kind.toNat = 3 ∧ length.toNat = 3
    · obtain rfl := (byte_eq_iff (by decide)).mp hscale.1
      obtain ⟨shift, hshift, hfirst⟩ := slice_cons (show offset + 2 < stop by omega) hstop
      rw [if_pos hscale, hread (offset + 2) (by omega) (by omega), hshift, hfirst, hscale.2]
      rw [hscale.2] at hnext
      simp only [Option.bind_some]
      rw [hnext]
      exact congrArg (fun options' => some (TCPOptions.after options' _))
        (after_windowScale _ _).symm
    have htake : ((slice packet (offset + 1 + 1) stop).take (length.toNat - 2)).length =
        length.toNat - 2 := List.length_take_of_le (by omega)
    rw [if_neg hscale, hnext, after_other _ (by rw [htake]; omega) (by rw [htake]; omega)]
  · rw [scan, if_neg hlt, slice_of_ge (Nat.le_of_not_lt hlt), TypeLengthValue.decode_nil, after_nil]

/-- For bounds that are accepted, the scan ends, reads only bytes between them,
and returns what a decoder of the bytes between them returns; for the encodings
of valid options, whatever follows the end of the list, these are the last
values among them. -/
theorem parseTCPOptions_decodes {start stop : Int} (h : AcceptedBounds packet start stop) :
    parseTCPOptions packet start stop =
        .ok (ofItems (TypeLengthValue.decode (slice packet start.toNat stop.toNat))) ∧
      scan (within packet start.toNat stop.toNat) stop.toNat start.toNat {} =
        some (ofItems (TypeLengthValue.decode (slice packet start.toNat stop.toNat))) ∧
      ∀ items tail, (∀ item ∈ items, item.Valid) → TypeLengthValue.Ends tail →
        slice packet start.toNat stop.toNat = TypeLengthValue.encode items ++ tail →
        parseTCPOptions packet start stop = .ok (ofItems items) := by
  have hstop : stop.toNat ≤ packet.length := by
    have := h.inside
    omega
  have hdecoded : parseTCPOptions packet start stop =
      .ok (ofItems (TypeLengthValue.decode (slice packet start.toNat stop.toNat))) := by
    have hread : ∀ i, start.toNat ≤ i → i < stop.toNat →
        byteAt? packet i = some (byteAt packet i) := fun i _ hlt => byteAt?_eq (by omega)
    have hscan := scan_eq hread hstop start.toNat le_rfl {}
    rw [empty_after] at hscan
    have hnonneg := h.nonneg
    have hordered := h.ordered
    have hinside := h.inside
    rw [parseTCPOptions, if_neg (by omega), hscan]
  refine ⟨hdecoded, ?_, ?_⟩
  · rw [scan_eq (fun i hlo hhi => within_eq hlo hhi hstop) hstop start.toNat le_rfl {}, empty_after]
  · intro items tail hvalid hend hbytes
    rw [hdecoded, hbytes, TypeLengthValue.decode_encode hvalid hend]

/-- MSS 8960, a NOP, window scale 7, and bytes behind the end of the list. -/
theorem parseTCPOptions_decodes_syn :
    AcceptedBounds [0xaa, 2, 4, 0x23, 0x00, 1, 3, 3, 7, 0, 0xbb] 1 11 ∧
      parseTCPOptions [0xaa, 2, 4, 0x23, 0x00, 1, 3, 3, 7, 0, 0xbb] 1 11 =
        .ok { mss := some 8960, windowScale := some 7 } := by
  have hbounds : AcceptedBounds [0xaa, 2, 4, 0x23, 0x00, 1, 3, 3, 7, 0, 0xbb] 1 11 :=
    ⟨by decide, by decide, by decide⟩
  have hvalid : ∀ item ∈ [.field 2 [0x23, 0x00], .pad, .field 3 [7]],
      TypeLengthValue.Item.Valid item := by decide
  exact ⟨hbounds, (parseTCPOptions_decodes hbounds).2.2 _ [0, 0xbb] hvalid (by decide) rfl⟩

/-- The handlers keep the MSS of what is read, and nothing else. -/
theorem scan_mss {stop : Nat} (hstop : stop ≤ packet.length) (offset : Nat) (options : TCPOptions) :
    ∃ windowScale, scan (byteAt? packet) stop offset options =
      some ⟨RootlessRelay.parseTCPOptions packet stop offset options.mss, windowScale⟩ := by
  have hread : ∀ i, i < stop → byteAt? packet i = some (byteAt packet i) :=
    fun i hlt => byteAt?_eq (by omega)
  induction hleft : stop - offset using Nat.strong_induction_on generalizing offset options with
  | _ left ih =>
  subst hleft
  rw [scan, RootlessRelay.parseTCPOptions]
  by_cases hlt : offset < stop
  · rw [if_pos hlt, if_pos hlt, hread offset hlt]
    simp only [Option.bind_eq_bind, Option.bind_some]
    by_cases hend : byteAt packet offset = 0
    · rw [if_pos hend, if_pos hend]
      exact ⟨options.windowScale, rfl⟩
    rw [if_neg hend, if_neg hend]
    by_cases hpad : byteAt packet offset = 1
    · rw [if_pos hpad, if_pos hpad]
      exact ih _ (by omega) (offset + 1) options rfl
    rw [if_neg hpad, if_neg hpad]
    by_cases hshort : offset + 1 ≥ stop
    · rw [if_pos hshort, if_pos hshort]
      exact ⟨options.windowScale, rfl⟩
    rw [if_neg hshort, if_neg hshort, hread (offset + 1) (by omega)]
    simp only [Option.bind_some]
    by_cases hbad : byteAt packet (offset + 1) < 2 ∨ offset + byteAt packet (offset + 1) > stop
    · rw [dif_pos hbad, if_pos hbad]
      exact ⟨options.windowScale, rfl⟩
    rw [dif_neg hbad, if_neg hbad]
    have hnext := fun options' => ih _ (by omega) (offset + byteAt packet (offset + 1)) options' rfl
    by_cases hmss : byteAt packet offset = 2 ∧ byteAt packet (offset + 1) = 4
    · rw [if_pos hmss, hread (offset + 2) (by omega), hread (offset + 3) (by omega)]
      simp only [Option.bind_some]
      change ∃ windowScale, scan _ _ _ (if readUInt16BE packet (offset + 2) > 0 then
        { options with mss := some (readUInt16BE packet (offset + 2)) } else options) = _
      by_cases hpositive : readUInt16BE packet (offset + 2) > 0
      · rw [if_pos hpositive, if_pos ⟨hmss.1, hmss.2, hpositive⟩]
        exact hnext { options with mss := some (readUInt16BE packet (offset + 2)) }
      · rw [if_neg hpositive, if_neg (fun h => hpositive h.2.2)]
        exact hnext options
    rw [if_neg hmss]
    have hother : ¬(byteAt packet offset = 2 ∧ byteAt packet (offset + 1) = 4 ∧
        readUInt16BE packet (offset + 2) > 0) := fun h => hmss ⟨h.1, h.2.1⟩
    rw [if_neg hother]
    by_cases hscale : byteAt packet offset = 3 ∧ byteAt packet (offset + 1) = 3
    · rw [if_pos hscale, hread (offset + 2) (by omega)]
      exact hnext { options with windowScale := some (byteAt packet (offset + 2)) }
    · rw [if_neg hscale]
      exact hnext options
  · rw [if_neg hlt, if_neg hlt]
    exact ⟨options.windowScale, rfl⟩

end TCPOptions

end RootlessRelay
