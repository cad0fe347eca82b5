import Mathlib.Data.List.Basic
import Mathlib.Data.Nat.Basic

/-!
# Options of a bootstrap message

Options one behind another: a kind, the number of bytes of data, and the data.
Kind 0 is a single byte of padding, kind 255 the end of the list. Where an
option does not fit, the whole list is malformed.

The format differs from that of `TypeLengthValue` in what a length counts and in
what is made of a list that is cut off: there the options in front of the cut
stand, and here nothing does. Padding leaves no item behind.
-/

namespace VendorOptions

/-- An option and its data. -/
structure Item where
  kind : UInt8
  data : List UInt8
  deriving DecidableEq, Repr

/-- The options up to the end of the list, or none at all if one is cut off. A
list may also end with its bytes. -/
def decode : List UInt8 → Option (List Item)
  | [] => some []
  | kind :: rest =>
      if kind = 255 then some []
      else if kind = 0 then decode rest
      else
        match rest with
        | [] => none
        | length :: body =>
            if body.length < length.toNat then none
            else (decode (body.drop length.toNat)).map (⟨kind, body.take length.toNat⟩ :: ·)
termination_by bytes => bytes.length
decreasing_by
  · simp
  · simp only [List.length_drop, List.length_cons]
    omega

/-- The bytes of an option; the length counts the data alone. -/
def Item.encode (item : Item) : List UInt8 :=
  item.kind :: UInt8.ofNat item.data.length :: item.data

/-- The items and the end of the list, behind which anything may follow. -/
def encode (items : List Item) : List UInt8 := (items.map Item.encode).flatten ++ [255]

/-- The kind is neither padding nor the end, and the length holds in its byte.
No data at all is allowed. -/
def Item.Valid (item : Item) : Prop :=
  item.kind ≠ 0 ∧ item.kind ≠ 255 ∧ item.data.length ≤ 255

instance (item : Item) : Decidable item.Valid := inferInstanceAs (Decidable (_ ∧ _ ∧ _))

/-- The first byte of the last option of a kind, if that option has data. -/
def lastByte (kind : UInt8) (items : List Item) : Option UInt8 :=
  items.reverse.findSome? fun item => if item.kind = kind then item.data.head? else none

variable {tail body : List UInt8} {kind length : UInt8} {items : List Item} {item : Item}

@[simp] theorem decode_nil : decode [] = some [] := by rw [decode]

@[simp] theorem decode_end (tail : List UInt8) : decode (255 :: tail) = some [] := by
  cases tail <;> rw [decode, if_pos rfl]

@[simp] theorem decode_pad (tail : List UInt8) : decode (0 :: tail) = decode tail := by
  cases tail with
  | nil => simp [decode]
  | cons length body => rw [decode, if_neg (by decide), if_pos rfl]

theorem decode_truncated (hpad : kind ≠ 0) (hend : kind ≠ 255) : decode [kind] = none := by
  rw [decode, if_neg hend, if_neg hpad]

theorem decode_malformed (hpad : kind ≠ 0) (hend : kind ≠ 255) (h : body.length < length.toNat) :
    decode (kind :: length :: body) = none := by
  rw [decode, if_neg hend, if_neg hpad]
  exact if_pos h

theorem decode_item (hpad : kind ≠ 0) (hend : kind ≠ 255) (h : length.toNat ≤ body.length) :
    decode (kind :: length :: body) =
      (decode (body.drop length.toNat)).map (⟨kind, body.take length.toNat⟩ :: ·) := by
  rw [decode, if_neg hend, if_neg hpad]
  exact if_neg (Nat.not_lt.mpr h)

/-- One valid option is read back, whatever follows it. Whether the list is well
formed is decided by the rest. -/
theorem decode_encode_item (h : item.Valid) (tail : List UInt8) :
    decode (item.encode ++ tail) = (decode tail).map (item :: ·) := by
  obtain ⟨hpad, hend, hlength⟩ := h
  have hbyte : (UInt8.ofNat item.data.length).toNat = item.data.length :=
    UInt8.toNat_ofNat_of_lt' (by simp only [UInt8.size]; omega)
  change decode (item.kind :: UInt8.ofNat item.data.length :: (item.data ++ tail)) = _
  rw [decode_item hpad hend (by rw [hbyte, List.length_append]; omega), hbyte, List.take_left,
    List.drop_left]

/-- Encoded options are read back, whatever follows the end of the list, such as
padding up to a fixed size. -/
theorem decode_encode (h : ∀ item ∈ items, item.Valid) (tail : List UInt8) :
    decode (encode items ++ tail) = some items := by
  unfold encode
  induction items with
  | nil => exact decode_end tail
  | cons item rest ih =>
      obtain ⟨hfirst, hrest⟩ := List.forall_mem_cons.mp h
      rw [List.map_cons, List.flatten_cons, List.append_assoc, List.append_assoc,
        decode_encode_item hfirst, ← List.append_assoc, ih hrest]
      rfl

@[simp] theorem lastByte_nil (kind : UInt8) : lastByte kind [] = none := rfl

/-- The first option counts where no later one does, and where it is of the
kind. -/
theorem lastByte_cons (kind : UInt8) (item : Item) (items : List Item) :
    lastByte kind (item :: items) =
      (lastByte kind items).or (if item.kind = kind then item.data.head? else none) := by
  unfold lastByte
  rw [List.reverse_cons, List.findSome?_append, List.findSome?_singleton]

end VendorOptions
