import Mathlib.Data.List.Basic
import Mathlib.Data.Nat.Basic

/-!
# Option lists

Options one behind another: a kind, a length that counts itself and the kind,
and the data. Kind 0 ends the list and kind 1 is a single byte of padding. An
option whose length does not fit ends the list as well; what is decoded in front
of it stands.

`decode` is the meaning of a list, as a structural recursion over its bytes. A
reader that keeps an index into a buffer is compared with it through the suffix
that starts at the index. Which options have a value, and of what form, is left
to the caller (`lastValue`).
-/

namespace TypeLengthValue

/-- A byte of padding, or an option with its data. -/
inductive Item
  | pad
  | field (kind : UInt8) (data : List UInt8)
  deriving DecidableEq, Repr

/-- The items of a list up to its end, or up to the first that is malformed.
Nothing is reported about the latter. -/
def decode : List UInt8 → List Item
  | [] => []
  | [kind] => if kind = 1 then [.pad] else []
  | kind :: length :: body =>
      if kind = 0 then []
      else if kind = 1 then .pad :: decode (length :: body)
      else if length.toNat < 2 ∨ body.length + 2 < length.toNat then []
      else .field kind (body.take (length.toNat - 2)) :: decode (body.drop (length.toNat - 2))
termination_by bytes => bytes.length
decreasing_by
  · simp
  · simp only [List.length_drop, List.length_cons]
    omega

/-- The bytes of an item; the length counts the two bytes in front of the data. -/
def Item.encode : Item → List UInt8
  | .pad => [1]
  | .field kind data => kind :: UInt8.ofNat (data.length + 2) :: data

/-- The bytes of items, one behind another, without an end of the list. -/
def encode (items : List Item) : List UInt8 := (items.map Item.encode).flatten

/-- The kind is one that has a length, and the length holds in its byte. Padding
always is valid. -/
def Item.Valid : Item → Prop
  | .pad => True
  | .field kind data => kind ≠ 0 ∧ kind ≠ 1 ∧ data.length ≤ 253

instance : (item : Item) → Decidable item.Valid
  | .pad => inferInstanceAs (Decidable True)
  | .field _ _ => inferInstanceAs (Decidable (_ ∧ _ ∧ _))

/-- Nothing, or the end of the list with anything behind it. Either ends what is
decoded. -/
def Ends (tail : List UInt8) : Prop := tail.head? = none ∨ tail.head? = some 0

instance (tail : List UInt8) : Decidable (Ends tail) := inferInstanceAs (Decidable (_ ∨ _))

/-- The value of the last item that has one. Readers that overwrite a variable
as they go come to the same. -/
def lastValue {α : Type} (value : Item → Option α) (items : List Item) : Option α :=
  (items.filterMap value).getLast?

variable {bytes tail body : List UInt8} {kind length : UInt8} {items : List Item}

@[simp] theorem decode_nil : decode [] = [] := by rw [decode]

@[simp] theorem decode_end (tail : List UInt8) : decode (0 :: tail) = [] := by
  cases tail with
  | nil => simp [decode]
  | cons length body => rw [decode, if_pos rfl]

@[simp] theorem decode_pad (tail : List UInt8) : decode (1 :: tail) = .pad :: decode tail := by
  cases tail with
  | nil => simp [decode]
  | cons length body => rw [decode, if_neg (by decide), if_pos rfl]

theorem decode_truncated (hpad : kind ≠ 1) : decode [kind] = [] := by
  rw [decode, if_neg hpad]

theorem decode_malformed (hend : kind ≠ 0) (hpad : kind ≠ 1)
    (h : length.toNat < 2 ∨ body.length + 2 < length.toNat) :
    decode (kind :: length :: body) = [] := by
  rw [decode, if_neg hend, if_neg hpad, if_pos h]

theorem decode_field (hend : kind ≠ 0) (hpad : kind ≠ 1) (htwo : 2 ≤ length.toNat)
    (hfits : length.toNat ≤ body.length + 2) :
    decode (kind :: length :: body) =
      .field kind (body.take (length.toNat - 2)) :: decode (body.drop (length.toNat - 2)) := by
  rw [decode, if_neg hend, if_neg hpad, if_neg (by omega)]

theorem decode_of_ends (h : Ends tail) : decode tail = [] := by
  cases tail with
  | nil => exact decode_nil
  | cons first rest =>
      obtain hnone | hzero := h
      · cases hnone
      · obtain rfl : first = 0 := Option.some.inj hzero
        exact decode_end rest

/-- One valid item is read back, whatever follows it, since its length says
where it ends. -/
theorem decode_encode_item {item : Item} (h : item.Valid) (tail : List UInt8) :
    decode (item.encode ++ tail) = item :: decode tail := by
  cases item with
  | pad => exact decode_pad tail
  | field kind data =>
      obtain ⟨hend, hpad, hlength⟩ := h
      have hbyte : (UInt8.ofNat (data.length + 2)).toNat = data.length + 2 :=
        UInt8.toNat_ofNat_of_lt' (by simp only [UInt8.size]; omega)
      change decode (kind :: UInt8.ofNat (data.length + 2) :: (data ++ tail)) = _
      rw [decode_field hend hpad (by omega) (by rw [List.length_append]; omega), hbyte,
        Nat.add_sub_cancel, List.take_left, List.drop_left]

/-- Encoded items are read back up to the end of the list. What stands behind
the end is not looked at. -/
theorem decode_encode (h : ∀ item ∈ items, item.Valid) (hend : Ends tail) :
    decode (encode items ++ tail) = items := by
  induction items with
  | nil => exact decode_of_ends hend
  | cons item rest ih =>
      obtain ⟨hfirst, hrest⟩ := List.forall_mem_cons.mp h
      rw [encode, List.map_cons, List.flatten_cons, List.append_assoc, decode_encode_item hfirst]
      exact congrArg (item :: ·) (ih hrest)

@[simp] theorem lastValue_nil {α : Type} (value : Item → Option α) : lastValue value [] = none := rfl

/-- The first item counts where no later one does: this is the step of an
induction from the front. -/
theorem lastValue_cons {α : Type} (value : Item → Option α) (item : Item) (items : List Item) :
    lastValue value (item :: items) = (lastValue value items).or (value item) := by
  unfold lastValue
  rw [List.filterMap_cons]
  cases value item with
  | none => rw [Option.or_none]
  | some v =>
      dsimp only
      cases items.filterMap value with
      | nil => rfl
      | cons w rest =>
          rw [List.getLast?_cons_cons, List.getLast?_cons]
          rfl

end TypeLengthValue
