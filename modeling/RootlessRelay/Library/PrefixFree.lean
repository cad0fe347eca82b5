import Mathlib.Data.List.Basic
import Mathlib.Data.Nat.Basic
import Mathlib.Order.Basic

/-!
# Reading items off a string

Items are written one behind another, without a separator. When no item's text is the
beginning of another one's, a reader that takes one item after the other has no choice: of
two ways to read a string the longer one goes on where the shorter one ends.

A reader also has a bound: a message announces how many items it has. `Reading n` is what
such a reader finds. It ends behind the last of the `n` items, or in front of the first
text that is not an item; it always exists, and there is only one. Nothing here looks at
how an item is written.
-/

namespace PrefixFree

variable {α β : Type*} {encode : α → List β} {n : Nat} {data rest rest' tail tail' : List β}
  {items items' : List α}

/-- No item's text is the beginning of another one's. In this form an item can
be split off whatever stands behind it. -/
def Unambiguous (encode : α → List β) : Prop :=
  ∀ ⦃a a' tail tail'⦄, encode a ++ tail = encode a' ++ tail' → a = a' ∧ tail = tail'

/-- The texts of the items, one behind another, without a separator. -/
def encodeAll (encode : α → List β) (items : List α) : List β := items.flatMap encode

@[simp] theorem encodeAll_nil : encodeAll encode [] = [] := rfl

@[simp] theorem encodeAll_cons (a : α) (items : List α) :
    encodeAll encode (a :: items) = encode a ++ encodeAll encode items := List.flatMap_cons

/-- What a reader finds that looks for at most `n` items: the items, and what
stands behind them. When there are fewer than `n`, what stands behind them
starts with no item. -/
structure Reading (encode : α → List β) (n : Nat) (data : List β) (items : List α)
    (rest : List β) : Prop where
  split : data = encodeAll encode items ++ rest
  ends : items.length = n ∨ items.length < n ∧ ∀ a tail, rest ≠ encode a ++ tail

theorem Reading.length_le (h : Reading encode n data items rest) : items.length ≤ n :=
  h.ends.elim Nat.le_of_eq fun hfew => hfew.1.le

/-- Every string can be read in this way, since a reader that finds no item
stops. -/
theorem exists_reading (encode : α → List β) (n : Nat) (data : List β) :
    ∃ items rest, Reading encode n data items rest := by
  induction n generalizing data with
  | zero => exact ⟨[], data, rfl, .inl rfl⟩
  | succ n ih =>
      by_cases hitem : ∃ a tail, data = encode a ++ tail
      · obtain ⟨a, tail, rfl⟩ := hitem
        obtain ⟨items, rest, rfl, hends⟩ := ih tail
        refine ⟨a :: items, rest, by rw [encodeAll_cons, List.append_assoc], ?_⟩
        rw [List.length_cons]
        obtain hcount | ⟨hcount, hstuck⟩ := hends
        · exact .inl (congrArg (· + 1) hcount)
        · exact .inr ⟨Nat.succ_lt_succ hcount, hstuck⟩
      · exact ⟨[], data, rfl, .inr ⟨Nat.succ_pos n, fun a tail heq => hitem ⟨a, tail, heq⟩⟩⟩

/-- Of two ways to read a string the longer one goes on where the shorter one
ends. The induction splits one item off both of them at a time. -/
theorem Unambiguous.extends (h : Unambiguous encode)
    (heq : encodeAll encode items ++ rest = encodeAll encode items' ++ rest')
    (hle : items.length ≤ items'.length) :
    ∃ more, items' = items ++ more ∧ rest = encodeAll encode more ++ rest' := by
  induction items generalizing items' with
  | nil => exact ⟨items', rfl, heq⟩
  | cons a items ih =>
      cases items' with
      | nil => exact absurd hle (Nat.not_succ_le_zero _)
      | cons a' items' =>
          rw [encodeAll_cons, encodeAll_cons, List.append_assoc, List.append_assoc] at heq
          obtain ⟨rfl, hbehind⟩ := h heq
          obtain ⟨more, rfl, hrest⟩ := ih hbehind (Nat.le_of_succ_le_succ hle)
          exact ⟨more, rfl, hrest⟩

/-- As many items as the reader looks for are all that it finds, and it finds
them in whatever other way the string was written. -/
theorem Reading.eq_of_length (hencode : Unambiguous encode)
    (h : Reading encode n data items rest) (hsplit : data = encodeAll encode items' ++ rest')
    (hlength : items'.length = n) : items = items' ∧ rest = rest' := by
  obtain ⟨more, rfl, hrest⟩ :=
    hencode.extends (h.split.symm.trans hsplit) (h.length_le.trans hlength.ge)
  cases more with
  | nil => exact ⟨(List.append_nil _).symm, hrest⟩
  | cons a more =>
      rw [List.length_append, List.length_cons] at hlength
      rw [encodeAll_cons, List.append_assoc] at hrest
      obtain hcount | ⟨-, hstuck⟩ := h.ends
      · omega
      · exact absurd hrest (hstuck a _)

end PrefixFree
