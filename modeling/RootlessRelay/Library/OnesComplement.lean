import Mathlib.Algebra.BigOperators.Group.List.Basic
import Mathlib.Algebra.GroupWithZero.Nat
import Mathlib.Data.List.Induction

/-!
# One's-complement checksums

One's-complement addition of 16-bit words carries round the end; the checksum of
a byte string is the complement of the sum of its big-endian words, an odd byte
padded with a zero. The sum depends on the ordinary sum of the words alone
(`residue`), so words can be added in any order and a carry may be folded in
late. A message that carries its own checksum sums to zero.

There are two words for zero. `residue` gives the smaller one only for the sum
zero itself.
-/

namespace OnesComplement

/-- The largest word, which is also minus zero: adding it to a word that is not
zero changes nothing. -/
def top : Nat := 0xffff

/-- Addition with end-around carry. Two words carry at most once. -/
def add (a b : Nat) : Nat := if a + b > top then a + b - top else a + b

/-- The one's-complement sum of words, folding the carry in after each of them. -/
def sum (words : List Nat) : Nat := words.foldl add 0

/-- The big-endian words of a byte string. A last byte on its own is the high
byte of a word. -/
def words : List UInt8 → List Nat
  | [] => []
  | [a] => [a.toNat * 256]
  | a :: b :: rest => (a.toNat * 256 + b.toNat) :: words rest

/-- The ordinary sum of the words, without any carry. It is what an accumulator
wide enough holds. -/
def total (data : List UInt8) : Nat := (words data).sum

/-- The checksum of a byte string: the complement of the one's-complement sum. -/
def checksum (data : List UInt8) : Nat := top - sum (words data)

/-- The word that a sum of words comes to, once all its carries are folded in. -/
def residue (n : Nat) : Nat := if n = 0 then 0 else (n - 1) % top + 1

theorem residue_le (n : Nat) : residue n ≤ top := by
  unfold residue top
  split <;> omega

theorem residue_of_le {n : Nat} (h : n ≤ top) : residue n = n := by
  unfold residue
  unfold top at *
  split <;> omega

/-- A multiple of the largest word more is the same word: that is what folding a
carry takes away. -/
theorem residue_add_mul {n : Nat} (h : 0 < n) (k : Nat) : residue (n + top * k) = residue n := by
  unfold residue
  rw [if_neg (by omega), if_neg (by omega), show n + top * k - 1 = n - 1 + top * k by omega,
    Nat.add_mul_mod_self_left]

theorem add_residue (a b : Nat) : add (residue a) (residue b) = residue (a + b) := by
  unfold add residue top
  split <;> split <;> split <;> split <;> omega

theorem foldl_add {ws : List Nat} (h : ∀ w ∈ ws, w ≤ top) (n : Nat) :
    ws.foldl add (residue n) = residue (n + ws.sum) := by
  induction ws generalizing n with
  | nil => rfl
  | cons w rest ih =>
      obtain ⟨hfirst, hrest⟩ := List.forall_mem_cons.mp h
      have hw : add (residue n) w = residue (n + w) := by
        rw [← add_residue, residue_of_le hfirst]
      rw [List.foldl_cons, hw, ih hrest, List.sum_cons, Nat.add_assoc]

theorem words_le (data : List UInt8) : ∀ w ∈ words data, w ≤ top := by
  unfold top
  induction data using words.induct with
  | case1 => simp [words]
  | case2 a =>
      have := a.toNat_lt
      simp only [words, List.mem_singleton, forall_eq]
      omega
  | case3 a b rest ih =>
      have := a.toNat_lt
      have := b.toNat_lt
      simp only [words, List.forall_mem_cons]
      exact ⟨by omega, ih⟩

theorem sum_words (data : List UInt8) : sum (words data) = residue (total data) := by
  have h := foldl_add (words_le data) 0
  rwa [Nat.zero_add] at h

theorem checksum_eq (data : List UInt8) : checksum data = top - residue (total data) := by
  rw [checksum, sum_words]

theorem checksum_le (data : List UInt8) : checksum data ≤ top := Nat.sub_le _ _

@[simp] theorem total_nil : total [] = 0 := rfl

@[simp] theorem total_cons_cons (a b : UInt8) (rest : List UInt8) :
    total (a :: b :: rest) = a.toNat * 256 + b.toNat + total rest := by
  simp [total, words]

/-- Whole words in front are summed on their own. Behind an odd byte the words
would be shifted. -/
theorem total_append {data : List UInt8} (h : data.length % 2 = 0) (data' : List UInt8) :
    total (data ++ data') = total data + total data' := by
  induction data using words.induct with
  | case1 => simp
  | case2 a => simp at h
  | case3 a b rest ih =>
      have hrest : rest.length % 2 = 0 := by
        simp only [List.length_cons] at h
        omega
      rw [List.cons_append, List.cons_append, total_cons_cons, total_cons_cons, ih hrest,
        Nat.add_assoc (a.toNat * 256 + b.toNat)]

/-- The bytes of a word, the high byte first. -/
def bytes (word : Nat) : List UInt8 := [UInt8.ofNat (word / 256), UInt8.ofNat (word % 256)]

@[simp] theorem bytes_length (word : Nat) : (bytes word).length = 2 := rfl

theorem total_bytes_append {word : Nat} (h : word ≤ top) (data : List UInt8) :
    total (bytes word ++ data) = word + total data := by
  unfold top at h
  have hhigh : (UInt8.ofNat (word / 256)).toNat = word / 256 :=
    UInt8.toNat_ofNat_of_lt' (by simp only [UInt8.size]; omega)
  have hlow : (UInt8.ofNat (word % 256)).toNat = word % 256 :=
    UInt8.toNat_ofNat_of_lt' (by simp only [UInt8.size]; omega)
  change total (_ :: _ :: data) = _
  rw [total_cons_cons, hhigh, hlow]
  omega

theorem residue_eq_top_iff {n : Nat} (h : 0 < n) : residue n = top ↔ top ∣ n := by
  unfold residue top
  rw [if_neg (by omega)]
  constructor
  · intro hlast
    omega
  · rintro ⟨k, rfl⟩
    omega

/-- The words of a message that is not all zeros come to zero, which as a
checksum is the other zero, exactly when their sum is a multiple of the largest
word. -/
theorem checksum_eq_zero_iff {data : List UInt8} (h : 0 < total data) :
    checksum data = 0 ↔ top ∣ total data := by
  have hle := residue_le (total data)
  rw [checksum_eq, ← residue_eq_top_iff h]
  omega

/-- A message that carries its own checksum verifies. The checksum is computed
with zero in its place, which stands at an even offset. -/
theorem checksum_verifies {front : List UInt8} (h : front.length % 2 = 0) (back : List UInt8) :
    checksum (front ++ bytes (checksum (front ++ bytes 0 ++ back)) ++ back) = 0 := by
  have hfront : ∀ word ≤ top, total (front ++ bytes word ++ back) =
      total (front ++ bytes 0 ++ back) + word := by
    intro word hword
    rw [List.append_assoc, List.append_assoc, total_append h, total_append h,
      total_bytes_append hword, total_bytes_append (Nat.zero_le _)]
    omega
  have hle := checksum_le (front ++ bytes 0 ++ back)
  have hr := residue_le (total (front ++ bytes 0 ++ back))
  rw [checksum_eq, hfront _ hle, ← add_residue, residue_of_le hle, checksum_eq]
  unfold add
  split <;> omega

end OnesComplement
