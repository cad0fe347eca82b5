import Mathlib.Data.BitVec

/-!
# Circular sequence spaces

A protocol that numbers the items of a stream modulo `2 ^ w` keeps only the
residue of each position. `position base k` is the residue of the `k`-th item
after `base`; `distance later earlier` is the forward distance between two
residues. As long as two positions lie less than half the space apart, distance
and the half-space order `precedes` recover the order of the positions, also
across the wrap.

Every lemma is stated about offsets from a common base, so a caller can keep the
unbounded positions as ghost state and let the residues follow from them.
Nothing here looks at what the items are, and the width is a parameter
throughout.
-/

namespace SequenceSpace

variable {w : Nat}

/-- The residue of the item `k` places after `base`. The offset itself is
unbounded; only its residue is kept. -/
def position (base : BitVec w) (k : Nat) : BitVec w := base + BitVec.ofNat w k

/-- Forward distance from `earlier` to `later` around the circle. It is a
natural number below `2 ^ w`, also where `later` is in fact behind. -/
def distance (later earlier : BitVec w) : Nat := (later - earlier).toNat

/-- `a` comes before `b` when the way forward from `b` to `a` is at least half
of the circle. This is no order on residues: it only agrees with one on windows
shorter than half the space. -/
def precedes (a b : BitVec w) : Bool := decide (2 ^ (w - 1) ≤ distance a b)

@[simp] theorem position_zero (base : BitVec w) : position base 0 = base := by
  simp [position]

theorem position_add (base : BitVec w) (j k : Nat) :
    position (position base j) k = position base (j + k) := by
  simp only [position, BitVec.ofNat_add, BitVec.add_assoc]

@[simp] theorem distance_self (a : BitVec w) : distance a a = 0 := by
  simp [distance]

theorem distance_lt (a b : BitVec w) : distance a b < 2 ^ w := (a - b).isLt

theorem distance_eq_zero {a b : BitVec w} : distance a b = 0 ↔ a = b := by
  constructor
  · intro h
    have hz : a - b = 0 := BitVec.eq_of_toNat_eq (by simpa [distance] using h)
    have hadd := congrArg (· + b) hz
    simpa [BitVec.sub_add_cancel] using hadd
  · rintro rfl
    exact distance_self a

/-- Going forward by the distance reaches the later residue, so a residue and a
distance determine each other. -/
theorem position_distance (later earlier : BitVec w) :
    position earlier (distance later earlier) = later := by
  simp only [position, distance, BitVec.ofNat_toNat, BitVec.setWidth_eq]
  rw [BitVec.add_comm]
  exact BitVec.sub_add_cancel later earlier

@[simp] theorem distance_position_self (base : BitVec w) (k : Nat) :
    distance (position base k) base = k % 2 ^ w := by
  simp only [distance, position]
  rw [BitVec.add_comm, BitVec.add_sub_cancel, BitVec.toNat_ofNat]

/-- Distances between positions of one stream depend on the offsets only. The
base drops out, and with it the place where the numbers wrap. -/
theorem distance_position (base : BitVec w) (i j : Nat) :
    distance (position base (i + j)) (position base i) = j % 2 ^ w := by
  rw [← position_add]
  exact distance_position_self _ j

theorem distance_position_of_le (base : BitVec w) {i j : Nat} (h : i ≤ j)
    (hlt : j - i < 2 ^ w) : distance (position base j) (position base i) = j - i := by
  obtain ⟨k, rfl⟩ := Nat.exists_eq_add_of_le h
  rw [distance_position, Nat.add_sub_cancel_left]
  exact Nat.mod_eq_of_lt (by omega)

/-- Two different numbers are apart by one full turn, counted in both
directions. -/
theorem distance_add_distance {a b : BitVec w} (h : a ≠ b) :
    distance a b + distance b a = 2 ^ w := by
  have hpos : 0 < distance a b :=
    Nat.pos_of_ne_zero (fun hz => h (distance_eq_zero.mp hz))
  have hlt := distance_lt a b
  simp only [distance, BitVec.toNat_sub] at *
  have ha := a.isLt
  have hb := b.isLt
  by_cases hab : a.toNat ≤ b.toNat
  · have hne : a.toNat ≠ b.toNat := fun he => h (BitVec.eq_of_toNat_eq he)
    rw [Nat.mod_eq_of_lt (a := 2 ^ w - b.toNat + a.toNat) (by omega)]
    rw [show 2 ^ w - a.toNat + b.toNat = 2 ^ w + (b.toNat - a.toNat) by omega,
      Nat.add_mod_left, Nat.mod_eq_of_lt (by omega)]
    omega
  · rw [show 2 ^ w - b.toNat + a.toNat = 2 ^ w + (a.toNat - b.toNat) by omega,
      Nat.add_mod_left, Nat.mod_eq_of_lt (by omega)]
    rw [Nat.mod_eq_of_lt (a := 2 ^ w - a.toNat + b.toNat) (by omega)]
    omega

/-- Going backwards, the distance is the rest of the circle: an item that lies
behind looks like one that is far ahead. -/
theorem distance_position_of_lt (base : BitVec w) {i j : Nat} (h : i < j)
    (hlt : j - i < 2 ^ w) :
    distance (position base i) (position base j) = 2 ^ w - (j - i) := by
  have hd := distance_position_of_le base (Nat.le_of_lt h) hlt
  have hne : position base j ≠ position base i := by
    intro he
    rw [he, distance_self] at hd
    omega
  have := distance_add_distance hne
  omega

/-- Within a window shorter than the circle, residues determine positions. A
caller that bounds its window may argue about offsets instead of residues. -/
theorem position_inj {base : BitVec w} {i j : Nat} (hij : i - j < 2 ^ w)
    (hji : j - i < 2 ^ w) : position base i = position base j ↔ i = j := by
  constructor
  · intro h
    rcases Nat.lt_trichotomy i j with hlt | heq | hlt
    · have hd := distance_position_of_le base (Nat.le_of_lt hlt) hji
      rw [h, distance_self] at hd
      omega
    · exact heq
    · have hd := distance_position_of_le base (Nat.le_of_lt hlt) hij
      rw [h, distance_self] at hd
      omega
  · rintro rfl
    rfl

/-- On positions less than half the circle apart, `precedes` is the order of the
offsets, on whichever side of the wrap they lie. -/
theorem precedes_position (hw : 0 < w) (base : BitVec w) {i j : Nat}
    (hij : i - j < 2 ^ (w - 1)) (hji : j - i < 2 ^ (w - 1)) :
    precedes (position base i) (position base j) = true ↔ i < j := by
  have hhalf : 2 ^ w = 2 * 2 ^ (w - 1) := by
    rw [← Nat.pow_succ', Nat.succ_eq_add_one, Nat.sub_add_cancel hw]
  rw [precedes, decide_eq_true_iff]
  by_cases h : i < j
  · rw [distance_position_of_lt base h (by omega)]
    omega
  · rw [distance_position_of_le base (Nat.le_of_not_gt h) (by omega)]
    omega

/-- Read as a signed number, the difference of two residues is that of the
positions, as long as these are less than half the circle apart. -/
theorem toInt_sub_position (hw : 0 < w) (base : BitVec w) {i j : Nat}
    (hij : i - j < 2 ^ (w - 1)) (hji : j - i < 2 ^ (w - 1)) :
    (position base i - position base j).toInt = (i : Int) - j := by
  have hhalf : 2 ^ w = 2 * 2 ^ (w - 1) := by
    rw [← Nat.pow_succ', Nat.succ_eq_add_one, Nat.sub_add_cancel hw]
  rw [BitVec.toInt_eq_toNat_cond]
  change (if 2 * distance (position base i) (position base j) < 2 ^ w then
    (distance (position base i) (position base j) : Int)
    else (distance (position base i) (position base j) : Int) - (2 ^ w : Nat)) = _
  by_cases h : i < j
  · rw [distance_position_of_lt base h (by omega), if_neg (by omega)]
    omega
  · rw [distance_position_of_le base (Nat.le_of_not_gt h) (by omega), if_pos (by omega)]
    omega

end SequenceSpace
