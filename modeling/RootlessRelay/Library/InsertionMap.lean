import Mathlib.Data.List.Nodup

/-!
# Insertion-ordered maps

An association list with the update rules of an insertion-ordered map: writing
to a present key keeps its place, writing to a new key appends. The lemmas say
which entries an update keeps.

Distinct keys are not part of the type. They are a hypothesis of the lemmas that
need them, and every update preserves them, so an invariant of the caller
carries the fact. The last lemmas change keys and values along an injective
function: two maps that differ in how they spell their keys stay in step.
-/

namespace InsertionMap

variable {κ ν : Type} [DecidableEq κ]

/-- Whether the map has an entry under this key. -/
def hasKey (m : List (κ × ν)) (k : κ) : Bool := m.any fun e => e.1 = k

/-- Write a value: in place under a key that is present, at the end under a new
one. -/
def set (m : List (κ × ν)) (k : κ) (v : ν) : List (κ × ν) :=
  if hasKey m k then m.map fun e => if e.1 = k then (k, v) else e else m ++ [(k, v)]

/-- Remove every entry under the key; of an absent key there is none. -/
def delete (m : List (κ × ν)) (k : κ) : List (κ × ν) := m.filter fun e => e.1 ≠ k

/-- The keys, in the order of the entries. -/
def keys (m : List (κ × ν)) : List κ := m.map Prod.fst

/-- The value under a key. With distinct keys there is at most one. -/
def get (m : List (κ × ν)) (k : κ) : Option ν := (m.find? fun e => e.1 = k).map Prod.snd

theorem hasKey_iff {m : List (κ × ν)} {k : κ} : hasKey m k = true ↔ k ∈ keys m := by
  simp [hasKey, keys]

@[simp] theorem get_nil (k : κ) : get ([] : List (κ × ν)) k = none := rfl

theorem get_cons (e : κ × ν) (m : List (κ × ν)) (k : κ) :
    get (e :: m) k = if e.1 = k then some e.2 else get m k := by
  unfold get
  by_cases h : e.1 = k
  · simp [h]
  · simp [h]

theorem get_append (m m' : List (κ × ν)) (k : κ) :
    get (m ++ m') k = (get m k).or (get m' k) := by
  induction m with
  | nil => simp
  | cons e rest ih =>
      rw [List.cons_append, get_cons, get_cons, ih]
      split <;> simp

theorem get_eq_none_iff {m : List (κ × ν)} {k : κ} : get m k = none ↔ k ∉ keys m := by
  induction m with
  | nil => simp [keys]
  | cons e rest ih =>
      rw [get_cons]
      by_cases h : e.1 = k
      · simp [keys, h]
      · rw [if_neg h, ih]
        simp [keys, Ne.symm h]

theorem hasKey_eq_isSome (m : List (κ × ν)) (k : κ) : hasKey m k = (get m k).isSome := by
  rw [Bool.eq_iff_iff, hasKey_iff, Option.isSome_iff_ne_none, Ne, get_eq_none_iff, not_not]

theorem mem_of_get {m : List (κ × ν)} {k : κ} {v : ν} (h : get m k = some v) : (k, v) ∈ m := by
  induction m with
  | nil => cases h
  | cons e rest ih =>
      rw [get_cons] at h
      split at h
      · rename_i hk
        rw [← hk, ← Option.some.inj h]
        exact List.mem_cons_self
      · exact List.mem_cons_of_mem _ (ih h)

/-- With distinct keys, reading a key gives the value of its entry. -/
theorem get_of_mem {m : List (κ × ν)} {k : κ} {v : ν} (hnodup : (keys m).Nodup)
    (h : (k, v) ∈ m) : get m k = some v := by
  induction m with
  | nil => cases h
  | cons e rest ih =>
      simp only [keys, List.map_cons, List.nodup_cons] at hnodup
      rw [get_cons]
      rcases List.mem_cons.mp h with rfl | hrest
      · exact if_pos rfl
      · have hne : e.1 ≠ k := fun hk => hnodup.1 (hk ▸ List.mem_map_of_mem hrest)
        rw [if_neg hne]
        exact ih hnodup.2 hrest

/-- Overwriting in place is read back under its key, if the key was there at
all. -/
theorem get_map_overwrite (m : List (κ × ν)) (k k' : κ) (v : ν) :
    get (m.map fun e => if e.1 = k then (k, v) else e) k' =
      if k = k' ∧ k ∈ keys m then some v else get m k' := by
  induction m with
  | nil => simp [keys]
  | cons e rest ih =>
      rw [List.map_cons, get_cons, get_cons, ih]
      by_cases he : e.1 = k <;> by_cases hk : k = k'
      · simp [he, hk, keys]
      · simp [he, hk]
      · subst hk
        have hmem : k ∈ keys (e :: rest) ↔ k ∈ keys rest := by simp [keys, Ne.symm he]
        simp only [hmem, if_neg he]
      · simp [he, hk]

theorem get_set (m : List (κ × ν)) (k k' : κ) (v : ν) :
    get (set m k v) k' = if k = k' then some v else get m k' := by
  unfold set
  split
  · rename_i hpresent
    rw [get_map_overwrite]
    simp [hasKey_iff.mp hpresent]
  · rename_i habsent
    rw [get_append, get_cons, get_nil]
    by_cases hk : k = k'
    · have hnone : get m k' = none := get_eq_none_iff.mpr (hk ▸ mt hasKey_iff.mpr habsent)
      simp [hk, hnone]
    · simp [hk]

/-- Deleting a key changes nothing but the entry of that key. The keys of a map
need not be unique for that. -/
theorem get_delete (m : List (κ × ν)) (k k' : κ) :
    get (delete m k) k' = if k = k' then none else get m k' := by
  induction m with
  | nil => simp [delete]
  | cons e rest ih =>
      rw [get_cons]
      by_cases he : e.1 = k
      · rw [delete, List.filter_cons_of_neg (by simpa using he)]
        change get (delete rest k) k' = _
        rw [ih]
        by_cases hk' : k = k'
        · rw [if_pos hk', if_pos hk']
        · rw [if_neg hk', if_neg hk', if_neg (by rwa [he])]
      · rw [delete, List.filter_cons_of_pos (by simpa using he), get_cons]
        change (if e.1 = k' then some e.2 else get (delete rest k) k') = _
        rw [ih]
        by_cases hk' : k = k'
        · have hne : e.1 ≠ k' := hk' ▸ he
          simp [hk', hne]
        · simp [hk']

/-- Writing to a new key appends the entry, and leaves those in front of it
alone. -/
theorem set_of_fresh {m : List (κ × ν)} {k : κ} (h : k ∉ keys m) (v : ν) :
    set m k v = m ++ [(k, v)] := by
  rw [set, if_neg (mt hasKey_iff.mp h)]

/-- With distinct keys, a filter keeps an entry exactly if it satisfies the
test. -/
theorem get_filter {m : List (κ × ν)} (hnodup : (keys m).Nodup) (p : κ × ν → Bool) {k : κ} {v : ν}
    (h : get m k = some v) : get (m.filter p) k = if p (k, v) then some v else none := by
  have hkept : (keys (m.filter p)).Nodup := List.Nodup.sublist (List.filter_sublist.map _) hnodup
  split
  · rename_i hp
    exact get_of_mem hkept (List.mem_filter.mpr ⟨mem_of_get h, hp⟩)
  · rename_i hp
    refine get_eq_none_iff.mpr fun hmem => ?_
    obtain ⟨⟨k', v'⟩, hentry, rfl⟩ := List.mem_map.mp hmem
    obtain ⟨hold, hp'⟩ := List.mem_filter.mp hentry
    have hsame := (get_of_mem hnodup hold).symm.trans h
    exact hp (Option.some.inj hsame ▸ hp')

theorem length_delete_le (m : List (κ × ν)) (k : κ) : (delete m k).length ≤ m.length :=
  List.length_filter_le _ m

theorem keys_delete_nodup {m : List (κ × ν)} (h : (keys m).Nodup) (k : κ) :
    (keys (delete m k)).Nodup :=
  List.Nodup.sublist (List.filter_sublist.map _) h

omit [DecidableEq κ] in
theorem keys_append_nodup {m : List (κ × ν)} {k : κ} {v : ν} (h : (keys m).Nodup)
    (hk : k ∉ keys m) : (keys (m ++ [(k, v)])).Nodup := by
  simp only [keys, List.map_append, List.map_cons, List.map_nil] at *
  rw [List.nodup_append]
  refine ⟨h, List.nodup_singleton k, ?_⟩
  intro a ha b hb
  rw [List.mem_singleton.mp hb]
  rintro rfl
  exact hk ha

/-- With distinct keys, deleting a present key removes exactly its entry. Sums
over the entries change by that entry's share. -/
theorem perm_cons_delete {m : List (κ × ν)} (h : (keys m).Nodup) {e : κ × ν} (he : e ∈ m) :
    m.Perm (e :: delete m e.1) := by
  induction m with
  | nil => cases he
  | cons a rest ih =>
      simp only [keys, List.map_cons, List.nodup_cons] at h
      rcases List.mem_cons.mp he with rfl | hrest
      · have hkeep : delete rest e.1 = rest := by
          refine List.filter_eq_self.mpr fun x hx => ?_
          have hne : x.1 ≠ e.1 := fun hx' => h.1 (hx' ▸ List.mem_map_of_mem hx)
          simpa using hne
        have hdrop : delete (e :: rest) e.1 = rest := by
          rw [delete, List.filter_cons_of_neg (by simp)]
          exact hkeep
        rw [hdrop]
      · have hne : a.1 ≠ e.1 := fun ha => h.1 (ha ▸ List.mem_map_of_mem hrest)
        have hkeep : delete (a :: rest) e.1 = a :: delete rest e.1 :=
          List.filter_cons_of_pos (by simpa using hne)
        rw [hkeep]
        exact ((ih h.2 hrest).cons a).trans (List.Perm.swap _ _ _)

section Relabel

variable {κ' ν' : Type} [DecidableEq κ'] {f : κ → κ'}

theorem hasKey_relabel (hf : f.Injective) (g : ν → ν') (m : List (κ × ν)) (k : κ) :
    hasKey (m.map (Prod.map f g)) (f k) = hasKey m k := by
  unfold hasKey
  rw [List.any_map]
  refine congrArg m.any (funext fun e => ?_)
  exact decide_eq_decide.mpr hf.eq_iff

theorem get_relabel (hf : f.Injective) (g : ν → ν') (m : List (κ × ν)) (k : κ) :
    get (m.map (Prod.map f g)) (f k) = (get m k).map g := by
  induction m with
  | nil => rfl
  | cons e rest ih =>
      rw [List.map_cons, get_cons, get_cons, ih]
      by_cases he : e.1 = k
      · simp [he]
      · simp [he, hf.eq_iff]

/-- Writing commutes with renaming the keys, if no two of them get the same
name. -/
theorem set_relabel (hf : f.Injective) (g : ν → ν') (m : List (κ × ν)) (k : κ) (v : ν) :
    InsertionMap.set (m.map (Prod.map f g)) (f k) (g v) =
      (InsertionMap.set m k v).map (Prod.map f g) := by
  unfold InsertionMap.set
  rw [hasKey_relabel hf]
  split
  · rw [List.map_map, List.map_map]
    refine List.map_congr_left fun e _ => ?_
    by_cases he : e.1 = k
    · simp [he]
    · simp [he, hf.eq_iff]
  · simp

theorem delete_relabel (hf : f.Injective) (g : ν → ν') (m : List (κ × ν)) (k : κ) :
    delete (m.map (Prod.map f g)) (f k) = (delete m k).map (Prod.map f g) := by
  unfold delete
  rw [List.filter_map]
  refine congrArg (List.map _) (List.filter_congr fun e _ => ?_)
  exact decide_eq_decide.mpr (not_congr hf.eq_iff)

end Relabel

end InsertionMap
