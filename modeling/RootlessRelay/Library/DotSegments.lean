import Mathlib.Data.List.Basic
import Mathlib.Data.List.Induction

/-!
# Paths with dot segments

A path is a text, and its segments stand between its slashes. Empty segments and
`.` stay where they are and `..` leads out of the last name, or, with no name
left, out of where the path starts. What a walk over segments comes to is a
number of levels up and then names to go down; walks compose. Normalising a path
changes the text and not the place.

Whether something that is appended to a path stays inside it is a question about
walks alone (`inside_append_iff`): it may go up, as long as it comes down again
through the same names. The text of the path matters only for splitting it,
which is why the lemmas about `segments` and `unsplit` come first.
-/

namespace DotSegments

/-- A path, character by character. -/
abbrev Text := List Char

/-- The texts between the slashes of a path. There is always one more of them
than there are slashes. -/
def segments (path : Text) : List Text := path.splitOn '/'

/-- Segments with slashes between them: the path they came from. -/
def unsplit (parts : List Text) : Text := ['/'].intercalate parts

/-- A segment that leads down: it is not empty, not one of the dot segments, and
in one piece. -/
structure IsName (part : Text) : Prop where
  nonempty : part ≠ []
  dot : part ≠ ['.']
  dotDot : part ≠ ['.', '.']
  slash : '/' ∉ part

/-- Levels up, and then names down. Every sequence of steps comes to something
of this form. -/
structure Walk where
  ups : Nat := 0
  names : List Text := []
  deriving DecidableEq

namespace Walk

/-- One segment more: a name leads down, a double dot back up, and the others
nowhere. -/
def step (w : Walk) (part : Text) : Walk :=
  if part = [] ∨ part = ['.'] then w
  else if part = ['.', '.'] then
    if w.names = [] then { w with ups := w.ups + 1 } else { w with names := w.names.dropLast }
  else { w with names := w.names ++ [part] }

/-- Go on along segments from where a walk has got to. -/
def follow (w : Walk) (parts : List Text) : Walk := parts.foldl step w

/-- One walk after another. The second goes up through the names of the first
before it leaves them. -/
def comp (w v : Walk) : Walk :=
  if v.ups ≤ w.names.length then
    { w with names := w.names.take (w.names.length - v.ups) ++ v.names }
  else { ups := w.ups + (v.ups - w.names.length), names := v.names }

end Walk

/-- The walk along segments, from the start. -/
def walk (parts : List Text) : Walk := ({} : Walk).follow parts

/-- The place of a path, from the root or from where the reader is. Above the
root there is nothing, so a place below it has no levels up. -/
structure Location where
  absolute : Bool
  ups : Nat
  names : List Text
  deriving DecidableEq

/-- Whether the path starts at the root. -/
def isAbsolute (path : Text) : Bool := path.head? = some '/'

/-- The place that a path leads to. -/
def locate (path : Text) : Location where
  absolute := isAbsolute path
  ups := if isAbsolute path then 0 else (walk (segments path)).ups
  names := (walk (segments path)).names

/-- At the place or below it: the way down to `place` begins with the way down
to `base`. -/
structure Location.Inside (place base : Location) : Prop where
  absolute : place.absolute = base.absolute
  ups : place.ups = base.ups
  names : base.names <+: place.names

/-- A walk that ends where it started or below: it goes down again, through the
same names, as far as it has gone up. Above the root a walk does not get. -/
def Walk.Returns (absolute : Bool) (base v : Walk) : Prop :=
  (absolute = true ∨ v.ups ≤ base.names.length) ∧
    base.names.drop (base.names.length - v.ups) <+: v.names

variable {path path' : Text} {parts parts' : List Text} {part part' : Text}

theorem segments_ne_nil (path : Text) : segments path ≠ [] := List.splitOn_ne_nil _ _

@[simp] theorem segments_nil : segments [] = [[]] := List.splitOn_nil _

@[simp] theorem unsplit_segments (path : Text) : unsplit (segments path) = path :=
  List.intercalate_splitOn _

theorem segments_unsplit (hslash : ∀ part ∈ parts, '/' ∉ part) (hne : parts ≠ []) :
    segments (unsplit parts) = parts := List.splitOn_intercalate _ hslash hne

/-- A slash separates: the segments on either side of it are not affected by
each other. -/
theorem segments_append (path path' : Text) :
    segments (path ++ '/' :: path') = segments path ++ segments path' :=
  List.splitOn_append_cons_self _ _

/-- No segment of a path contains the separator. -/
theorem slash_not_mem_segments : part ∈ segments path → '/' ∉ part := by
  unfold segments
  induction path generalizing part with
  | nil =>
      intro hmem
      rw [List.splitOn_nil, List.mem_singleton] at hmem
      rw [hmem]
      exact List.not_mem_nil
  | cons c rest ih =>
      intro hmem
      rw [List.splitOn_cons_eq_if_modifyHead] at hmem
      split at hmem
      · obtain rfl | hrest := List.mem_cons.mp hmem
        · exact List.not_mem_nil
        · exact ih hrest
      · rename_i hc
        cases hsplit : rest.splitOn '/' with
        | nil => exact absurd hsplit (List.splitOn_ne_nil _ _)
        | cons first others =>
            rw [hsplit] at hmem ih
            obtain rfl | hrest := List.mem_cons.mp hmem
            · rw [List.mem_cons, not_or]
              exact ⟨fun h => hc (beq_iff_eq.mpr h.symm), ih List.mem_cons_self⟩
            · exact ih (List.mem_cons_of_mem _ hrest)

@[simp] theorem unsplit_nil : unsplit [] = [] := rfl

@[simp] theorem unsplit_singleton (part : Text) : unsplit [part] = part := by
  simp [unsplit]

theorem unsplit_cons (part : Text) (hne : parts ≠ []) :
    unsplit (part :: parts) = part ++ '/' :: unsplit parts := by
  rw [unsplit, List.intercalate_cons_of_ne_nil hne]
  simp [unsplit]

theorem unsplit_append (hne : parts ≠ []) (hne' : parts' ≠ []) :
    unsplit (parts ++ parts') = unsplit parts ++ '/' :: unsplit parts' := by
  induction parts with
  | nil => exact absurd rfl hne
  | cons part rest ih =>
      rw [List.cons_append, unsplit_cons part (by simp [hne'])]
      cases rest with
      | nil => rw [List.nil_append, unsplit_singleton]
      | cons next others =>
          rw [ih (List.cons_ne_nil _ _), unsplit_cons part (List.cons_ne_nil _ _),
            List.append_assoc, List.cons_append]

/-- Texts that are put together share a segment, the last of the one and the
first of the other. -/
theorem unsplit_glue (front back : List Text) (part part' : Text) :
    unsplit (front ++ [part]) ++ unsplit (part' :: back) =
      unsplit (front ++ (part ++ part') :: back) := by
  cases back with
  | nil =>
      rw [unsplit_singleton]
      cases front with
      | nil => simp
      | cons first rest =>
          rw [unsplit_append (List.cons_ne_nil _ _) (List.cons_ne_nil _ _),
            unsplit_append (List.cons_ne_nil _ _) (List.cons_ne_nil _ _)]
          simp
  | cons next others =>
      rw [unsplit_cons part' (List.cons_ne_nil _ _)]
      cases front with
      | nil =>
          rw [List.nil_append, List.nil_append, unsplit_cons _ (List.cons_ne_nil _ _)]
          simp
      | cons first rest =>
          rw [unsplit_append (List.cons_ne_nil _ _) (List.cons_ne_nil _ _),
            unsplit_append (List.cons_ne_nil _ _) (List.cons_ne_nil _ _),
            unsplit_cons _ (List.cons_ne_nil _ _)]
          simp

/-- The segments of two texts that are put together, without a slash between
them. -/
theorem segments_glue {front back : List Text} (h : segments path = front ++ [part])
    (h' : segments path' = part' :: back) :
    segments (path ++ path') = front ++ (part ++ part') :: back := by
  have htext : path ++ path' = unsplit (front ++ (part ++ part') :: back) := by
    rw [← unsplit_glue, ← h, ← h', unsplit_segments, unsplit_segments]
  rw [htext]
  refine segments_unsplit ?_ (by simp)
  intro q hq
  rw [List.mem_append, List.mem_cons] at hq
  obtain hfront | rfl | hback := hq
  · exact slash_not_mem_segments (h ▸ List.mem_append_left _ hfront)
  · rw [List.mem_append, not_or]
    exact ⟨slash_not_mem_segments (h ▸ List.mem_append_right _ (List.mem_singleton_self _)),
      slash_not_mem_segments (h' ▸ List.mem_cons_self)⟩
  · exact slash_not_mem_segments (h' ▸ List.mem_cons_of_mem _ hback)

theorem exists_segments_concat (path : Text) : ∃ front last, segments path = front ++ [last] :=
  ⟨_, _, (List.dropLast_append_getLast (segments_ne_nil path)).symm⟩

/-- Leaving segments out leaves characters out. -/
theorem unsplit_sublist (h : parts.Sublist parts') :
    (unsplit parts).Sublist (unsplit parts') := by
  induction h with
  | slnil => exact List.Sublist.refl _
  | @cons kept all part hsub ih =>
      by_cases hall : all = []
      · rw [hall, List.sublist_nil] at hsub
        rw [hsub]
        exact List.nil_sublist _
      · rw [unsplit_cons _ hall]
        exact ih.trans ((List.sublist_cons_self _ _).trans (List.sublist_append_right _ _))
  | @cons_cons kept all part hsub ih =>
      by_cases hkept : kept = []
      · rw [hkept, unsplit_singleton]
        by_cases hall : all = []
        · rw [hall, unsplit_singleton]
        · rw [unsplit_cons _ hall]
          exact List.sublist_append_left _ _
      · have hall : all ≠ [] := by
          rintro rfl
          exact hkept (List.sublist_nil.mp hsub)
        rw [unsplit_cons _ hkept, unsplit_cons _ hall]
        exact (List.Sublist.refl part).append (ih.cons_cons _)

/-- A segment with a character that is neither slash nor dot is a name, whatever
else is in it. -/
theorem IsName.of_mem {c : Char} (hdot : c ≠ '.') (hc : c ∈ part) (hslash : '/' ∉ part) :
    IsName part := by
  refine ⟨?_, ?_, ?_, hslash⟩
  · rintro rfl
    cases hc
  · rintro rfl
    exact hdot (List.mem_singleton.mp hc)
  · rintro rfl
    simp [hdot] at hc

namespace Walk

variable {w v : Walk}

@[simp] theorem follow_nil (w : Walk) : w.follow [] = w := rfl

theorem follow_append (w : Walk) (parts parts' : List Text) :
    w.follow (parts ++ parts') = (w.follow parts).follow parts' := List.foldl_append

theorem follow_concat (w : Walk) (parts : List Text) (part : Text) :
    w.follow (parts ++ [part]) = (w.follow parts).step part := by
  rw [follow_append]
  rfl

@[simp] theorem step_nil (w : Walk) : w.step [] = w := if_pos (.inl rfl)

theorem step_name (w : Walk) (h : IsName part) :
    w.step part = { w with names := w.names ++ [part] } := by
  rw [step, if_neg (not_or.mpr ⟨h.nonempty, h.dot⟩), if_neg h.dotDot]

@[simp] theorem comp_empty (w : Walk) : w.comp {} = w := by
  simp [comp]

/-- A step at the end of the second walk is a step at the end of both. This
carries composition through the induction over segments. -/
theorem comp_step (w v : Walk) (part : Text) : (w.comp v).step part = w.comp (v.step part) := by
  unfold step
  by_cases hstay : part = [] ∨ part = ['.']
  · rw [if_pos hstay, if_pos hstay]
  rw [if_neg hstay, if_neg hstay]
  by_cases hup : part = ['.', '.']
  · rw [if_pos hup, if_pos hup]
    obtain ⟨ups, names⟩ := v
    obtain ⟨ups', names'⟩ := w
    unfold comp
    by_cases hnames : names = []
    · subst hnames
      by_cases hle : ups + 1 ≤ names'.length
      · have hne : names'.take (names'.length - ups) ≠ [] := by
          intro hnil
          have hlength := congrArg List.length hnil
          rw [List.length_take, List.length_nil] at hlength
          omega
        have hlast : (names'.take (names'.length - ups)).dropLast =
            names'.take (names'.length - (ups + 1)) := by
          rw [List.dropLast_eq_take, List.take_take, List.length_take]
          congr 1
          omega
        simp only [if_pos (show ups ≤ names'.length by omega), if_pos hle, List.append_nil, hne,
          if_false, if_true, hlast]
      · by_cases heq : ups = names'.length
        · subst heq
          simp
        · have hlt : ¬ups ≤ names'.length := by omega
          simp only [if_neg hlt, if_neg hle, if_true]
          congr 1
          omega
    · by_cases hle : ups ≤ names'.length
      · simp only [if_pos hle, List.append_eq_nil_iff, hnames, and_false, if_false,
          List.dropLast_append_of_ne_nil hnames]
      · simp only [if_neg hle, hnames, if_false]
  · rw [if_neg hup, if_neg hup]
    obtain ⟨ups, names⟩ := v
    obtain ⟨ups', names'⟩ := w
    unfold comp
    by_cases hle : ups ≤ names'.length
    · simp only [if_pos hle, List.append_assoc]
    · simp only [if_neg hle]

/-- A walk goes on as it would from anywhere, and is then put behind what came
before. -/
theorem follow_eq_comp (w : Walk) (parts : List Text) : w.follow parts = w.comp (walk parts) := by
  induction parts using List.reverseRecOn with
  | nil => exact (comp_empty w).symm
  | append_singleton parts part ih =>
      rw [walk, follow_concat, follow_concat, ih]
      exact comp_step _ _ _

/-- The names of a walk are segments of it, in their order: a walk makes up no
names. -/
theorem names_sublist (parts : List Text) : (walk parts).names.Sublist parts := by
  induction parts using List.reverseRecOn with
  | nil => exact List.Sublist.slnil
  | append_singleton parts part ih =>
      rw [walk, follow_concat]
      change (Walk.step (walk parts) part).names.Sublist _
      have hkept := ih.trans (List.sublist_append_left parts [part])
      unfold step
      split
      · exact hkept
      split
      · split
        · exact hkept
        · exact (List.dropLast_sublist _).trans hkept
      · exact ih.append (List.Sublist.refl _)

/-- What the walk keeps are names: neither empty, nor `.` or `..`. -/
theorem isName_of_mem_walk (hslash : ∀ part ∈ parts, '/' ∉ part) :
    ∀ part ∈ (walk parts).names, IsName part := by
  induction parts using List.reverseRecOn with
  | nil => intro part hmem; cases hmem
  | append_singleton parts last ih =>
      intro part hmem
      have hbefore := ih fun q hq => hslash q (List.mem_append_left _ hq)
      rw [walk, follow_concat] at hmem
      change part ∈ (Walk.step (walk parts) last).names at hmem
      unfold step at hmem
      split at hmem
      · exact hbefore part hmem
      rename_i hstay
      split at hmem
      · split at hmem
        · exact hbefore part hmem
        · exact hbefore part (List.dropLast_subset _ hmem)
      · rename_i hup
        obtain hold | hnew := List.mem_append.mp hmem
        · exact hbefore part hold
        · obtain rfl := List.mem_singleton.mp hnew
          obtain ⟨hne, hdot⟩ := not_or.mp hstay
          exact ⟨hne, hdot, hup, hslash _ (List.mem_append_right _ (List.mem_singleton_self _))⟩

theorem names_comp (w v : Walk) :
    ∃ kept, kept.Sublist w.names ∧ (w.comp v).names = kept ++ v.names := by
  unfold Walk.comp
  split
  · exact ⟨_, List.take_sublist _ _, rfl⟩
  · exact ⟨[], List.nil_sublist _, rfl⟩

/-- The names of a step do not depend on the levels up, so relative and absolute
paths keep the same ones. -/
theorem names_step (n : Nat) (w : Walk) (part : Text) :
    (step { w with ups := n } part).names = (w.step part).names := by
  unfold step
  dsimp only
  split
  · rfl
  split
  · split <;> rfl
  · rfl

/-- Names lead down, and nothing but down. -/
theorem follow_names (w : Walk) (h : ∀ part ∈ parts, IsName part) :
    w.follow parts = { w with names := w.names ++ parts } := by
  induction parts using List.reverseRecOn with
  | nil => simp
  | append_singleton parts part ih =>
      rw [follow_concat, ih fun q hq => h q (List.mem_append_left _ hq),
        step_name _ (h part (List.mem_append_right _ (List.mem_singleton_self _)))]
      simp

/-- Levels up and names in normal order, as segments that can be followed again. -/
def stack (w : Walk) : List Text := List.replicate w.ups ['.', '.'] ++ w.names

theorem walk_ups (n : Nat) : walk (List.replicate n ['.', '.']) = { ups := n, names := [] } := by
  induction n with
  | zero => rfl
  | succ n ih =>
      rw [List.replicate_succ', walk, follow_concat]
      change Walk.step (walk _) _ = _
      rw [ih]
      rfl

theorem walk_stack (h : ∀ part ∈ w.names, IsName part) : walk w.stack = w := by
  rw [walk, stack, follow_append]
  change Walk.follow (walk _) _ = _
  rw [walk_ups, follow_names _ h, List.nil_append]

end Walk

theorem walk_append (parts parts' : List Text) :
    walk (parts ++ parts') = (walk parts).comp (walk parts') := by
  rw [walk, Walk.follow_append, Walk.follow_eq_comp]
  rfl

theorem isName_of_mem_names : ∀ part ∈ (walk (segments path)).names, IsName part :=
  Walk.isName_of_mem_walk fun _ => slash_not_mem_segments

theorem isAbsolute_append (hne : path ≠ []) (path' : Text) :
    isAbsolute (path ++ path') = isAbsolute path := by
  obtain ⟨c, rest, rfl⟩ := List.exists_cons_of_ne_nil hne
  rfl

/-- From the end of a path onwards: the place of what is appended, seen from the
place of the path. -/
theorem locate_append (hne : path ≠ []) (path' : Text) :
    locate (path ++ '/' :: path') = {
      absolute := isAbsolute path
      ups := if isAbsolute path then 0
        else ((walk (segments path)).comp (walk (segments path'))).ups
      names := ((walk (segments path)).comp (walk (segments path'))).names } := by
  unfold locate
  rw [isAbsolute_append hne, segments_append, walk_append]

theorem locate_append_nil (hne : path ≠ []) : locate (path ++ ['/']) = locate path := by
  rw [locate_append hne]
  have hempty : walk (segments []) = {} := rfl
  rw [hempty, Walk.comp_empty]
  rfl

/-- What is appended to a path stays inside it exactly if its walk returns.
Going up and down again through other names leaves it. -/
theorem inside_append_iff (hne : path ≠ []) (path' : Text) :
    (locate (path ++ '/' :: path')).Inside (locate path) ↔
      Walk.Returns (isAbsolute path) (walk (segments path)) (walk (segments path')) := by
  rw [locate_append hne]
  generalize hbase : walk (segments path) = base
  generalize walk (segments path') = v
  have hnames : base.names <+: (base.comp v).names ↔
      base.names.drop (base.names.length - v.ups) <+: v.names := by
    unfold Walk.comp
    split
    · dsimp only
      nth_rewrite 1 [← List.take_append_drop (base.names.length - v.ups) base.names]
      rw [List.prefix_append_right_inj]
    · rename_i hgt
      rw [show base.names.length - v.ups = 0 by omega, List.drop_zero]
  have hups : (if isAbsolute path then 0 else (base.comp v).ups) = (locate path).ups ↔
      isAbsolute path = true ∨ v.ups ≤ base.names.length := by
    unfold locate
    dsimp only
    rw [hbase]
    cases isAbsolute path with
    | true => simp
    | false =>
        simp only [Bool.false_eq_true, if_false, false_or]
        unfold Walk.comp
        split
        · rename_i hle
          exact iff_of_true rfl hle
        · rename_i hgt
          dsimp only
          omega
  constructor
  · rintro ⟨-, hup, hdown⟩
    refine ⟨hups.mp hup, hnames.mp ?_⟩
    rw [← hbase]
    rw [← hbase] at hdown
    exact hdown
  · rintro ⟨hup, hdown⟩
    refine ⟨rfl, hups.mpr hup, ?_⟩
    change (walk (segments path)).names <+: _
    rw [hbase]
    exact hnames.mpr hdown

theorem mem_unsplit_of_mem {c : Char} (hpart : part ∈ parts) (hc : c ∈ part) : c ∈ unsplit parts := by
  induction parts with
  | nil => cases hpart
  | cons first rest ih =>
      obtain rfl | hrest := List.mem_cons.mp hpart
      · cases rest with
        | nil => rwa [unsplit_singleton]
        | cons next others =>
            rw [unsplit_cons _ (List.cons_ne_nil _ _)]
            exact List.mem_append_left _ hc
      · rw [unsplit_cons _ (List.ne_nil_of_mem hrest)]
        exact List.mem_append_right _ (List.mem_cons_of_mem _ (ih hrest))

/-- What a walk goes down through is written in its path, character by
character. -/
theorem mem_of_mem_names {c : Char} (hpart : part ∈ (walk (segments path)).names) (hc : c ∈ part) :
    c ∈ path := by
  rw [← unsplit_segments path]
  exact mem_unsplit_of_mem ((Walk.names_sublist (segments path)).subset hpart) hc

end DotSegments
