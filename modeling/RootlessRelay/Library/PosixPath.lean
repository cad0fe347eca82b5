import RootlessRelay.Library.DotSegments

/-!
# POSIX paths

`normalize` and `join` as the standard path library has them: dot segments are
resolved and repeated slashes collapse, a slash at the end is kept, and nothing
at all is `.`.

The place of a path is not changed by it. The functions are written over the
segments of a path, one step for each, and not over its characters; a normalised
path is then characterised by what it keeps: the names of the walk, the dots
that lead above its start if it is relative, and the empty segments that a slash
at either end leaves.
-/

namespace PosixPath

open DotSegments

/-- One segment more, on those that have been kept. A double dot takes back the
last name; where there is none it is kept or dropped, depending on whether the
path may lead above its start. -/
def pushSegment (allowAboveRoot : Bool) (kept : List Text) (part : Text) : List Text :=
  if part = [] ∨ part = ['.'] then kept
  else if part = ['.', '.'] then
    if kept ≠ [] ∧ kept.getLast? ≠ some ['.', '.'] then kept.dropLast
    else if allowAboveRoot then kept ++ [['.', '.']] else kept
  else kept ++ [part]

/-- The segments of a path with its dots resolved, joined again. -/
def normalizeString (path : Text) (allowAboveRoot : Bool) : Text :=
  unsplit ((segments path).foldl (pushSegment allowAboveRoot) [])

/-- Whether the path ends with a slash. -/
def trailingSeparator (path : Text) : Bool := path.getLast? = some '/'

/-- Resolve the dots of a path and collapse its slashes. An empty path is the
current place, and a slash at the end stays. -/
def normalize (path : Text) : Text :=
  if path = [] then ['.']
  else
    let normal := normalizeString path !(isAbsolute path)
    if normal = [] then
      if isAbsolute path then ['/'] else if trailingSeparator path then ['.', '/'] else ['.']
    else
      let normal := if trailingSeparator path then normal ++ ['/'] else normal
      if isAbsolute path then '/' :: normal else normal

/-- The paths that are not empty, with slashes between them, normalised as one
path. A path in the middle may lead back over those in front. -/
def join (paths : List Text) : Text := normalize (unsplit (paths.filter (· ≠ [])))

theorem normalize_ne_nil (path : Text) : normalize path ≠ [] := by
  unfold normalize
  dsimp only
  split_ifs <;> simp_all

/-- The segments that are kept of a walk: above the root there is nothing, so an
absolute walk keeps its names only. -/
def keptParts (absolute : Bool) (w : Walk) : List Text := if absolute then w.names else w.stack

/-- The segments that normalisation keeps: those of the walk along the path. -/
def normalParts (path : Text) : List Text := keptParts (isAbsolute path) (walk (segments path))

variable {path : Text} {parts : List Text} {part : Text} {absolute : Bool} {w : Walk}

theorem getLast?_stack {w : Walk} (h : ∀ part ∈ w.names, IsName part) (hne : w.names ≠ []) :
    w.stack.getLast? ≠ some ['.', '.'] := by
  intro hlast
  rw [Walk.stack, List.getLast?_append_of_ne_nil _ hne] at hlast
  exact (h _ (List.mem_of_getLast? hlast)).dotDot rfl

/-- The segments that are kept are the walk, above the root or not. The
induction goes over the segments from behind, as the walk takes them. -/
theorem foldl_pushSegment (hslash : ∀ part ∈ parts, '/' ∉ part) :
    parts.foldl (pushSegment true) [] = (walk parts).stack ∧
      parts.foldl (pushSegment false) [] = (walk parts).names := by
  induction parts using List.reverseRecOn with
  | nil => exact ⟨rfl, rfl⟩
  | append_singleton parts part ih =>
      have hbefore : ∀ q ∈ parts, '/' ∉ q := fun q hq => hslash q (List.mem_append_left _ hq)
      obtain ⟨habove, hroot⟩ := ih hbefore
      have hnames := Walk.isName_of_mem_walk hbefore
      have hwalk : walk (parts ++ [part]) = (walk parts).step part := Walk.follow_concat _ _ _
      rw [List.foldl_append, List.foldl_append, habove, hroot, hwalk, List.foldl_cons,
        List.foldl_nil, List.foldl_cons, List.foldl_nil]
      generalize walk parts = w at hnames
      unfold pushSegment Walk.step
      by_cases hstay : part = [] ∨ part = ['.']
      · rw [if_pos hstay, if_pos hstay, if_pos hstay]
        exact ⟨rfl, rfl⟩
      rw [if_neg hstay, if_neg hstay, if_neg hstay]
      by_cases hup : part = ['.', '.']
      · rw [if_pos hup, if_pos hup, if_pos hup]
        by_cases hempty : w.names = []
        · have hstack : w.stack = List.replicate w.ups ['.', '.'] := by
            rw [Walk.stack, hempty, List.append_nil]
          have hlast : ¬(w.stack ≠ [] ∧ w.stack.getLast? ≠ some ['.', '.']) := by
            rw [hstack]
            rintro ⟨hne, hdots⟩
            refine hdots ?_
            rw [List.getLast?_replicate, if_neg]
            rintro hzero
            rw [hzero] at hne
            exact hne rfl
          rw [if_neg hlast, if_pos rfl, if_pos hempty, if_neg (fun h => h.1 hempty),
            if_neg (by decide)]
          refine ⟨?_, rfl⟩
          rw [hstack, Walk.stack, hempty, List.append_nil, ← List.replicate_succ']
        · have hstack : w.stack ≠ [] := by
            rw [Walk.stack]
            exact List.append_ne_nil_of_right_ne_nil _ hempty
          have hnames' : w.names.getLast? ≠ some ['.', '.'] := by
            intro hlast
            exact (hnames _ (List.mem_of_getLast? hlast)).dotDot rfl
          rw [if_pos ⟨hstack, getLast?_stack hnames hempty⟩, if_neg hempty,
            if_pos ⟨hempty, hnames'⟩]
          refine ⟨?_, rfl⟩
          rw [Walk.stack, Walk.stack, List.dropLast_append_of_ne_nil hempty]
      · rw [if_neg hup, if_neg hup, if_neg hup]
        exact ⟨List.append_assoc _ _ _, rfl⟩

theorem normalizeString_eq (path : Text) :
    normalizeString path (!isAbsolute path) = unsplit (normalParts path) := by
  obtain ⟨habove, hroot⟩ :=
    @foldl_pushSegment (segments path) fun _ => slash_not_mem_segments
  unfold normalizeString normalParts
  cases isAbsolute path with
  | true => exact congrArg unsplit hroot
  | false => exact congrArg unsplit habove

/-- Dots lead up, and what is kept behind them are the names. There are no dots
between names. -/
theorem keptParts_eq (absolute : Bool) (w : Walk) :
    ∃ n, keptParts absolute w = List.replicate n ['.', '.'] ++ w.names := by
  unfold keptParts
  split
  · exact ⟨0, rfl⟩
  · exact ⟨w.ups, rfl⟩

theorem mem_keptParts (h : part ∈ keptParts absolute w) : part = ['.', '.'] ∨ part ∈ w.names := by
  obtain ⟨n, hn⟩ := keptParts_eq absolute w
  rw [hn] at h
  exact (List.mem_append.mp h).imp_left List.eq_of_mem_replicate

theorem keptParts_normal (hw : ∀ name ∈ w.names, IsName name) (h : part ∈ keptParts absolute w) :
    part ≠ [] ∧ '/' ∉ part := by
  obtain rfl | hname := mem_keptParts h
  · decide
  · exact ⟨(hw part hname).nonempty, (hw part hname).slash⟩

theorem mem_normalParts (h : part ∈ normalParts path) : part ≠ [] ∧ '/' ∉ part :=
  keptParts_normal isName_of_mem_names h

theorem unsplit_ne_nil (hne : parts ≠ []) (hparts : ∀ part ∈ parts, part ≠ []) :
    unsplit parts ≠ [] := by
  obtain ⟨first, rest, rfl⟩ := List.exists_cons_of_ne_nil hne
  have hfirst := hparts first List.mem_cons_self
  cases rest with
  | nil => rwa [unsplit_singleton]
  | cons next others =>
      rw [unsplit_cons _ (List.cons_ne_nil _ _)]
      exact List.append_ne_nil_of_left_ne_nil hfirst _

/-- The empty segment in front of a root, and the one behind a slash at the end.
Splitting at slashes leaves one on either side. -/
def emptyIf (present : Bool) : List Text := if present then [[]] else []

/-- A normalised path as its segments, if there are any left. -/
theorem normalize_eq_unsplit (hparts : normalParts path ≠ []) :
    normalize path = unsplit (emptyIf (isAbsolute path) ++ normalParts path ++
      emptyIf (trailingSeparator path)) := by
  have hpath : path ≠ [] := by
    rintro rfl
    exact hparts rfl
  have hnormal : unsplit (normalParts path) ≠ [] :=
    unsplit_ne_nil hparts fun part hmem => (mem_normalParts hmem).1
  unfold normalize
  rw [if_neg hpath, normalizeString_eq]
  dsimp only
  rw [if_neg hnormal]
  cases isAbsolute path <;> cases trailingSeparator path
  · simp [emptyIf]
  · simp only [emptyIf, if_true, Bool.false_eq_true, if_false, List.nil_append]
    rw [unsplit_append hparts (List.cons_ne_nil _ _), unsplit_singleton]
  · simp only [emptyIf, if_true, Bool.false_eq_true, if_false, List.append_nil]
    rw [List.singleton_append, unsplit_cons _ hparts, List.nil_append]
  · simp only [emptyIf, if_true]
    rw [unsplit_append (by simp) (List.cons_ne_nil _ _), List.singleton_append,
      unsplit_cons _ hparts, unsplit_singleton]
    rfl

/-- A text starts with a slash exactly if its first segment is empty and another
follows. -/
theorem isAbsolute_unsplit (absolute : Bool) (hslash : ∀ part ∈ parts, '/' ∉ part)
    (hne : parts ≠ []) (hfirst : parts.head? ≠ some [] ∨ parts.length = 1) :
    isAbsolute (unsplit (emptyIf absolute ++ parts)) = absolute := by
  obtain ⟨first, rest, rfl⟩ := List.exists_cons_of_ne_nil hne
  cases absolute with
  | true =>
      change isAbsolute (unsplit ([] :: first :: rest)) = true
      rw [unsplit_cons _ (List.cons_ne_nil _ _)]
      rfl
  | false =>
      change isAbsolute (unsplit (first :: rest)) = false
      have hhead : ∀ tail, first ≠ [] → isAbsolute (first ++ tail) = false := by
        intro tail hnonempty
        obtain ⟨c, others, rfl⟩ := List.exists_cons_of_ne_nil hnonempty
        refine decide_eq_false fun h => hslash _ List.mem_cons_self ?_
        rw [← Option.some.inj h]
        exact List.mem_cons_self
      cases rest with
      | nil =>
          rw [unsplit_singleton]
          cases first with
          | nil => rfl
          | cons c others =>
              rw [← List.append_nil (c :: others)]
              exact hhead [] (List.cons_ne_nil _ _)
      | cons next others =>
          rw [unsplit_cons _ (List.cons_ne_nil _ _)]
          refine hhead _ ?_
          rintro rfl
          obtain hno | hone := hfirst
          · exact hno rfl
          · simp at hone

theorem eq_nil_of_mem_emptyIf {present : Bool} (h : part ∈ emptyIf present) : part = [] := by
  cases present with
  | false => cases h
  | true => exact List.mem_singleton.mp h

theorem slash_not_mem_emptyIf {present : Bool} : ∀ part ∈ emptyIf present, '/' ∉ part := by
  intro part hmem
  rw [eq_nil_of_mem_emptyIf hmem]
  exact List.not_mem_nil

@[simp] theorem follow_emptyIf (w : Walk) (present : Bool) : w.follow (emptyIf present) = w := by
  cases present with
  | false => rfl
  | true => exact Walk.step_nil w

/-- The walk of segments with empty ones around them: an empty segment stays
where it is. -/
theorem walk_emptyIf (absolute trailing : Bool) (parts : List Text) :
    walk (emptyIf absolute ++ parts ++ emptyIf trailing) = walk parts := by
  rw [walk, Walk.follow_append, Walk.follow_append, follow_emptyIf, follow_emptyIf]
  rfl

theorem walk_keptParts (h : ∀ name ∈ w.names, IsName name) :
    walk (keptParts absolute w) = { w with ups := if absolute then 0 else w.ups } := by
  unfold keptParts
  cases absolute with
  | true =>
      rw [if_pos rfl, if_pos rfl, walk, Walk.follow_names _ h, List.nil_append]
  | false =>
      rw [if_neg Bool.false_ne_true, if_neg Bool.false_ne_true, Walk.walk_stack h]

theorem walk_normalParts (path : Text) :
    walk (normalParts path) = {
      ups := if isAbsolute path then 0 else (walk (segments path)).ups
      names := (walk (segments path)).names } := walk_keptParts isName_of_mem_names

/-- The segments of a normalised path, the empty ones at its ends included.
Splitting it again gives nothing new. -/
theorem segments_normalize (hparts : normalParts path ≠ []) :
    segments (normalize path) =
      emptyIf (isAbsolute path) ++ normalParts path ++ emptyIf (trailingSeparator path) := by
  rw [normalize_eq_unsplit hparts]
  refine segments_unsplit ?_ (by simp [hparts])
  intro part hmem
  obtain hfront | htrail := List.mem_append.mp hmem
  · obtain hroot | hnormal := List.mem_append.mp hfront
    · exact slash_not_mem_emptyIf part hroot
    · exact (mem_normalParts hnormal).2
  · exact slash_not_mem_emptyIf part htrail

theorem isAbsolute_normalize (hparts : normalParts path ≠ []) :
    isAbsolute (normalize path) = isAbsolute path := by
  rw [normalize_eq_unsplit hparts, List.append_assoc]
  refine isAbsolute_unsplit _ ?_ (by simp [hparts]) (.inl ?_)
  · intro part hmem
    obtain hnormal | htrail := List.mem_append.mp hmem
    · exact (mem_normalParts hnormal).2
    · exact slash_not_mem_emptyIf part htrail
  · obtain ⟨first, rest, hcons⟩ := List.exists_cons_of_ne_nil hparts
    have hfirst : first ∈ normalParts path := hcons ▸ List.mem_cons_self
    rw [hcons]
    exact fun h => (mem_normalParts hfirst).1 (Option.some.inj h)

/-- Normalising a path does not change its place. This is what allows callers to
argue about walks and forget the text. -/
theorem locate_normalize (path : Text) : locate (normalize path) = locate path := by
  by_cases hparts : normalParts path = []
  · -- nothing is left: the root, or where the reader is
    have hwalk := walk_normalParts path
    rw [hparts] at hwalk
    have hplace : locate path = ⟨isAbsolute path, 0, []⟩ := by
      obtain ⟨hups, hnames⟩ := Walk.mk.inj hwalk
      unfold locate
      rw [← hups, ← hnames]
    rw [hplace]
    by_cases hpath : path = []
    · rw [hpath]
      rfl
    unfold normalize
    rw [if_neg hpath, normalizeString_eq, hparts, unsplit_nil]
    dsimp only
    rw [if_pos rfl]
    cases isAbsolute path <;> cases trailingSeparator path <;> rfl
  · unfold locate
    rw [isAbsolute_normalize hparts, segments_normalize hparts, walk_emptyIf, walk_normalParts]
    cases isAbsolute path <;> rfl

theorem mem_unsplit {c : Char} (hmem : c ∈ unsplit parts) : c = '/' ∨ ∃ part ∈ parts, c ∈ part := by
  induction parts with
  | nil => cases hmem
  | cons first rest ih =>
      by_cases hrest : rest = []
      · rw [hrest, unsplit_singleton] at hmem
        exact .inr ⟨first, List.mem_cons_self, hmem⟩
      · rw [unsplit_cons _ hrest] at hmem
        obtain hfirst | htail := List.mem_append.mp hmem
        · exact .inr ⟨first, List.mem_cons_self, hfirst⟩
        obtain rfl | htail := List.mem_cons.mp htail
        · exact .inl rfl
        · exact (ih htail).imp_right fun ⟨part, hpart, hc⟩ =>
            ⟨part, List.mem_cons_of_mem _ hpart, hc⟩

theorem mem_names_of_char {c : Char} (hdot : c ≠ '.') (hpart : part ∈ keptParts absolute w)
    (hc : c ∈ part) : part ∈ w.names := by
  refine (mem_keptParts hpart).resolve_left ?_
  rintro rfl
  simp [hdot] at hc

/-- Apart from slashes and dots, a normalised path is made of its names; nothing
is escaped or decoded. -/
theorem mem_normalize {c : Char} (hslash : c ≠ '/') (hdot : c ≠ '.') (hmem : c ∈ normalize path) :
    ∃ part ∈ (walk (segments path)).names, c ∈ part := by
  by_cases hparts : normalParts path = []
  · exfalso
    unfold normalize at hmem
    rw [normalizeString_eq, hparts, unsplit_nil] at hmem
    dsimp only at hmem
    rw [if_pos rfl] at hmem
    split at hmem
    · simp [hdot] at hmem
    · split at hmem
      · simp [hslash] at hmem
      · split at hmem <;> simp [hdot, hslash] at hmem
  · rw [normalize_eq_unsplit hparts] at hmem
    obtain rfl | ⟨part, hpart, hc⟩ := mem_unsplit hmem
    · exact absurd rfl hslash
    have hempty : ∀ present, part ∉ emptyIf present := by
      intro present h
      rw [eq_nil_of_mem_emptyIf h] at hc
      cases hc
    rw [List.mem_append, List.mem_append] at hpart
    obtain (hroot | hnormal) | htrail := hpart
    · exact absurd hroot (hempty _)
    · exact ⟨part, mem_names_of_char hdot hnormal hc, hc⟩
    · exact absurd htrail (hempty _)

/-- A slash at the end is an empty segment behind another. The empty text has
one empty segment and no slash. -/
theorem trailingSeparator_iff (path : Text) :
    trailingSeparator path = true ↔ ∃ front, front ≠ [] ∧ segments path = front ++ [[]] := by
  unfold trailingSeparator
  rw [decide_eq_true_iff]
  constructor
  · intro hlast
    obtain ⟨front, rfl⟩ := List.getLast?_eq_some_iff.mp hlast
    exact ⟨segments front, segments_ne_nil _, segments_append front []⟩
  · rintro ⟨front, hne, hsegments⟩
    have htext : path = unsplit front ++ ['/'] := by
      rw [← unsplit_segments path, hsegments, unsplit_append hne (List.cons_ne_nil _ _),
        unsplit_singleton]
    rw [htext, List.getLast?_concat]

/-- What is kept of a path, with the slash at its end, is cut from it:
normalising drops segments and does not reorder them. -/
theorem names_trailing_sublist (path : Text) :
    ((walk (segments path)).names ++ emptyIf (trailingSeparator path)).Sublist (segments path) := by
  cases htrailing : trailingSeparator path with
  | false =>
      rw [emptyIf, if_neg Bool.false_ne_true, List.append_nil]
      exact Walk.names_sublist _
  | true =>
      obtain ⟨front, -, hfront⟩ := (trailingSeparator_iff path).mp htrailing
      have hwalk : walk (front ++ [[]]) = walk front := by
        rw [walk, Walk.follow_concat, Walk.step_nil]
        rfl
      rw [hfront, hwalk]
      exact (Walk.names_sublist front).append (List.Sublist.refl _)

/-- The place of kept segments with one more behind them, which need not be
normal. -/
theorem locate_keptParts (h : ∀ name ∈ w.names, IsName name)
    {last : Text} (hlast : '/' ∉ last) :
    locate (unsplit (emptyIf absolute ++ keptParts absolute w ++ [last])) = {
      absolute := absolute
      ups := if absolute then 0 else (w.step last).ups
      names := (w.step last).names } := by
  have hslash : ∀ q ∈ keptParts absolute w ++ [last], '/' ∉ q := by
    intro q hq
    obtain hkept | hq := List.mem_append.mp hq
    · exact (keptParts_normal h hkept).2
    · rwa [List.mem_singleton.mp hq]
  have habsolute : isAbsolute (unsplit (emptyIf absolute ++ keptParts absolute w ++ [last])) =
      absolute := by
    rw [List.append_assoc]
    refine isAbsolute_unsplit _ hslash (by simp) ?_
    cases hkept : keptParts absolute w with
    | nil => exact .inr rfl
    | cons first others =>
        have hfirst : first ∈ keptParts absolute w := hkept ▸ List.mem_cons_self
        exact .inl fun hhead => (keptParts_normal h hfirst).1 (Option.some.inj hhead)
  have hwalk : walk (emptyIf absolute ++ keptParts absolute w ++ [last]) =
      Walk.step { w with ups := if absolute then 0 else w.ups } last := by
    rw [walk, Walk.follow_concat, Walk.follow_append, follow_emptyIf, ← walk_keptParts h]
    rfl
  unfold locate
  rw [habsolute, segments_unsplit ?_ (by simp), hwalk]
  · cases absolute with
    | true => exact congrArg (Location.mk true 0) (Walk.names_step 0 w last)
    | false => rfl
  · intro q hq
    rw [List.append_assoc] at hq
    obtain hroot | hq := List.mem_append.mp hq
    · exact slash_not_mem_emptyIf q hroot
    · exact hslash q hq

end PosixPath
