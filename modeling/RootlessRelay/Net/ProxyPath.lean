import Mathlib.Data.List.TakeWhile
import RootlessRelay.Library.PosixPath
import RootlessRelay.Net.ProxyRules

/-!
# Rewriting of paths

A rule with a target path has the part of the URL that it matched replaced: both
handlers forward `path.join(rule.targetPath, rest)`. The rest is everything
behind the match, its dot segments can lead out of the target path, and its
query is normalised along with it.

Three conditions decide whether the forwarded URL denotes a path inside of the
target path and keeps its query: the target path has no question mark in its
names, the query is plain, and the walk along the rest returns. Each of them can
be read off the rule and the request. The library about paths does the work on
walks; here only the question mark is added, which for `join` is a character
like any other.
-/

namespace RootlessRelay

open DotSegments PosixPath

/-- The URL that `proxyRequest` and the `upgrade` handler write into the request
line. Without a target path it is the one of the request. -/
def forwardedUrl (rule : HttpRule) (url : Text) : Text :=
  if truthy rule.targetPath then
    let remainingPath := url.drop rule.path.length
    join [rule.targetPath.getD [], remainingPath]
  else url

/-- The path of a URL: what stands in front of the first question mark. -/
def urlPath (url : Text) : Text := url.takeWhile (· ≠ '?')

/-- The query of a URL with its question mark, or nothing. -/
def urlQuery (url : Text) : Text := url.dropWhile (· ≠ '?')

/-- The URL that is forwarded denotes a path inside the target path, and has the
query of the request. -/
structure Contained (rule : HttpRule) (target url : Text) : Prop where
  path : (locate (urlPath (forwardedUrl rule url))).Inside (locate target)
  query : urlQuery (forwardedUrl rule url) = urlQuery url

/-- The query stands as it is: between its slashes no segment is empty, but for
the one behind a slash at its end, and none is a dot segment. -/
structure QueryPlain (query : Text) : Prop where
  dots : ∀ part ∈ (segments query).tail, part ≠ ['.'] ∧ part ≠ ['.', '.']
  empty : ∀ part ∈ (segments query).tail.dropLast, part ≠ []

/-- Neither path of the rule holds a question mark (a name of the target path
that `..` leads out of again apart), the query behind the match is plain, and
the path behind it returns from where it climbs. -/
structure PlainRewrite (rule : HttpRule) (target url : Text) : Prop where
  names : ∀ name ∈ (walk (segments target)).names, '?' ∉ name
  path : '?' ∉ rule.path
  query : QueryPlain (urlQuery (url.drop rule.path.length))
  returns : Walk.Returns (isAbsolute target) (walk (segments target))
    (walk (segments (urlPath (url.drop rule.path.length))))

variable {url rest target path : Text} {parts : List Text} {part : Text}

theorem urlPath_append_urlQuery (url : Text) : urlPath url ++ urlQuery url = url :=
  List.takeWhile_append_dropWhile

theorem mark_not_mem_urlPath (url : Text) : '?' ∉ urlPath url := by
  intro hmem
  simpa using List.mem_takeWhile_imp hmem

theorem urlQuery_eq (url : Text) : urlQuery url = [] ∨ ∃ query, urlQuery url = '?' :: query := by
  cases hquery : urlQuery url with
  | nil => exact .inl rfl
  | cons c query =>
      have hhead := List.head?_dropWhile_not (fun c => decide (c ≠ '?')) url
      unfold urlQuery at hquery
      rw [hquery] at hhead
      refine .inr ⟨query, ?_⟩
      have hc : c = '?' := by simpa using hhead
      rw [hc]

/-- What stands in front of a query is a path, and the two put together are the
URL. -/
theorem url_parts (hpath : '?' ∉ path) {query : Text} :
    urlPath (path ++ '?' :: query) = path ∧ urlQuery (path ++ '?' :: query) = '?' :: query := by
  have hall : ∀ c ∈ path, decide (c ≠ '?') = true := by
    intro c hc
    exact decide_eq_true fun h => hpath (h ▸ hc)
  constructor
  · rw [urlPath, List.takeWhile_append_of_pos hall]
    simp
  · rw [urlQuery, List.dropWhile_append_of_pos hall]
    simp

theorem url_of_not_mem (h : '?' ∉ url) : urlPath url = url ∧ urlQuery url = [] := by
  have hall : ∀ c ∈ url, decide (c ≠ '?') = true := by
    intro c hc
    exact decide_eq_true fun heq => h (heq ▸ hc)
  exact ⟨List.takeWhile_eq_self_iff.mpr hall, List.dropWhile_eq_nil_iff.mpr hall⟩

theorem segments_query (query : Text) :
    ∃ first back, segments ('?' :: query) = ('?' :: first) :: back := by
  have hsplit : segments ('?' :: query) = (segments query).modifyHead (List.cons '?') := by
    unfold segments
    rw [List.splitOn_cons_eq_if_modifyHead, if_neg (by decide)]
  obtain ⟨first, back, hcons⟩ := List.exists_cons_of_ne_nil (segments_ne_nil query)
  exact ⟨first, back, by rw [hsplit, hcons]; rfl⟩

/-- The target path and what is behind the match, before they are normalised.
Both may bring slashes. -/
def joined (target rest : Text) : Text := if rest = [] then target else target ++ '/' :: rest

theorem forwardedUrl_eq {rule : HttpRule} (htarget : rule.targetPath = some target)
    (hne : target ≠ []) (url : Text) :
    forwardedUrl rule url = normalize (joined target (url.drop rule.path.length)) := by
  have htruthy : truthy rule.targetPath = true := by
    rw [htarget]
    simpa [truthy] using hne
  unfold forwardedUrl
  rw [if_pos htruthy, htarget]
  generalize url.drop rule.path.length = rest
  unfold join joined
  by_cases hrest : rest = []
  · simp [hrest, hne]
  · rw [if_neg hrest]
    simp [hrest, hne, unsplit_cons]

theorem locate_joined (hne : target ≠ []) (rest : Text) :
    locate (joined target rest) = locate (target ++ '/' :: rest) := by
  unfold joined
  split
  · rename_i hrest
    rw [hrest, locate_append_nil hne]
  · rfl

theorem names_joined (target rest : Text) :
    (walk (segments (joined target rest))).names =
      ((walk (segments target)).comp (walk (segments rest))).names := by
  unfold joined
  split
  · rename_i hrest
    have hempty : walk (segments []) = {} := rfl
    rw [hrest, hempty, Walk.comp_empty]
  · rw [segments_append, walk_append]

/-- Without a question mark in the target's names and in the rest there is no
query, neither here nor there. -/
theorem mark_not_mem_normalize (hnames : ∀ name ∈ (walk (segments target)).names, '?' ∉ name)
    (hrest : '?' ∉ rest) : '?' ∉ normalize (joined target rest) := by
  intro hmem
  obtain ⟨part, hpart, hmark⟩ := mem_normalize (by decide) (by decide) hmem
  rw [names_joined] at hpart
  obtain ⟨kept, hkept, hcomp⟩ := Walk.names_comp (walk (segments target)) (walk (segments rest))
  rw [hcomp] at hpart
  obtain htarget | hbehind := List.mem_append.mp hpart
  · exact hnames part (hkept.subset htarget) hmark
  · exact hrest (mem_of_mem_names hbehind hmark)

/-- A suffix that starts with a segment found in the back lies in the back. It
tells where the query of a normalised URL begins. -/
theorem suffix_of_not_mem {A Q front back : List Text} {m : Text}
    (h : A ++ m :: Q = front ++ back) (hm : m ∉ front) : ∃ C, back = C ++ m :: Q := by
  obtain ⟨C, hfront, hback⟩ | ⟨C, -, hback⟩ := List.append_eq_append_iff.mp h
  · cases C with
    | nil => exact ⟨[], hback.symm⟩
    | cons first rest =>
        obtain ⟨rfl, -⟩ := List.cons.inj hback
        exact absurd (hfront ▸ List.mem_append_right _ List.mem_cons_self) hm
  · exact ⟨C, hback⟩

/-- The segments of a query that a normalised path has are names of the path,
and an empty one at most at its end. -/
theorem segments_of_query {query : Text} (hquery : urlQuery (normalize path) = '?' :: query) :
    ∃ m C first back, '?' ∈ m ∧ segments ('?' :: query) = first :: back ∧ first.length ≤ m.length ∧
      (walk (segments path)).names ++ emptyIf (trailingSeparator path) = C ++ m :: back := by
  have hmark : '?' ∈ normalize path := by
    rw [← urlPath_append_urlQuery (normalize path), hquery]
    exact List.mem_append_right _ List.mem_cons_self
  obtain ⟨part, hpart, -⟩ := mem_normalize (by decide) (by decide) hmark
  -- in front of the names there are dots only
  obtain ⟨n, hnormal⟩ : ∃ n, normalParts path =
      List.replicate n ['.', '.'] ++ (walk (segments path)).names := keptParts_eq _ _
  have hparts : normalParts path ≠ [] := by
    rw [hnormal]
    exact List.append_ne_nil_of_right_ne_nil _ (List.ne_nil_of_mem hpart)
  obtain ⟨A, x, hx⟩ := exists_segments_concat (urlPath (normalize path))
  obtain ⟨first, back, hfirst⟩ := segments_query query
  have hsegments := segments_glue hx hfirst
  rw [← hquery, urlPath_append_urlQuery, segments_normalize hparts] at hsegments
  have hm : '?' ∈ x ++ '?' :: first := List.mem_append_right _ List.mem_cons_self
  have hfront : x ++ '?' :: first ∉ emptyIf (isAbsolute path) ++ List.replicate n ['.', '.'] := by
    intro hmem
    obtain hroot | hup := List.mem_append.mp hmem
    · rw [eq_nil_of_mem_emptyIf hroot] at hm
      cases hm
    · rw [List.eq_of_mem_replicate hup] at hm
      simp at hm
  rw [hnormal, ← List.append_assoc, List.append_assoc] at hsegments
  obtain ⟨C, hC⟩ := suffix_of_not_mem hsegments.symm hfront
  refine ⟨x ++ '?' :: first, C, '?' :: first, back, hm, hfirst, ?_, hC⟩
  rw [List.length_append]
  omega

/-- A query that is plain: names behind its first slash, and maybe a slash at
its end. -/
theorem QueryPlain.names {query first : Text} {back : List Text} (h : QueryPlain query)
    (hsegments : segments query = first :: back) :
    ∃ names trailing, back = names ++ emptyIf trailing ∧ ∀ name ∈ names, IsName name := by
  have hdots : ∀ part ∈ back, part ≠ ['.'] ∧ part ≠ ['.', '.'] := by
    simpa [hsegments] using h.dots
  have hempty : ∀ part ∈ back.dropLast, part ≠ [] := by
    simpa [hsegments] using h.empty
  have hslash : ∀ part ∈ back, '/' ∉ part := fun part hpart =>
    slash_not_mem_segments (hsegments ▸ List.mem_cons_of_mem _ hpart)
  obtain rfl | ⟨front, last, rfl⟩ := List.eq_nil_or_concat back
  · exact ⟨[], false, rfl, fun name hname => absurd hname List.not_mem_nil⟩
  rw [List.concat_eq_append] at hdots hempty hslash ⊢
  rw [List.dropLast_concat] at hempty
  have hfront : ∀ name ∈ front, IsName name := by
    intro name hname
    have hmem := List.mem_append_left [last] hname
    exact ⟨hempty name hname, (hdots name hmem).1, (hdots name hmem).2, hslash name hmem⟩
  by_cases hlast : last = []
  · exact ⟨front, true, by rw [hlast]; rfl, hfront⟩
  · refine ⟨front ++ [last], false, (List.append_nil _).symm, fun name hname => ?_⟩
    obtain hmem | hmem := List.mem_append.mp hname
    · exact hfront name hmem
    · rw [List.mem_singleton] at hmem
      have hin := List.mem_append_right front (List.mem_singleton_self last)
      rw [hmem]
      exact ⟨hlast, (hdots last hin).1, (hdots last hin).2, hslash last hin⟩

/-- A query that survives the normalisation as it is had no segment to be
removed. -/
theorem queryPlain_of_names {query first : Text} {names back : List Text} {trailing : Bool}
    (hsegments : segments query = first :: back) {C : List Text} {m : Text}
    (hnames : ∀ name ∈ names, IsName name) (heq : names ++ emptyIf trailing = C ++ m :: back) :
    QueryPlain query := by
  have hback : ∀ part ∈ back, part ∈ names ∨ part = [] := by
    intro part hpart
    have hmem : part ∈ names ++ emptyIf trailing := by
      rw [heq]
      exact List.mem_append_right _ (List.mem_cons_of_mem _ hpart)
    exact (List.mem_append.mp hmem).imp_right eq_nil_of_mem_emptyIf
  constructor
  · rw [hsegments, List.tail_cons]
    intro part hpart
    obtain hname | rfl := hback part hpart
    · exact ⟨(hnames part hname).dot, (hnames part hname).dotDot⟩
    · decide
  · rw [hsegments, List.tail_cons]
    intro part hpart
    have hne : back ≠ [] := List.ne_nil_of_mem (List.dropLast_subset _ hpart)
    have hmem : part ∈ (names ++ emptyIf trailing).dropLast := by
      rw [heq, List.dropLast_append_of_ne_nil (List.cons_ne_nil _ _),
        List.dropLast_cons_of_ne_nil hne]
      exact List.mem_append_right _ (List.mem_cons_of_mem _ hpart)
    have hname : part ∈ names := by
      cases trailing with
      | false =>
          rw [emptyIf, if_neg Bool.false_ne_true, List.append_nil] at hmem
          exact List.dropLast_subset _ hmem
      | true =>
          rw [emptyIf, if_pos rfl, List.dropLast_concat] at hmem
          exact hmem
    exact (hnames part hname).nonempty

/-- A plain query stands as it is, and the path in front of it denotes what the
path that was asked for does, though its last segment has not been resolved. -/
theorem normalize_query (hne : target ≠ []) {query : Text}
    (hnames : ∀ name ∈ (walk (segments target)).names, '?' ∉ name) (hpath : '?' ∉ path)
    (hplain : QueryPlain ('?' :: query)) :
    locate (urlPath (normalize (joined target (path ++ '?' :: query)))) =
        locate (target ++ '/' :: path) ∧
      urlQuery (normalize (joined target (path ++ '?' :: query))) = '?' :: query := by
  have hjoined : joined target (path ++ '?' :: query) = target ++ '/' :: (path ++ '?' :: query) :=
    if_neg (by simp)
  obtain ⟨A, x, hx⟩ := exists_segments_concat path
  obtain ⟨first, back, hfirst⟩ := segments_query query
  obtain ⟨names, trailing, rfl, hback⟩ := hplain.names hfirst
  have hxslash : '/' ∉ x := slash_not_mem_segments (hx ▸ List.mem_append_right _ (by simp))
  have hfirstslash : '/' ∉ '?' :: first := slash_not_mem_segments (hfirst ▸ List.mem_cons_self)
  have hmiddle : IsName (x ++ '?' :: first) := by
    refine IsName.of_mem (c := '?') (by decide) (by simp) ?_
    rw [List.mem_append, not_or]
    exact ⟨hxslash, hfirstslash⟩
  generalize hfull : joined target (path ++ '?' :: query) = full
  rw [hjoined] at hfull
  have hsegments : segments full =
      (segments target ++ A) ++ (x ++ '?' :: first) :: (names ++ emptyIf trailing) := by
    rw [← hfull, segments_append, segments_glue hx hfirst, List.append_assoc]
  have habsolute : isAbsolute full = isAbsolute target := by
    rw [← hfull, isAbsolute_append hne]
  -- everything from the question mark on leads down
  obtain ⟨w, hw⟩ : ∃ w, walk (segments target ++ A) = w := ⟨_, rfl⟩
  have hwnames : ∀ name ∈ w.names, IsName name := by
    rw [← hw]
    refine Walk.isName_of_mem_walk fun q hq => ?_
    obtain hmem | hmem := List.mem_append.mp hq
    · exact slash_not_mem_segments hmem
    · exact slash_not_mem_segments (hx ▸ List.mem_append_left _ hmem)
  have hwmark : ∀ name ∈ w.names, '?' ∉ name := by
    intro name hname hmark
    rw [← hw, walk_append] at hname
    obtain ⟨kept, hkept, hcomp⟩ := Walk.names_comp (walk (segments target)) (walk A)
    rw [hcomp] at hname
    obtain htarget | hrest := List.mem_append.mp hname
    · exact hnames name (hkept.subset htarget) hmark
    · have hsegment : name ∈ segments path :=
        hx ▸ List.mem_append_left _ ((Walk.names_sublist A).subset hrest)
      refine hpath ?_
      rw [← unsplit_segments path]
      exact mem_unsplit_of_mem hsegment hmark
  have hdown : ∀ name ∈ (x ++ '?' :: first) :: names, IsName name := by
    intro name hname
    obtain rfl | hname := List.mem_cons.mp hname
    · exact hmiddle
    · exact hback name hname
  have hwalk : walk (segments full) =
      { w with names := w.names ++ (x ++ '?' :: first) :: names } := by
    rw [hsegments, ← List.cons_append, ← List.append_assoc, walk, Walk.follow_append, follow_emptyIf,
      Walk.follow_append]
    change Walk.follow (walk _) _ = _
    rw [hw, Walk.follow_names _ hdown]
  have hnormal : normalParts full =
      keptParts (isAbsolute target) w ++ (x ++ '?' :: first) :: names := by
    unfold normalParts keptParts
    rw [habsolute, hwalk]
    cases isAbsolute target with
    | true => rfl
    | false => exact (List.append_assoc _ _ _).symm
  have htrailing : trailingSeparator full = trailing := by
    cases trailing with
    | true =>
        refine (trailingSeparator_iff full).mpr
          ⟨segments target ++ A ++ (x ++ '?' :: first) :: names, by simp, ?_⟩
        rw [hsegments]
        simp [emptyIf]
    | false =>
        rw [Bool.eq_false_iff]
        intro h
        obtain ⟨front, -, hfront⟩ := (trailingSeparator_iff full).mp h
        rw [hsegments, emptyIf, if_neg Bool.false_ne_true, List.append_nil] at hfront
        have hlast := congrArg List.getLast? hfront
        rw [List.getLast?_append_of_ne_nil _ (List.cons_ne_nil _ _), List.getLast?_concat] at hlast
        exact (hdown [] (List.mem_of_getLast? hlast)).nonempty rfl
  have htext : normalize full =
      unsplit (emptyIf (isAbsolute target) ++ keptParts (isAbsolute target) w ++ [x]) ++
        '?' :: query := by
    rw [normalize_eq_unsplit (by rw [hnormal]; simp), habsolute, htrailing, hnormal,
      ← unsplit_segments ('?' :: query), hfirst, unsplit_glue]
    simp
  have hfree : '?' ∉ unsplit (emptyIf (isAbsolute target) ++
      keptParts (isAbsolute target) w ++ [x]) := by
    intro hmem
    obtain hbad | ⟨q, hq, hmark⟩ := mem_unsplit hmem
    · cases hbad
    rw [List.mem_append, List.mem_append, List.mem_singleton] at hq
    obtain (hroot | hkept) | rfl := hq
    · rw [eq_nil_of_mem_emptyIf hroot] at hmark
      cases hmark
    · exact hwmark q (mem_names_of_char (by decide) hkept hmark) hmark
    · refine hpath ?_
      rw [← unsplit_segments path, hx]
      exact mem_unsplit_of_mem (List.mem_append_right _ (List.mem_singleton_self _)) hmark
  obtain ⟨hurl, hquery⟩ := @url_parts _ hfree query
  rw [htext, hurl, hquery]
  refine ⟨?_, rfl⟩
  rw [locate_keptParts hwnames hxslash, locate_append hne]
  have hstep : (walk (segments target)).comp (walk (segments path)) = w.step x := by
    rw [← walk_append, hx, ← List.append_assoc, walk, Walk.follow_concat]
    change Walk.step (walk _) _ = _
    rw [hw]
  rw [hstep]

/-- What a plain query and the target's names leave of the request: the place of
path and rest together, and the query as it was. -/
theorem normalize_joined (hne : target ≠ [])
    (hnames : ∀ name ∈ (walk (segments target)).names, '?' ∉ name)
    (hplain : QueryPlain (urlQuery rest)) :
    locate (urlPath (normalize (joined target rest))) = locate (target ++ '/' :: urlPath rest) ∧
      urlQuery (normalize (joined target rest)) = urlQuery rest := by
  have hfree := mark_not_mem_urlPath rest
  obtain hnone | ⟨query, hsome⟩ := urlQuery_eq rest
  · have hpath : urlPath rest = rest := by
      rw [← List.append_nil (urlPath rest), ← hnone, urlPath_append_urlQuery]
    rw [hpath] at hfree ⊢
    obtain ⟨hwhole, hempty⟩ := url_of_not_mem (mark_not_mem_normalize hnames hfree)
    rw [hwhole, hempty, hnone, locate_normalize, locate_joined hne]
    exact ⟨rfl, rfl⟩
  · have hrest := urlPath_append_urlQuery rest
    rw [hsome] at hplain hrest ⊢
    rw [← hrest, (url_parts hfree).1]
    exact normalize_query hne hnames hfree hplain

/-- The forwarded query is no longer than what stands behind the match:
normalising only takes away. -/
theorem length_query_le {query : Text} (hnames : ∀ name ∈ (walk (segments target)).names, '?' ∉ name)
    (hquery : urlQuery (normalize (joined target rest)) = '?' :: query) :
    ('?' :: query).length ≤ rest.length := by
  obtain ⟨m, C, first, back, hm, hfirst, hlength, heq⟩ := segments_of_query hquery
  obtain ⟨kept, hkept, hcomp⟩ := Walk.names_comp (walk (segments target)) (walk (segments rest))
  have hfree : m ∉ kept := fun hmem => hnames m (hkept.subset hmem) hm
  rw [names_joined, hcomp, List.append_assoc] at heq
  obtain ⟨D, hD⟩ := suffix_of_not_mem heq.symm hfree
  have hmem : m ∈ (walk (segments rest)).names := by
    have hin : m ∈ (walk (segments rest)).names ++ emptyIf (trailingSeparator (joined target rest)) := by
      rw [hD]
      exact List.mem_append_right _ List.mem_cons_self
    refine (List.mem_append.mp hin).resolve_right fun hempty => ?_
    rw [eq_nil_of_mem_emptyIf hempty] at hm
    cases hm
  have hrest : rest ≠ [] := by
    rintro rfl
    cases hmem
  have htrailing : trailingSeparator (joined target rest) = trailingSeparator rest := by
    unfold joined trailingSeparator
    rw [if_neg hrest, List.getLast?_append_of_ne_nil _ (List.cons_ne_nil _ _),
      List.getLast?_cons_of_ne_nil hrest]
  have hsub : (m :: back).Sublist (segments rest) := by
    refine List.Sublist.trans ?_ (names_trailing_sublist rest)
    rw [← htrailing, hD]
    exact List.sublist_append_right _ _
  have hle := (unsplit_sublist hsub).length_le
  rw [unsplit_segments] at hle
  rw [← unsplit_segments ('?' :: query), hfirst]
  refine Nat.le_trans ?_ hle
  cases back with
  | nil => simpa using hlength
  | cons next behind =>
      rw [unsplit_cons _ (List.cons_ne_nil _ _), unsplit_cons _ (List.cons_ne_nil _ _),
        List.length_append, List.length_append]
      exact Nat.add_le_add_right hlength _

/-- A rule that applies matches the URL up to what `substring` takes, so nothing
is lost between the two. -/
theorem HttpRule.url_eq {rule : HttpRule} {req : RequestHead} (h : rule.applies req = true) :
    req.url = rule.path ++ req.url.drop rule.path.length := by
  unfold applies at h
  rw [Bool.and_eq_true, Bool.and_eq_true] at h
  obtain ⟨rest, hrest⟩ := List.isPrefixOf_iff_prefix.mp h.2.2
  rw [← hrest, List.drop_left]

/-- A rewritten path stays below its target exactly if the rest of the request
path is plain. -/
theorem rewrite_contained_iff {rule : HttpRule} {req : RequestHead} {target : Text}
    (happlies : rule.applies req = true) (htarget : rule.targetPath = some target)
    (hne : target ≠ []) : Contained rule target req.url ↔ PlainRewrite rule target req.url := by
  have hurl := HttpRule.url_eq happlies
  have hforwarded := forwardedUrl_eq htarget hne req.url
  generalize hrest : req.url.drop rule.path.length = rest at hurl hforwarded
  -- a rule's path without a question mark leaves the whole query behind it
  have hquery : '?' ∉ rule.path → urlQuery req.url = urlQuery rest := by
    intro hpath
    rw [hurl, urlQuery, List.dropWhile_append_of_pos]
    · rfl
    · intro c hc
      exact decide_eq_true fun heq => hpath (heq ▸ hc)
  constructor
  · rintro ⟨hinside, hsame⟩
    rw [hforwarded] at hinside hsame
    have hnames : ∀ name ∈ (walk (segments target)).names, '?' ∉ name := fun name hname hmark =>
      mark_not_mem_urlPath _ (mem_of_mem_names (hinside.names.subset hname) hmark)
    have hpath : '?' ∉ rule.path := by
      intro hmark
      obtain ⟨query, hmarked⟩ : ∃ query, urlQuery rule.path = '?' :: query := by
        refine (urlQuery_eq rule.path).resolve_left fun hnone => ?_
        refine mark_not_mem_urlPath rule.path ?_
        rwa [← List.append_nil (urlPath rule.path), ← hnone, urlPath_append_urlQuery]
      have hwhole : urlQuery req.url = '?' :: (query ++ rest) := by
        rw [hurl, ← urlPath_append_urlQuery rule.path, hmarked, List.append_assoc]
        exact (url_parts (mark_not_mem_urlPath _)).2
      rw [hwhole] at hsame
      have hle := length_query_le hnames hsame
      rw [List.length_cons, List.length_append] at hle
      omega
    rw [hquery hpath] at hsame
    have hplain : QueryPlain (urlQuery rest) := by
      obtain hnone | ⟨query, hsome⟩ := urlQuery_eq rest
      · rw [hnone]
        exact ⟨fun part hpart => absurd hpart List.not_mem_nil,
          fun part hpart => absurd hpart List.not_mem_nil⟩
      · rw [hsome] at hsame ⊢
        obtain ⟨m, C, first, back, -, hfirst, -, heq⟩ := segments_of_query hsame
        exact queryPlain_of_names hfirst isName_of_mem_names heq
    refine ⟨hnames, hpath, by rwa [hrest], ?_⟩
    rw [hrest, ← inside_append_iff hne]
    rwa [(normalize_joined hne hnames hplain).1] at hinside
  · rintro ⟨hnames, hpath, hplain, hreturns⟩
    rw [hrest] at hplain hreturns
    refine ⟨?_, ?_⟩
    · rw [hforwarded, (normalize_joined hne hnames hplain).1]
      exact (inside_append_iff hne _).mpr hreturns
    · rw [hforwarded, hquery hpath]
      exact (normalize_joined hne hnames hplain).2

/-- A rule that maps `/a` to `/b`. -/
def mapped : HttpRule where
  type := .http
  vhost := none
  path := ['/', 'a']
  targetPath := some ['/', 'b']
  vm := []
  port := 80

/-- `/a/c` arrives inside of `/b`: its walk goes down only. -/
theorem rewrite_contained_iff_mapped : Contained mapped ['/', 'b'] ['/', 'a', '/', 'c'] :=
  (@rewrite_contained_iff mapped ⟨none, ['/', 'a', '/', 'c']⟩ ['/', 'b'] (by decide) rfl
    (by decide)).mpr ⟨by decide, by decide, ⟨by decide, by decide⟩, .inl (by decide), by decide⟩

/-- `/a/../c` reaches `/c`, which is not below the target path. -/
theorem dotDot_escapes :
    mapped.applies ⟨none, ['/', 'a', '/', '.', '.', '/', 'c']⟩ = true ∧
      forwardedUrl mapped ['/', 'a', '/', '.', '.', '/', 'c'] = ['/', 'c'] ∧
      ¬Contained mapped ['/', 'b'] ['/', 'a', '/', '.', '.', '/', 'c'] := by
  refine ⟨by decide, by decide, fun h => ?_⟩
  exact absurd h.path.names (by decide)

/-- `/a?c//d` arrives with the query `?c/d`. -/
example : urlQuery (forwardedUrl mapped ['/', 'a', '?', 'c', '/', '/', 'd']) =
    ['?', 'c', '/', 'd'] := by decide

end RootlessRelay
