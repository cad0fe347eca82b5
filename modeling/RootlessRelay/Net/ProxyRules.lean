import Mathlib.Data.Int.ConditionallyCompleteOrder
import Mathlib.Data.List.MinMax
import Mathlib.Data.Prod.Lex
import Mathlib.Order.ConditionallyCompleteLattice.Basic
import RootlessRelay.Net.Forwards

/-!
# Choosing a proxy rule

`findProxyRule` gives every matching rule a score, 1000 for a virtual host and
one for each character of the path, and takes the first rule of the highest
score. A path that is 1000 characters longer therefore outweighs the virtual
host.

The intended order of rules is lexicographic (`rank`): the virtual host first,
then the path. Scores agree with it on rules that both have a virtual host or
both have none, and otherwise as long as no path outweighs one. The theorem
states for which lists of rules and which requests the answer is best, in every
order of the rules: the condition quantifies over the rules that apply to the
request and over nothing the loop computes.
-/

namespace RootlessRelay

/-- A string, as its characters. -/
abbrev Text := List Char

/-- A forwarding rule as `findProxyRule` and `proxyRequest` read it. The search
tests the type first, and looks at the other fields of `http` rules only. An
absent field and an empty string are both falsy. -/
structure HttpRule where
  type : RuleType := .http
  vhost : Option Text := none
  path : Text
  targetPath : Option Text := none
  vm : Text
  port : Port
  deriving DecidableEq, Repr

/-- The fields of an incoming request that the rules look at. The header may be
absent. -/
structure RequestHead where
  host : Option Text
  url : Text
  deriving DecidableEq, Repr

/-- A string field that counts as true: present and not empty. -/
def truthy (field : Option Text) : Bool := field.any fun text => !text.isEmpty

namespace HttpRule

/-- The rule has no virtual host, or the one the request is for. Ports are not
stripped. -/
def vhostMatches (rule : HttpRule) (req : RequestHead) : Bool :=
  !truthy rule.vhost || rule.vhost = req.host

/-- `req.url.startsWith(rule.path)`; the path need not end at a slash. -/
def pathMatches (rule : HttpRule) (req : RequestHead) : Bool := rule.path.isPrefixOf req.url

/-- The rule is one the loop gives a score. -/
def applies (req : RequestHead) (rule : HttpRule) : Bool :=
  rule.type = .http && (rule.vhostMatches req && rule.pathMatches req)

/-- The score of a rule: 1000 for a virtual host, and one for each character of
its path. -/
def score (rule : HttpRule) : Int := (if truthy rule.vhost then 1000 else 0) + rule.path.length

/-- The virtual host first, then the length of the path, in lexicographic order. -/
def rank (rule : HttpRule) : Bool ×ₗ Nat := toLex (truthy rule.vhost, rule.path.length)

end HttpRule

/-- The variables of the loop. Every score is above the one it starts with. -/
structure BestMatch where
  bestMatch : Option HttpRule := none
  bestMatchScore : Int := -1

/-- One round of the loop: a rule that applies is taken if its score is higher
than the best so far. -/
def BestMatch.consider (req : RequestHead) (best : BestMatch) (rule : HttpRule) : BestMatch :=
  if rule.type ≠ .http then best
  else if rule.vhostMatches req && rule.pathMatches req then
    if rule.score > best.bestMatchScore then ⟨some rule, rule.score⟩ else best
  else best

/-- `findProxyRule`: the loop over all rules, in the order of the list. -/
def findProxyRule (proxyRules : List HttpRule) (req : RequestHead) : Option HttpRule :=
  (proxyRules.foldl (BestMatch.consider req) {}).bestMatch

/-- No rule applies, or the answer is a rule that applies and none that applies
ranks higher. -/
def IsBest (proxyRules : List HttpRule) (req : RequestHead) : Option HttpRule → Prop
  | none => ∀ rule ∈ proxyRules, rule.applies req = false
  | some rule => rule ∈ proxyRules ∧ rule.applies req = true ∧
      ∀ rule' ∈ proxyRules, rule'.applies req = true → rule'.rank ≤ rule.rank

/-- In whatever order the rules stand, the answer is best, and of the same rank.
Which of several best rules it is may depend on the order. -/
def RanksBest (proxyRules : List HttpRule) (req : RequestHead) : Prop :=
  ∀ proxyRules', proxyRules'.Perm proxyRules →
    IsBest proxyRules' req (findProxyRule proxyRules' req) ∧
      (findProxyRule proxyRules' req).map HttpRule.rank =
        (findProxyRule proxyRules req).map HttpRule.rank

/-- A rule without a virtual host has a path less than 1000 characters longer
than that of some rule with one, if there is one. -/
def Outweighed (proxyRules : List HttpRule) (req : RequestHead) : Prop :=
  ∀ rule ∈ proxyRules, rule.applies req = true → truthy rule.vhost = false →
    (∃ hosted ∈ proxyRules, hosted.applies req = true ∧ truthy hosted.vhost = true) →
    ∃ hosted ∈ proxyRules, hosted.applies req = true ∧ truthy hosted.vhost = true ∧
      rule.path.length < 1000 + hosted.path.length

variable {proxyRules proxyRules' : List HttpRule} {req : RequestHead} {rule : HttpRule}

theorem HttpRule.score_nonneg (rule : HttpRule) : 0 ≤ rule.score := by
  unfold score
  split <;> omega

theorem rank_le_iff {rule rule' : HttpRule} :
    rule.rank ≤ rule'.rank ↔ truthy rule.vhost < truthy rule'.vhost ∨
      truthy rule.vhost = truthy rule'.vhost ∧ rule.path.length ≤ rule'.path.length :=
  Prod.Lex.toLex_le_toLex

theorem BestMatch.consider_eq (best : BestMatch) (rule : HttpRule) :
    best.consider req rule =
      if rule.applies req = true ∧ rule.score > best.bestMatchScore then ⟨some rule, rule.score⟩
      else best := by
  unfold BestMatch.consider HttpRule.applies
  by_cases htype : rule.type = .http
  · rw [if_neg (not_not.mpr htype), decide_eq_true htype, Bool.true_and]
    by_cases hmatch : (rule.vhostMatches req && rule.pathMatches req) = true
    · simp only [hmatch, if_true, true_and]
    · rw [if_neg hmatch, if_neg (fun h => hmatch h.1)]
  · rw [if_pos htype, decide_eq_false htype, Bool.false_and, if_neg (by simp)]

/-- The variables of the loop when `best` has been found: its score goes with
it. -/
def BestMatch.found : Option HttpRule → BestMatch
  | none => {}
  | some rule => ⟨some rule, rule.score⟩

/-- The loop takes the first rule of the highest score among those that apply.
This is `argmax` of the library. -/
theorem foldl_consider (proxyRules : List HttpRule) (req : RequestHead) :
    proxyRules.foldl (BestMatch.consider req) {} =
      .found ((proxyRules.filter (HttpRule.applies req)).argmax HttpRule.score) := by
  induction proxyRules using List.reverseRecOn with
  | nil => rfl
  | append_singleton rules rule ih =>
      rw [List.foldl_append, ih, List.filter_append, List.foldl_cons, List.foldl_nil,
        BestMatch.consider_eq]
      by_cases happlies : rule.applies req = true
      · rw [List.filter_cons_of_pos happlies, List.filter_nil, List.argmax_concat]
        cases (rules.filter (HttpRule.applies req)).argmax HttpRule.score with
        | none =>
            have hpos : rule.score > -1 := Int.lt_of_lt_of_le (by decide) rule.score_nonneg
            exact if_pos ⟨happlies, hpos⟩
        | some best =>
            dsimp only
            by_cases hbetter : best.score < rule.score
            · rw [if_pos hbetter]
              exact if_pos ⟨happlies, hbetter⟩
            · rw [if_neg hbetter]
              exact if_neg fun h => hbetter h.2
      · rw [List.filter_cons_of_neg happlies, List.filter_nil, List.append_nil,
          if_neg (fun h => happlies h.1)]

theorem findProxyRule_eq (proxyRules : List HttpRule) (req : RequestHead) :
    findProxyRule proxyRules req =
      (proxyRules.filter (HttpRule.applies req)).argmax HttpRule.score := by
  rw [findProxyRule, foldl_consider]
  cases (proxyRules.filter (HttpRule.applies req)).argmax HttpRule.score <;> rfl

/-- What is found applies, and nothing that applies has a higher score. -/
theorem findProxyRule_some (h : findProxyRule proxyRules req = some rule) :
    rule ∈ proxyRules ∧ rule.applies req = true ∧
      ∀ rule' ∈ proxyRules, rule'.applies req = true → rule'.score ≤ rule.score := by
  rw [findProxyRule_eq] at h
  obtain ⟨hmem, happlies⟩ := List.mem_filter.mp (List.argmax_mem h)
  exact ⟨hmem, happlies, fun rule' hmem' happlies' =>
    List.le_of_mem_argmax (List.mem_filter.mpr ⟨hmem', happlies'⟩) h⟩

theorem findProxyRule_none (h : findProxyRule proxyRules req = none) :
    ∀ rule ∈ proxyRules, rule.applies req = false := by
  rw [findProxyRule_eq, List.argmax_eq_none, List.filter_eq_nil_iff] at h
  exact fun rule hmem => Bool.eq_false_iff.mpr (h rule hmem)

/-- Among rules with or among rules without a virtual host, the score orders the
paths. -/
theorem score_le_iff {rule rule' : HttpRule} (hsame : truthy rule.vhost = truthy rule'.vhost) :
    rule.score ≤ rule'.score ↔ rule.path.length ≤ rule'.path.length := by
  unfold HttpRule.score
  rw [hsame]
  omega

theorem score_hosted {rule : HttpRule} (h : truthy rule.vhost = true) :
    rule.score = 1000 + rule.path.length := by
  rw [HttpRule.score, if_pos h]

theorem score_plain {rule : HttpRule} (h : truthy rule.vhost = false) :
    rule.score = rule.path.length := by
  rw [HttpRule.score, h, if_neg (by decide)]
  omega

/-- Where the paths are short enough, the highest score is the highest rank. -/
theorem Outweighed.isBest (h : Outweighed proxyRules req) :
    IsBest proxyRules req (findProxyRule proxyRules req) := by
  cases hfound : findProxyRule proxyRules req with
  | none => exact findProxyRule_none hfound
  | some rule =>
      obtain ⟨hmem, happlies, hmax⟩ := findProxyRule_some hfound
      refine ⟨hmem, happlies, fun rule' hmem' happlies' => rank_le_iff.mpr ?_⟩
      have hscore := hmax rule' hmem' happlies'
      cases hvhost : truthy rule.vhost <;> cases hvhost' : truthy rule'.vhost
      · exact .inr ⟨rfl, (score_le_iff (hvhost'.trans hvhost.symm)).mp hscore⟩
      · -- a rule with a virtual host that was not taken
        exfalso
        obtain ⟨hosted, hin, happ, hhost, hlong⟩ :=
          h rule hmem happlies hvhost ⟨rule', hmem', happlies', hvhost'⟩
        have hbound := hmax hosted hin happ
        rw [score_hosted hhost, score_plain hvhost] at hbound
        omega
      · exact .inl (by decide)
      · exact .inr ⟨rfl, (score_le_iff (hvhost'.trans hvhost.symm)).mp hscore⟩

theorem Outweighed.perm (h : Outweighed proxyRules req) (hperm : proxyRules'.Perm proxyRules) :
    Outweighed proxyRules' req := by
  intro rule hmem happlies hplain ⟨hosted, hin, happ, hhost⟩
  obtain ⟨v, hv, hrest⟩ := h rule (hperm.mem_iff.mp hmem) happlies hplain
    ⟨hosted, hperm.mem_iff.mp hin, happ, hhost⟩
  exact ⟨v, hperm.mem_iff.mpr hv, hrest⟩

/-- Two best answers have one rank, whatever the order of the rules. -/
theorem IsBest.rank_eq {answer answer' : Option HttpRule} (h : IsBest proxyRules req answer)
    (h' : IsBest proxyRules' req answer') (hperm : proxyRules'.Perm proxyRules) :
    answer'.map HttpRule.rank = answer.map HttpRule.rank := by
  cases answer with
  | none =>
      cases answer' with
      | none => rfl
      | some rule' =>
          obtain ⟨hmem, happlies, -⟩ := h'
          rw [h rule' (hperm.mem_iff.mp hmem)] at happlies
          cases happlies
  | some rule =>
      obtain ⟨hmem, happlies, hmax⟩ := h
      cases answer' with
      | none =>
          rw [h' rule (hperm.mem_iff.mpr hmem)] at happlies
          cases happlies
      | some rule' =>
          obtain ⟨hmem', happlies', hmax'⟩ := h'
          exact congrArg some (le_antisymm (hmax rule' (hperm.mem_iff.mp hmem') happlies')
            (hmax' rule (hperm.mem_iff.mpr hmem) happlies))

/-- A rule of the highest score is taken when it stands first, also if others
have the same. -/
theorem findProxyRule_first (happlies : rule.applies req = true)
    (hmax : ∀ rule' ∈ proxyRules, rule'.applies req = true → rule'.score ≤ rule.score) :
    findProxyRule (rule :: proxyRules) req = some rule := by
  have hmem : rule ∈ (rule :: proxyRules).filter (HttpRule.applies req) :=
    List.mem_filter.mpr ⟨List.mem_cons_self, happlies⟩
  rw [findProxyRule_eq, ← Option.mem_def, List.mem_argmax_iff]
  refine ⟨hmem, ?_, ?_⟩
  · intro rule' hmem'
    obtain ⟨hin, happ⟩ := List.mem_filter.mp hmem'
    obtain rfl | hrest := List.mem_cons.mp hin
    · exact le_rfl
    · exact hmax rule' hrest happ
  · intro rule' _ _
    rw [List.filter_cons_of_pos happlies, List.idxOf_cons_self]
    exact Nat.zero_le _

/-- The answer is best in every order of the rules exactly if no path is 1000
characters longer than those of the rules for the virtual host. -/
theorem findProxyRule_ranksBest_iff (proxyRules : List HttpRule) (req : RequestHead) :
    RanksBest proxyRules req ↔ Outweighed proxyRules req := by
  constructor
  · intro h rule hmem happlies hplain ⟨hosted, hin, happ, hhost⟩
    have hperm : (rule :: proxyRules.erase rule).Perm proxyRules :=
      (List.perm_cons_erase hmem).symm
    obtain ⟨hbest, -⟩ := h _ hperm
    cases hfound : findProxyRule (rule :: proxyRules.erase rule) req with
    | none =>
        have hnone := findProxyRule_none hfound rule List.mem_cons_self
        rw [happlies] at hnone
        cases hnone
    | some answer =>
        obtain ⟨hanswer, hanswerApplies, hmax⟩ := findProxyRule_some hfound
        rw [hfound] at hbest
        have hrank := hbest.2.2 hosted (hperm.mem_iff.mpr hin) happ
        have hanswerHost : truthy answer.vhost = true := by
          obtain hlt | ⟨heq, -⟩ := rank_le_iff.mp hrank
          · rw [hhost] at hlt
            exact absurd hlt (by cases truthy answer.vhost <;> decide)
          · rw [← heq, hhost]
        refine ⟨answer, hperm.mem_iff.mp hanswer, hanswerApplies, hanswerHost, ?_⟩
        by_contra hlong
        have hscore : answer.score ≤ rule.score := by
          rw [score_hosted hanswerHost, score_plain hplain]
          omega
        -- then the rule without a virtual host has the highest score, and stands first
        have hfirst : findProxyRule (rule :: proxyRules.erase rule) req = some rule :=
          findProxyRule_first happlies fun rule' hmem' happlies' =>
            (hmax rule' (List.mem_cons_of_mem _ hmem') happlies').trans hscore
        obtain rfl := Option.some.inj (hfound.symm.trans hfirst)
        rw [hplain] at hanswerHost
        cases hanswerHost
  · intro h proxyRules' hperm
    exact ⟨(h.perm hperm).isBest, h.isBest.rank_eq (h.perm hperm).isBest hperm⟩

/-- A rule for a path, and one for all paths of the host `h`. -/
def pathAndHost (path : Text) : List HttpRule :=
  [{ path, vm := ['v'], port := 80 },
    { vhost := some ['h'], path := [], vm := ['w'], port := 80 }]

/-- A request to the host for a long path goes to the rule of the path. This is
the kind of list on which scores and ranks part. -/
theorem pathAndHost_not_ranksBest {path : Text} (hlong : 1000 < path.length) :
    ¬RanksBest (pathAndHost path) ⟨some ['h'], path⟩ := by
  intro h
  obtain ⟨hbest, -⟩ := h (pathAndHost path) (List.Perm.refl _)
  have hplain : HttpRule.applies ⟨some ['h'], path⟩ { path, vm := ['v'], port := 80 } = true :=
    List.isPrefixOf_iff_prefix.mpr (List.prefix_refl path)
  have hhosted : HttpRule.applies ⟨some ['h'], path⟩
      { vhost := some ['h'], path := [], vm := ['w'], port := 80 } = true :=
    List.isPrefixOf_iff_prefix.mpr (List.nil_prefix)
  have hfirst : findProxyRule (pathAndHost path) ⟨some ['h'], path⟩ =
      some { path, vm := ['v'], port := 80 } := by
    refine findProxyRule_first hplain fun rule' hmem' _ => ?_
    obtain rfl := List.mem_singleton.mp hmem'
    rw [score_hosted rfl, score_plain rfl]
    change (1000 + 0 : Int) ≤ path.length
    omega
  rw [hfirst] at hbest
  have hrank := hbest.2.2 _ (List.mem_cons_of_mem _ (List.mem_singleton_self _)) hhosted
  obtain hlt | ⟨heq, -⟩ := rank_le_iff.mp hrank
  · exact absurd hlt (show ¬(true < false) by decide)
  · cases heq

/-- `/` and 1000 letters, against a rule for the host. -/
theorem vhost_beaten :
    ¬RanksBest (pathAndHost ('/' :: List.replicate 1000 'a'))
      ⟨some ['h'], '/' :: List.replicate 1000 'a'⟩ := by
  refine pathAndHost_not_ranksBest ?_
  rw [List.length_cons, List.length_replicate]
  exact Nat.lt_succ_self 1000

end RootlessRelay
