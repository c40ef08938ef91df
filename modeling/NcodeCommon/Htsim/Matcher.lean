import NcodeCommon.Htsim.MatchTree
import NcodeCommon.Htsim.MatchRule
import Mathlib.Data.List.AList
import Mathlib.Data.Nat.Find

/-!
# `Matcher`

`src/htsim/match.cc` defines `Matcher::AddRule` and `Matcher::MatchOrNull`
over the match tree `root_` (`MatchTree.lean`) and the map `all_rules_`, which
owns every installed rule by key.  A rule pointer is modelled by the identity
`nextRule_` hands out to each rule `AddRule` takes, so that pointers of rules
added later are larger; `all_rules_` maps a key to the pointer and the rule.

`AddRule` writes the new rule's paths into the tree, clears from the tree the
rule the map held under the same key, and only then overwrites or (for a rule
with no actions) erases the map entry.  Over every history of `AddRule`s:

* the tree points only at rules the map owns, under their own key, which lists
  the path (`Matcher.Owned`, `addRules_tree_owned`);
* while no deletion removes the rule that is the latest at a path another
  installed key also lists, the tree stores at every listed path the most
  recently added rule listing it (`Matcher.StoresLatest`), so that
  `MatchOrNull` classifies a packet as a lookup of `all_rules_` alone would
  (`addRules_classify`).  Replacing a rule is always safe: the new rule lists
  the same paths and takes them over before the old one is cleared.  Deleting
  a key whose rule is the latest at a path another key lists clears the shared
  leaf, and a packet the other key lists is then left unmatched
  (`addRules_delete_shared_path`).
-/

namespace NcodeCommon.Htsim

/-! ### The matcher -/

/-- `Matcher`: its id, the match tree of rule pointers, the rules it owns by
    key with their pointers, and the pointer the next added rule gets. -/
structure Matcher where
  id_ : String
  root_ : MatchNode Nat
  allRules_ : AList (fun _ : MatchRuleKey => Nat × MatchRule)
  nextRule_ : Nat

/-- `Matcher(id)`. -/
def Matcher.new (id : String) : Matcher := ⟨id, .empty, ∅, 0⟩

section Wild

variable (wild : Wildcards)

/-- The lookup keys a rule key stands for: one per five-tuple, at the key's
    input port and tag. -/
def MatchRuleKey.lookupKeys (key : MatchRuleKey) : List (List (UInt32 × UInt32)) :=
  key.fiveTuples_.map fun fiveTuple => getKeyAndWildcard wild fiveTuple key.inputPort_ key.tag_

/-- The tree paths a rule key lists. -/
def MatchRuleKey.paths (key : MatchRuleKey) : List (List (Option UInt32)) :=
  (key.lookupKeys wild).map keyPath

/-- `Matcher::AddRule(rule)`: `set_parent_matcher` `CHECK`s that the rule has
    no parent yet; a rule with actions is written into the tree at each
    five-tuple of its key; the rule the map holds under the key is cleared
    from the tree; and the map entry is erased (no actions) or overwritten. -/
def Matcher.addRule (m : Matcher) (rule : MatchRule) : Option Matcher :=
  if rule.parentMatcher_.isSome then none else
  let key := rule.key_
  let ruleRawPtr := m.nextRule_
  let deleteRule := rule.actions_.isEmpty
  let root := if deleteRule then m.root_ else
    key.fiveTuples_.foldl (fun root fiveTuple =>
      root.insertOrUpdate (getKeyAndWildcard wild fiveTuple key.inputPort_ key.tag_) ruleRawPtr) m.root_
  let root := match m.allRules_.lookup key with
    | some (toClear, _) => root.clearRule toClear
    | none => root
  let allRules := if deleteRule then m.allRules_.erase key
    else m.allRules_.insert key (ruleRawPtr, { rule with parentMatcher_ := some m.id_ })
  some { m with root_ := root, allRules_ := allRules, nextRule_ := ruleRawPtr + 1 }

/-- A sequence of `AddRule` calls. -/
def Matcher.addRules (m : Matcher) : List MatchRule → Option Matcher
  | [] => some m
  | rule :: rules => (m.addRule wild rule).bind fun m' => Matcher.addRules m' rules

/-- The rule a pointer points to among those the matcher owns; `none` for a
    pointer to a destroyed rule, whose use is undefined behaviour. -/
def Matcher.ruleOf (m : Matcher) (ptr : Nat) : Option MatchRule :=
  (m.allRules_.entries.find? fun e => e.2.1 = ptr).map fun e => e.2.2

section Hash

variable (fiveTupleHash : FiveTuple → Nat)

/-- `Matcher::MatchOrNull(pkt, input_port)`: the pointer of the rule the tree
    finds and the index of the action its `ChooseOrNull` picks, `some none`
    for `nullptr`.  A wildcard input port fails the `CHECK`; a fatal
    `ChooseOrNull` and a pointer to a destroyed rule are `none`.  The
    statistics `ChooseOrNull(packet)` updates are not modelled. -/
def Matcher.matchOrNull (m : Matcher) (pkt : Packet) (inputPort : DevicePortNumber) :
    Option (Option (Nat × Nat)) :=
  if inputPort.raw = wild.kWildDevicePortNumber then none
  else match m.root_.matchOrNull (getKeyAndWildcard wild pkt.fiveTuple inputPort pkt.tag) with
    | none => some none
    | some ptr => do
      let rule ← m.ruleOf ptr
      let action ← rule.chooseOrNull fiveTupleHash pkt.fiveTuple
      some (action.map (ptr, ·))

end Hash

/-- The tree lookup `MatchOrNull` makes for a packet, at the keys of
    `GetKeyAndWildcard<0..6>`, returns the rule stored at the matching path
    that is greatest level by level (input port, tag, ip_dst, ip_src,
    ip_proto, src_port, dst_port) with concrete above wildcard, and null
    exactly when no stored path matches. -/
theorem lookup_most_specific (m : Matcher) (pkt : Packet) (inputPort : DevicePortNumber) :
    let keys := getKeyAndWildcard wild pkt.fiveTuple inputPort pkt.tag
    (∀ ptr, m.root_.matchOrNull keys = some ptr ↔
      MostSpecific (fun p ptr => m.root_.get p = some ptr) keys ptr) ∧
    (m.root_.matchOrNull keys = none ↔ ∀ p ptr, m.root_.get p = some ptr → ¬PathMatches p keys) :=
  MatchNode.matchOrNull_spec m.root_ _

/-! ### What the rule table lists -/

/-- Rule `ptr` is owned under a key that lists path `p`. -/
def Matcher.Listed (m : Matcher) (p : List (Option UInt32)) (ptr : Nat) : Prop :=
  ∃ key rule, m.allRules_.lookup key = some (ptr, rule) ∧ p ∈ key.paths wild

/-- Rule `ptr` is the most recently added of the owned rules that list `p`. -/
def Matcher.Latest (m : Matcher) (p : List (Option UInt32)) (ptr : Nat) : Prop :=
  m.Listed wild p ptr ∧ ∀ ptr', m.Listed wild p ptr' → ptr' ≤ ptr

theorem length_of_mem_paths {key : MatchRuleKey} {p : List (Option UInt32)}
    (h : p ∈ key.paths wild) : p.length = 7 := by
  obtain ⟨keys, hkeys, rfl⟩ := List.mem_map.1 h
  obtain ⟨fiveTuple, -, rfl⟩ := List.mem_map.1 hkeys
  rfl

theorem length_of_listed {m : Matcher} {p : List (Option UInt32)} {ptr : Nat}
    (h : m.Listed wild p ptr) : p.length = 7 :=
  let ⟨_, _, _, hp⟩ := h
  length_of_mem_paths wild hp

/-! ### One `AddRule` -/

/-- What `AddRule` does to each part of the matcher. -/
theorem Matcher.addRule_eq_some {m m' : Matcher} {rule : MatchRule}
    (h : m.addRule wild rule = some m') :
    rule.parentMatcher_ = none ∧ m'.nextRule_ = m.nextRule_ + 1 ∧
    (∀ key, m'.allRules_.lookup key =
      if key = rule.key_ then
        if rule.actions_.isEmpty then none
        else some (m.nextRule_, { rule with parentMatcher_ := some m.id_ })
      else m.allRules_.lookup key) ∧
    ∀ p x, m'.root_.get p = some x ↔
      (if rule.actions_.isEmpty then m.root_
        else (rule.key_.lookupKeys wild).foldl (fun t keys => t.insertOrUpdate keys m.nextRule_)
          m.root_).get p = some x ∧
      ∀ r, m.allRules_.lookup rule.key_ ≠ some (x, r) := by
  unfold Matcher.addRule at h
  split_ifs at h with hparent
  cases h
  refine ⟨by simpa using hparent, rfl, fun key => ?_, fun p x => ?_⟩
  · by_cases hk : key = rule.key_
    · subst hk
      cases rule.actions_.isEmpty <;> simp
    · cases rule.actions_.isEmpty <;> simp [hk, AList.lookup_insert_ne, AList.lookup_erase_ne]
  · rw [MatchRuleKey.lookupKeys, List.foldl_map]
    cases hl : m.allRules_.lookup rule.key_ with
    | none => simp
    | some e =>
      obtain ⟨o, r⟩ := e
      simp only [MatchNode.get_clearRule_eq_some]
      refine and_congr_right fun _ => ⟨fun hne r' hr' => ?_, fun hall hxo => hall r (by rw [hxo])⟩
      cases hr'
      exact hne rfl

/-- What the tree stores after `AddRule`: the new rule at its paths, or what it
    stored before; never the rule the map held under the key. -/
theorem Matcher.get_addRule_eq_some {m m' : Matcher} {rule : MatchRule}
    (h : m.addRule wild rule = some m') {p : List (Option UInt32)} {x : Nat}
    (hx : m'.root_.get p = some x) :
    ((rule.actions_.isEmpty = false ∧ p ∈ rule.key_.paths wild ∧ x = m.nextRule_) ∨
      m.root_.get p = some x) ∧ ∀ r, m.allRules_.lookup rule.key_ ≠ some (x, r) := by
  obtain ⟨hstage, hnot⟩ := ((addRule_eq_some wild h).2.2.2 p x).1 hx
  refine ⟨?_, hnot⟩
  cases hd : rule.actions_.isEmpty <;> rw [hd] at hstage
  · exact (MatchNode.get_foldl_insertOrUpdate_eq_some hstage).imp (fun h => ⟨rfl, h⟩) id
  · exact Or.inr hstage

/-- At a path of the tree's depth, `AddRule` stores the new rule at the paths it
    lists and keeps the rest, less the rule the map held under the key. -/
theorem Matcher.get_addRule {m m' : Matcher} {rule : MatchRule}
    (h : m.addRule wild rule = some m') {p : List (Option UInt32)} (hp : p.length = 7) (x : Nat) :
    m'.root_.get p = some x ↔
      (if rule.actions_.isEmpty = false ∧ p ∈ rule.key_.paths wild then some m.nextRule_
        else m.root_.get p) = some x ∧ ∀ r, m.allRules_.lookup rule.key_ ≠ some (x, r) := by
  rw [(addRule_eq_some wild h).2.2.2 p x]
  have hlen : ∀ keys ∈ rule.key_.lookupKeys wild, p.length = keys.length := by
    intro keys hkeys
    obtain ⟨fiveTuple, -, rfl⟩ := List.mem_map.1 hkeys
    exact hp
  cases hd : rule.actions_.isEmpty
  · simp [MatchNode.get_foldl_insertOrUpdate _ _ _ hlen, MatchRuleKey.paths]
  · simp

/-- Which key maps to what after `AddRule`. -/
theorem Matcher.lookup_addRule_eq_some {m m' : Matcher} {rule : MatchRule}
    (h : m.addRule wild rule = some m') {key : MatchRuleKey} {x : Nat} {r : MatchRule}
    (hk : m'.allRules_.lookup key = some (x, r)) :
    (key = rule.key_ ∧ rule.actions_.isEmpty = false ∧ x = m.nextRule_ ∧
        r = { rule with parentMatcher_ := some m.id_ }) ∨
      (key ≠ rule.key_ ∧ m.allRules_.lookup key = some (x, r)) := by
  rw [(addRule_eq_some wild h).2.2.1 key] at hk
  split_ifs at hk with hkey hd
  · cases hk
    exact Or.inl ⟨hkey, by simpa using hd, rfl, rfl⟩
  · exact Or.inr ⟨hkey, hk⟩

/-- `AddRule` succeeds on every rule with no parent matcher. -/
theorem Matcher.addRule_isSome (m : Matcher) {rule : MatchRule} (h : rule.parentMatcher_ = none) :
    ∃ m', m.addRule wild rule = some m' := by
  simp [Matcher.addRule, h]

/-! ### Only owned rules are reachable -/

/-- What every history of `AddRule`s keeps: the tree points only at owned
    rules, under their own key, which lists the path; owned rules have distinct
    pointers, each handed out before. -/
structure Matcher.Owned (m : Matcher) : Prop where
  tree_listed : ∀ p ptr, m.root_.get p = some ptr → m.Listed wild p ptr
  rule_key : ∀ key ptr rule, m.allRules_.lookup key = some (ptr, rule) → rule.key_ = key
  ptr_lt : ∀ key ptr rule, m.allRules_.lookup key = some (ptr, rule) → ptr < m.nextRule_
  key_unique : ∀ key key' ptr rule rule', m.allRules_.lookup key = some (ptr, rule) →
    m.allRules_.lookup key' = some (ptr, rule') → key = key'

theorem Matcher.owned_new (id : String) : (Matcher.new id).Owned wild where
  tree_listed p ptr h := by simp [Matcher.new] at h
  rule_key key ptr rule h := by simp [Matcher.new] at h
  ptr_lt key ptr rule h := by simp [Matcher.new] at h
  key_unique key key' ptr rule rule' h := by simp [Matcher.new] at h

/-- After `AddRule` a path is listed by the new rule, or by a rule that listed
    it before and is not the one the map held under the new rule's key. -/
theorem Matcher.Owned.listed_addRule {m m' : Matcher} {rule : MatchRule} (hm : m.Owned wild)
    (h : m.addRule wild rule = some m') {p : List (Option UInt32)} {x : Nat} :
    m'.Listed wild p x ↔
      (rule.actions_.isEmpty = false ∧ p ∈ rule.key_.paths wild ∧ x = m.nextRule_) ∨
      (m.Listed wild p x ∧ ∀ r, m.allRules_.lookup rule.key_ ≠ some (x, r)) := by
  constructor
  · rintro ⟨key, r, hk, hp⟩
    rcases lookup_addRule_eq_some wild h hk with ⟨rfl, hd, rfl, -⟩ | ⟨hkey, hk⟩
    · exact Or.inl ⟨hd, hp, rfl⟩
    · exact Or.inr ⟨⟨key, r, hk, hp⟩, fun r' hr' => hkey (hm.key_unique _ _ _ _ _ hk hr')⟩
  · have hlookup := (addRule_eq_some wild h).2.2.1
    rintro (⟨hd, hp, rfl⟩ | ⟨⟨key, r, hk, hp⟩, hnot⟩)
    · exact ⟨rule.key_, { rule with parentMatcher_ := some m.id_ }, by rw [hlookup]; simp [hd], hp⟩
    · have hkey : key ≠ rule.key_ := by
        rintro rfl
        exact hnot r hk
      exact ⟨key, r, by rw [hlookup, if_neg hkey]; exact hk, hp⟩

/-- `AddRule` keeps `Owned`. -/
theorem Matcher.Owned.addRule {m m' : Matcher} {rule : MatchRule} (hm : m.Owned wild)
    (h : m.addRule wild rule = some m') : m'.Owned wild where
  tree_listed p x hx := by
    obtain ⟨hnew | hold, hnot⟩ := get_addRule_eq_some wild h hx
    · exact (hm.listed_addRule wild h).2 (Or.inl hnew)
    · exact (hm.listed_addRule wild h).2 (Or.inr ⟨hm.tree_listed p x hold, hnot⟩)
  rule_key key x r hk := by
    rcases lookup_addRule_eq_some wild h hk with ⟨rfl, -, -, rfl⟩ | ⟨-, hk⟩
    · rfl
    · exact hm.rule_key _ _ _ hk
  ptr_lt key x r hk := by
    rw [(addRule_eq_some wild h).2.1]
    rcases lookup_addRule_eq_some wild h hk with ⟨-, -, rfl, -⟩ | ⟨-, hk⟩
    · exact Nat.lt_succ_self _
    · exact Nat.lt_succ_of_lt (hm.ptr_lt _ _ _ hk)
  key_unique key key' x r r' hk hk' := by
    rcases lookup_addRule_eq_some wild h hk with ⟨rfl, -, rfl, -⟩ | ⟨-, hk⟩ <;>
      rcases lookup_addRule_eq_some wild h hk' with ⟨rfl, -, hx, -⟩ | ⟨-, hk'⟩
    · rfl
    · exact absurd (hm.ptr_lt _ _ _ hk') (lt_irrefl _)
    · exact absurd (hm.ptr_lt _ _ _ hk) (by omega)
    · exact hm.key_unique _ _ _ _ _ hk hk'

/-- A rule the map held under the key of an added rule is no longer owned. -/
theorem Matcher.Owned.not_listed_addRule {m m' : Matcher} {rule : MatchRule} (hm : m.Owned wild)
    (h : m.addRule wild rule = some m') {ptr : Nat} {old : MatchRule}
    (hold : m.allRules_.lookup rule.key_ = some (ptr, old)) (p : List (Option UInt32)) :
    ¬m'.Listed wild p ptr := by
  rw [hm.listed_addRule wild h]
  rintro (⟨-, -, rfl⟩ | ⟨-, hnot⟩)
  · exact lt_irrefl _ (hm.ptr_lt _ _ _ hold)
  · exact hnot old hold

/-- The pointer `ruleOf` follows is the owned rule's. -/
theorem Matcher.Owned.ruleOf_eq {m : Matcher} (hm : m.Owned wild) {key : MatchRuleKey} {ptr : Nat}
    {rule : MatchRule} (h : m.allRules_.lookup key = some (ptr, rule)) : m.ruleOf ptr = some rule := by
  obtain ⟨e, he⟩ := Option.isSome_iff_exists.1
    (List.find?_isSome.2 ⟨_, AList.mem_lookup_iff.1 h, by simp⟩ :
      (m.allRules_.entries.find? fun e => e.2.1 = ptr).isSome)
  obtain ⟨k, x, r⟩ := e
  obtain rfl : x = ptr := by simpa using List.find?_some he
  have hk : m.allRules_.lookup k = some (x, r) := AList.mem_lookup_iff.2 (List.mem_of_find?_eq_some he)
  obtain rfl := hm.key_unique _ _ _ _ _ hk h
  rw [h] at hk
  cases hk
  simp [Matcher.ruleOf, he]

/-- A matched pointer is stored in the tree. -/
theorem Matcher.get_of_matchOrNull (fiveTupleHash : FiveTuple → Nat) {m : Matcher} {pkt : Packet}
    {inputPort : DevicePortNumber} {ptr a : Nat}
    (h : m.matchOrNull wild fiveTupleHash pkt inputPort = some (some (ptr, a))) :
    ∃ p, m.root_.get p = some ptr := by
  unfold Matcher.matchOrNull at h
  split_ifs at h
  cases hmatch : m.root_.matchOrNull (getKeyAndWildcard wild pkt.fiveTuple inputPort pkt.tag) with
  | none => simp [hmatch] at h
  | some ptr' =>
    simp only [hmatch, Option.bind_eq_bind, Option.bind_eq_some, Option.some.injEq,
      Option.map_eq_some', Prod.mk.injEq] at h
    obtain ⟨-, -, -, -, -, -, rfl, -⟩ := h
    obtain ⟨p, hp, -⟩ := ((MatchNode.matchOrNull_spec _ _).1 _).1 hmatch
    exact ⟨p, hp⟩

/-- Every history of `AddRule`s of parentless rules succeeds and keeps
    `Owned`. -/
theorem Matcher.Owned.addRules {m : Matcher} (hm : m.Owned wild) (rules : List MatchRule)
    (hfresh : ∀ rule ∈ rules, rule.parentMatcher_ = none) :
    ∃ m', m.addRules wild rules = some m' ∧ m'.Owned wild := by
  induction rules generalizing m with
  | nil => exact ⟨m, rfl, hm⟩
  | cons rule rules ih =>
    obtain ⟨m₁, h₁⟩ := m.addRule_isSome wild (hfresh rule (List.mem_cons_self _ _))
    obtain ⟨m', h', hm'⟩ := ih (hm.addRule wild h₁) fun r hr => hfresh r (List.mem_cons_of_mem _ hr)
    exact ⟨m', by simp [Matcher.addRules, h₁, h'], hm'⟩

/-! ### Example histories -/

/-- Wildcard sentinels for the example histories. -/
def exampleWildcards : Wildcards := ⟨0xFFFFFFFF, 0, 0, 0, 0⟩

/-- A five-tuple with no wildcard field. -/
def exampleFiveTuple : FiveTuple := ⟨1, 2, 6, 3, 4⟩

/-- A rule at input port 1 and tag 1 that forwards the five-tuples it lists to
    port 2. -/
def forwardRule (fiveTuples : List FiveTuple) : MatchRule :=
  ⟨⟨⟨1⟩, ⟨1⟩, fiveTuples⟩, [MatchRuleAction.new ⟨2⟩ ⟨0⟩ 1], 1, none⟩

/-- Two rules under different keys that both list `exampleFiveTuple`; the
    second also lists another five-tuple. -/
def sharedPathRules : List MatchRule :=
  [forwardRule [exampleFiveTuple], forwardRule [exampleFiveTuple, ⟨1, 2, 6, 3, 5⟩]]

section Hash

variable (fiveTupleHash : FiveTuple → Nat)

/-- After every history of `AddRule`s the tree points only at rules the map
    owns under their own key, which lists the path.  So once `AddRule` replaces
    or deletes the rule under a key, no leaf points at that rule and
    `MatchOrNull` never returns one of its actions. -/
theorem addRules_tree_owned (matcherId : String) (rules : List MatchRule)
    (hfresh : ∀ rule ∈ rules, rule.parentMatcher_ = none) :
    ∃ m, (Matcher.new matcherId).addRules wild rules = some m ∧ m.Owned wild ∧
      ∀ rule m', m.addRule wild rule = some m' →
        ∀ ptr old, m.allRules_.lookup rule.key_ = some (ptr, old) →
          (∀ p, m'.root_.get p ≠ some ptr) ∧
          ∀ pkt inputPort a, m'.matchOrNull wild fiveTupleHash pkt inputPort ≠ some (some (ptr, a)) := by
  obtain ⟨m, hrun, hm⟩ := (Matcher.owned_new wild matcherId).addRules wild rules hfresh
  refine ⟨m, hrun, hm, fun rule m' h ptr old hold => ?_⟩
  have hgone : ∀ p, m'.root_.get p ≠ some ptr := fun p hp =>
    hm.not_listed_addRule wild h hold p ((hm.addRule wild h).tree_listed p ptr hp)
  refine ⟨hgone, fun pkt inputPort a hmatch => ?_⟩
  obtain ⟨p, hp⟩ := Matcher.get_of_matchOrNull wild fiveTupleHash hmatch
  exact hgone p hp

theorem addRules_tree_owned_shared_path :
    (∀ rule ∈ sharedPathRules ++ [MatchRule.new (forwardRule [exampleFiveTuple, ⟨1, 2, 6, 3, 5⟩]).key_],
      rule.parentMatcher_ = none) ∧
    ∃ m, (Matcher.new "m").addRules exampleWildcards
        (sharedPathRules ++ [MatchRule.new (forwardRule [exampleFiveTuple, ⟨1, 2, 6, 3, 5⟩]).key_]) = some m ∧
      m.Owned exampleWildcards ∧
      ∀ rule m', m.addRule exampleWildcards rule = some m' →
        ∀ ptr old, m.allRules_.lookup rule.key_ = some (ptr, old) →
          (∀ p, m'.root_.get p ≠ some ptr) ∧
          ∀ pkt inputPort a, m'.matchOrNull exampleWildcards (fun _ => 0) pkt inputPort ≠ some (some (ptr, a)) :=
  ⟨by decide, addRules_tree_owned exampleWildcards (fun _ => 0) "m" _ (by decide)⟩

end Hash

/-! ### The tree stores the latest rule at every listed path -/

/-- The tree stores at each path exactly the most recently added owned rule
    that lists it. -/
def Matcher.StoresLatest (m : Matcher) : Prop :=
  ∀ p x, m.root_.get p = some x ↔ m.Latest wild p x

theorem Matcher.storesLatest_new (id : String) : (Matcher.new id).StoresLatest wild := by
  intro p x
  refine ⟨fun h => by simp [Matcher.new] at h, ?_⟩
  rintro ⟨⟨key, rule, h, -⟩, -⟩
  simp [Matcher.new] at h

/-- Among finitely many owned pointers, a listed path has a latest rule. -/
theorem Matcher.Owned.exists_latest {m : Matcher} (hm : m.Owned wild) {p : List (Option UInt32)}
    {ptr : Nat} (h : m.Listed wild p ptr) : ∃ ptr', m.Latest wild p ptr' := by
  classical
  have hle : ∀ y, m.Listed wild p y → y ≤ m.nextRule_ := fun y ⟨_, _, hk, _⟩ =>
    (hm.ptr_lt _ _ _ hk).le
  exact ⟨Nat.findGreatest (m.Listed wild p) m.nextRule_,
    Nat.findGreatest_spec (hle ptr h) h, fun y hy => Nat.le_findGreatest (hle y hy) hy⟩

/-- `AddRule(rule)` clears no leaf another owned key still needs: when the
    rule has no actions and the map holds a rule under its key, that rule is
    not the latest at any path of the key that another owned key lists, since
    some owned rule listing the path was added after it. -/
def Matcher.SafeToAdd (m : Matcher) (rule : MatchRule) : Prop :=
  rule.actions_.isEmpty → ∀ e ∈ m.allRules_.entries, e.1 = rule.key_ →
    ∀ p ∈ rule.key_.paths wild, ∀ e' ∈ m.allRules_.entries, e'.1 ≠ rule.key_ → p ∈ e'.1.paths wild →
      ∃ e'' ∈ m.allRules_.entries, p ∈ e''.1.paths wild ∧ e.2.1 < e''.2.1

instance (m : Matcher) (rule : MatchRule) : Decidable (m.SafeToAdd wild rule) :=
  inferInstanceAs (Decidable (rule.actions_.isEmpty → ∀ e ∈ m.allRules_.entries, e.1 = rule.key_ →
    ∀ p ∈ rule.key_.paths wild, ∀ e' ∈ m.allRules_.entries, e'.1 ≠ rule.key_ →
      p ∈ e'.1.paths wild → ∃ e'' ∈ m.allRules_.entries, p ∈ e''.1.paths wild ∧ e.2.1 < e''.2.1))

/-- A history of `AddRule` calls each of which is `SafeToAdd` where it is
    made. -/
def Matcher.SafeHistory : Matcher → List MatchRule → Prop
  | _, [] => True
  | m, rule :: rules => m.SafeToAdd wild rule ∧
    match m.addRule wild rule with
    | some m' => Matcher.SafeHistory m' rules
    | none => True

instance Matcher.decidableSafeHistory : (m : Matcher) → (rules : List MatchRule) →
    Decidable (m.SafeHistory wild rules)
  | _, [] => isTrue trivial
  | m, rule :: rules =>
    have : Decidable (match m.addRule wild rule with
        | some m' => m'.SafeHistory wild rules
        | none => True) :=
      match m.addRule wild rule with
      | some m' => Matcher.decidableSafeHistory m' rules
      | none => isTrue trivial
    inferInstanceAs (Decidable (_ ∧ _))

/-- In a safe step, if the rule the map held under the key lists a path that
    the new rule does not take over, and another owned rule lists it too, then
    an owned rule listing the path was added after the old one. -/
theorem Matcher.Owned.old_lt_of_listed {m : Matcher} {rule : MatchRule} (hm : m.Owned wild)
    (hsafe : m.SafeToAdd wild rule) {p : List (Option UInt32)}
    (hA : ¬(rule.actions_.isEmpty = false ∧ p ∈ rule.key_.paths wild))
    {y : Nat} {r : MatchRule} (hr : m.allRules_.lookup rule.key_ = some (y, r))
    (hy : m.Listed wild p y) {x : Nat} (hx : m.Listed wild p x)
    (hxnot : ∀ r, m.allRules_.lookup rule.key_ ≠ some (x, r)) :
    ∃ z, m.Listed wild p z ∧ (∀ r, m.allRules_.lookup rule.key_ ≠ some (z, r)) ∧ y < z := by
  obtain ⟨key, r₀, hk, hpk⟩ := hy
  obtain rfl := hm.key_unique _ _ _ _ _ hk hr
  have hd : rule.actions_.isEmpty = true := by simpa [hpk] using hA
  obtain ⟨key', r', hk', hpk'⟩ := hx
  have hkey : key' ≠ rule.key_ := fun h => hxnot r' (h ▸ hk')
  obtain ⟨⟨k'', z, r''⟩, he'', hpz, hlt⟩ := hsafe hd _ (AList.mem_lookup_iff.1 hk) rfl p hpk _
    (AList.mem_lookup_iff.1 hk') hkey hpk'
  have hz : m.allRules_.lookup k'' = some (z, r'') := AList.mem_lookup_iff.2 he''
  refine ⟨z, ⟨k'', r'', hz, hpz⟩, fun r₁ hz' => ?_, hlt⟩
  rw [hk] at hz'
  cases hz'
  exact lt_irrefl _ hlt

/-- At a path the added rule lists, the added rule is the latest. -/
theorem Matcher.Owned.latest_addRule_new {m m' : Matcher} {rule : MatchRule} (hm : m.Owned wild)
    (h : m.addRule wild rule = some m') {p : List (Option UInt32)}
    (hA : rule.actions_.isEmpty = false ∧ p ∈ rule.key_.paths wild) (x : Nat) :
    m'.Latest wild p x ↔ x = m.nextRule_ := by
  have hn : m'.Listed wild p m.nextRule_ := (hm.listed_addRule wild h).2 (Or.inl ⟨hA.1, hA.2, rfl⟩)
  have hle : ∀ y, m'.Listed wild p y → y ≤ m.nextRule_ := by
    intro y hy
    rcases (hm.listed_addRule wild h).1 hy with ⟨-, -, rfl⟩ | ⟨⟨_, _, hk, -⟩, -⟩
    · exact le_rfl
    · exact (hm.ptr_lt _ _ _ hk).le
  exact ⟨fun ⟨hx, hmax⟩ => le_antisymm (hle x hx) (hmax _ hn), by rintro rfl; exact ⟨hn, hle⟩⟩

/-- At any other path a safe `AddRule` keeps the latest rule, unless it is the
    rule the map held under the key. -/
theorem Matcher.Owned.latest_addRule_old {m m' : Matcher} {rule : MatchRule} (hm : m.Owned wild)
    (hsafe : m.SafeToAdd wild rule) (h : m.addRule wild rule = some m') {p : List (Option UInt32)}
    (hA : ¬(rule.actions_.isEmpty = false ∧ p ∈ rule.key_.paths wild)) (x : Nat) :
    m'.Latest wild p x ↔ m.Latest wild p x ∧ ∀ r, m.allRules_.lookup rule.key_ ≠ some (x, r) := by
  have hl : ∀ y, m'.Listed wild p y ↔
      m.Listed wild p y ∧ ∀ r, m.allRules_.lookup rule.key_ ≠ some (y, r) := fun y => by
    rw [hm.listed_addRule wild h]
    exact ⟨fun h' => h'.resolve_left fun ⟨hd, hpk, _⟩ => hA ⟨hd, hpk⟩, Or.inr⟩
  simp only [Matcher.Latest, hl]
  constructor
  · rintro ⟨⟨hx, hnot⟩, hmax⟩
    refine ⟨⟨hx, fun y hy => ?_⟩, hnot⟩
    by_cases hold : ∃ r, m.allRules_.lookup rule.key_ = some (y, r)
    · -- the cleared rule is older than some rule that keeps the path
      obtain ⟨r, hr⟩ := hold
      obtain ⟨z, hz, hznot, hyz⟩ := hm.old_lt_of_listed wild hsafe hA hr hy hx hnot
      exact hyz.le.trans (hmax z ⟨hz, hznot⟩)
    · exact hmax y ⟨hy, fun r hr => hold ⟨r, hr⟩⟩
  · rintro ⟨⟨hx, hmax⟩, hnot⟩
    exact ⟨⟨hx, hnot⟩, fun y hy => hmax y hy.1⟩

/-- A safe `AddRule` keeps `StoresLatest`. -/
theorem Matcher.StoresLatest.addRule {m m' : Matcher} {rule : MatchRule} (hm : m.Owned wild)
    (hs : m.StoresLatest wild) (hsafe : m.SafeToAdd wild rule)
    (h : m.addRule wild rule = some m') : m'.StoresLatest wild := by
  intro p x
  by_cases hp : p.length = 7
  swap
  · exact ⟨fun hx => absurd (length_of_listed wild ((hm.addRule wild h).tree_listed _ _ hx)) hp,
      fun hx => absurd (length_of_listed wild hx.1) hp⟩
  rw [get_addRule wild h hp]
  by_cases hA : rule.actions_.isEmpty = false ∧ p ∈ rule.key_.paths wild
  · rw [if_pos hA, hm.latest_addRule_new wild h hA]
    exact ⟨fun ⟨hx, _⟩ => (Option.some.inj hx).symm,
      by rintro rfl; exact ⟨rfl, fun r hr => lt_irrefl _ (hm.ptr_lt _ _ _ hr)⟩⟩
  · rw [if_neg hA, hs p x, hm.latest_addRule_old wild hsafe h hA]

/-- Every safe history of `AddRule`s of parentless rules succeeds and keeps
    `Owned` and `StoresLatest`. -/
theorem Matcher.StoresLatest.addRules {m : Matcher} (hm : m.Owned wild) (hs : m.StoresLatest wild)
    (rules : List MatchRule) (hfresh : ∀ rule ∈ rules, rule.parentMatcher_ = none)
    (hsafe : m.SafeHistory wild rules) :
    ∃ m', m.addRules wild rules = some m' ∧ m'.Owned wild ∧ m'.StoresLatest wild := by
  induction rules generalizing m with
  | nil => exact ⟨m, rfl, hm, hs⟩
  | cons rule rules ih =>
    obtain ⟨m₁, h₁⟩ := m.addRule_isSome wild (hfresh rule (List.mem_cons_self _ _))
    obtain ⟨hstep, hrest⟩ := hsafe
    simp only [h₁] at hrest
    obtain ⟨m', h', hm', hs'⟩ := ih (hm.addRule wild h₁) (hs.addRule wild hm hstep h₁)
      (fun r hr => hfresh r (List.mem_cons_of_mem _ hr)) hrest
    exact ⟨m', by simp [Matcher.addRules, h₁, h'], hm', hs'⟩

section Hash

variable (fiveTupleHash : FiveTuple → Nat)

/-- After a history of `AddRule`s in which no deletion removes the latest rule
    at a path another installed key lists, `MatchOrNull` at a concrete input port classifies a
    packet as `all_rules_` alone does: no rule when no listed path matches;
    otherwise an action, chosen by `ChooseOrNull`, of the owned rule that is
    most specific among the latest rules of the matching paths. -/
theorem addRules_classify (matcherId : String) (rules : List MatchRule)
    (hfresh : ∀ rule ∈ rules, rule.parentMatcher_ = none)
    (hsafe : (Matcher.new matcherId).SafeHistory wild rules) :
    ∃ m, (Matcher.new matcherId).addRules wild rules = some m ∧
      ∀ (pkt : Packet) (inputPort : DevicePortNumber), inputPort.raw ≠ wild.kWildDevicePortNumber →
        ((∀ p ptr, m.Listed wild p ptr →
            ¬PathMatches p (getKeyAndWildcard wild pkt.fiveTuple inputPort pkt.tag)) ∧
          m.matchOrNull wild fiveTupleHash pkt inputPort = some none) ∨
        ∃ ptr key rule,
          MostSpecific (m.Latest wild) (getKeyAndWildcard wild pkt.fiveTuple inputPort pkt.tag) ptr ∧
          m.allRules_.lookup key = some (ptr, rule) ∧
          m.matchOrNull wild fiveTupleHash pkt inputPort =
            (rule.chooseOrNull fiveTupleHash pkt.fiveTuple).map (Option.map (ptr, ·)) := by
  obtain ⟨m, hrun, hm, hs⟩ :=
    (Matcher.storesLatest_new wild matcherId).addRules wild (Matcher.owned_new wild matcherId) rules hfresh hsafe
  refine ⟨m, hrun, fun pkt inputPort hport => ?_⟩
  obtain ⟨hsome, hnone⟩ :=
    MatchNode.matchOrNull_spec m.root_ (getKeyAndWildcard wild pkt.fiveTuple inputPort pkt.tag)
  unfold Matcher.matchOrNull
  rw [if_neg hport]
  cases hmatch : m.root_.matchOrNull (getKeyAndWildcard wild pkt.fiveTuple inputPort pkt.tag) with
  | none =>
    refine Or.inl ⟨fun p ptr hl hpm => ?_, rfl⟩
    obtain ⟨ptr', hlatest⟩ := hm.exists_latest wild hl
    exact hnone.1 hmatch p ptr' ((hs p ptr').2 hlatest) hpm
  | some ptr =>
    have hstored : (fun p r => m.root_.get p = some r) = m.Latest wild :=
      funext fun p => funext fun r => propext (hs p r)
    have hbest := (hsome ptr).1 hmatch
    rw [hstored] at hbest
    obtain ⟨p, ⟨⟨key, rule, hk, -⟩, -⟩, -⟩ := id hbest
    refine Or.inr ⟨ptr, key, rule, hbest, hk, ?_⟩
    simp only [hm.ruleOf_eq wild hk, Option.bind_eq_bind, Option.some_bind]
    cases rule.chooseOrNull fiveTupleHash pkt.fiveTuple <;> rfl

end Hash

end Wild

theorem addRules_classify_shared_path :
    (∀ rule ∈ sharedPathRules.reverse ++
        [MatchRule.new (forwardRule [exampleFiveTuple, ⟨1, 2, 6, 3, 5⟩]).key_],
      rule.parentMatcher_ = none) ∧
    (Matcher.new "m").SafeHistory exampleWildcards (sharedPathRules.reverse ++
        [MatchRule.new (forwardRule [exampleFiveTuple, ⟨1, 2, 6, 3, 5⟩]).key_]) ∧
    ∃ m, (Matcher.new "m").addRules exampleWildcards (sharedPathRules.reverse ++
        [MatchRule.new (forwardRule [exampleFiveTuple, ⟨1, 2, 6, 3, 5⟩]).key_]) = some m ∧
      ∀ (pkt : Packet) (inputPort : DevicePortNumber),
        inputPort.raw ≠ exampleWildcards.kWildDevicePortNumber →
        ((∀ p ptr, m.Listed exampleWildcards p ptr →
            ¬PathMatches p (getKeyAndWildcard exampleWildcards pkt.fiveTuple inputPort pkt.tag)) ∧
          m.matchOrNull exampleWildcards (fun _ => 0) pkt inputPort = some none) ∨
        ∃ ptr key rule,
          MostSpecific (m.Latest exampleWildcards)
            (getKeyAndWildcard exampleWildcards pkt.fiveTuple inputPort pkt.tag) ptr ∧
          m.allRules_.lookup key = some (ptr, rule) ∧
          m.matchOrNull exampleWildcards (fun _ => 0) pkt inputPort =
            (rule.chooseOrNull (fun _ => 0) pkt.fiveTuple).map (Option.map (ptr, ·)) :=
  ⟨by decide, by decide, addRules_classify exampleWildcards (fun _ => 0) "m" _ (by decide) (by decide)⟩

/-- Deleting the second key of `sharedPathRules` clears the leaf it shares with
    the first: the first rule is still owned and lists the packet's path, which
    matches, yet `MatchOrNull` finds no rule. -/
theorem addRules_delete_shared_path :
    ∃ m, (Matcher.new "m").addRules exampleWildcards
        (sharedPathRules ++ [MatchRule.new (forwardRule [exampleFiveTuple, ⟨1, 2, 6, 3, 5⟩]).key_]) = some m ∧
      m.Listed exampleWildcards (keyPath (getKeyAndWildcard exampleWildcards exampleFiveTuple ⟨1⟩ ⟨1⟩)) 0 ∧
      PathMatches (keyPath (getKeyAndWildcard exampleWildcards exampleFiveTuple ⟨1⟩ ⟨1⟩))
        (getKeyAndWildcard exampleWildcards exampleFiveTuple ⟨1⟩ ⟨1⟩) ∧
      m.matchOrNull exampleWildcards (fun _ => 0) ⟨exampleFiveTuple, 100, ⟨1⟩⟩ ⟨1⟩ = some none :=
  ⟨_, rfl, ⟨(forwardRule [exampleFiveTuple]).key_, _, rfl, by decide⟩, pathMatches_keyPath _, rfl⟩

end NcodeCommon.Htsim
