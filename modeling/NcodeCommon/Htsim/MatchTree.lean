import NcodeCommon.Htsim.Packet
import Mathlib.Data.List.Lex
import Mathlib.Data.List.Forall2
import Mathlib.Logic.Function.Basic

/-!
# The match tree

`Matcher::root_` is a match tree whose class, with `InsertOrUpdate`,
`ClearRule` and `MatchOrNull`, is declared in `match.h`, not in `src/`.
`src/htsim/match.cc` defines the seven `GetKeyAndWildcard<level>` it is
instantiated with.  We model the tree from the spec (§4.3): one level per
`GetKeyAndWildcard`, each node a map from concrete values to children plus
one wildcard child, and a rule pointer at each leaf.  Insertion walks the key,
creating nodes on demand, and overwrites the leaf; lookup tries the concrete
child first and falls back to the wildcard child when that finds nothing;
`ClearRule` empties every leaf that points at the rule.

What a tree stores is the partial map `get` from paths (a concrete value or
the wildcard per level) to rules.  `InsertOrUpdate` overwrites one path and
`ClearRule` removes one rule (`get_insertOrUpdate`, `get_clearRule`); a
lookup returns the rule stored at the most specific matching path, comparing
paths level by level from the root with concrete above wildcard
(`matchOrNull_spec`).
-/

namespace NcodeCommon.Htsim

/-! ### Levels -/

/-- The wildcard sentinels of the fields, declared in `net.h` and `packet.h`,
    not in `src/`. -/
structure Wildcards where
  kWildDevicePortNumber : UInt32
  kWildPacketTag : UInt32
  kWildIPAddress : UInt32
  kWildIPProto : UInt32
  kWildAccessLayerPort : UInt32
deriving DecidableEq, Repr

/-- `GetKeyAndWildcard<0..6>`: the value a level reads and that level's
    wildcard, in the tree's level order. -/
def getKeyAndWildcard (wild : Wildcards) (fiveTuple : FiveTuple) (inputPort : DevicePortNumber)
    (inputTag : PacketTag) : List (UInt32 × UInt32) :=
  [(inputPort.raw, wild.kWildDevicePortNumber),
   (inputTag.raw, wild.kWildPacketTag),
   (fiveTuple.ipDst, wild.kWildIPAddress),
   (fiveTuple.ipSrc, wild.kWildIPAddress),
   (fiveTuple.ipProto, wild.kWildIPProto),
   (fiveTuple.srcPort, wild.kWildAccessLayerPort),
   (fiveTuple.dstPort, wild.kWildAccessLayerPort)]

/-- The path a key takes: the concrete value, or `none` where the key holds
    the level's wildcard. -/
def keyPath (keys : List (UInt32 × UInt32)) : List (Option UInt32) :=
  keys.map fun key => if key.1 = key.2 then none else some key.1

@[simp] theorem keyPath_cons (key : UInt32 × UInt32) (keys : List (UInt32 × UInt32)) :
    keyPath (key :: keys) = (if key.1 = key.2 then none else some key.1) :: keyPath keys := rfl

/-- A path matches a lookup key when each level is the key's value or the
    wildcard. -/
def PathMatches (p : List (Option UInt32)) (keys : List (UInt32 × UInt32)) : Prop :=
  List.Forall₂ (fun f key => f = none ∨ f = some key.1) p keys

/-- Which levels of a path are concrete, root first. -/
def specificity (p : List (Option UInt32)) : List Bool :=
  p.map Option.isSome

/-- `r` is what a lookup of `keys` should find among the paths `S` stores: it
    is stored at a matching path, and every other matching path is less
    specific, concrete above wildcard level by level from the root. -/
def MostSpecific {α : Type} (S : List (Option UInt32) → α → Prop) (keys : List (UInt32 × UInt32))
    (r : α) : Prop :=
  ∃ p, S p r ∧ PathMatches p keys ∧
    ∀ p' r', S p' r' → PathMatches p' keys → p' = p ∨ List.Lex (· < ·) (specificity p') (specificity p)

@[simp] theorem pathMatches_nil_left {keys : List (UInt32 × UInt32)} :
    PathMatches [] keys ↔ keys = [] :=
  List.forall₂_nil_left_iff

@[simp] theorem pathMatches_nil_right {p : List (Option UInt32)} : PathMatches p [] ↔ p = [] :=
  List.forall₂_nil_right_iff

@[simp] theorem pathMatches_cons {f : Option UInt32} {p : List (Option UInt32)} {key : UInt32 × UInt32}
    {keys : List (UInt32 × UInt32)} :
    PathMatches (f :: p) (key :: keys) ↔ (f = none ∨ f = some key.1) ∧ PathMatches p keys :=
  List.forall₂_cons

/-- A key's own path matches it. -/
theorem pathMatches_keyPath (keys : List (UInt32 × UInt32)) : PathMatches (keyPath keys) keys := by
  induction keys with
  | nil => exact List.Forall₂.nil
  | cons key keys ih => exact List.Forall₂.cons (by dsimp only; split_ifs <;> simp) ih

@[simp] theorem specificity_cons (f : Option UInt32) (p : List (Option UInt32)) :
    specificity (f :: p) = f.isSome :: specificity p := rfl

/-- A concrete level is never below a wildcard one. -/
theorem not_lex_true_false {l₁ l₂ : List Bool} : ¬List.Lex (· < ·) (true :: l₁) (false :: l₂) := by
  intro h
  cases h with
  | rel h => exact absurd h (by decide)

/-- Paths that agree at the first level compare on the rest. -/
theorem lex_of_cons_cons {b : Bool} {l₁ l₂ : List Bool} (h : List.Lex (· < ·) (b :: l₁) (b :: l₂)) :
    List.Lex (· < ·) l₁ l₂ := by
  cases h with
  | cons h => exact h
  | rel h => cases b <;> exact absurd h (by decide)

section OneLevel

variable {α : Type} (S : List (Option UInt32) → α → Prop) {k w : UInt32}
  {rest : List (UInt32 × UInt32)} {r : α}

/-- When a path through the key's concrete value matches, the most specific
    path goes through it. -/
theorem mostSpecific_cons_concrete (hC : ∃ p₀ r₀, S (some k :: p₀) r₀ ∧ PathMatches p₀ rest) :
    MostSpecific S ((k, w) :: rest) r ↔ MostSpecific (fun p r => S (some k :: p) r) rest r := by
  obtain ⟨p₀, r₀, hs₀, hm₀⟩ := hC
  constructor
  · rintro ⟨p, hp, hm, hbest⟩
    obtain ⟨f, p₁, rfl | rfl, hm₁, rfl⟩ := List.forall₂_cons_right_iff.1 hm
    · rcases hbest _ _ hs₀ (pathMatches_cons.2 ⟨Or.inr rfl, hm₀⟩) with h | h
      · simp at h
      · exact absurd h not_lex_true_false
    · exact ⟨p₁, hp, hm₁, fun p' r' hp' hm' =>
        (hbest _ _ hp' (pathMatches_cons.2 ⟨Or.inr rfl, hm'⟩)).imp List.tail_eq_of_cons_eq lex_of_cons_cons⟩
  · rintro ⟨p₁, hp, hm₁, hbest⟩
    refine ⟨some k :: p₁, hp, pathMatches_cons.2 ⟨Or.inr rfl, hm₁⟩, fun p' r' hp' hm' => ?_⟩
    obtain ⟨f, p₂, rfl | rfl, hm₂, rfl⟩ := List.forall₂_cons_right_iff.1 hm'
    · exact Or.inr (.rel (show false < true by decide))
    · exact (hbest p₂ r' hp' hm₂).imp (congrArg (some k :: ·)) .cons

/-- When no path through the key's concrete value matches, the most specific
    path is the most specific one through the wildcard. -/
theorem mostSpecific_cons_wildcard (hC : ∀ p r, S (some k :: p) r → ¬PathMatches p rest) :
    MostSpecific S ((k, w) :: rest) r ↔ MostSpecific (fun p r => S (none :: p) r) rest r := by
  constructor
  · rintro ⟨p, hp, hm, hbest⟩
    obtain ⟨f, p₁, rfl | rfl, hm₁, rfl⟩ := List.forall₂_cons_right_iff.1 hm
    · exact ⟨p₁, hp, hm₁, fun p' r' hp' hm' =>
        (hbest _ _ hp' (pathMatches_cons.2 ⟨Or.inl rfl, hm'⟩)).imp List.tail_eq_of_cons_eq lex_of_cons_cons⟩
    · exact absurd hm₁ (hC _ _ hp)
  · rintro ⟨p₁, hp, hm₁, hbest⟩
    refine ⟨none :: p₁, hp, pathMatches_cons.2 ⟨Or.inl rfl, hm₁⟩, fun p' r' hp' hm' => ?_⟩
    obtain ⟨f, p₂, rfl | rfl, hm₂, rfl⟩ := List.forall₂_cons_right_iff.1 hm'
    · exact (hbest p₂ r' hp' hm₂).imp (congrArg (none :: ·)) .cons
    · exact absurd hm₂ (hC _ _ hp')

/-- No stored path matches exactly when none through the concrete value and
    none through the wildcard does. -/
theorem noMatch_cons :
    (∀ p r, S p r → ¬PathMatches p ((k, w) :: rest)) ↔
      (∀ p r, S (some k :: p) r → ¬PathMatches p rest) ∧
      (∀ p r, S (none :: p) r → ¬PathMatches p rest) := by
  refine ⟨fun h => ⟨fun p r hp hm => h _ r hp (pathMatches_cons.2 ⟨Or.inr rfl, hm⟩),
    fun p r hp hm => h _ r hp (pathMatches_cons.2 ⟨Or.inl rfl, hm⟩)⟩, ?_⟩
  rintro ⟨hC, hW⟩ p r hp hm
  obtain ⟨f, p₁, rfl | rfl, hm₁, rfl⟩ := List.forall₂_cons_right_iff.1 hm
  · exact hW _ _ hp hm₁
  · exact hC _ _ hp hm₁

end OneLevel

/-! ### The tree -/

/-- Modelled from the spec: a node of the match tree.  A level's node maps
    concrete values to children and has one wildcard child; a leaf holds a
    rule pointer (`nullptr` is `none`); `empty` is a child not yet created. -/
inductive MatchNode (α : Type) where
  | empty
  | leaf (rule : Option α)
  | node (children : UInt32 → MatchNode α) (wildcardChild : MatchNode α)

namespace MatchNode

variable {α : Type}

/-- The children and wildcard child of a node; a child not yet created has
    none. -/
def childrenOf : MatchNode α → (UInt32 → MatchNode α) × MatchNode α
  | node children wildcardChild => (children, wildcardChild)
  | _ => (fun _ => empty, empty)

@[simp] theorem childrenOf_node (children : UInt32 → MatchNode α) (wildcardChild : MatchNode α) :
    (node children wildcardChild).childrenOf = (children, wildcardChild) := rfl

/-- Modelled from the spec: `InsertOrUpdate(keys, rule)`.  Walk the keys,
    creating nodes on demand, down the wildcard child where a key is its
    level's wildcard, and place or overwrite `rule` at the leaf. -/
def insertOrUpdate : MatchNode α → List (UInt32 × UInt32) → α → MatchNode α
  | _, [], rule => leaf (some rule)
  | t, (key, wildcard) :: rest, rule =>
    if key = wildcard then node t.childrenOf.1 (t.childrenOf.2.insertOrUpdate rest rule)
    else
      node (Function.update t.childrenOf.1 key ((t.childrenOf.1 key).insertOrUpdate rest rule))
        t.childrenOf.2

/-- Modelled from the spec: `ClearRule(rule)`, which empties every leaf that
    points at `rule`. -/
def clearRule [DecidableEq α] (rule : α) : MatchNode α → MatchNode α
  | empty => empty
  | leaf r => leaf (if r = some rule then none else r)
  | node children wildcardChild =>
    node (fun v => (children v).clearRule rule) (wildcardChild.clearRule rule)

/-- Modelled from the spec: `MatchOrNull(keys)`.  At each level the concrete
    child for the key's value is tried first; if it finds nothing the
    wildcard child is. -/
def matchOrNull : MatchNode α → List (UInt32 × UInt32) → Option α
  | leaf r, [] => r
  | node children wildcardChild, (key, _) :: rest =>
    match (children key).matchOrNull rest with
    | some r => some r
    | none => wildcardChild.matchOrNull rest
  | _, _ => none

/-- The rule stored at the end of a path. -/
def get : MatchNode α → List (Option UInt32) → Option α
  | leaf r, [] => r
  | node children _, some v :: rest => (children v).get rest
  | node _ wildcardChild, none :: rest => wildcardChild.get rest
  | _, _ => none

@[simp] theorem get_empty (p : List (Option UInt32)) : (empty : MatchNode α).get p = none := by
  cases p with
  | nil => rfl
  | cons f p => cases f <;> rfl

/-- One level down a path: the concrete child of the value, or the wildcard
    child. -/
theorem get_cons (t : MatchNode α) (f : Option UInt32) (p : List (Option UInt32)) :
    t.get (f :: p) = (f.elim t.childrenOf.2 t.childrenOf.1).get p := by
  cases t <;> cases f <;> simp [get, childrenOf]

theorem get_cons_some (t : MatchNode α) (v : UInt32) (p : List (Option UInt32)) :
    t.get (some v :: p) = (t.childrenOf.1 v).get p :=
  get_cons t (some v) p

theorem get_cons_none (t : MatchNode α) (p : List (Option UInt32)) :
    t.get (none :: p) = t.childrenOf.2.get p :=
  get_cons t none p

theorem matchOrNull_nil (t : MatchNode α) : t.matchOrNull [] = t.get [] := by
  cases t <;> rfl

@[simp] theorem matchOrNull_empty (keys : List (UInt32 × UInt32)) :
    (empty : MatchNode α).matchOrNull keys = none := by
  cases keys <;> rfl

theorem matchOrNull_cons (t : MatchNode α) (key : UInt32 × UInt32) (rest : List (UInt32 × UInt32)) :
    t.matchOrNull (key :: rest) =
      match (t.childrenOf.1 key.1).matchOrNull rest with
      | some r => some r
      | none => t.childrenOf.2.matchOrNull rest := by
  cases t <;> simp [matchOrNull, childrenOf]

/-! ### What insertion and clearing store -/

/-- What `InsertOrUpdate` does one level down: the child its key takes is
    updated, every other child is kept. -/
theorem get_insertOrUpdate_cons (t : MatchNode α) (key : UInt32 × UInt32)
    (rest : List (UInt32 × UInt32)) (rule : α) (f : Option UInt32) (p : List (Option UInt32)) :
    (t.insertOrUpdate (key :: rest) rule).get (f :: p) =
      if f = (if key.1 = key.2 then none else some key.1) then
        ((f.elim t.childrenOf.2 t.childrenOf.1).insertOrUpdate rest rule).get p
      else t.get (f :: p) := by
  obtain ⟨k, w⟩ := key
  by_cases hkw : k = w <;> cases f <;> simp [insertOrUpdate, hkw, get_cons, Function.update_apply]
  split_ifs with hv <;> simp [hv]

/-- `InsertOrUpdate` stores the rule at the key's path and leaves every other
    path of the same length as it was. -/
theorem get_insertOrUpdate (t : MatchNode α) (keys : List (UInt32 × UInt32)) (rule : α)
    {p : List (Option UInt32)} (hp : p.length = keys.length) :
    (t.insertOrUpdate keys rule).get p = if p = keyPath keys then some rule else t.get p := by
  induction keys generalizing t p with
  | nil =>
    rw [List.length_eq_zero.1 hp]
    rfl
  | cons key rest ih =>
    obtain ⟨f, p, rfl⟩ := List.exists_cons_of_length_eq_add_one hp
    rw [get_insertOrUpdate_cons, keyPath_cons]
    by_cases hf : f = (if key.1 = key.2 then none else some key.1)
    · rw [if_pos hf, ih _ (by simpa using hp), get_cons]
      simp [hf]
    · simp [hf]

/-- Whatever a tree stores after `InsertOrUpdate` is the new rule at the key's
    path or was stored before. -/
theorem get_insertOrUpdate_eq_some {t : MatchNode α} {keys : List (UInt32 × UInt32)} {rule x : α}
    {p : List (Option UInt32)} (h : (t.insertOrUpdate keys rule).get p = some x) :
    (p = keyPath keys ∧ x = rule) ∨ t.get p = some x := by
  induction keys generalizing t p with
  | nil =>
    cases p with
    | nil => exact Or.inl ⟨rfl, (Option.some.inj h).symm⟩
    | cons f p => simp [insertOrUpdate, get] at h
  | cons key rest ih =>
    cases p with
    | nil =>
      obtain ⟨k, w⟩ := key
      by_cases hkw : k = w <;> simp [insertOrUpdate, hkw, get] at h
    | cons f p =>
      rw [get_insertOrUpdate_cons] at h
      by_cases hf : f = (if key.1 = key.2 then none else some key.1)
      · rw [if_pos hf] at h
        rcases ih h with ⟨rfl, rfl⟩ | h
        · exact Or.inl ⟨by rw [keyPath_cons, hf], rfl⟩
        · exact Or.inr ((get_cons _ _ _).trans h)
      · rw [if_neg hf] at h
        exact Or.inr h

/-- Inserting one rule at several keys of one length stores it at exactly
    their paths. -/
theorem get_foldl_insertOrUpdate (keysList : List (List (UInt32 × UInt32))) (rule : α)
    (t : MatchNode α) {p : List (Option UInt32)} (hp : ∀ keys ∈ keysList, p.length = keys.length) :
    (keysList.foldl (fun t keys => t.insertOrUpdate keys rule) t).get p =
      if p ∈ keysList.map keyPath then some rule else t.get p := by
  induction keysList generalizing t with
  | nil => simp
  | cons keys rest ih =>
    rw [List.foldl_cons, ih _ fun k hk => hp k (List.mem_cons_of_mem _ hk),
      get_insertOrUpdate _ _ _ (hp keys (List.mem_cons_self _ _))]
    by_cases h₁ : p = keyPath keys <;> by_cases h₂ : p ∈ rest.map keyPath <;> simp [h₁, h₂]

theorem get_foldl_insertOrUpdate_eq_some {keysList : List (List (UInt32 × UInt32))} {rule x : α}
    {t : MatchNode α} {p : List (Option UInt32)}
    (h : (keysList.foldl (fun t keys => t.insertOrUpdate keys rule) t).get p = some x) :
    (p ∈ keysList.map keyPath ∧ x = rule) ∨ t.get p = some x := by
  induction keysList generalizing t with
  | nil => exact Or.inr h
  | cons keys rest ih =>
    rcases ih h with ⟨hm, rfl⟩ | h
    · exact Or.inl ⟨List.mem_cons_of_mem _ hm, rfl⟩
    · rcases get_insertOrUpdate_eq_some h with ⟨rfl, rfl⟩ | h
      · exact Or.inl ⟨List.mem_cons_self _ _, rfl⟩
      · exact Or.inr h

/-- `ClearRule` removes exactly the paths that stored the rule. -/
theorem get_clearRule [DecidableEq α] (rule : α) (t : MatchNode α) (p : List (Option UInt32)) :
    (t.clearRule rule).get p = if t.get p = some rule then none else t.get p := by
  induction t generalizing p with
  | empty => simp [clearRule]
  | leaf r =>
    cases p with
    | nil => by_cases hr : r = some rule <;> simp [clearRule, get, hr]
    | cons f p => cases f <;> simp [clearRule, get]
  | node children wildcardChild ihc ihw =>
    cases p with
    | nil => simp [clearRule, get]
    | cons f p => cases f <;> simp [clearRule, get, ihc, ihw]

theorem get_clearRule_eq_some [DecidableEq α] {rule x : α} {t : MatchNode α} {p : List (Option UInt32)} :
    (t.clearRule rule).get p = some x ↔ t.get p = some x ∧ x ≠ rule := by
  rw [get_clearRule]
  split_ifs with h
  · simp only [h, Option.some.injEq, false_iff, not_and, not_not]
    exact Eq.symm
  · exact ⟨fun hx => ⟨hx, by rintro rfl; exact h hx⟩, And.left⟩

/-! ### Lookup finds the most specific stored path -/

/-- A lookup returns the rule at the most specific stored path that matches,
    and nothing exactly when no stored path matches. -/
theorem matchOrNull_spec (t : MatchNode α) (keys : List (UInt32 × UInt32)) :
    (∀ r, t.matchOrNull keys = some r ↔ MostSpecific (fun p r => t.get p = some r) keys r) ∧
    (t.matchOrNull keys = none ↔ ∀ p r, t.get p = some r → ¬PathMatches p keys) := by
  induction keys generalizing t with
  | nil =>
    rw [matchOrNull_nil]
    refine ⟨fun r => ⟨fun h => ⟨[], h, by simp, fun p' _ _ hm => Or.inl (by simpa using hm)⟩, ?_⟩,
      ⟨fun h p r hp hm => by simp_all, fun h => ?_⟩⟩
    · rintro ⟨p, hp, hm, -⟩
      rwa [← pathMatches_nil_right.1 hm]
    · cases hget : t.get [] with
      | none => rfl
      | some r => exact absurd (by simp) (h [] r hget)
  | cons key rest ih =>
    obtain ⟨k, w⟩ := key
    obtain ⟨hsomeC, hnoneC⟩ := ih (t.childrenOf.1 k)
    obtain ⟨hsomeW, hnoneW⟩ := ih t.childrenOf.2
    rw [matchOrNull_cons, noMatch_cons]
    simp only [get_cons_some, get_cons_none]
    cases hc : (t.childrenOf.1 k).matchOrNull rest with
    | some r₀ =>
      -- the concrete child finds a rule: the answer goes through it
      obtain ⟨p₀, hp₀, hm₀, -⟩ := (hsomeC r₀).1 hc
      refine ⟨fun r => ?_, ⟨nofun, fun h => absurd hm₀ (h.1 p₀ r₀ hp₀)⟩⟩
      rw [mostSpecific_cons_concrete _ ⟨p₀, r₀, (get_cons_some t k p₀).trans hp₀, hm₀⟩]
      simp only [get_cons_some]
      rw [← hsomeC, hc]
    | none =>
      -- it finds none: the answer is the wildcard child's
      have hnoC := hnoneC.1 hc
      refine ⟨fun r => ?_, hnoneW.trans (and_iff_right hnoC).symm⟩
      rw [mostSpecific_cons_wildcard _ fun p r hp => hnoC p r ((get_cons_some t k p).symm.trans hp)]
      simp only [get_cons_none]
      exact hsomeW r

end MatchNode

end NcodeCommon.Htsim
