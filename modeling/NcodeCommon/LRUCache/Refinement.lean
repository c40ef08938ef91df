import NcodeCommon.LRUCache.Cache
import Mathlib.Data.List.Perm.Basic

/-!
# `LRUCache` refines a recency list

What an LRU cache is for: a list of distinct keys with their values, most
recently used first, of at most `max_cache_size_` entries.  `Recency.step`
says what each call does to that list, in our words; `Refines` relates a
cache to the list it stands for, node by node of `keys_`.  It carries the
cache's invariant: `cache_map_` and `keys_` hold the same keys, each once,
every map entry owns a value, and its iterator points at the node of its key.

From a related state every call of the cache does what the list says, hands
`ItemEvicted` the same entries, and reaches a related state
(`Refines.step`), provided `max_cache_size_ ≥ 1`; a run of calls from a new
cache follows by induction (`run_refines_recency`).  With `max_cache_size_ = 0`
the first insertion takes `back()` of the empty `keys_` (`emplace_new_zero`).
-/

namespace NcodeCommon.LRU

/-! ### Lists related entry by entry -/

section Forall₂

variable {α β γ : Type} {R S : α → β → Prop}

theorem forall₂_imp_of_mem {l₁ : List α} {l₂ : List β} (h : List.Forall₂ R l₁ l₂)
    (H : ∀ a ∈ l₁, ∀ b, R a b → S a b) : List.Forall₂ S l₁ l₂ := by
  induction h with
  | nil => exact .nil
  | cons hab _ ih =>
    exact .cons (H _ (List.mem_cons_self _ _) _ hab) (ih fun a ha => H a (List.mem_cons_of_mem _ ha))

theorem forall₂_exists_of_mem {l₁ : List α} {l₂ : List β} (h : List.Forall₂ R l₁ l₂) {a : α}
    (ha : a ∈ l₁) : ∃ b ∈ l₂, R a b := by
  induction h with
  | nil => cases ha
  | cons hab _ ih =>
    rcases List.mem_cons.1 ha with rfl | ha
    · exact ⟨_, List.mem_cons_self _ _, hab⟩
    · obtain ⟨b, hb, hr⟩ := ih ha
      exact ⟨b, List.mem_cons_of_mem _ hb, hr⟩

theorem forall₂_map_eq {f : α → γ} {g : β → γ} {l₁ : List α} {l₂ : List β}
    (h : List.Forall₂ R l₁ l₂) (H : ∀ a b, R a b → f a = g b) : l₁.map f = l₂.map g := by
  induction h with
  | nil => rfl
  | cons hab _ ih => rw [List.map_cons, List.map_cons, H _ _ hab, ih]

/-- Moving a member of a list without duplicates to the front permutes it. -/
theorem perm_cons_filter_ne [DecidableEq α] {l : List α} {a : α} (hl : l.Nodup) (ha : a ∈ l) :
    (a :: l.filter (· ≠ a)).Perm l :=
  (List.perm_ext_iff_of_nodup (List.nodup_cons.2 ⟨by simp, hl.filter _⟩) hl).2 fun x => by
    by_cases hx : x = a <;> simp [hx, ha]

theorem forall₂_append_singleton_right {l₁ : List α} {l₂ : List β} {b : β}
    (h : List.Forall₂ R l₁ (l₂ ++ [b])) : ∃ pre a, l₁ = pre ++ [a] ∧ List.Forall₂ R pre l₂ ∧ R a b := by
  induction l₂ generalizing l₁ with
  | nil =>
    cases h with
    | cons hab hnil => cases hnil; exact ⟨[], _, rfl, .nil, hab⟩
  | cons y l₂ ih =>
    cases h with
    | cons hxy h =>
      obtain ⟨pre, a, rfl, hpre, hab⟩ := ih h
      exact ⟨_ :: pre, a, rfl, .cons hxy hpre, hab⟩

end Forall₂

variable {K V : Type} [DecidableEq K]

/-! ### The recency list -/

/-- The entry of `key` in a recency list. -/
def entryOf (L : List (K × V)) (key : K) : Option (K × V) :=
  L.find? (·.1 = key)

/-- Put an absent key at the front, first evicting the least recently used
    entry when the list already holds `cap` entries: the evicted entries and
    the new list. -/
def pushFront (cap : Nat) (L : List (K × V)) (key : K) (value : V) :
    List (K × V) × List (K × V) :=
  if L.length = cap then (L.getLast?.toList, (key, value) :: L.dropLast)
  else ([], (key, value) :: L)

/-- What each call does to the recency list: the value returned, the entries
    evicted in order, and the new list.  `Emplace` of a cached key returns its
    value and moves it to the front; `InsertNew` of a cached key evicts the old
    value and puts the new one at the front; either puts an uncached key at the
    front; `FindOrNull` moves a cached key to the front; `EvictAll` evicts from
    the least to the most recently used. -/
def Recency.step (cap : Nat) (L : List (K × V)) : Op K V → (Option V × List (K × V)) × List (K × V)
  | .emplace key value =>
    match entryOf L key with
    | some e => ((some e.2, []), e :: L.filter (·.1 ≠ key))
    | none => ((some value, (pushFront cap L key value).1), (pushFront cap L key value).2)
  | .insertNew key value =>
    match entryOf L key with
    | some e => ((some value, [e]), (key, value) :: L.filter (·.1 ≠ key))
    | none => ((some value, (pushFront cap L key value).1), (pushFront cap L key value).2)
  | .findOrNull key =>
    match entryOf L key with
    | some e => ((some e.2, []), e :: L.filter (·.1 ≠ key))
    | none => ((none, []), L)
  | .evictAll => ((none, L.reverse), [])

/-- A sequence of calls on the recency list. -/
def Recency.run (cap : Nat) : List (K × V) → List (Op K V) →
    List (Option V × List (K × V)) × List (K × V)
  | L, [] => ([], L)
  | L, op :: ops =>
    ((Recency.step cap L op).1 :: (Recency.run cap (Recency.step cap L op).2 ops).1,
      (Recency.run cap (Recency.step cap L op).2 ops).2)

/-- The pairs `ItemEvicted` receives for evicted entries. -/
def embedEvicted (ev : List (K × V)) : List (K × Option V) :=
  ev.map fun e => (e.1, some e.2)

/-- What a call of the cache returns for what a call of the list returns. -/
def embedOutput (out : Option V × List (K × V)) : Option V × List (K × Option V) :=
  (out.1, embedEvicted out.2)

theorem entryOf_eq_some {L : List (K × V)} (hL : (L.map Prod.fst).Nodup) {e : K × V}
    (he : e ∈ L) : entryOf L e.1 = some e := by
  have hsome : (entryOf L e.1).isSome := List.find?_isSome.2 ⟨e, he, by simp⟩
  obtain ⟨e', he'⟩ := Option.isSome_iff_exists.1 hsome
  rw [he', List.inj_on_of_nodup_map hL (List.mem_of_find?_eq_some he') he
    (by simpa using List.find?_some he')]

theorem entryOf_eq_none {L : List (K × V)} {key : K} (hk : key ∉ L.map Prod.fst) :
    entryOf L key = none :=
  List.find?_eq_none.2 fun e he h => hk (List.mem_map.2 ⟨e, he, by simpa using h⟩)

/-! ### The refinement relation -/

/-- A node of `keys_` stands for an entry of the list: it holds the entry's
    key, whose map entry owns the entry's value and points at the node. -/
def NodeRefines (m : AList (fun _ : K => ObjectAndListIterator K V)) (node : Nat × K)
    (e : K × V) : Prop :=
  node.2 = e.1 ∧ m.lookup e.1 = some ⟨some e.2, some node⟩

/-- Two nodes standing for entries are the same node exactly when the
    entries have the same key. -/
theorem NodeRefines.eq_iff_key_eq {m : AList (fun _ : K => ObjectAndListIterator K V)}
    {x a : Nat × K} {y b : K × V} (hxy : NodeRefines m x y) (hab : NodeRefines m a b) :
    x = a ↔ y.1 = b.1 := by
  constructor
  · rintro rfl
    exact hxy.1.symm.trans hab.1
  · intro hk
    have hn := hxy.2
    rw [hk, hab.2] at hn
    simp_all

/-- The cache `c` of capacity `cap` stands for the recency list `L`. -/
structure Refines (cap : Nat) (c : LRUCache K V) (L : List (K × V)) : Prop where
  cap_eq : c.maxCacheSize_ = cap
  nodes : List.Forall₂ (NodeRefines c.cacheMap_) c.keys_ L
  mem_cacheMap : ∀ k, k ∈ c.cacheMap_ ↔ k ∈ c.keys_.map Prod.snd
  nodup : (c.keys_.map Prod.snd).Nodup
  length_le : L.length ≤ cap

section Refines

variable {cap : Nat} {c : LRUCache K V} {L : List (K × V)}

theorem refines_new (cap : Nat) : Refines cap (LRUCache.new cap : LRUCache K V) [] :=
  ⟨rfl, .nil, fun k => by simp [LRUCache.new, AList.not_mem_empty], List.nodup_nil, Nat.zero_le _⟩

theorem Refines.map_fst (h : Refines cap c L) : L.map Prod.fst = c.keys_.map Prod.snd :=
  (forall₂_map_eq h.nodes fun _ _ hr => hr.1).symm

theorem Refines.nodup_fst (h : Refines cap c L) : (L.map Prod.fst).Nodup :=
  h.map_fst ▸ h.nodup

/-- `cache_map_.size()` is the length of the list. -/
theorem Refines.size_eq (h : Refines cap c L) : c.size = L.length := by
  have hperm : c.cacheMap_.keys.Perm (c.keys_.map Prod.snd) :=
    (List.perm_ext_iff_of_nodup c.cacheMap_.keys_nodup h.nodup).2 fun k => by
      rw [← AList.mem_keys, h.mem_cacheMap]
  rw [LRUCache.size, hperm.length_eq, List.length_map, h.nodes.length_eq]

/-- A cached key's map entry owns the value its list entry has, and points at
    a node of `keys_`. -/
theorem Refines.lookup_some (h : Refines cap c L) {k : K} {e : ObjectAndListIterator K V}
    (hk : c.cacheMap_.lookup k = some e) :
    ∃ node v, node ∈ c.keys_ ∧ NodeRefines c.cacheMap_ node (k, v) ∧
      e = ⟨some v, some node⟩ ∧ entryOf L k = some (k, v) := by
  have hmem : k ∈ c.keys_.map Prod.snd := (h.mem_cacheMap k).1 (AList.lookup_isSome.1 (by simp [hk]))
  obtain ⟨node, hnode, rfl⟩ := List.mem_map.1 hmem
  obtain ⟨b, hb, hr⟩ := forall₂_exists_of_mem h.nodes hnode
  have hb' : b = (node.2, b.2) := Prod.ext hr.1.symm rfl
  refine ⟨node, b.2, hnode, ⟨rfl, hr.1 ▸ hr.2⟩, ?_, ?_⟩
  · rw [hr.1, hr.2] at hk
    exact (Option.some.inj hk).symm
  · rw [hb'] at hb
    exact entryOf_eq_some h.nodup_fst hb

theorem Refines.lookup_none (h : Refines cap c L) {k : K} (hk : c.cacheMap_.lookup k = none) :
    entryOf L k = none :=
  entryOf_eq_none (by rw [h.map_fst, ← h.mem_cacheMap]; exact AList.lookup_eq_none.1 hk)

/-- `Refines` reads the map only through `lookup`. -/
theorem Refines.congr_lookup (h : Refines cap c L)
    {m : AList (fun _ : K => ObjectAndListIterator K V)}
    (hm : ∀ k, m.lookup k = c.cacheMap_.lookup k) : Refines cap { c with cacheMap_ := m } L where
  cap_eq := h.cap_eq
  nodes := h.nodes.imp fun _ _ hr => ⟨hr.1, (hm _).trans hr.2⟩
  mem_cacheMap k := by
    rw [← AList.lookup_isSome, hm, AList.lookup_isSome]
    exact h.mem_cacheMap k
  nodup := h.nodup
  length_le := h.length_le

/-- `splice` of a node to the front moves its entry to the front. -/
theorem Refines.moveToFront (h : Refines cap c L) {node : Nat × K} {e : K × V}
    (hnode : node ∈ c.keys_) (hr : NodeRefines c.cacheMap_ node e) :
    Refines cap { c with keys_ := node :: c.keys_.filter (· ≠ node) } (e :: L.filter (·.1 ≠ e.1)) := by
  have hperm := perm_cons_filter_ne (List.Nodup.of_map Prod.snd h.nodup) hnode
  have hnodes : List.Forall₂ (NodeRefines c.cacheMap_) (node :: c.keys_.filter (· ≠ node))
      (e :: L.filter (·.1 ≠ e.1)) := by
    refine .cons hr (List.rel_filter ?_ h.nodes)
    intro x y hxy
    simpa using (hxy.eq_iff_key_eq hr).not
  refine ⟨h.cap_eq, hnodes, fun k => ?_, (hperm.map Prod.snd).nodup_iff.2 h.nodup, ?_⟩
  · rw [h.mem_cacheMap]
    exact (hperm.map Prod.snd).mem_iff.symm
  · calc (e :: L.filter (·.1 ≠ e.1)).length = (node :: c.keys_.filter (· ≠ node)).length :=
          hnodes.length_eq.symm
      _ = L.length := hperm.length_eq.trans h.nodes.length_eq
      _ ≤ cap := h.length_le

/-- A new value for the front entry. -/
theorem Refines.setFront {k : K} {w : V} (h : Refines cap c ((k, w) :: L)) {node : Nat × K}
    {rest : List (Nat × K)} (hkeys : c.keys_ = node :: rest) (v : V) :
    Refines cap { c with cacheMap_ := c.cacheMap_.insert k ⟨some v, some node⟩ } ((k, v) :: L) := by
  have hnodes := h.nodes
  rw [hkeys] at hnodes
  obtain ⟨hr, hrest⟩ := List.forall₂_cons.1 hnodes
  have hnk : node.2 = k := hr.1
  have hnodup := h.nodup
  rw [hkeys, List.map_cons, List.nodup_cons, hnk] at hnodup
  refine ⟨h.cap_eq, ?_, fun k' => ?_, h.nodup, h.length_le⟩
  · show List.Forall₂ _ c.keys_ _
    rw [hkeys]
    refine .cons ⟨hr.1, AList.lookup_insert _⟩ (forall₂_imp_of_mem hrest fun x hx y hxy => ?_)
    have hne : y.1 ≠ k := fun hyk => hnodup.1 (hyk ▸ hxy.1 ▸ List.mem_map_of_mem _ hx)
    exact ⟨hxy.1, (AList.lookup_insert_ne hne).trans hxy.2⟩
  · have hk : k ∈ c.cacheMap_ := (h.mem_cacheMap k).2 (by rw [hkeys, ← hnk]; exact List.mem_map_of_mem _ (List.mem_cons_self _ _))
    rw [AList.mem_insert, ← h.mem_cacheMap]
    exact ⟨fun h' => h'.elim (· ▸ hk) id, Or.inr⟩

/-- A new node and value for an uncached key, with room left. -/
theorem Refines.pushFresh (h : Refines cap c L) {k : K} (hk : c.cacheMap_.lookup k = none)
    (hroom : L.length < cap) (v : V) (n n' : Nat) :
    Refines cap
      { c with keys_ := (n, k) :: c.keys_,
               cacheMap_ := c.cacheMap_.insert k ⟨some v, some (n, k)⟩, nextNode_ := n' }
      ((k, v) :: L) := by
  have hk' : k ∉ c.keys_.map Prod.snd := (h.mem_cacheMap k).not.1 (AList.lookup_eq_none.1 hk)
  refine ⟨h.cap_eq, .cons ⟨rfl, AList.lookup_insert _⟩ (forall₂_imp_of_mem h.nodes fun x hx y hxy => ?_),
    fun k' => ?_, List.nodup_cons.2 ⟨hk', h.nodup⟩, hroom⟩
  · have hne : y.1 ≠ k := fun hyk => hk' (hyk ▸ hxy.1 ▸ List.mem_map_of_mem _ hx)
    exact ⟨hxy.1, (AList.lookup_insert_ne hne).trans hxy.2⟩
  · rw [AList.mem_insert, h.mem_cacheMap]
    simp

/-- `EvictOldest` hands the last entry of the list to `ItemEvicted`, also
    from a map that differs from the cache's elsewhere. -/
theorem Refines.evictOldest {e : K × V} (h : Refines cap c (L ++ [e]))
    (m : AList (fun _ : K => ObjectAndListIterator K V)) (hm : m.lookup e.1 = c.cacheMap_.lookup e.1) :
    LRUCache.evictOldest { c with cacheMap_ := m } =
      some ([(e.1, some e.2)], { c with cacheMap_ := m.erase e.1, keys_ := c.keys_.dropLast }) := by
  obtain ⟨pre, ⟨n, k⟩, hkeys, -, ⟨rfl, hlookup⟩⟩ := forall₂_append_singleton_right h.nodes
  simp [LRUCache.evictOldest, hkeys, hm, hlookup]

/-- Popping the last node drops the last entry. -/
theorem Refines.dropLast {e : K × V} (h : Refines cap c (L ++ [e])) :
    Refines cap { c with cacheMap_ := c.cacheMap_.erase e.1, keys_ := c.keys_.dropLast } L := by
  obtain ⟨pre, node, hkeys, hpre, hr⟩ := forall₂_append_singleton_right h.nodes
  have hnodup := h.nodup
  rw [hkeys, List.map_append, List.nodup_append] at hnodup
  have hlast : e.1 ∉ pre.map Prod.snd := fun hm => hnodup.2.2 (hr.1 ▸ hm) (List.mem_singleton_self _)
  refine ⟨h.cap_eq, ?_, fun k => ?_, ?_, ?_⟩
  · show List.Forall₂ _ c.keys_.dropLast L
    rw [hkeys, List.dropLast_concat]
    refine forall₂_imp_of_mem hpre fun x hx y hxy => ?_
    have hne : y.1 ≠ e.1 := fun hye => hlast (hye ▸ hxy.1 ▸ List.mem_map_of_mem _ hx)
    exact ⟨hxy.1, (AList.lookup_erase_ne hne).trans hxy.2⟩
  · rw [AList.mem_erase, h.mem_cacheMap, hkeys, List.dropLast_concat, List.map_append,
      List.mem_append, List.map_singleton, List.mem_singleton, hr.1]
    constructor
    · rintro ⟨hne, hm | hm⟩
      · exact hm
      · exact absurd hm hne
    · exact fun hm => ⟨fun hk => hlast (hk ▸ hm), Or.inl hm⟩
  · show (c.keys_.dropLast.map Prod.snd).Nodup
    rw [hkeys, List.dropLast_concat]
    exact hnodup.1
  · have := h.length_le
    simp at this
    omega

/-- The insertion path of `Emplace` and `InsertNew` puts an uncached key at
    the front, first evicting the least recently used entry when the cache is
    full. -/
theorem Refines.insertAbsent (h : Refines cap c L) (hcap : 1 ≤ cap) {k : K}
    (hk : c.cacheMap_.lookup k = none) (v : V) :
    ∃ c', c.insertAbsent (c.cacheMap_.insert k .empty) k v =
        some (v, embedEvicted (pushFront cap L k v).1, c') ∧
      Refines cap c' (pushFront cap L k v).2 := by
  have hk' : k ∉ c.cacheMap_ := AList.lookup_eq_none.1 hk
  have hsize : (c.cacheMap_.insert k .empty).keys.length = L.length + 1 := by
    rw [AList.keys_insert, List.erase_of_not_mem (mt AList.mem_keys.2 hk'), List.length_cons,
      ← h.size_eq, LRUCache.size]
  by_cases hfull : L.length = cap
  · obtain ⟨L, e, rfl⟩ : ∃ L' e, L = L' ++ [e] :=
      ⟨L.dropLast, L.getLast (List.ne_nil_of_length_pos (by omega)),
        (List.dropLast_append_getLast _).symm⟩
    have hne : e.1 ≠ k := fun he => hk' ((h.mem_cacheMap k).2 (by simp [← he, ← h.map_fst]))
    have hevict := h.evictOldest (c.cacheMap_.insert k .empty) (AList.lookup_insert_ne hne)
    have hk'' : (c.cacheMap_.erase e.1).lookup k = none := by rw [AList.lookup_erase_ne hne.symm, hk]
    have hfresh := h.dropLast.pushFresh hk'' (by simp at hfull; omega) v c.nextNode_ (c.nextNode_ + 1)
    refine ⟨{ c with keys_ := (c.nextNode_, k) :: c.keys_.dropLast,
                     cacheMap_ := ((c.cacheMap_.insert k .empty).erase e.1).insert k
                       ⟨some v, some (c.nextNode_, k)⟩,
                     nextNode_ := c.nextNode_ + 1 }, ?_, ?_⟩
    · have hgt : (c.cacheMap_.insert k .empty).keys.length > c.maxCacheSize_ := by
        rw [hsize, h.cap_eq, ← hfull]
        exact Nat.lt_succ_self _
      simp only [LRUCache.insertAbsent, if_pos hgt, hevict, Option.bind_eq_bind, Option.some_bind]
      simp [pushFront, hfull, embedEvicted]
    · simp only [pushFront, hfull, if_true, List.dropLast_concat]
      refine hfresh.congr_lookup fun k' => ?_
      by_cases hk'' : k' = k
      · subst hk''
        simp only [AList.lookup_insert]
      · rw [AList.lookup_insert_ne hk'', AList.lookup_insert_ne hk'']
        by_cases he : k' = e.1
        · subst he
          rw [AList.lookup_erase, AList.lookup_erase]
        · rw [AList.lookup_erase_ne he, AList.lookup_erase_ne he, AList.lookup_insert_ne hk'']
  · have hroom : L.length < cap := lt_of_le_of_ne h.length_le hfull
    refine ⟨{ c with keys_ := (c.nextNode_, k) :: c.keys_,
                     cacheMap_ := (c.cacheMap_.insert k .empty).insert k ⟨some v, some (c.nextNode_, k)⟩,
                     nextNode_ := c.nextNode_ + 1 }, ?_, ?_⟩
    · have hle : ¬(c.cacheMap_.insert k .empty).keys.length > c.maxCacheSize_ := by
        rw [hsize, h.cap_eq]
        omega
      simp only [LRUCache.insertAbsent, if_neg hle, Option.bind_eq_bind, Option.some_bind]
      simp [pushFront, hfull, embedEvicted]
    · simp only [pushFront, hfull, if_false, AList.insert_insert]
      exact h.pushFresh hk hroom v _ _

/-- `EvictAll` hands every entry to `ItemEvicted`, from the least to the
    most recently used, and empties the cache. -/
theorem Refines.evictAllLoop (h : Refines cap c L) {fuel : Nat} (hfuel : L.length ≤ fuel) :
    ∃ c', c.evictAllLoop fuel = some (embedEvicted L.reverse, c') ∧ Refines cap c' [] := by
  induction L using List.reverseRecOn generalizing c fuel with
  | nil => exact ⟨c, by unfold LRUCache.evictAllLoop; rw [if_pos (by simpa using h.size_eq)]; rfl, h⟩
  | append_singleton L e ih =>
    obtain ⟨fuel, rfl⟩ : ∃ f, fuel = f + 1 := ⟨fuel - 1, by simp at hfuel; omega⟩
    obtain ⟨c', hloop, h'⟩ := ih h.dropLast (show L.length ≤ fuel by simp at hfuel; omega)
    refine ⟨c', ?_, h'⟩
    unfold LRUCache.evictAllLoop
    rw [if_neg (by simp [h.size_eq])]
    simp only [h.evictOldest c.cacheMap_ rfl, Option.bind_eq_bind, Option.some_bind, hloop]
    simp [embedEvicted]

/-- Every call of a cache standing for `L` does what `Recency.step` says and
    reaches a cache standing for the new list. -/
theorem Refines.step (h : Refines cap c L) (hcap : 1 ≤ cap) (op : Op K V) :
    ∃ c', c.step op = some (embedOutput (Recency.step cap L op).1, c') ∧
      Refines cap c' (Recency.step cap L op).2 := by
  cases op with
  | emplace k v =>
    cases hk : c.cacheMap_.lookup k with
    | none =>
      obtain ⟨c', hins, h'⟩ := h.insertAbsent hcap hk v
      refine ⟨c', ?_, by simpa [Recency.step, h.lookup_none hk] using h'⟩
      simp [LRUCache.step, LRUCache.emplace, findOrInsertDefault, hk,
        hins, Recency.step, h.lookup_none hk, embedOutput]
    | some e =>
      obtain ⟨node, w, hnode, hr, rfl, hentry⟩ := h.lookup_some hk
      refine ⟨{ c with keys_ := node :: c.keys_.filter (· ≠ node) }, ?_,
        by simpa [Recency.step, hentry] using h.moveToFront hnode hr⟩
      simp [LRUCache.step, LRUCache.emplace, findOrInsertDefault, hk, spliceFront, hnode,
        Recency.step, hentry, embedOutput, embedEvicted]
  | insertNew k v =>
    cases hk : c.cacheMap_.lookup k with
    | none =>
      obtain ⟨c', hins, h'⟩ := h.insertAbsent hcap hk v
      refine ⟨c', ?_, by simpa [Recency.step, h.lookup_none hk] using h'⟩
      simp [LRUCache.step, LRUCache.insertNew, findOrInsertDefault, hk,
        hins, Recency.step, h.lookup_none hk, embedOutput]
    | some e =>
      obtain ⟨node, w, hnode, hr, rfl, hentry⟩ := h.lookup_some hk
      have h' := (h.moveToFront hnode hr).setFront rfl v
      refine ⟨{ c with keys_ := node :: c.keys_.filter (· ≠ node),
                       cacheMap_ := c.cacheMap_.insert k ⟨some v, some node⟩ }, ?_,
        by simpa [Recency.step, hentry] using h'⟩
      simp [LRUCache.step, LRUCache.insertNew, findOrInsertDefault, hk, spliceFront, hnode,
        Recency.step, hentry, embedOutput, embedEvicted]
  | findOrNull k =>
    cases hk : c.cacheMap_.lookup k with
    | none =>
      refine ⟨c, ?_, by simpa [Recency.step, h.lookup_none hk] using h⟩
      simp [LRUCache.step, LRUCache.findOrNull, hk, Recency.step, h.lookup_none hk, embedOutput,
        embedEvicted]
    | some e =>
      obtain ⟨node, w, hnode, hr, rfl, hentry⟩ := h.lookup_some hk
      refine ⟨{ c with keys_ := node :: c.keys_.filter (· ≠ node) }, ?_,
        by simpa [Recency.step, hentry] using h.moveToFront hnode hr⟩
      simp [LRUCache.step, LRUCache.findOrNull, hk, spliceFront, hnode, Recency.step, hentry,
        embedOutput, embedEvicted]
  | evictAll =>
    obtain ⟨c', hloop, h'⟩ := h.evictAllLoop h.size_eq.ge
    exact ⟨c', by simp [LRUCache.step, LRUCache.evictAll, hloop, Recency.step, embedOutput], h'⟩

/-- A run of calls from a related state. -/
theorem Refines.run (h : Refines cap c L) (hcap : 1 ≤ cap) (ops : List (Op K V)) :
    ∃ c', c.run ops = some ((Recency.run cap L ops).1.map embedOutput, c') ∧
      Refines cap c' (Recency.run cap L ops).2 := by
  induction ops generalizing c L with
  | nil => exact ⟨c, rfl, h⟩
  | cons op ops ih =>
    obtain ⟨c₁, hstep, h₁⟩ := h.step hcap op
    obtain ⟨c₂, hrun, h₂⟩ := ih h₁
    exact ⟨c₂, by simp [LRUCache.run, hstep, hrun, Recency.run], h₂⟩

end Refines

/-- With `max_cache_size = 0` the first insertion already evicts, and takes
    `back()` of the empty `keys_`. -/
theorem emplace_new_zero (key : K) (value : V) :
    (LRUCache.new 0 : LRUCache K V).emplace key value = none := by
  simp [LRUCache.emplace, LRUCache.new, findOrInsertDefault, AList.lookup_empty,
    LRUCache.insertAbsent, AList.insert_empty, AList.keys_singleton, LRUCache.evictOldest]

/-! ### Runs from a new cache -/

theorem run_refines_recency {cap : Nat} (hcap : 1 ≤ cap) (ops : List (Op K V)) :
    ∃ c, (LRUCache.new cap : LRUCache K V).run ops =
        some ((Recency.run cap [] ops).1.map embedOutput, c) ∧
      Refines cap c (Recency.run cap [] ops).2 ∧
      (Recency.run cap [] ops).2.length ≤ cap ∧
      ((Recency.run cap [] ops).2.map Prod.fst).Nodup ∧
      ∀ k e, c.cacheMap_.lookup k = some e →
        ∃ v node, e = ⟨some v, some node⟩ ∧ node ∈ c.keys_ ∧ node.2 = k := by
  obtain ⟨c, hrun, h⟩ := (refines_new cap).run hcap ops
  refine ⟨c, hrun, h, h.length_le, h.nodup_fst, fun k e hk => ?_⟩
  obtain ⟨node, v, hnode, hr, rfl, -⟩ := h.lookup_some hk
  exact ⟨v, node, rfl, hnode, hr.1⟩

/-- Three keys into a cache of two. -/
theorem run_refines_recency_three_keys :
    1 ≤ 2 ∧
    ∃ c, (LRUCache.new 2 : LRUCache Nat Nat).run [.emplace 1 10, .emplace 2 20, .emplace 3 30] =
        some ((Recency.run 2 [] [.emplace 1 10, .emplace 2 20, .emplace 3 30]).1.map embedOutput, c) ∧
      Refines 2 c (Recency.run 2 [] [.emplace 1 10, .emplace 2 20, .emplace 3 30]).2 ∧
      (Recency.run 2 [] [.emplace 1 10, .emplace 2 20, .emplace 3 30]).2.length ≤ 2 ∧
      ((Recency.run 2 [] [.emplace 1 10, .emplace 2 20, .emplace 3 30]).2.map Prod.fst).Nodup ∧
      ∀ k e, c.cacheMap_.lookup k = some e →
        ∃ v node, e = ⟨some v, some node⟩ ∧ node ∈ c.keys_ ∧ node.2 = k :=
  ⟨by decide, run_refines_recency (by decide) _⟩

end NcodeCommon.LRU
