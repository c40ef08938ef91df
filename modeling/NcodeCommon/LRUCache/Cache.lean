import Mathlib.Data.List.AList

/-!
# `LRUCache<K, V>`

`src/lru_cache.h` keeps two structures in step: `keys_`, a `std::list<K>`
with the most recently used key at the front, and `cache_map_`, an
`unordered_map` from each key to the owned value and an iterator to the key's
node of `keys_`.  We model a list node as its identity and the key it holds, so
that an iterator is the node it points to (`none` for a default-constructed,
singular iterator) and `splice` moves that very node; `nextNode_` hands out the
identities of new nodes.  `cache_map_` is an `AList`, whose keys are distinct
as an `unordered_map`'s are, and an owned `unique_ptr<V>` is an `Option V`.

Each call returns what it returns in the source and the pairs it hands to
`ItemEvicted`, in order.  Undefined behaviour and failed `CHECK`s (`back()` of
an empty list, a `splice` of an iterator into no node of `keys_`, a missing or
empty map entry) are `none`.

As in the source, `Emplace` and `InsertNew` create the map entry of a new key
before they compare the map's size with `max_cache_size_`, so they evict when
the cache already holds `max_cache_size_` keys; their shared insertion path is
`LRUCache.insertAbsent`.
-/

namespace NcodeCommon.LRU

/-- `LRUCache::ObjectAndListIterator`: the owned value and the iterator to the
    key's node.  A node is its identity and the key it holds. -/
structure ObjectAndListIterator (K V : Type) where
  object : Option V
  iterator : Option (Nat × K)
deriving DecidableEq, Repr

/-- `ObjectAndListIterator()`: no value, a singular iterator. -/
def ObjectAndListIterator.empty {K V : Type} : ObjectAndListIterator K V := ⟨none, none⟩

@[simp] theorem ObjectAndListIterator.object_empty {K V : Type} :
    (ObjectAndListIterator.empty : ObjectAndListIterator K V).object = none := rfl

variable {K V : Type} [DecidableEq K]

/-- `LRUCache<K, V>`: the capacity, the recency list `keys_` (front first),
    the map `cache_map_`, and the identity of the next list node. -/
structure LRUCache (K V : Type) [DecidableEq K] where
  maxCacheSize_ : Nat
  keys_ : List (Nat × K)
  cacheMap_ : AList (fun _ : K => ObjectAndListIterator K V)
  nextNode_ : Nat

/-- `LRUCache(max_cache_size)`. -/
def LRUCache.new (maxCacheSize : Nat) : LRUCache K V := ⟨maxCacheSize, [], ∅, 0⟩

/-- `cache_map_.size()`. -/
def LRUCache.size (c : LRUCache K V) : Nat := c.cacheMap_.keys.length

/-- `cache_map_[key]`: the entry of `key`, default-constructed and inserted
    when there is none. -/
def findOrInsertDefault (m : AList (fun _ : K => ObjectAndListIterator K V)) (key : K) :
    AList (fun _ : K => ObjectAndListIterator K V) × ObjectAndListIterator K V :=
  match m.lookup key with
  | some e => (m, e)
  | none => (m.insert key .empty, .empty)

/-- `keys_.splice(keys_.begin(), keys_, it)`: the node `it` points to moves to
    the front, every other node keeps its place.  An iterator to no node of
    `keys_` is `none`. -/
def spliceFront (keys : List (Nat × K)) (it : Option (Nat × K)) : Option (List (Nat × K)) := do
  let node ← it
  if node ∈ keys then some (node :: keys.filter (· ≠ node)) else none

/-- `EvictOldest()`: hand the back key and its value to `ItemEvicted`, erase
    its map entry and pop its node. -/
def LRUCache.evictOldest (c : LRUCache K V) : Option (List (K × Option V) × LRUCache K V) := do
  let toEvict ← c.keys_.getLast?
  let e ← c.cacheMap_.lookup toEvict.2
  some ([(toEvict.2, e.object)],
    { c with cacheMap_ := c.cacheMap_.erase toEvict.2, keys_ := c.keys_.dropLast })

/-- The insertion path shared by `Emplace` and `InsertNew`, after
    `cache_map_[key]` has created the entry of an absent key in `m`: evict if
    the map has grown past `max_cache_size_`, then push a new node for `key`
    and store the value and the iterator in the key's entry. -/
def LRUCache.insertAbsent (c : LRUCache K V) (m : AList (fun _ : K => ObjectAndListIterator K V))
    (key : K) (value : V) : Option (V × List (K × Option V) × LRUCache K V) := do
  let (evicted, c') ←
    if m.keys.length > c.maxCacheSize_ then LRUCache.evictOldest { c with cacheMap_ := m }
    else some ([], { c with cacheMap_ := m })
  let node := (c'.nextNode_, key)
  some (value, evicted,
    { c' with keys_ := node :: c'.keys_,
              cacheMap_ := c'.cacheMap_.insert key ⟨some value, some node⟩,
              nextNode_ := c'.nextNode_ + 1 })

/-- `Emplace(key, args...)`; `value` is what `make_unique<V>(args...)` would
    build.  A cached key keeps its value, which is returned, and its node moves
    to the front. -/
def LRUCache.emplace (c : LRUCache K V) (key : K) (value : V) :
    Option (V × List (K × Option V) × LRUCache K V) :=
  let (m, e) := findOrInsertDefault c.cacheMap_ key
  match e.object with
  | some obj => do
    let keys ← spliceFront c.keys_ e.iterator
    some (obj, [], { c with cacheMap_ := m, keys_ := keys })
  | none => c.insertAbsent m key value

/-- `InsertNew(key, value)`.  A cached key hands its old value to
    `ItemEvicted`, its node moves to the front and its entry takes `value`. -/
def LRUCache.insertNew (c : LRUCache K V) (key : K) (value : V) :
    Option (V × List (K × Option V) × LRUCache K V) :=
  let (m, e) := findOrInsertDefault c.cacheMap_ key
  match e.object with
  | some old => do
    let keys ← spliceFront c.keys_ e.iterator
    some (value, [(key, some old)],
      { c with keys_ := keys, cacheMap_ := m.insert key { e with object := some value } })
  | none => c.insertAbsent m key value

/-- `FindOrNull(key)`: the value of a cached key, whose node moves to the
    front; `nullptr` (`none`) and no change otherwise.  A cached key with no
    value fails the source's `CHECK`. -/
def LRUCache.findOrNull (c : LRUCache K V) (key : K) : Option (Option V × LRUCache K V) :=
  match c.cacheMap_.lookup key with
  | none => some (none, c)
  | some e => do
    let obj ← e.object
    let keys ← spliceFront c.keys_ e.iterator
    some (some obj, { c with keys_ := keys })

/-- The loop of `EvictAll()`, `while (cache_map_.size()) EvictOldest();`.
    Each `EvictOldest` erases one map entry, so `fuel` at the map's size is
    enough; running out of it with entries left is `none`. -/
def LRUCache.evictAllLoop : Nat → LRUCache K V → Option (List (K × Option V) × LRUCache K V)
  | fuel, c =>
    if c.size = 0 then some ([], c)
    else match fuel with
      | 0 => none
      | fuel + 1 => do
        let (evicted, c') ← c.evictOldest
        let (evicted', c'') ← evictAllLoop fuel c'
        some (evicted ++ evicted', c'')

/-- `EvictAll()`. -/
def LRUCache.evictAll (c : LRUCache K V) : Option (List (K × Option V) × LRUCache K V) :=
  c.evictAllLoop c.size

/-! ### Runs of calls -/

/-- The public calls of `LRUCache`. -/
inductive Op (K V : Type)
  | emplace (key : K) (value : V)
  | insertNew (key : K) (value : V)
  | findOrNull (key : K)
  | evictAll
deriving DecidableEq, Repr

/-- One call: the value it returns (`V&` of `Emplace` and `InsertNew`, `V*`
    of `FindOrNull`, nothing for `EvictAll`) and the pairs it hands to
    `ItemEvicted`. -/
def LRUCache.step (c : LRUCache K V) :
    Op K V → Option ((Option V × List (K × Option V)) × LRUCache K V)
  | .emplace key value => (c.emplace key value).map fun (v, ev, c') => ((some v, ev), c')
  | .insertNew key value => (c.insertNew key value).map fun (v, ev, c') => ((some v, ev), c')
  | .findOrNull key => (c.findOrNull key).map fun (v, c') => ((v, []), c')
  | .evictAll => c.evictAll.map fun (ev, c') => ((none, ev), c')

/-- A sequence of calls, with what each returned. -/
def LRUCache.run (c : LRUCache K V) : List (Op K V) →
    Option (List (Option V × List (K × Option V)) × LRUCache K V)
  | [] => some ([], c)
  | op :: ops => do
    let (out, c') ← c.step op
    let (outs, c'') ← c'.run ops
    some (out :: outs, c'')

/-! ### A cache of capacity zero -/

/-- `LRUCache(0)` holds nothing, and its first insertion is undefined
    behaviour: `Emplace` creates the key's map entry, finds the map larger
    than `0` and evicts before the key is listed, so `EvictOldest` reads
    `keys_.back()` of an empty list. -/
example : (LRUCache.new 0 : LRUCache Nat Nat).run [.emplace 1 1] = none := rfl

end NcodeCommon.LRU
