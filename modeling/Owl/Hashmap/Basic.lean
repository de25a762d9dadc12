import Owl.Foundation.Slots

/-! # The open-addressing table of `hashmap.c`

Keys are hashed to a home slot and stored in the first free slot of the eight
from there on. Lookups read the whole window, since a removal leaves a plain
free slot behind. A put that finds its window or half of the table full doubles
the table, which puts every entry again and may double again in the middle.

The hash function is a parameter. `calloc` says for each array length whether
its allocation succeeds; within one put the lengths only grow, so this covers
every pattern of failures. The mutual recursion of put and rehash is bounded by
`fuel`, and `none` stands for a call that has not returned within it.
-/

namespace Owl

/-- `enum map_status`. -/
inductive MapStatus
  | ok
  | omem
  | full
  | missing
  deriving DecidableEq, Repr

/-- `INITIAL_SIZE`. -/
def initialSize : Nat := 256

/-- `MAX_CHAIN_LENGTH`. -/
def maxChainLength : Nat := 8

/-- `hashmap_map`: a slot is `none` when its `in_use` flag is clear, and
`table_size` is the length of the array. -/
structure HashmapMap (K V : Type) where
  data : List (Option (K × V))
  size : Nat
  deriving DecidableEq

variable {K V : Type}

/-- `hashmap_new`. -/
def hashmapNew : HashmapMap K V where
  data := List.replicate initialSize none
  size := 0

namespace HashmapMap

/-- `table_size`. -/
def tableSize (m : HashmapMap K V) : Nat := m.data.length

/-- The entry of a slot that is in use. -/
def slot (m : HashmapMap K V) (index : Nat) : Option (K × V) := (m.data[index]?).join

/-- The finite map that a table denotes. -/
def toMap [DecidableEq K] (m : HashmapMap K V) : K → Option V := Slots.toMap m.data

end HashmapMap

section Operations

variable [DecidableEq K] (hash : K → UInt64)

/-- `hashmap_hash_int`. -/
def hashmapHashInt (m : HashmapMap K V) (key : K) : Nat :=
  (hash key).toNat % m.tableSize

/-- The probing loop of `hashmap_hash`: the first slot of the window that is
free or holds the key. -/
def probeFree (m : HashmapMap K V) (key : K) : (left curr : Nat) → Option Nat
  | 0, _ => none
  | left + 1, curr =>
      match m.slot curr with
      | none => some curr
      | some entry =>
          if entry.1 = key then some curr
          else probeFree m key left ((curr + 1) % m.tableSize)

/-- `hashmap_hash`; `none` is `MAP_FULL`. -/
def hashmapHash (m : HashmapMap K V) (key : K) : Option Nat :=
  if m.size ≥ m.tableSize / 2 then none
  else probeFree m key maxChainLength (hashmapHashInt hash m key)

/-- The loop of `hashmap_rehash` that puts the entries of the old array again,
with the put it calls as an argument. -/
def rehashEntries (put : HashmapMap K V → K → V → Option (MapStatus × HashmapMap K V)) :
    List (Option (K × V)) → HashmapMap K V → Option (MapStatus × HashmapMap K V)
  | [], m => some (.ok, m)
  | none :: rest, m => rehashEntries put rest m
  | some (key, value) :: rest, m =>
      match put m key value with
      | none => none
      | some (status, m') => if status = .ok then rehashEntries put rest m' else some (status, m')

/-- `hashmap_rehash`, with the put it calls as an argument. -/
def hashmapRehash (calloc : Nat → Bool)
    (put : HashmapMap K V → K → V → Option (MapStatus × HashmapMap K V))
    (m : HashmapMap K V) : Option (MapStatus × HashmapMap K V) :=
  if calloc (2 * m.tableSize) then
    rehashEntries put m.data { data := List.replicate (2 * m.tableSize) none, size := 0 }
  else some (.omem, m)

/-- `hashmap_put`. -/
def hashmapPut (calloc : Nat → Bool) :
    (fuel : Nat) → HashmapMap K V → K → V → Option (MapStatus × HashmapMap K V)
  | 0, _, _, _ => none
  | fuel + 1, m, key, value =>
      match hashmapHash hash m key with
      | some index =>
          some (.ok, { data := m.data.set index (some (key, value)), size := m.size + 1 })
      | none =>
          match hashmapRehash calloc (hashmapPut calloc fuel) m with
          | none => none
          | some (status, m') =>
              if status = .omem then some (.omem, m') else hashmapPut calloc fuel m' key value

/-- The probing loop of `hashmap_get`: the first slot of the window that holds the key. -/
def probeKey (m : HashmapMap K V) (key : K) : (left curr : Nat) → Option Nat
  | 0, _ => none
  | left + 1, curr =>
      match m.slot curr with
      | none => probeKey m key left ((curr + 1) % m.tableSize)
      | some entry =>
          if entry.1 = key then some curr
          else probeKey m key left ((curr + 1) % m.tableSize)

/-- The slot in which `hashmap_get` finds a key. -/
def hashmapFind (m : HashmapMap K V) (key : K) : Option Nat :=
  probeKey m key maxChainLength (hashmapHashInt hash m key)

/-- `hashmap_get`: status, value written to `arg`, and the table afterwards. -/
def hashmapGet (m : HashmapMap K V) (key : K) (remove : Bool) :
    MapStatus × Option V × HashmapMap K V :=
  match hashmapFind hash m key with
  | none => (.missing, none, m)
  | some index =>
      (.ok, (m.slot index).map Prod.snd,
        if remove then { data := m.data.set index none, size := m.size - 1 } else m)

/-- A write through the data pointer of the entry of a key. -/
def hashmapStore (m : HashmapMap K V) (key : K) (value : V) : HashmapMap K V :=
  match hashmapFind hash m key with
  | none => m
  | some index => { m with data := m.data.set index (some (key, value)) }

end Operations

/-- `hashmap_length`. -/
def hashmapLength (m : HashmapMap K V) : Nat := m.size

/-! ## Iterators

An iterator is its current index, `-1` when new. -/

/-- The first slot in use of a part of the array that starts at index `first`. -/
def firstInUse : List (Option (K × V)) → (first : Nat) → Option (Nat × K × V)
  | [], _ => none
  | none :: rest, first => firstInUse rest (first + 1)
  | some entry :: _, first => some (first, entry)

/-- `hashmap_it_next`: the index and the entry moved to; `none` is `MAP_MISSING`. -/
def hashmapItNext (m : HashmapMap K V) (it : Int) : Option (Nat × K × V) :=
  firstInUse (m.data.drop (it + 1).toNat) (it + 1).toNat

/-- `hashmap_it_remove`. -/
def hashmapItRemove (m : HashmapMap K V) (it : Int) : MapStatus × HashmapMap K V :=
  if it < 0 ∨ it ≥ m.tableSize then (.missing, m)
  else if (m.slot it.toNat).isNone then (.missing, m)
  else (.ok, { data := m.data.set it.toNat none, size := m.size - 1 })

/-- The loops of the form `while (hashmap_it_next(it, ..) == MAP_OK)`: the body
updates an accumulator and says whether the current element is removed through
the iterator. Every round advances the iterator, so `fuel` rounds suffice when
they exceed the table size (`hashmapIterate_eq`). -/
def iterateFrom {Acc : Type} (body : Acc → K → V → Acc × Bool) :
    (fuel : Nat) → HashmapMap K V → (it : Int) → Acc → Acc × HashmapMap K V
  | 0, m, _, acc => (acc, m)
  | fuel + 1, m, it, acc =>
      match hashmapItNext m it with
      | none => (acc, m)
      | some (index, key, value) =>
          iterateFrom body fuel
            (if (body acc key value).2 then (hashmapItRemove m index).2 else m) index
            (body acc key value).1

/-- A full iteration over a table with a new iterator. -/
def hashmapIterate {Acc : Type} (body : Acc → K → V → Acc × Bool) (m : HashmapMap K V)
    (acc : Acc) : Acc × HashmapMap K V :=
  iterateFrom body (m.tableSize + 1) m (-1) acc

end Owl
