import Mathlib.Data.List.AList

/-!
# Hash maps

A hash map is an association list without repeated keys, Mathlib's `AList`. The order of its
entries is the order in which the map happens to be iterated; no operation promises one, so results
about iteration are stated for every permutation of `iter`.
-/

namespace Z8s.Collections

abbrev HashMap (K V : Type) := AList fun _ : K => V

namespace HashMap

variable {K V : Type}

def iter (m : HashMap K V) : List (K × V) := m.entries.map fun e => (e.1, e.2)

def keys (m : HashMap K V) : List K := m.iter.map Prod.fst

def values (m : HashMap K V) : List V := m.iter.map Prod.snd

def filter (p : K → V → Bool) (m : HashMap K V) : HashMap K V :=
  ⟨m.entries.filter fun e => p e.1 e.2, m.nodupKeys.sublist List.filter_sublist⟩

variable [DecidableEq K]

def get (m : HashMap K V) (k : K) : Option V := AList.lookup k m

def containsKey (m : HashMap K V) (k : K) : Bool := (m.get k).isSome

def insert (m : HashMap K V) (k : K) (v : V) : HashMap K V := AList.insert k v m

def remove (m : HashMap K V) (k : K) : HashMap K V := AList.erase k m

/-- Overwrite the value of `k` in place; a map without `k` stays as it is. -/
def update (m : HashMap K V) (k : K) (f : V → V) : HashMap K V :=
  ⟨m.entries.map fun e => if e.1 = k then ⟨e.1, f e.2⟩ else e, by
    have h : (m.entries.map fun e => if e.1 = k then (⟨e.1, f e.2⟩ : Sigma fun _ : K => V) else e).keys
        = m.entries.keys := by
      simp only [List.keys, List.map_map]
      exact List.map_congr_left fun e _ => by by_cases he : e.1 = k <;> simp [he]
    rw [List.NodupKeys, h]
    exact m.nodupKeys⟩

def insertAll (m : HashMap K V) (kvs : List (K × V)) : HashMap K V :=
  kvs.foldl (fun m kv => m.insert kv.1 kv.2) m

def removeAll (m : HashMap K V) (ks : List K) : HashMap K V := ks.foldl remove m

/-- The map with exactly the pairs of `kvs`; of two pairs with one key the later one stays. -/
def ofList (kvs : List (K × V)) : HashMap K V := insertAll ∅ kvs

end HashMap

end Z8s.Collections
