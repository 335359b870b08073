import Mathlib.Data.String.Basic
import Mathlib.Tactic.Common

/-!
# Ordered maps

A B-tree map is a list of entries with increasing keys, the order in which the map is iterated.
-/

namespace Z8s.Collections

/-- A map from `K` to `V` whose entries are kept in the order of their keys. -/
structure BTreeMap (K V : Type) [LinearOrder K] where
  iter : List (K × V)
  sorted : iter.Pairwise fun a b => a.1 < b.1
  deriving DecidableEq, Repr

namespace BTreeMap

variable {K V : Type} [LinearOrder K]

instance : EmptyCollection (BTreeMap K V) := ⟨⟨[], .nil⟩⟩

def get (m : BTreeMap K V) (k : K) : Option V := m.iter.lookup k

/-- Put an entry in its place, or in the place of the entry with its key. -/
def insertEntry (k : K) (v : V) : List (K × V) → List (K × V)
  | [] => [(k, v)]
  | e :: es => if k < e.1 then (k, v) :: e :: es
    else if k = e.1 then (k, v) :: es
    else e :: insertEntry k v es

theorem mem_of_mem_insertEntry {k : K} {v : V} {e : K × V} {es : List (K × V)}
    (h : e ∈ insertEntry k v es) : e = (k, v) ∨ e ∈ es := by
  induction es with
  | nil => exact .inl (List.mem_singleton.1 h)
  | cons a es ih =>
    unfold insertEntry at h
    split_ifs at h
    · exact List.mem_cons.1 h
    · exact (List.mem_cons.1 h).imp_right (List.mem_cons_of_mem a)
    · rcases List.mem_cons.1 h with rfl | h
      · exact .inr List.mem_cons_self
      · exact (ih h).imp_right (List.mem_cons_of_mem a)

theorem sorted_insertEntry (k : K) (v : V) {es : List (K × V)}
    (h : es.Pairwise fun a b => a.1 < b.1) : (insertEntry k v es).Pairwise fun a b => a.1 < b.1 := by
  induction es with
  | nil => exact List.pairwise_singleton _ _
  | cons a es ih =>
    obtain ⟨ha, hes⟩ := List.pairwise_cons.1 h
    unfold insertEntry
    split_ifs with hlt heq
    · refine List.pairwise_cons.2 ⟨fun b hb => ?_, h⟩
      rcases List.mem_cons.1 hb with rfl | hb
      · exact hlt
      · exact hlt.trans (ha b hb)
    · exact List.pairwise_cons.2 ⟨fun b hb => heq ▸ ha b hb, hes⟩
    · refine List.pairwise_cons.2 ⟨fun b hb => ?_, ih hes⟩
      rcases mem_of_mem_insertEntry hb with rfl | hb
      · exact lt_of_le_of_ne (not_lt.1 hlt) (Ne.symm heq)
      · exact ha b hb

def insert (m : BTreeMap K V) (k : K) (v : V) : BTreeMap K V :=
  ⟨insertEntry k v m.iter, sorted_insertEntry k v m.sorted⟩

def extend (m m' : BTreeMap K V) : BTreeMap K V := m'.iter.foldl (fun m e => m.insert e.1 e.2) m

/-- The map of some entries; of two with one key the later one stays. -/
def ofList (es : List (K × V)) : BTreeMap K V := es.foldl (fun m e => m.insert e.1 e.2) ∅

end BTreeMap

end Z8s.Collections
