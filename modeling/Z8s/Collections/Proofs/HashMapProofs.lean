import Z8s.Collections.HashMap
import Mathlib.Tactic.Common

/-!
# Proofs: hash maps

How a lookup sees each operation, and how the entries of `iter` relate to lookups.
-/

namespace Z8s.Collections.HashMap

open List

variable {K V : Type}

theorem iter_filter (m : HashMap K V) (p : K → V → Bool) :
    (m.filter p).iter = m.iter.filter fun e => p e.1 e.2 := by
  simp [iter, filter, filter_map, Function.comp_def]

variable [DecidableEq K]

theorem mem_iter {m : HashMap K V} {k : K} {v : V} : (k, v) ∈ m.iter ↔ m.get k = some v := by
  have h : v ∈ AList.lookup k m ↔ (⟨k, v⟩ : Sigma fun _ : K => V) ∈ m.entries :=
    AList.mem_lookup_iff
  constructor
  · intro hm
    obtain ⟨⟨k', v'⟩, he, heq⟩ := mem_map.1 hm
    cases heq
    exact h.2 he
  · intro hg
    exact mem_map.2 ⟨⟨k, v⟩, h.1 hg, rfl⟩

theorem get_filter (m : HashMap K V) (p : K → V → Bool) (k : K) :
    (m.filter p).get k = (m.get k).filter (p k) := by
  ext v
  rw [← mem_iter, iter_filter, mem_filter, mem_iter, Option.filter_eq_some_iff]

theorem mem_values {m : HashMap K V} {v : V} : v ∈ m.values ↔ ∃ k, m.get k = some v := by
  constructor
  · intro h
    obtain ⟨⟨k, v'⟩, hmem, rfl⟩ := mem_map.1 h
    exact ⟨k, mem_iter.1 hmem⟩
  · rintro ⟨k, h⟩
    exact mem_map.2 ⟨(k, v), mem_iter.2 h, rfl⟩

theorem mem_keys {m : HashMap K V} {k : K} : k ∈ m.keys ↔ ∃ v, m.get k = some v := by
  constructor
  · intro h
    obtain ⟨⟨k', v⟩, he, rfl⟩ := mem_map.1 h
    exact ⟨v, mem_iter.1 he⟩
  · rintro ⟨v, hv⟩
    exact mem_map.2 ⟨(k, v), mem_iter.2 hv, rfl⟩

theorem nodup_keys (m : HashMap K V) : m.keys.Nodup := by
  have h : m.keys = m.entries.keys := by simp [keys, iter, List.keys]
  rw [h]
  exact m.nodupKeys

@[simp] theorem get_empty (k : K) : (∅ : HashMap K V).get k = none := rfl

theorem get_insert (m : HashMap K V) (k k' : K) (v : V) :
    (m.insert k v).get k' = if k' = k then some v else m.get k' := by
  by_cases h : k' = k
  · subst h
    simp [get, insert]
  · simp [get, insert, h]

@[simp] theorem get_insert_self (m : HashMap K V) (k : K) (v : V) :
    (m.insert k v).get k = some v := by
  simp [get_insert]

theorem get_remove (m : HashMap K V) (k k' : K) :
    (m.remove k).get k' = if k' = k then none else m.get k' := by
  by_cases h : k' = k
  · subst h
    simp [get, remove]
  · simp [get, remove, h]

theorem get_removeAll (m : HashMap K V) (ks : List K) (k : K) :
    (m.removeAll ks).get k = if k ∈ ks then none else m.get k := by
  induction ks generalizing m with
  | nil => simp [removeAll]
  | cons a ks ih =>
    have h : m.removeAll (a :: ks) = (m.remove a).removeAll ks := rfl
    rw [h, ih, get_remove]
    by_cases hk : k ∈ ks
    · simp [hk]
    · by_cases ha : k = a <;> simp [hk, ha]

theorem get_removeAll_of_notMem {m : HashMap K V} {ks : List K} {k : K} (hk : k ∉ ks) :
    (m.removeAll ks).get k = m.get k := by
  rw [get_removeAll, if_neg hk]

theorem remove_eq_self {m : HashMap K V} {k : K} (h : m.get k = none) : m.remove k = m := by
  have hk : k ∉ m.entries.keys := fun hmem => by
    obtain ⟨v, hv⟩ := Option.isSome_iff_exists.1 (AList.lookup_isSome.2 hmem)
    exact absurd (h.symm.trans hv) (by simp)
  exact AList.ext (kerase_of_notMem_keys hk)

theorem values_insert (m : HashMap K V) (k : K) (v : V) :
    (m.insert k v).values = v :: (m.remove k).values := by
  simp only [values, iter, insert, AList.entries_insert, map_cons]
  rfl

theorem values_perm {m : HashMap K V} {k : K} {v : V} (h : m.get k = some v) :
    m.values.Perm (v :: (m.remove k).values) := by
  have hmem : k ∈ m.entries.keys := AList.lookup_isSome.1 (by rw [show AList.lookup k m = _ from h]; rfl)
  obtain ⟨w, l₁, l₂, -, hl, herase⟩ := exists_of_kerase hmem
  have hw : m.get k = some w := AList.mem_lookup_iff.2 (by rw [hl]; simp)
  obtain rfl : v = w := Option.some.inj (h.symm.trans hw)
  have hremove : (m.remove k).entries = l₁ ++ l₂ := herase
  simp only [values, iter, map_map, hl, hremove, map_append, map_cons]
  exact perm_middle

theorem get_insertAll_of_notMem (m : HashMap K V) (kvs : List (K × V)) {k : K}
    (hk : k ∉ kvs.map Prod.fst) : (m.insertAll kvs).get k = m.get k := by
  induction kvs generalizing m with
  | nil => rfl
  | cons kv kvs ih =>
    have h : m.insertAll (kv :: kvs) = (m.insert kv.1 kv.2).insertAll kvs := rfl
    simp only [map_cons, mem_cons, not_or] at hk
    rw [h, ih _ hk.2, get_insert, if_neg hk.1]

theorem get_insertAll_of_mem (m : HashMap K V) {kvs : List (K × V)}
    (hnd : (kvs.map Prod.fst).Nodup) {k : K} {v : V} (h : (k, v) ∈ kvs) :
    (m.insertAll kvs).get k = some v := by
  induction kvs generalizing m with
  | nil => simp at h
  | cons kv kvs ih =>
    have he : m.insertAll (kv :: kvs) = (m.insert kv.1 kv.2).insertAll kvs := rfl
    simp only [map_cons, nodup_cons] at hnd
    rw [he]
    rcases mem_cons.1 h with rfl | h
    · rw [get_insertAll_of_notMem _ _ hnd.1, get_insert_self]
    · exact ih _ hnd.2 h

theorem mem_of_get_insertAll {m : HashMap K V} {kvs : List (K × V)} {k : K} {v : V}
    (h : (m.insertAll kvs).get k = some v) :
    (k, v) ∈ kvs ∨ (k ∉ kvs.map Prod.fst ∧ m.get k = some v) := by
  induction kvs generalizing m with
  | nil => exact .inr ⟨by simp, h⟩
  | cons kv kvs ih =>
    have he : m.insertAll (kv :: kvs) = (m.insert kv.1 kv.2).insertAll kvs := rfl
    rw [he] at h
    rcases ih h with h | ⟨hk, h⟩
    · exact .inl (mem_cons_of_mem _ h)
    · rw [get_insert] at h
      by_cases hkv : k = kv.1
      · rw [if_pos hkv] at h
        left
        have : kv = (k, v) := by rw [hkv]; exact Prod.ext rfl (Option.some.inj h)
        rw [this]; exact mem_cons_self
      · rw [if_neg hkv] at h
        exact .inr ⟨by simpa [hkv] using hk, h⟩

theorem isSome_get_insertAll (m : HashMap K V) (kvs : List (K × V)) (k : K) :
    ((m.insertAll kvs).get k).isSome ↔ k ∈ kvs.map Prod.fst ∨ (m.get k).isSome := by
  induction kvs generalizing m with
  | nil => simp [insertAll]
  | cons kv kvs ih =>
    have h : m.insertAll (kv :: kvs) = (m.insert kv.1 kv.2).insertAll kvs := rfl
    rw [h, ih, get_insert, map_cons, mem_cons]
    by_cases hk : k = kv.1 <;> simp [hk]

theorem iter_update (m : HashMap K V) (k : K) (f : V → V) :
    (m.update k f).iter = m.iter.map fun e => if e.1 = k then (e.1, f e.2) else e := by
  simp only [iter, update, map_map]
  exact map_congr_left fun e _ => by by_cases he : e.1 = k <;> simp [he]

theorem get_update (m : HashMap K V) (k k' : K) (f : V → V) :
    (m.update k f).get k' = if k' = k then (m.get k').map f else m.get k' := by
  apply Option.ext
  intro v
  rw [← mem_iter, iter_update, mem_map]
  constructor
  · rintro ⟨⟨a, w⟩, ha, he⟩
    rw [mem_iter] at ha
    by_cases hak : a = k
    · simp only [hak, if_true, Prod.mk.injEq] at he
      obtain ⟨rfl, rfl⟩ := he
      rw [hak] at ha
      simp [ha]
    · simp only [hak, if_false, Prod.mk.injEq] at he
      obtain ⟨rfl, rfl⟩ := he
      simpa [hak] using ha
  · intro h
    by_cases hk : k' = k
    · rw [if_pos hk] at h
      obtain ⟨w, hw, rfl⟩ := Option.map_eq_some_iff.1 h
      exact ⟨(k', w), mem_iter.2 hw, by simp [hk]⟩
    · rw [if_neg hk] at h
      exact ⟨(k', v), mem_iter.2 h, by simp [hk]⟩

end Z8s.Collections.HashMap
