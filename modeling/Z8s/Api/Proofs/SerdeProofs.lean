import Z8s.Api.Patches
import Z8s.Api.Proofs.MergePatchProofs

/-!
# Proofs: reading and writing config maps

Reading a config map keeps the changes that a config map can hold (`keepsKnown_configMapSerde`).
-/

namespace Z8s.Api

open Rust Rust.Json Collections Z8s.Types

variable {fields : Option (List (String × Json))} {p : List (String × Json)} {v w : Json}
variable {k s : String}

theorem holdsChange_obj_iff :
    holdsChange (some v) (.obj p) = true ↔
      (∃ b, v = .obj b) ∧ ∀ e ∈ p, holdsChange (v.get e.1) e.2 = true := by
  cases v with
  | obj b => simp [holdsChange, holdsFields_iff, Json.get]
  | _ => simp [holdsChange]

theorem holdsChange_none_obj_iff :
    holdsChange none (.obj p) = true ↔ ∀ e ∈ p, holdsChange none e.2 = true := by
  simp [holdsChange, holdsFields_iff]

theorem holdsChange_str_iff : holdsChange (some (.str s)) w = true ↔ w = .str s := by
  cases w with
  | str t =>
    simp only [holdsChange, beq_iff_eq, Option.some.injEq, Json.str.injEq]
    exact eq_comm
  | _ => simp [holdsChange]

theorem eq_str_of_holdsChange {b : Option Json} (hs : holdsChange (some (.str s)) w = true)
    (hb : holdsChange b w = true) : b = some (.str s) := by
  obtain rfl := holdsChange_str_iff.1 hs
  rw [holdsChange] at hb
  · exact beq_iff_eq.1 hb
  · simp
  · simp

theorem not_holdsChange_null (w : Json) : holdsChange (some .null) w = false := by
  cases w <;> simp [holdsChange]

theorem exists_obj_of_holdsChange {b : List (String × Json)} (h : holdsChange (some (.obj b)) w = true) :
    ∃ p, w = .obj p := by
  cases w with
  | obj p => exact ⟨p, rfl⟩
  | _ => simp [holdsChange] at h

theorem objectField_eq_ok {r : Option (List (String × Json))} (h : objectField v k = .ok r) :
    (r = none ∧ (v.get k = none ∨ v.get k = some .null)) ∨
      ∃ fields, r = some fields ∧ v.get k = some (.obj fields) := by
  unfold objectField at h
  split at h
  · exact .inl ⟨(Except.ok.inj h).symm, .inl ‹_›⟩
  · exact .inl ⟨(Except.ok.inj h).symm, .inr ‹_›⟩
  · exact .inr ⟨_, (Except.ok.inj h).symm, ‹_›⟩
  · cases h

theorem stringField_of_get (h : v.get k = some (.str s)) : stringField v k = .ok (some s) := by
  simp [stringField, h]

theorem lookup_map_str (es : List (String × String)) (k : String) :
    (es.map fun e => (e.1, Json.str e.2)).lookup k = (es.lookup k).map .str := by
  induction es with
  | nil => rfl
  | cons e es ih =>
    rw [List.map_cons, Json.lookup_cons_eq_ite, Json.lookup_cons_eq_ite, ih]
    split_ifs <;> rfl

theorem get_dataValue (data : BTreeMap String String) (k : String) :
    (dataValue data).get k = (data.get k).map .str := lookup_map_str data.iter k

theorem get_stringMap {fields : List (String × Json)} {data : BTreeMap String String}
    (h : stringMap fields = .ok data) (k : String) : fields.lookup k = (data.get k).map .str := by
  induction fields generalizing data with
  | nil =>
    obtain rfl := Except.ok.inj h
    rfl
  | cons e fields ih =>
    obtain ⟨key, v⟩ := e
    cases v with
    | str s =>
      rw [stringMap] at h
      cases htail : stringMap fields with
      | error e => simp [htail, Except.map] at h
      | ok data' =>
        rw [htail] at h
        obtain rfl := Except.ok.inj h
        rw [BTreeMap.get_insert, Json.lookup_cons_eq_ite, ih htail]
        split_ifs <;> rfl
    | _ => simp [stringMap] at h

theorem get_toValue (cm : ConfigMap) (k : String) :
    (configMapSerde.toValue cm).get k =
      if k = "data" then cm.data.map dataValue
      else if k = "metadata" then some (metadataValue cm.metadata) else none := by
  refine (get_record (by simp)).trans ?_
  simp only [Json.lookup_cons_eq_ite]
  split_ifs <;> rfl

theorem get_metadataValue (m : ObjectMeta) (k : String) :
    (metadataValue m).get k =
      if k = "name" then m.name.map .str
      else if k = "namespace" then m.inNamespace.map .str else none := by
  refine (get_record (by simp)).trans ?_
  simp only [Json.lookup_cons_eq_ite]
  split_ifs <;> rfl

theorem fromValue_eq_ok {u : ConfigMap} (h : configMapSerde.fromValue v = .ok u) :
    ∃ metadata data, objectField v "metadata" = .ok metadata ∧ objectField v "data" = .ok data ∧
      stringField (.obj (metadata.getD [])) "name" = .ok u.metadata.name ∧
      stringField (.obj (metadata.getD [])) "namespace" = .ok u.metadata.inNamespace ∧
      data.mapM stringMap = .ok u.data := by
  simp only [configMapSerde, bind, Except.bind] at h
  split at h
  · cases h
  rename_i metadata hmetadata
  split at h
  · cases h
  rename_i name hname
  split at h
  · cases h
  rename_i ns hns
  split at h
  · cases h
  rename_i data hdata
  split at h
  · cases h
  rename_i entries hentries
  obtain rfl := Except.ok.inj h
  exact ⟨metadata, data, hmetadata, hdata, hname, hns, hentries⟩

theorem holdsChange_data {data : Option (BTreeMap String String)}
    (hfield : objectField v "data" = .ok fields) (hdata : fields.mapM stringMap = .ok data)
    (hheld : holdsChange (v.get "data") w = true) : holdsChange (data.map dataValue) w = true := by
  obtain ⟨rfl, hget⟩ | ⟨fields, rfl, hget⟩ := objectField_eq_ok hfield
  · obtain rfl := Except.ok.inj hdata
    rcases hget with hget | hget
    · rwa [hget] at hheld
    · rw [hget, not_holdsChange_null] at hheld
      cases hheld
  · rw [hget] at hheld
    cases hmap : stringMap fields with
    | error e =>
      rw [Option.mapM_some, hmap] at hdata
      cases hdata
    | ok m =>
      have hsome : data = some m := by
        rw [Option.mapM_some, hmap] at hdata
        exact (Except.ok.inj hdata).symm
      obtain ⟨p, rfl⟩ := exists_obj_of_holdsChange hheld
      rw [hsome, Option.map_some, holdsChange_obj_iff]
      refine ⟨⟨_, rfl⟩, fun e he => ?_⟩
      have hfield := (holdsChange_obj_iff.1 hheld).2 e he
      rwa [Json.get, get_stringMap hmap, ← get_dataValue] at hfield

theorem stringField_of_holdsChange {e : String × Json} {r : Option String}
    (hfield : objectField v "metadata" = .ok fields) (hw : w = .obj p) (he : e ∈ p) (hk : e.1 = k)
    (hs : holdsChange (some (.str s)) e.2 = true) (hheld : holdsChange (v.get "metadata") w = true)
    (hread : stringField (.obj (fields.getD [])) k = .ok r) : r = some s := by
  subst hw
  obtain ⟨rfl, hget | hget⟩ | ⟨fields, rfl, hget⟩ := objectField_eq_ok hfield
  · rw [hget, holdsChange_none_obj_iff] at hheld
    cases eq_str_of_holdsChange hs (hheld e he)
  · rw [hget, not_holdsChange_null] at hheld
    cases hheld
  · rw [hget] at hheld
    have hlookup := eq_str_of_holdsChange hs ((holdsChange_obj_iff.1 hheld).2 e he)
    rw [hk] at hlookup
    rw [Option.getD_some, stringField_of_get hlookup] at hread
    exact (Except.ok.inj hread).symm

theorem holdsChange_metadata {ns name : String} {m₀ m : ObjectMeta} (hcomplete : fillPath ns name m₀ = m₀)
    (hfield : objectField v "metadata" = .ok fields)
    (hname : stringField (.obj (fields.getD [])) "name" = .ok m.name)
    (hns : stringField (.obj (fields.getD [])) "namespace" = .ok m.inNamespace)
    (hheld₀ : holdsChange (some (metadataValue m₀)) w = true)
    (hheld : holdsChange (v.get "metadata") w = true) :
    holdsChange (some (metadataValue (fillPath ns name m))) w = true := by
  obtain ⟨p, hw⟩ := exists_obj_of_holdsChange hheld₀
  rw [hw, holdsChange_obj_iff] at hheld₀ ⊢
  refine ⟨⟨_, rfl⟩, fun e he => ?_⟩
  have hold := hheld₀.2 e he
  have hname₀ : m₀.name = m₀.name.or (some name) := congrArg ObjectMeta.name hcomplete.symm
  have hns₀ : m₀.inNamespace = m₀.inNamespace.or (some ns) :=
    congrArg ObjectMeta.inNamespace hcomplete.symm
  rw [get_metadataValue] at hold ⊢
  by_cases hk : e.1 = "name"
  · rw [if_pos hk] at hold ⊢
    cases h₀ : m₀.name with
    | none => simp [h₀] at hname₀
    | some n =>
      rw [h₀] at hold
      have hread := stringField_of_holdsChange hfield hw he hk hold hheld hname
      simpa [fillPath, hread] using hold
  · rw [if_neg hk] at hold ⊢
    by_cases hk' : e.1 = "namespace"
    · rw [if_pos hk'] at hold ⊢
      cases h₀ : m₀.inNamespace with
      | none => simp [h₀] at hns₀
      | some n =>
        rw [h₀] at hold
        have hread := stringField_of_holdsChange hfield hw he hk' hold hheld hns
        simpa [fillPath, hread] using hold
    · rwa [if_neg hk'] at hold ⊢

theorem keepsKnown_configMapSerde (ns name : String) :
    (updateConfigmap configMapSerde).KeepsKnown ns name fun _ => True := by
  intro x v u q hcomplete _ hread hheld₀ hheld
  cases q with
  | obj q =>
    obtain ⟨metadata, data, hmetadata, hdata, hname, hns, hentries⟩ := fromValue_eq_ok hread
    rw [containsChanges, holdsChange_obj_iff] at hheld₀ hheld ⊢
    refine ⟨⟨_, rfl⟩, fun e he => ?_⟩
    have hold := hheld₀.2 e he
    have hnew := hheld.2 e he
    simp only [updateConfigmap, get_toValue] at hold ⊢
    by_cases hk : e.1 = "data"
    · rw [if_pos hk]
      rw [hk] at hnew
      exact holdsChange_data hdata hentries hnew
    · rw [if_neg hk] at hold ⊢
      by_cases hk' : e.1 = "metadata"
      · rw [if_pos hk'] at hold ⊢
        rw [hk'] at hnew
        exact holdsChange_metadata (congrArg ConfigMap.metadata hcomplete) hmetadata hname hns hold hnew
      · rwa [if_neg hk'] at hold ⊢
  | _ => rfl

end Z8s.Api
