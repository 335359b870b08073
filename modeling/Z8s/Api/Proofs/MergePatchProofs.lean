import Z8s.Api.MergePatch
import Z8s.Rust.Proofs.MergePatchProofs

/-!
# Proofs: merging a patch into a value

A patch leaves alone what another patch has changed, when the two touch different keys
(`containsChanges_jsonMergePatch`).
-/

namespace Z8s.Api

open Rust Rust.Json

variable {b p : List (String × Json)}

theorem lookup_removeField (key k : String) (fields : List (String × Json)) :
    (removeField key fields).lookup k = if k = key then none else fields.lookup k :=
  lookup_setField key k none fields

def mergeField (b : List (String × Json)) (k : String) : Json → List (String × Json)
  | .null => removeField k b
  | .obj o => insertField k (jsonMergePatch ((b.lookup k).getD (.obj [])) (.obj o)) b
  | v => insertField k v b

theorem mergeFields_cons (b : List (String × Json)) (k : String) (v : Json) (p : List (String × Json)) :
    mergeFields b ((k, v) :: p) = mergeFields (mergeField b k v) p := by
  cases v <;> rw [mergeFields] <;> first | rfl | simp

theorem lookup_mergeField_of_ne {k key : String} (h : k ≠ key) (b : List (String × Json)) (v : Json) :
    (mergeField b key v).lookup k = b.lookup k := by
  cases v <;> simp only [mergeField, lookup_insertField, lookup_removeField, if_neg h]

theorem holdsFields_iff : holdsFields b p = true ↔ ∀ e ∈ p, holdsChange (b.lookup e.1) e.2 = true := by
  induction p with
  | nil => simp [holdsFields]
  | cons e p ih =>
    obtain ⟨k, v⟩ := e
    rw [holdsFields, Bool.and_eq_true, ih, List.forall_mem_cons]

theorem apartFields_iff {q : List (String × Json)} :
    apartFields p q = true ↔ ∀ e ∈ p, ∀ e' ∈ q, e.1 = e'.1 → apartValues e.2 e'.2 = true := by
  induction p with
  | nil => simp [apartFields]
  | cons e p ih =>
    obtain ⟨k, v⟩ := e
    rw [apartFields, Bool.and_eq_true, ih, List.forall_mem_cons, List.all_eq_true]
    simp only [Bool.or_eq_true, bne_iff_ne, ne_eq, ← imp_iff_not_or]

theorem apartValues_eq_true {v w : Json} (h : apartValues v w = true) :
    ∃ p q, v = .obj p ∧ w = .obj q ∧ apartFields p q = true := by
  unfold apartValues at h
  split at h
  · exact ⟨_, _, rfl, rfl, h⟩
  · cases h

/-- The induction is on the patch `p`: a field of `q` that `p` touches too is an object in both, and the
patches go on apart inside it. -/
theorem holdsFields_mergeFields {b p q : List (String × Json)} (hapart : apartFields p q = true)
    (hq : holdsFields b q = true) : holdsFields (mergeFields b p) q = true := by
  match p with
  | [] => rwa [mergeFields]
  | (k, v) :: p =>
    rw [apartFields_iff] at hapart
    obtain ⟨hv, hp⟩ := List.forall_mem_cons.1 hapart
    rw [mergeFields_cons]
    refine holdsFields_mergeFields (apartFields_iff.2 hp) (holdsFields_iff.2 fun e he => ?_)
    have hheld := holdsFields_iff.1 hq e he
    by_cases hk : k = e.1
    · obtain ⟨o, o', rfl, hobj, ho⟩ := apartValues_eq_true (hv e he hk)
      rw [mergeField, lookup_insertField, if_pos hk.symm, hk]
      rw [hobj] at hheld ⊢
      cases hlookup : b.lookup e.1 with
      | none =>
        rw [hlookup, holdsChange] at hheld
        rw [Option.getD_none, jsonMergePatch, holdsChange]
        exact holdsFields_mergeFields ho hheld
      | some w =>
        rw [hlookup] at hheld
        cases w with
        | obj b' =>
          rw [holdsChange] at hheld
          rw [Option.getD_some, jsonMergePatch, holdsChange]
          exact holdsFields_mergeFields ho hheld
        | _ => simp [holdsChange] at hheld
    · rwa [lookup_mergeField_of_ne (Ne.symm hk)]
termination_by sizeOf p

theorem containsChanges_jsonMergePatch {value p q : Json} (hapart : touchApart p q = true)
    (hq : containsChanges value q = true) : containsChanges (jsonMergePatch value p) q = true := by
  cases q with
  | obj q =>
    rw [containsChanges] at hq ⊢
    cases p with
    | obj p =>
      cases value with
      | obj b =>
        rw [holdsChange] at hq
        rw [jsonMergePatch, holdsChange]
        exact holdsFields_mergeFields (by rwa [touchApart] at hapart) hq
      | _ => simp [holdsChange] at hq
    | _ => rwa [jsonMergePatch]; nofun
  | _ => rfl

theorem sizeOf_obj_lt {e : String × Json} {o : List (String × Json)} (he : e ∈ p) (ho : e.2 = .obj o) :
    sizeOf o < sizeOf p := by
  have hmem := List.sizeOf_lt_of_mem he
  obtain ⟨k, v⟩ := e
  obtain rfl : v = .obj o := ho
  simp only [Prod.mk.sizeOf_spec, Json.obj.sizeOf_spec] at hmem
  omega

theorem apartFields_comm {p q : List (String × Json)} (h : apartFields p q = true) :
    apartFields q p = true := by
  rw [apartFields_iff] at h ⊢
  intro e he e' he' hk
  obtain ⟨o, o', ho, ho', hrec⟩ := apartValues_eq_true (h e' he' e he hk.symm)
  have hlt : sizeOf o < sizeOf p := sizeOf_obj_lt he' ho
  rw [ho, ho', apartValues]
  exact apartFields_comm hrec
termination_by sizeOf p

theorem touchApart_comm {p q : Json} (h : touchApart p q = true) : touchApart q p = true := by
  cases p <;> cases q <;> first | rfl | exact apartFields_comm h

/-! ### Against RFC 7396 -/

def changeField (target : Option Json) : Json → Option Json
  | .null => none
  | .obj o => some (jsonMergePatch (target.getD (.obj [])) (.obj o))
  | v => some v

theorem mergeField_eq_setField (b : List (String × Json)) (k : String) (v : Json) :
    mergeField b k v = setField k (changeField (b.lookup k) v) b := by
  cases v <;> rfl

theorem mergeFields_eq_updateFields (b p : List (String × Json)) :
    mergeFields b p = updateFields changeField b p := by
  induction p generalizing b with
  | nil => rw [mergeFields]; rfl
  | cons e p ih => rw [mergeFields_cons, ih, mergeField_eq_setField]; rfl

theorem meetsObjects_iff : meetsObjects b p = true ↔ ∀ e ∈ p, meetsObject (b.lookup e.1) e.2 = true := by
  induction p with
  | nil => simp [meetsObjects]
  | cons e p ih =>
    obtain ⟨k, v⟩ := e
    rw [meetsObjects, Bool.and_eq_true, ih, List.forall_mem_cons]

theorem meetsObjects_nil (p : List (String × Json)) : meetsObjects [] p = true := by
  refine meetsObjects_iff.2 fun e _ => ?_
  rw [List.lookup_nil]
  cases e.2 <;> rfl

/-- The induction is on the patch. An object of the patch makes an object in the RFC, and leaves a target
that is none as it is in `json_merge_patch`. -/
theorem mergeFields_eq_mergeMembers_iff (b : List (String × Json)) {p : List (String × Json)}
    (hp : wellFormedFields p = true) : mergeFields b p = mergeMembers b p ↔ meetsObjects b p = true := by
  obtain ⟨hinc, hvalues⟩ := wellFormedFields_iff.1 hp
  rw [mergeFields_eq_updateFields, mergeMembers_eq_updateFields, updateFields_eq_iff hinc,
    meetsObjects_iff]
  refine forall₂_congr fun e he => ?_
  cases hv : e.2 with
  | obj o =>
    have hlt : sizeOf o < sizeOf p := sizeOf_obj_lt he hv
    have ho : wellFormedFields o = true := by
      have hwell := hvalues e he
      rwa [hv, wellFormed] at hwell
    rw [changeField, patchField, Option.some.injEq, mergePatch]
    · cases b.lookup e.1 with
      | none =>
        have hnil := (mergeFields_eq_mergeMembers_iff [] ho).2 (meetsObjects_nil o)
        rw [Option.getD_none, jsonMergePatch, hnil]
        exact iff_of_true rfl rfl
      | some target =>
        rw [Option.getD_some]
        cases target with
        | obj b' =>
          rw [jsonMergePatch, members, Json.obj.injEq, meetsObject]
          exact mergeFields_eq_mergeMembers_iff b' ho
        | _ => simp [jsonMergePatch, meetsObject]
    · exact Json.noConfusion
  | null => exact iff_of_true rfl rfl
  | _ => exact iff_of_true (by simp [changeField, patchField, mergePatch]) (by simp [meetsObject])
termination_by sizeOf p

theorem jsonMergePatch_eq_mergePatch_iff (base patch : Object) :
    jsonMergePatch base.toJson patch.toJson = mergePatch (some base.toJson) patch.toJson ↔
      meetsObjects base.fields patch.fields = true := by
  unfold Object.toJson
  rw [jsonMergePatch, mergePatch, members, Json.obj.injEq]
  exact mergeFields_eq_mergeMembers_iff base.fields patch.wellFormed

/-- A patch that puts an object in the place of a string is ignored without an error. -/
theorem jsonMergePatch_keeps_string :
    jsonMergePatch (Object.toJson ⟨[("data", .str "x")], rfl⟩)
        (Object.toJson ⟨[("data", .obj [("k", .str "v")])], rfl⟩) =
      .obj [("data", .str "x")] ∧
    mergePatch (some (Object.toJson ⟨[("data", .str "x")], rfl⟩))
        (Object.toJson ⟨[("data", .obj [("k", .str "v")])], rfl⟩) =
      .obj [("data", .obj [("k", .str "v")])] := by
  decide +kernel

/-! ### A patch applied twice -/

theorem mergeFields_idem {b p : List (String × Json)} (hb : wellFormedFields b = true)
    (hp : wellFormedFields p = true) : mergeFields (mergeFields b p) p = mergeFields b p := by
  obtain ⟨hbinc, hbvalues⟩ := wellFormedFields_iff.1 hb
  obtain ⟨hpinc, hpvalues⟩ := wellFormedFields_iff.1 hp
  simp only [mergeFields_eq_updateFields]
  refine updateFields_idem hbinc hpinc fun e he => ?_
  cases hv : e.2 with
  | obj o =>
    have hlt : sizeOf o < sizeOf p := sizeOf_obj_lt he hv
    have ho : wellFormedFields o = true := by
      have hwell := hpvalues e he
      rwa [hv, wellFormed] at hwell
    rw [changeField, changeField, Option.getD_some]
    refine congrArg some ?_
    cases hlookup : b.lookup e.1 with
    | none =>
      rw [Option.getD_none, jsonMergePatch, jsonMergePatch, mergeFields_idem rfl ho]
    | some target =>
      rw [Option.getD_some]
      cases target with
      | obj b' =>
        have hb' : wellFormedFields b' = true := by
          have hwell := hbvalues _ (mem_of_lookup_eq_some hlookup)
          rwa [wellFormed] at hwell
        rw [jsonMergePatch, jsonMergePatch, mergeFields_idem hb' ho]
      | _ => simp [jsonMergePatch]
  | _ => rfl
termination_by sizeOf p

theorem jsonMergePatch_idem (base patch : Value) :
    jsonMergePatch (jsonMergePatch base.json patch.json) patch.json =
      jsonMergePatch base.json patch.json := by
  obtain ⟨base, hbase⟩ := base
  obtain ⟨patch, hpatch⟩ := patch
  cases patch with
  | obj p =>
    cases base with
    | obj b =>
      rw [wellFormed] at hbase hpatch
      rw [jsonMergePatch, jsonMergePatch, mergeFields_idem hbase hpatch]
    | _ => simp [jsonMergePatch]
  | _ => simp [jsonMergePatch]

end Z8s.Api
