import Z8s.Proofs.TypesProofs
import Z8s.Storage.Safety
import Z8s.Transition.Proofs.RunProofs

/-!
# Proofs: dynamic provisioning

Two claims share a volume exactly when a part of one namespace can be read as a part of the other
name.
-/

namespace Z8s.Storage

open Rust Z8s.Types

/-! ### Names -/

theorem provisionedPath_inj {a b : String} : provisionedPath a = provisionedPath b ↔ a = b := by
  unfold provisionedPath
  rw [← String.toList_inj, ← String.toList_inj]
  simp

theorem shifted_of_append {ns name ns' name' rest : List Char} (hns : ns' = ns ++ rest)
    (h : ['-', '-'] ++ name = rest ++ (['-', '-'] ++ name')) :
    rest = [] ∨ (rest = ['-'] ∧ name = '-' :: name') ∨
      ∃ mid, rest = ['-', '-'] ++ mid ∧ name = mid ++ (['-', '-'] ++ name') := by
  cases rest with
  | nil => exact .inl rfl
  | cons a rest =>
    right
    cases rest with
    | nil =>
      left
      simp only [List.cons_append, List.nil_append, List.cons.injEq] at h
      obtain ⟨rfl, -, rfl⟩ := h
      exact ⟨rfl, rfl⟩
    | cons b mid =>
      right
      simp only [List.cons_append, List.nil_append, List.cons.injEq] at h
      obtain ⟨rfl, rfl, rfl⟩ := h
      exact ⟨mid, rfl, rfl⟩

theorem provisionedName_eq_iff {ns name ns' name' : String} :
    provisionedName ns name = provisionedName ns' name' ↔
      (ns = ns' ∧ name = name') ∨ Shifted ns name ns' name' ∨ Shifted ns' name' ns name := by
  have hlists : provisionedName ns name = provisionedName ns' name' ↔
      ns.toList ++ (['-', '-'] ++ name.toList) = ns'.toList ++ (['-', '-'] ++ name'.toList) := by
    unfold provisionedName
    rw [← String.toList_inj]
    simp
  have hshift : ∀ {ns name ns' name' : String} {rest : List Char}, ns'.toList = ns.toList ++ rest →
      ['-', '-'] ++ name.toList = rest ++ (['-', '-'] ++ name'.toList) →
      (ns = ns' ∧ name = name') ∨ Shifted ns name ns' name' := by
    intro ns name ns' name' rest hns h
    rcases shifted_of_append hns h with rfl | ⟨rfl, hname⟩ | ⟨mid, rfl, hname⟩
    · left
      rw [← String.toList_inj, ← String.toList_inj]
      exact ⟨by simpa using hns.symm, by simpa using h⟩
    · right
      left
      rw [← String.toList_inj, ← String.toList_inj]
      exact ⟨by simpa using hns, by simpa using hname⟩
    · right
      right
      refine ⟨String.ofList mid, ?_⟩
      rw [← String.toList_inj, ← String.toList_inj]
      exact ⟨by simpa using hns, by simpa using hname⟩
  rw [hlists]
  constructor
  · intro h
    rcases List.append_eq_append_iff.1 h with ⟨rest, hns, hrest⟩ | ⟨rest, hns, hrest⟩
    · exact (hshift hns hrest).imp_right Or.inl
    · exact (hshift hns hrest).imp (fun hsame => ⟨hsame.1.symm, hsame.2.symm⟩) Or.inr
  · rintro (⟨rfl, rfl⟩ | (⟨rfl, rfl⟩ | ⟨mid, rfl, rfl⟩) | (⟨rfl, rfl⟩ | ⟨mid, rfl, rfl⟩)) <;> simp

theorem Shifted.startsWith {ns name ns' name' : String} (h : Shifted ns name ns' name') :
    startsWith ns' (ns ++ "-") = true := by
  rcases h with ⟨rfl, -⟩ | ⟨mid, rfl, -⟩ <;> simp [Rust.startsWith]

theorem preparePv_eq_ok {pvc : PersistentVolumeClaim} {cls uid : String} {pv : PersistentVolume}
    {backend : Backend} (h : preparePv pvc cls uid = .ok (pv, backend)) :
    pvc.spec.isSome ∧ pv.metadata.name = some (provisionedNameOf pvc) ∧
      pv.spec.bind (·.hostPath) = some (provisionedPath (provisionedNameOf pvc)) := by
  unfold preparePv at h
  split at h
  · cases h
  · rename_i hspec
    split at h
    · cases h
    · rename_i c hc
      cases hsel : select c with
      | error e => simp [hsel, Except.map] at h
      | ok b =>
        simp only [hsel, Except.map, Except.ok.injEq, Prod.mk.injEq] at h
        obtain ⟨rfl, -⟩ := h
        exact ⟨by rw [hspec]; rfl, rfl, rfl⟩

/-- The volumes of two claims have different names and different directories exactly when no part of
one namespace can be read as a part of the other name. -/
theorem volumes_separate_iff {pvc pvc' : PersistentVolumeClaim} {ns name ns' name' : String}
    (hns : pvc.metadata.inNamespace = some ns) (hname : pvc.metadata.name = some name)
    (hns' : pvc'.metadata.inNamespace = some ns') (hname' : pvc'.metadata.name = some name')
    (hne : (ns, name) ≠ (ns', name'))
    {cls cls' uid uid' : String} {pv pv' : PersistentVolume} {backend backend' : Backend}
    (hpv : preparePv pvc cls uid = .ok (pv, backend))
    (hpv' : preparePv pvc' cls' uid' = .ok (pv', backend')) :
    (pv.metadata.name ≠ pv'.metadata.name ∧
        pv.spec.bind (·.hostPath) ≠ pv'.spec.bind (·.hostPath)) ↔
      ¬ Shifted ns name ns' name' ∧ ¬ Shifted ns' name' ns name := by
  have hderived : provisionedNameOf pvc = provisionedName ns name := by
    simp [provisionedNameOf, hns, hname]
  have hderived' : provisionedNameOf pvc' = provisionedName ns' name' := by
    simp [provisionedNameOf, hns', hname']
  obtain ⟨-, hpvName, hpath⟩ := preparePv_eq_ok hpv
  obtain ⟨-, hpvName', hpath'⟩ := preparePv_eq_ok hpv'
  have hpair : ¬ (ns = ns' ∧ name = name') := fun h => hne (Prod.ext h.1 h.2)
  rw [hpvName, hpvName', hpath, hpath', hderived, hderived']
  simp only [ne_eq, Option.some.injEq, provisionedPath_inj, and_self, provisionedName_eq_iff, hpair,
    false_or, not_or]

private def claimOf (ns name : String) : PersistentVolumeClaim where
  metadata := { name := some name, inNamespace := some ns, uid := some "0" }
  spec := some { storageClassName := some "hostpath" }

private def volumeOf (ns name : String) : PersistentVolume :=
  newPv (claimOf ns name) { storageClassName := some "hostpath" } ⟨"hostpath", "z8s.io/hostpath"⟩ "1"

private theorem preparePv_claimOf (ns name : String) :
    preparePv (claimOf ns name) "hostpath" "1" = .ok (volumeOf ns name, .hostpath) := rfl

/-- Two claims of different namespaces that have volumes of their own. -/
theorem volumes_separate_team_a_team_b :
    (volumeOf "team-a" "data").metadata.name ≠ (volumeOf "team-b" "data").metadata.name ∧
      (volumeOf "team-a" "data").spec.bind (·.hostPath) ≠
        (volumeOf "team-b" "data").spec.bind (·.hostPath) := by
  have hiff := volumes_separate_iff rfl rfl rfl rfl (by decide) (preparePv_claimOf "team-a" "data")
    (preparePv_claimOf "team-b" "data")
  exact hiff.2 ⟨fun h => absurd h.startsWith (by decide), fun h => absurd h.startsWith (by decide)⟩

/-- The claim `b--c` of the namespace `a` and the claim `c` of the namespace `a--b` get one volume. -/
theorem volume_of_a_shared_with_a_b :
    preparePv (claimOf "a" "b--c") "hostpath" "1" = .ok (volumeOf "a" "b--c", .hostpath) ∧
    preparePv (claimOf "a--b" "c") "hostpath" "1" = .ok (volumeOf "a--b" "c", .hostpath) ∧
    (volumeOf "a" "b--c").metadata.name = some "pvc-a--b--c" ∧
    (volumeOf "a--b" "c").metadata.name = some "pvc-a--b--c" ∧
    (volumeOf "a" "b--c").spec.bind (·.hostPath) = some "/var/lib/z8s/pv/pvc-a--b--c" ∧
    (volumeOf "a--b" "c").spec.bind (·.hostPath) = some "/var/lib/z8s/pv/pvc-a--b--c" :=
  ⟨rfl, rfl, by decide, by decide, by decide, by decide⟩

end Z8s.Storage
