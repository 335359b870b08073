import Z8s.Storage.Matching
import Z8s.Storage.Proofs.QuantitiesProofs

/-!
# Volumes found and accepted for a claim

The search and the check compare bytes that are read from quantities.
-/

namespace Z8s.Storage

open Collections Z8s.Types

variable {pvc : PersistentVolumeClaim} {pvs : List ResourceTracker} {pv : PersistentVolume}
variable {spec : PersistentVolumeClaimSpec}

/-! ### The search and the check -/

theorem hasModes_iff : hasModes pv pvc = true ↔
    ∀ mode ∈ (pvc.spec.bind (·.accessModes)).getD [], mode ∈ (pv.spec.bind (·.accessModes)).getD [] := by
  simp only [hasModes, modesCovered, Bool.or_eq_true, List.isEmpty_iff, List.all_eq_true, List.contains_iff_mem]
  refine or_iff_right_of_imp fun hnil => ?_
  simp [hnil]

theorem suits_iff : Suits pv pvc ↔ largeEnough pv pvc = true ∧ hasModes pv pvc = true := by
  rw [Suits, hasModes_iff]

theorem isTaken_iff : isTaken pvc pv = true ↔
    isOpen pv = true ∧ ratedEnough pv pvc = true ∧ hasModes pv pvc = true := by
  simp [isTaken, and_assoc]

theorem isOpen_iff : isOpen pv = true ↔ claimRef pv = none ∧ pv.status.bind (·.phase) ≠ some "Bound" := by
  simp [isOpen]

theorem ratedEnough_iff (hspec : pvc.spec = some spec) :
    ratedEnough pv pvc = true ↔ requestedStorage spec ≤ storageCapacity pv.spec := by
  simp [ratedEnough, hspec]

theorem matchPv_eq (hspec : pvc.spec = some spec) (r : AnyResource) :
    matchPv spec r = (asVolume r).bind fun pv => if isTaken pvc pv then some pv else none := by
  cases r with
  | persistentVolume pv =>
    have hmodes : hasModes pv pvc = modesCovered spec.accessModes (pv.spec.bind (·.accessModes)) := by
      rw [hasModes, hspec, Option.bind_some]
    have htaken : isTaken pvc pv = true ↔ isOpen pv = true ∧ ratedEnough pv pvc = true ∧ hasModes pv pvc = true :=
      isTaken_iff
    rw [isOpen_iff, ratedEnough_iff hspec, hmodes] at htaken
    rw [asVolume, Option.bind_some, matchPv]
    by_cases hpos : isTaken pvc pv = true
    · obtain ⟨⟨hclaim, hphase⟩, hrated, hmodes⟩ := htaken.1 hpos
      rw [if_pos hpos, if_neg (by simp [hclaim]), if_neg (by simpa using hphase), if_neg (Nat.not_lt.2 hrated),
        if_neg (by simp [hmodes])]
    · rw [if_neg hpos]
      split_ifs with hclaim hphase hrated hmodes
      · rfl
      · rfl
      · rfl
      · rfl
      · refine absurd (htaken.2 ⟨⟨?_, ?_⟩, Nat.not_lt.1 hrated, by simpa using hmodes⟩) hpos
        · exact Option.not_isSome_iff_eq_none.1 hclaim
        · simpa using hphase
  | _ => rfl

theorem findMatchingPv_eq_find (hspec : pvc.spec.isSome = true) (pvs : List ResourceTracker) :
    findMatchingPv pvc pvs = (listedVolumes pvs).find? (isTaken pvc) := by
  obtain ⟨spec, hspec⟩ := Option.isSome_iff_exists.1 hspec
  rw [findMatchingPv, hspec, Option.bind_some]
  induction pvs with
  | nil => rfl
  | cons t pvs ih =>
    rw [List.findSome?_cons, matchPv_eq hspec, listedVolumes, List.filterMap_cons]
    cases asVolume t.resource with
    | none => exact ih
    | some pv =>
      rw [Option.bind_some, List.find?_cons]
      by_cases htaken : isTaken pvc pv = true
      · rw [if_pos htaken, htaken]
      · rw [if_neg htaken, Bool.eq_false_iff.2 htaken]
        exact ih

theorem isSome_tryBindPvc : (tryBindPvc pv pvc).isSome = true ↔ pvc.spec.isSome = true ∧ pv.spec.isSome = true ∧
    pv.metadata.name.isSome = true ∧ hasModes pv pvc = true ∧ ratedEnough pv pvc = true := by
  cases hpvc : pvc.spec with
  | none => cases hpv : pv.spec <;> simp [tryBindPvc, hpvc, hpv]
  | some pvcSpec =>
    cases hpv : pv.spec with
    | none => simp [tryBindPvc, hpv]
    | some pvSpec =>
      by_cases hsize : storageCapacity (some pvSpec) < requestedStorage pvcSpec
      · simp [tryBindPvc, hpvc, hpv, ratedEnough, hsize]
      by_cases hmodes : modesCovered pvcSpec.accessModes pvSpec.accessModes = true
      · simp [tryBindPvc, hpvc, hpv, ratedEnough, hasModes, hsize, hmodes, Nat.not_lt.1 hsize]
      · simp [tryBindPvc, hpvc, hpv, hasModes, hsize, hmodes]

theorem find_isTaken_eq_none : (listedVolumes pvs).find? (isTaken pvc) = none ↔
    ∀ pv ∈ listedVolumes pvs, isOpen pv = true → hasModes pv pvc = true → ratedEnough pv pvc = false := by
  rw [List.find?_eq_none]
  refine forall₂_congr fun pv _ => ?_
  rw [isTaken_iff]
  constructor
  · intro h hopen hmodes
    exact Bool.eq_false_iff.2 fun hrated => h ⟨hopen, hrated, hmodes⟩
  · rintro h ⟨hopen, hrated, hmodes⟩
    rw [h hopen hmodes] at hrated
    cases hrated

theorem matchesWell_of_spec (hspec : pvc.spec.isSome = true) : MatchesWell pvc pvs ↔
    (∀ pv ∈ (listedVolumes pvs).find? (isTaken pvc), largeEnough pv pvc = true) ∧
    (∀ pv ∈ listedVolumes pvs, pv.spec.isSome = true → pv.metadata.name.isSome = true → hasModes pv pvc = true →
      ratedEnough pv pvc = true → largeEnough pv pvc = true) ∧
    ((∀ pv ∈ listedVolumes pvs, isOpen pv = true → hasModes pv pvc = true → ratedEnough pv pvc = false) →
      ∀ pv ∈ listedVolumes pvs, isAvailable pv = true → hasModes pv pvc = true → largeEnough pv pvc = false) := by
  unfold MatchesWell
  simp only [suits_iff]
  rw [findMatchingPv_eq_find hspec]
  refine and_congr ?_ (and_congr ?_ ?_)
  · refine forall₂_congr fun pv hpv => and_iff_left ?_
    exact (isTaken_iff.1 (List.find?_some hpv)).2.2
  · refine forall₂_congr fun pv _ => ?_
    rw [isSome_tryBindPvc]
    constructor
    · intro h hpv hname hmodes hrated
      exact (h ⟨hspec, hpv, hname, hmodes, hrated⟩).1
    · rintro h ⟨-, hpv, hname, hmodes, hrated⟩
      exact ⟨h hpv hname hmodes hrated, hmodes⟩
  · rw [find_isTaken_eq_none]
    refine imp_congr_right fun _ => forall₃_congr fun pv _ _ => ?_
    rw [not_and, imp_not_comm, Bool.not_eq_true]

theorem matchesWell_of_no_spec (hspec : pvc.spec = none) : MatchesWell pvc pvs ↔
    ∀ pv ∈ listedVolumes pvs, isAvailable pv = true → largeEnough pv pvc = false := by
  have hfind : findMatchingPv pvc pvs = none := by rw [findMatchingPv, hspec, Option.bind_none]
  have hmodes : ∀ pv, hasModes pv pvc = true := fun pv => hasModes_iff.2 (by simp [hspec])
  unfold MatchesWell
  simp only [suits_iff]
  simp [hfind, isSome_tryBindPvc, hspec, hmodes]

def gibiAndHalfClaim : PersistentVolumeClaim where
  metadata := { name := some "data" }
  spec := some { resources := some { requests := some (BTreeMap.ofList [("storage", "1.5Gi")]) } }

def mebiVolume : PersistentVolume where
  metadata := { name := some "small" }
  spec := some { capacity := some (BTreeMap.ofList [("storage", "1Mi")]) }
  status := some { phase := some "Available" }

end Z8s.Storage
