import Z8s.Storage.Quantities
import Z8s.Storage.Volumes

/-!
# Volumes that suit a claim

What a claim asks of a volume, in terms of quantities: as much storage as it requests, and its access modes. The code
compares the bytes it reads from the quantities (`Storage/Volumes.lean`), which is not the same.
-/

namespace Z8s.Storage

open Collections Z8s.Types Quantities

variable (pv : PersistentVolume) (pvc : PersistentVolumeClaim)

/-- The value of the quantity under `storage`, which is 0 if there is none. A text that is no quantity has no value. -/
def storageValue (quantities : Option (BTreeMap String Quantity)) : Option ℚ :=
  match quantities.bind (·.get "storage") with
  | some q => (Amount.parse q).map Amount.value
  | none => some 0

def requestValue : Option ℚ :=
  storageValue ((pvc.spec.bind (·.resources)).bind (·.requests))

def capacityValue : Option ℚ := storageValue (pv.spec.bind (·.capacity))

/-- The capacity and the request are quantities, and the capacity is at least the request. -/
def largeEnough : Bool :=
  match requestValue pvc, capacityValue pv with
  | some request, some capacity => decide (request ≤ capacity)
  | _, _ => false

def hasModes : Bool :=
  modesCovered (pvc.spec.bind (·.accessModes)) (pv.spec.bind (·.accessModes))

def Suits : Prop :=
  largeEnough pv pvc = true ∧
    ∀ mode ∈ (pvc.spec.bind (·.accessModes)).getD [], mode ∈ (pv.spec.bind (·.accessModes)).getD []

def asVolume : AnyResource → Option PersistentVolume
  | .persistentVolume pv => some pv
  | _ => none

def listedVolumes (pvs : List ResourceTracker) : List PersistentVolume := pvs.filterMap fun t => asVolume t.resource

def isAvailable : Bool :=
  (claimRef pv).isNone && pv.status.bind (·.phase) == some "Available"

/-- Volumes that are found or accepted satisfy the claim, and if none is found no available one does. -/
def MatchesWell (pvs : List ResourceTracker) : Prop :=
  (∀ pv, findMatchingPv pvc pvs = some pv → Suits pv pvc) ∧
    (∀ pv ∈ listedVolumes pvs, (tryBindPvc pv pvc).isSome = true → Suits pv pvc) ∧
    (findMatchingPv pvc pvs = none → ∀ pv ∈ listedVolumes pvs, isAvailable pv = true → ¬ Suits pv pvc)

/-! ### What the code compares -/

/-- The bytes read from the capacity are at least those read from the request. -/
def ratedEnough : Bool :=
  pvc.spec.elim 0 requestedStorage ≤ storageCapacity pv.spec

def isOpen : Bool :=
  (claimRef pv).isNone && pv.status.bind (·.phase) != some "Bound"

def isTaken (pv : PersistentVolume) : Bool :=
  isOpen pv && ratedEnough pv pvc && hasModes pv pvc

/-- The bytes that are read compare as the quantities do, for the volumes that are found or accepted, and if all open
ones are refused for the available ones. A claim without a spec gets no volume. -/
def WellRated (pvs : List ResourceTracker) : Prop :=
  if pvc.spec.isNone then
    ∀ pv ∈ listedVolumes pvs, isAvailable pv = true → largeEnough pv pvc = false
  else
    (∀ pv ∈ (listedVolumes pvs).find? (isTaken pvc), largeEnough pv pvc = true) ∧
    (∀ pv ∈ listedVolumes pvs, pv.spec.isSome = true → pv.metadata.name.isSome = true → hasModes pv pvc = true →
      ratedEnough pv pvc = true → largeEnough pv pvc = true) ∧
    ((∀ pv ∈ listedVolumes pvs, isOpen pv = true → hasModes pv pvc = true → ratedEnough pv pvc = false) →
      ∀ pv ∈ listedVolumes pvs, isAvailable pv = true → hasModes pv pvc = true → largeEnough pv pvc = false)

end Z8s.Storage
