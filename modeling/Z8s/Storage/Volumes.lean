import Z8s.Netmux.NetMux
import Z8s.Types

/-!
# Volumes and claims

Model of `src/components/storage/{pv,pvc}.rs`. A binding is written into two objects: `bindClaim` is what the
handler of a claim writes after it has listed the volumes, `bindVolume` what the handler of a volume writes
after it has listed the claims. The order of a list is up to the store.
-/

namespace Z8s.Storage

open Rust Z8s.Types

variable (pv : PersistentVolume) (pvc : PersistentVolumeClaim)

def volumeName (pvc : PersistentVolumeClaim) : Option String := pvc.spec.bind (·.volumeName)

def className : Option String := pvc.spec.bind (·.storageClassName)

def claimRef (pv : PersistentVolume) : Option ObjectReference := pv.spec.bind (·.claimRef)

/-! ### Matching -/

def requestedStorage (spec : PersistentVolumeClaimSpec) : Nat :=
  ((spec.resources.bind (·.requests)).bind (·.get "storage")).elim 0 parseQuantityBytes

def storageCapacity (spec : Option PersistentVolumeSpec) : Nat :=
  ((spec.bind (·.capacity)).bind (·.get "storage")).elim 0 parseQuantityBytes

def modesCovered (pvcModes pvModes : Option (List String)) : Bool :=
  (pvcModes.getD []).isEmpty || (pvcModes.getD []).all (pvModes.getD []).contains

/-- What the search for a volume makes of one listed resource. -/
def matchPv (spec : PersistentVolumeClaimSpec) : AnyResource → Option PersistentVolume
  | .persistentVolume pv =>
    if (claimRef pv).isSome then none
    else if pv.status.bind (·.phase) == some "Bound" then none
    else if storageCapacity pv.spec < requestedStorage spec then none
    else if !modesCovered spec.accessModes (pv.spec.bind (·.accessModes)) then none
    else some pv
  | _ => none

def findMatchingPv (pvs : List ResourceTracker) : Option PersistentVolume :=
  pvc.spec.bind fun spec => pvs.findSome? fun t => matchPv spec t.resource

def tryBindPvc : Option PersistentVolumeClaim :=
  pv.spec.bind fun pvSpec => pvc.spec.bind fun pvcSpec =>
    if storageCapacity (some pvSpec) < requestedStorage pvcSpec then none
    else if !modesCovered pvcSpec.accessModes pvSpec.accessModes then none
    else pv.metadata.name.map fun pvName =>
      { pvc with
        spec := some { pvcSpec with volumeName := some pvName }
        status := some {
          phase := some "Bound"
          capacity := pvSpec.capacity
          accessModes := pvSpec.accessModes } }

/-! ### The handlers -/

/-- The two objects that the handler of a claim writes when it has listed the volumes. -/
def bindClaim (pvs : List ResourceTracker) : Option (PersistentVolume × PersistentVolumeClaim) :=
  (findMatchingPv pvc pvs).bind fun pv =>
    pv.metadata.name.bind fun pvName => pv.spec.bind fun pvSpec => pvc.spec.map fun pvcSpec =>
      ({ pv with
        spec := some { pvSpec with claimRef := some {
          kind := some "PersistentVolumeClaim"
          name := some (pvc.metadata.name.getD "")
          inNamespace := some (pvc.metadata.inNamespace.getD "default") } }
        status := some { phase := some "Bound" } },
      { pvc with
        spec := some { pvcSpec with volumeName := some pvName }
        status := some {
          phase := some "Bound"
          capacity := pvSpec.capacity
          accessModes := pvSpec.accessModes } })

/-- What the search for a claim makes of one listed resource. -/
def bindVolumeTo :
    AnyResource → Option (PersistentVolume × PersistentVolumeClaim)
  | .persistentVolumeClaim pvc =>
    if (volumeName pvc).isSome then none
    else (tryBindPvc pv pvc).map fun updatedPvc =>
      ({ pv with
        spec := pv.spec.map fun s => { s with claimRef := some {
          kind := some "PersistentVolumeClaim"
          name := pvc.metadata.name
          inNamespace := pvc.metadata.inNamespace } }
        status := some { phase := some "Bound" } },
      updatedPvc)
  | _ => none

/-- The two objects that the handler of a volume writes when it has listed the claims. -/
def bindVolume (pvcs : List ResourceTracker) : Option (PersistentVolume × PersistentVolumeClaim) :=
  pvcs.findSome? fun t => bindVolumeTo pv t.resource

def writeBinding (store : ResourceStore) (pv : PersistentVolume) (pvc : PersistentVolumeClaim) :
    ResourceStore :=
  (store.apply (.persistentVolume pv)).apply (.persistentVolumeClaim pvc)

/-- Whether the handler of a volume lists the claims at all. -/
def looksForClaim : Bool := (claimRef pv).isNone && pv.metadata.name.isSome

def onApplyPv (store : ResourceStore) (pv : PersistentVolume) (pvcs : List ResourceTracker) :
    ResourceStore :=
  if looksForClaim pv then
    match bindVolume pv pvcs with
    | some (pv, pvc) => writeBinding store pv pvc
    | none => store
  else store

/-- The volume that `PvcResource::on_delete` hands to `deprovision_pv` and removes. The stored claim has
precedence over the one that is to be deleted. -/
def volumeOfDeleted (store : ResourceStore) (pvc : PersistentVolumeClaim) (pvs : List ResourceTracker) :
    Option AnyResource :=
  let volName := match store.get (AnyResource.persistentVolumeClaim pvc).uid with
    | some t => match t.resource with
      | .persistentVolumeClaim p => volumeName p
      | _ => none
    | none => volumeName pvc
  volName.bind fun volName => (pvs.find? fun t => t.resource.name == volName).map (·.resource)

def onDeletePvc (store : ResourceStore) (pvc : PersistentVolumeClaim) (pvs : List ResourceTracker) :
    ResourceStore :=
  match volumeOfDeleted store pvc pvs with
  | some pv => store.delete pv
  | none => store

end Z8s.Storage
