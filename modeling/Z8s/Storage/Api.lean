import Z8s.Storage.Provision

/-!
# Requests for volumes and claims

Model of `src/api/handlers/{pv,pvc}.rs`: the requests that change volumes and claims, each from its beginning to its
end. The lists that a request gets from the store, the uids that it makes up and the answer of a
backend are part of the request; time stamps are left out.
-/

namespace Z8s.Storage

open Z8s.Types Netmux

def onApplyPvc (store : ResourceStore) (pvc : PersistentVolumeClaim) (pvs : List ResourceTracker)
    (pvUid : String) (backend : Except Error Unit) : ResourceStore :=
  if (volumeName pvc).isSome then store
  else if (className pvc).isSome then (provisionForPvc store pvc pvUid backend).2
  else match bindClaim pvc pvs with
    | some (pv, pvc) => writeBinding store pv pvc
    | none => store

inductive VolumeRequest
  | createPv (pv : PersistentVolume) (uid : String) (pvcs : List ResourceTracker)
  | createPvc (inNamespace : String) (pvc : PersistentVolumeClaim) (uid : String)
      (pvs : List ResourceTracker) (pvUid : String) (backend : Except Error Unit)
  | deletePv (name : String) (pvs : List ResourceTracker)
  | deletePvc (inNamespace name : String) (pvcs pvs : List ResourceTracker)

def postedPv (pv : PersistentVolume) (uid : String) : PersistentVolume :=
  { pv with metadata := { pv.metadata with uid := pv.metadata.uid.or (some uid) } }

def postedPvc (inNamespace : String) (pvc : PersistentVolumeClaim) (uid : String) :
    PersistentVolumeClaim :=
  { pvc with metadata := { pvc.metadata with
    inNamespace := pvc.metadata.inNamespace.or (some inNamespace)
    uid := pvc.metadata.uid.or (some uid) } }

/-- The store after a request; none when a list is not one that the store could have given. -/
def VolumeRequest.step (store : ResourceStore) : VolumeRequest → Option ResourceStore
  | .createPv pv uid pvcs =>
    let store := store.apply (.persistentVolume (postedPv pv uid))
    if pvcs.Perm (store.getByKind "PersistentVolumeClaim") then
      some (onApplyPv store (postedPv pv uid) pvcs)
    else none
  | .createPvc inNamespace pvc uid pvs pvUid backend =>
    let store := store.apply (.persistentVolumeClaim (postedPvc inNamespace pvc uid))
    if pvs.Perm (store.getByKind "PersistentVolume") then
      some (onApplyPvc store (postedPvc inNamespace pvc uid) pvs pvUid backend)
    else none
  | .deletePv name pvs =>
    if pvs.Perm (store.getByKind "PersistentVolume") then
      match pvs.find? fun t => t.resource.name == name with
      | some t => some (store.delete t.resource)
      | none => some store
    else none
  | .deletePvc inNamespace name pvcs pvs =>
    if pvcs.Perm (store.getByKind "PersistentVolumeClaim") ∧
        pvs.Perm (store.getByKind "PersistentVolume") then
      match pvcs.find? fun t => t.resource.namespaceOf == inNamespace && t.resource.name == name with
      | some t => match t.resource with
        | .persistentVolumeClaim pvc => some ((onDeletePvc store pvc pvs).delete t.resource)
        | _ => some store
      | none => some store
    else none

end Z8s.Storage
