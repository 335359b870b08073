import Z8s.Pods.System

/-!
# What the stop of a pod affects

`stop_pod_from_spec` finds the containers of a pod by ids that `build_spec` makes from the names of the pod
and of its containers. The entries of the running map and the restart counts are told apart by the ghost
`startedFor`.
-/

namespace Z8s.Pods

open Rust Collections Z8s.Types Netmux Cri

/-- The entries that the stop takes out of the map. They are the containers that it detaches, and whose
process groups it kills. -/
def stoppedEntries : List ContainerConfig → HashMap String RunningContainer → List RunningContainer
  | [], _ => []
  | cfg :: todo, running =>
    (running.get cfg.containerId).toList ++ stoppedEntries todo (running.remove cfg.containerId)

/-- What belongs to other pods is the same before and after. -/
structure OthersKept (uid : String) (sup sup' : Supervisor) : Prop where
  running : ∀ cid rc, rc.startedFor ≠ uid →
    (sup'.running.get cid = some rc ↔ sup.running.get cid = some rc)
  restartCounts : ∀ cid c, c.startedFor ≠ uid →
    (sup'.restartCounts.get cid = some c ↔ sup.restartCounts.get cid = some c)
  addresses : ∀ rc ∈ sup.running.values, rc.startedFor ≠ uid → ∀ ip ∈ rc.inst.podIp,
    ∀ pool, ip ∈ sup'.netmux.freeOf pool ↔ ip ∈ sup.netmux.freeOf pool

/-- Stopping the pod affects only containers that were started for it, in whichever orders the subnet pools
are gone through. -/
def StopsOnlyOwn (sup : Supervisor) (pod : Pod) : Prop :=
  ∀ order : Nat → List String, (∀ n, (order n).Perm sup.netmux.subnetPools.keys) →
    (∀ rc ∈ stoppedEntries (buildSpec (.pod pod)).containers sup.running,
      rc.startedFor = (AnyResource.pod pod).uid) ∧
    OthersKept (AnyResource.pod pod).uid sup (stopPodFromSpec sup (buildSpec (.pod pod)) order)

/-- The address is given back when the container is stopped. -/
def Detaches (rc : RunningContainer) (ip : Ipv4Addr) : Prop :=
  rc.inst.podIp = some ip ∧ rc.inst.hostVethIfindex.isSome = true

/-- The pools that an address may be given back to. -/
def Reaches (nm : NetMux) (ip : Ipv4Addr) : Option String → Prop
  | none => True
  | some n => (nm.subnetPools.get n).any (·.cidr.contains ip) = true

/-- The ids of the pod lead only to its own containers and counts, and an address of one of them that another
pod has too is free already where it is given back. -/
structure IdsOwn (sup : Supervisor) (pod : Pod) : Prop where
  running : ∀ cid ∈ (buildSpec (.pod pod)).ids, ∀ rc ∈ sup.running.get cid,
    rc.startedFor = (AnyResource.pod pod).uid
  restartCounts : ∀ cid ∈ (buildSpec (.pod pod)).ids, ∀ c ∈ sup.restartCounts.get cid,
    c.startedFor = (AnyResource.pod pod).uid
  addresses : ∀ cid ∈ (buildSpec (.pod pod)).ids, ∀ rc ∈ sup.running.get cid, ∀ ip, Detaches rc ip →
    ∀ other ∈ sup.running.values, other.startedFor ≠ (AnyResource.pod pod).uid →
      other.inst.podIp = some ip → ∀ pool, Reaches sup.netmux ip pool → ip ∈ sup.netmux.freeOf pool

end Z8s.Pods
