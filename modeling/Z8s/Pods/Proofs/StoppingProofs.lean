import Z8s.Cri.Proofs.RuntimeProofs
import Z8s.Netmux.Proofs.NetMuxProofs
import Z8s.Pods.Stopping

/-!
# Proofs: what the stop of a pod affects

The loop removes the entries and the counts under the ids of the pod (`running_stopContainers`,
`restartCounts_stopContainers`) and gives the addresses of these entries back (`netmux_stopOne`); so it
affects only the pod itself exactly when the ids are its own.
-/

namespace Z8s.Pods

open Rust Collections Z8s.Types Netmux Cri ContainerConfig HashMap

variable {order : Nat → List String} {sup : Supervisor}
variable {todo : List ContainerConfig} {ip : Ipv4Addr} {pool : Option String}
variable {rc : RunningContainer} {a : Ipv4Addr} {nm : NetMux}

/-! ### The loop -/

theorem running_stopOne (sup : Supervisor) (cid : String) (order : List String) :
    (stopOne sup cid order).running = sup.running.remove cid :=
  congrArg (remove · cid) (running_detachContainer sup cid order)

theorem restartCounts_stopOne (sup : Supervisor) (cid : String) (order : List String) :
    (stopOne sup cid order).restartCounts = sup.restartCounts.remove cid :=
  congrArg (remove · cid) (restartCounts_detachContainer sup cid order)

theorem running_stopContainers (n : Nat) (todo : List ContainerConfig) (sup : Supervisor) :
    (stopContainers order n todo sup).running =
      sup.running.removeAll (todo.map containerId) := by
  induction todo generalizing n sup with
  | nil => rfl
  | cons cfg todo ih =>
    rw [stopContainers, ih, running_stopOne]
    rfl

theorem restartCounts_stopContainers (n : Nat) (todo : List ContainerConfig) (sup : Supervisor) :
    (stopContainers order n todo sup).restartCounts =
      sup.restartCounts.removeAll (todo.map containerId) := by
  induction todo generalizing n sup with
  | nil => rfl
  | cons cfg todo ih =>
    rw [stopContainers, ih, restartCounts_stopOne]
    rfl

theorem exists_id_of_mem_stoppedEntries {running : HashMap String RunningContainer}
    (h : rc ∈ stoppedEntries todo running) :
    ∃ cid ∈ todo.map containerId, running.get cid = some rc := by
  induction todo generalizing running with
  | nil => cases h
  | cons cfg todo ih =>
    rcases List.mem_append.1 h with h | h
    · exact ⟨cfg.containerId, List.mem_cons_self, Option.mem_toList.1 h⟩
    · obtain ⟨cid, hcid, hget⟩ := ih h
      rw [get_remove] at hget
      split_ifs at hget
      exact ⟨cid, List.mem_cons_of_mem _ hcid, hget⟩

/-! ### Addresses -/

theorem netmux_stopOne (sup : Supervisor) (cid : String) (order : List String) :
    (∃ rc ip, sup.running.get cid = some rc ∧ Detaches rc ip ∧
      (stopOne sup cid order).netmux = sup.netmux.releaseIp ip order) ∨
    ((∀ rc ip, sup.running.get cid = some rc → ¬ Detaches rc ip) ∧
      (stopOne sup cid order).netmux = sup.netmux) := by
  have hnetmux : (stopOne sup cid order).netmux = (detachContainer sup cid order).netmux := rfl
  rw [hnetmux]
  rcases detachContainer_cases sup cid order with ⟨rc, ip, hget, hip, hidx, heq⟩ | ⟨hnone, heq⟩
  · exact .inl ⟨rc, ip, hget, ⟨hip, hidx⟩, by rw [heq]⟩
  · refine .inr ⟨fun rc ip hget hdetaches => ?_, by rw [heq]⟩
    exact absurd hdetaches.2 (by rw [hnone rc ip hget hdetaches.1]; exact Bool.false_ne_true)

theorem reaches_releaseIp {order : List String} :
    Reaches (nm.releaseIp a order) ip pool ↔ Reaches nm ip pool := by
  cases pool with
  | none => exact Iff.rfl
  | some n => rw [Reaches, Reaches, NetMux.contains_releaseIp]

theorem mem_freeOf_releaseIp {order : List String}
    (h : a = ip → ∀ pool, Reaches nm ip pool → ip ∈ nm.freeOf pool) (pool : Option String) :
    ip ∈ (nm.releaseIp a order).freeOf pool ↔ ip ∈ nm.freeOf pool := by
  rw [NetMux.freeOf_releaseIp]
  split_ifs with hpool
  · rw [Finset.mem_insert, or_iff_right_iff_imp]
    intro heq
    refine h heq.symm pool ?_
    rcases hpool with rfl | ⟨hsubnet, hsome⟩
    · trivial
    · obtain ⟨n, rfl⟩ := Option.isSome_iff_exists.1 hsome
      rw [← heq] at hsubnet
      exact (List.find?_some hsubnet.symm :)
  · exact Iff.rfl

theorem mem_freeOf_stopContainers (n : Nat)
    (h : ∀ cid ∈ todo.map containerId, ∀ rc, sup.running.get cid = some rc → Detaches rc ip →
      ∀ pool, Reaches sup.netmux ip pool → ip ∈ sup.netmux.freeOf pool)
    (pool : Option String) :
    ip ∈ (stopContainers order n todo sup).netmux.freeOf pool ↔ ip ∈ sup.netmux.freeOf pool := by
  induction todo generalizing n sup with
  | nil => exact Iff.rfl
  | cons cfg todo ih =>
    -- the conditions for the rest of the loop
    have hrest : ∀ cid ∈ todo.map containerId, ∀ rc,
        (stopOne sup cfg.containerId (order n)).running.get cid = some rc → Detaches rc ip →
          ∀ pool, Reaches sup.netmux ip pool → ip ∈ sup.netmux.freeOf pool := by
      intro cid hcid rc hget
      rw [running_stopOne, get_remove] at hget
      split_ifs at hget
      exact h cid (List.mem_cons_of_mem _ hcid) rc hget
    rw [stopContainers]
    rcases netmux_stopOne sup cfg.containerId (order n) with ⟨rc, a, hget, hdetaches, hnm⟩ | ⟨-, hnm⟩
    · have hfree (pool : Option String) :
          ip ∈ (sup.netmux.releaseIp a (order n)).freeOf pool ↔ ip ∈ sup.netmux.freeOf pool := by
        refine mem_freeOf_releaseIp (fun heq => ?_) pool
        exact h cfg.containerId List.mem_cons_self rc hget (heq ▸ hdetaches)
      rw [ih (n + 1), hnm, hfree]
      intro cid hcid rc' hget' hdetaches' pool hreaches
      rw [hnm] at hreaches ⊢
      rw [hfree]
      exact hrest cid hcid rc' hget' hdetaches' pool (reaches_releaseIp.1 hreaches)
    · rw [ih (n + 1), hnm]
      intro cid hcid rc' hget' hdetaches' pool hreaches
      rw [hnm] at hreaches ⊢
      exact hrest cid hcid rc' hget' hdetaches' pool hreaches

theorem freeOf_subset_stopContainers (n : Nat) (todo : List ContainerConfig) (sup : Supervisor)
    (pool : Option String) :
    sup.netmux.freeOf pool ⊆ (stopContainers order n todo sup).netmux.freeOf pool := by
  induction todo generalizing n sup with
  | nil => exact Finset.Subset.refl _
  | cons cfg todo ih =>
    refine Finset.Subset.trans ?_ (ih (n + 1) (stopOne sup cfg.containerId (order n)))
    rcases netmux_stopOne sup cfg.containerId (order n) with ⟨rc, ip, -, -, hnm⟩ | ⟨-, hnm⟩
    · rw [hnm]
      exact NetMux.freeOf_subset_releaseIp _ _ _ _
    · rw [hnm]

theorem mem_freeOf_of_detaches {cid : String} (n : Nat) (hcid : cid ∈ todo.map containerId)
    (hget : sup.running.get cid = some rc) (hdetaches : Detaches rc ip)
    (hpool : ∀ n, pool = none ∨ (pool = sup.netmux.subnetOf ip (order n) ∧ pool.isSome = true)) :
    ip ∈ (stopContainers order n todo sup).netmux.freeOf pool := by
  induction todo generalizing n sup with
  | nil => cases hcid
  | cons cfg todo ih =>
    rw [stopContainers]
    by_cases hfirst : cid = cfg.containerId
    · -- the container is detached now
      refine freeOf_subset_stopContainers _ _ _ _ ?_
      rcases netmux_stopOne sup cfg.containerId (order n) with ⟨rc', ip', hget', hdetaches', hnm⟩ | ⟨hnot, -⟩
      · rw [← hfirst, hget] at hget'
        cases hget'
        obtain rfl := Option.some.inj (hdetaches.1.symm.trans hdetaches'.1)
        rw [hnm, NetMux.freeOf_releaseIp, if_pos (hpool n)]
        exact Finset.mem_insert_self _ _
      · exact absurd hdetaches (hnot rc ip (hfirst ▸ hget))
    · rw [List.map_cons, List.mem_cons, or_iff_right hfirst] at hcid
      refine ih (n + 1) hcid ?_ ?_
      · rw [running_stopOne, get_remove, if_neg hfirst, hget]
      · intro m
        rcases netmux_stopOne sup cfg.containerId (order n) with ⟨rc', ip', -, -, hnm⟩ | ⟨-, hnm⟩
        · rw [hnm, NetMux.subnetOf_releaseIp]
          exact hpool m
        · rw [hnm]
          exact hpool m

/-! ### The whole stop -/

variable {pod : Pod}

theorem stopsOnlyOwn_of_idsOwn (h : IdsOwn sup pod) : StopsOnlyOwn sup pod := by
  intro order _
  constructor
  · intro rc hrc
    obtain ⟨cid, hcid, hget⟩ := exists_id_of_mem_stoppedEntries hrc
    exact h.running cid hcid rc hget
  · constructor
    · intro cid rc hother
      rw [stopPodFromSpec, running_stopContainers, get_removeAll]
      split_ifs with hcid
      · exact iff_of_false (fun hnone => by cases hnone) fun hget => hother (h.running cid hcid rc hget)
      · exact Iff.rfl
    · intro cid c hother
      rw [stopPodFromSpec, restartCounts_stopContainers, get_removeAll]
      split_ifs with hcid
      · exact iff_of_false (fun hnone => by cases hnone) fun hget => hother (h.restartCounts cid hcid c hget)
      · exact Iff.rfl
    · intro other hmem hother ip hip pool
      refine mem_freeOf_stopContainers 0 (fun cid hcid rc hget hdetaches => ?_) pool
      exact h.addresses cid hcid rc hget ip hdetaches other hmem hother hip

theorem exists_order (nm : NetMux) (h : Reaches nm ip pool) :
    ∃ order : List String, order.Perm nm.subnetPools.keys ∧
      (pool = none ∨ (pool = nm.subnetOf ip order ∧ pool.isSome = true)) := by
  cases pool with
  | none => exact ⟨_, .refl _, .inl rfl⟩
  | some n =>
    obtain ⟨p, hget, -⟩ := (Option.any_eq_true _ _).1 h
    have hmem : n ∈ nm.subnetPools.keys := mem_keys.2 ⟨p, hget⟩
    refine ⟨n :: nm.subnetPools.keys.erase n, (List.perm_cons_erase hmem).symm, .inr ⟨?_, rfl⟩⟩
    rw [NetMux.subnetOf, List.find?_cons_of_pos]
    exact h

theorem idsOwn_of_stopsOnlyOwn (h : StopsOnlyOwn sup pod) : IdsOwn sup pod := by
  have hkept := (h (fun _ => sup.netmux.subnetPools.keys) fun _ => .refl _).2
  constructor
  · intro cid hcid rc hget
    by_contra hother
    have hgone := (hkept.running cid rc hother).2 hget
    rw [stopPodFromSpec, running_stopContainers, ← ContainerSpec.ids, get_removeAll,
      if_pos hcid] at hgone
    cases hgone
  · intro cid hcid c hget
    by_contra hother
    have hgone := (hkept.restartCounts cid c hother).2 hget
    rw [stopPodFromSpec, restartCounts_stopContainers, ← ContainerSpec.ids, get_removeAll,
      if_pos hcid] at hgone
    cases hgone
  · intro cid hcid rc hget ip hdetaches other hmem hother hip pool hreaches
    obtain ⟨order, hperm, hpool⟩ := exists_order sup.netmux hreaches
    have haddresses := (h (fun _ => order) fun _ => hperm).2.addresses other hmem hother ip hip pool
    exact haddresses.1 (mem_freeOf_of_detaches 0 hcid hget hdetaches fun _ => hpool)

private def webOf (ns : String) : Pod where
  metadata := { name := some "web", inNamespace := some ns }
  spec := some {
    containers := [{ name := "app", image := some "nginx", ports := some [{ containerPort := 80 }] }] }

private def idleSupervisor : Supervisor where
  running := ∅
  restartCounts := ∅
  netmux := ⟨IpPool.new ⟨Ipv4Addr.new 10 42 0 0, 29⟩, ∅, 29, Ipv4Addr.new 10 42 0 1⟩

private def spawned : ContainerEnv := ⟨.ok "/rootfs", ⟨true, .ok 100, .ok true, .ok (), .attached 4 5, []⟩⟩

private def started : Supervisor :=
  (startPodFromSpec idleSupervisor (buildSpec (.pod (webOf "default"))) (.ok ()) fun _ => spawned).2

end Z8s.Pods
