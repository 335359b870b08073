import Z8s.Collections.Proofs.BTreeMapProofs
import Z8s.Network.Safety
import Z8s.Pods.Proofs.LookupProofs

/-!
# Proofs: the backends of a Service

Pods are selected by namespace and labels, but their addresses are looked up by the prefix of a
container id, which has no namespace.
-/

namespace Z8s.Network

open Rust Collections Z8s.Types Netmux Cri Scheduler Pods Transition

variable {store : ResourceStore} {running : HashMap String RunningContainer}
variable {rc : RunningContainer} {svc : Service} {b : Ipv4Addr × U16} {ip : Ipv4Addr} {cid podName : String}
  {pod : Pod}

/-! ### Lookups -/

theorem exists_of_podIp (h : podIp running podName = some ip) :
    ∃ cid rc, running.get cid = some rc ∧ startsWith cid (podName ++ "-") = true ∧
      rc.inst.podIp = some ip := by
  obtain ⟨⟨cid, rc⟩, hmem, hsome⟩ := List.exists_of_findSome?_eq_some h
  simp only at hsome
  split at hsome
  · exact ⟨cid, rc, HashMap.mem_iter.1 hmem, ‹_›, hsome⟩
  · cases hsome

theorem exists_order (h : running.get cid = some rc) :
    ∃ running' : HashMap String RunningContainer, running'.entries.Perm running.entries ∧
      ∃ rest, running'.iter = (cid, rc) :: rest := by
  have hmem : (⟨cid, rc⟩ : Sigma fun _ : String => RunningContainer) ∈ running.entries :=
    AList.mem_lookup_iff.1 h
  obtain ⟨before, after, hentries⟩ := List.append_of_mem hmem
  have hperm : (⟨cid, rc⟩ :: (before ++ after)).Perm running.entries := by
    rw [hentries]
    exact List.perm_middle.symm
  refine ⟨⟨⟨cid, rc⟩ :: (before ++ after), ?_⟩, hperm, _, rfl⟩
  exact (List.perm_nodupKeys hperm).2 running.nodupKeys

theorem podIp_of_first {rest : List (String × RunningContainer)} (hiter : running.iter = (cid, rc) :: rest)
    (hstarts : startsWith cid (podName ++ "-") = true) (hip : rc.inst.podIp = some ip) :
    podIp running podName = some ip := by
  simp [podIp, hiter, hstarts, hip]

theorem get_of_perm {running' : HashMap String RunningContainer}
    (hperm : running'.entries.Perm running.entries) (cid : String) : running'.get cid = running.get cid :=
  AList.perm_lookup hperm

/-! ### Resolution -/

theorem selected_iff :
    Selected svc pod ↔ (pod.metadata.inNamespace.getD "default" != svcNamespace svc) = false ∧
      (!(selectorOf svc).iter.all fun e => (pod.metadata.labels.getD ∅).get e.1 == some e.2) = false := by
  simp [Selected, podNamespace, podLabels]

theorem mem_resolveBackendPods {pods : List ResourceTracker} {port : U16} :
    b ∈ resolveBackendPods { pods, running := fun _ => running } (selectorOf svc) (svcNamespace svc) port ↔
      ∃ t ∈ pods, ∃ pod, t.resource = .pod pod ∧ Selected svc pod ∧
        podIp running (pod.metadata.name.getD "") = some b.1 ∧ b.2 = port := by
  rw [resolveBackendPods, List.mem_filterMap]
  constructor
  · rintro ⟨⟨t, i⟩, hmem, hsome⟩
    have ht : t ∈ pods := List.fst_mem_of_mem_zipIdx hmem
    simp only at hsome
    split at hsome
    · rename_i pod hpod
      split at hsome
      · cases hsome
      · split at hsome
        · cases hsome
        · rename_i hns hlabels
          obtain ⟨ip, hip, rfl⟩ := Option.map_eq_some_iff.1 hsome
          exact ⟨t, ht, pod, hpod, selected_iff.2 ⟨by simpa using hns, by simpa using hlabels⟩, hip, rfl⟩
    · cases hsome
  · rintro ⟨t, ht, pod, hpod, hselected, hip, rfl⟩
    obtain ⟨i, hi⟩ := List.mem_iff_getElem?.1 ht
    obtain ⟨hns, hlabels⟩ := selected_iff.1 hselected
    refine ⟨(t, i), List.mem_zipIdx_iff_getElem?.2 hi, ?_⟩
    simp only [hpod, hns, hlabels, hip, Option.map_some]
    rfl

theorem holds_pod_iff : store.Holds (.pod pod) ↔ ∃ t ∈ store.getByKind "Pod", t.resource = .pod pod := by
  constructor
  · rintro ⟨state, hget⟩
    have hmem : (⟨.pod pod, state⟩ : ResourceTracker) ∈ store.getByKind "Pod" :=
      ResourceStore.mem_getByKind.2 ⟨hget, by rfl⟩
    exact ⟨_, hmem, rfl⟩
  · rintro ⟨t, ht, hpod⟩
    have hget := (ResourceStore.mem_getByKind.1 ht).1
    rw [← hpod]
    exact ResourceStore.holds_of_get hget

/-- A backend is an address under an id that starts with the name of a stored pod that is selected. -/
theorem isBackend_iff :
    IsBackend store running svc b ↔ ∃ pod, store.Holds (.pod pod) ∧ Selected svc pod ∧
      ∃ cid rc, running.get cid = some rc ∧ startsWith cid (pod.metadata.name.getD "" ++ "-") = true ∧
        rc.inst.podIp = some b.1 := by
  constructor
  · rintro ⟨pods, running', port, hpods, hperm, hb⟩
    obtain ⟨t, ht, pod, hpod, hselected, hip, -⟩ := mem_resolveBackendPods.1 hb
    obtain ⟨cid, rc, hget, hrest⟩ := exists_of_podIp hip
    rw [get_of_perm hperm] at hget
    exact ⟨pod, holds_pod_iff.2 ⟨t, hpods.mem_iff.1 ht, hpod⟩, hselected, cid, rc, hget, hrest⟩
  · rintro ⟨pod, hholds, hselected, cid, rc, hget, hprefix, hip⟩
    obtain ⟨running', hperm, rest, hiter⟩ := exists_order hget
    obtain ⟨t, ht, hpod⟩ := holds_pod_iff.1 hholds
    refine ⟨store.getByKind "Pod", running', b.2, List.Perm.refl _, hperm, ?_⟩
    exact mem_resolveBackendPods.2
      ⟨t, ht, pod, hpod, hselected, podIp_of_first hiter hprefix hip, rfl⟩

/-! ### Selection -/

theorem Selected.subsumes {pod' : Pod} (h : Selected svc pod) (hsub : Subsumes pod pod') :
    Selected svc pod' := by
  refine ⟨hsub.1.trans h.1, fun e he => ?_⟩
  exact hsub.2 e (BTreeMap.mem_iter.2 (h.2 e he))

/-- The Service that selects by all labels of a pod, in its namespace. -/
def serviceLike (pod : Pod) : Service where
  metadata := { inNamespace := some (podNamespace pod) }
  spec := some { selector := some (podLabels pod) }

theorem selected_serviceLike {pod' : Pod} : Selected (serviceLike pod) pod' ↔ Subsumes pod pod' :=
  Iff.rfl

theorem subsumes_self (pod : Pod) : Subsumes pod pod :=
  ⟨rfl, fun _ he => BTreeMap.mem_iter.1 he⟩

/-- The backends of every Service are addresses of pods that it selects exactly when every address under the
prefix of a stored pod with labels is that of a pod in its namespace with at least its labels. -/
theorem backendsSelected_iff (store : ResourceStore) (running : HashMap String RunningContainer) :
    BackendsSelected store running ↔ AddressesSubsumed store running := by
  constructor
  · intro h pod hholds hlabels cid rc ip hget hprefix hip
    -- the Service that selects by all labels of the pod
    have hbackend : IsBackend store running (serviceLike pod) (ip, 0) :=
      isBackend_iff.2 ⟨pod, hholds, subsumes_self pod, cid, rc, hget, hprefix, hip⟩
    obtain ⟨pod', hholds', hselected, haddress⟩ := h (serviceLike pod) hlabels _ hbackend
    exact ⟨pod', hholds', selected_serviceLike.1 hselected, haddress⟩
  · intro h svc hselector b hb
    obtain ⟨pod, hholds, hselected, cid, rc, hget, hprefix, hip⟩ := isBackend_iff.1 hb
    have hlabels : (podLabels pod).iter ≠ [] := by
      obtain ⟨e, he⟩ := List.exists_mem_of_ne_nil _ hselector
      exact List.ne_nil_of_mem (BTreeMap.mem_iter.2 (hselected.2 e he))
    obtain ⟨pod', hholds', hsub, haddress⟩ := h pod hholds hlabels cid rc b.1 hget hprefix hip
    exact ⟨pod', hholds', hselected.subsumes hsub, haddress⟩

private def appWeb : BTreeMap String String := BTreeMap.ofList [("app", "web")]

private def webPodIn (ns : String) : Pod where
  metadata := { name := some "web", inNamespace := some ns, labels := some appWeb }
  spec := some { containers := [{ name := "app", image := some "nginx", ports := some [⟨80, none⟩] }] }

private def podNet : NetMux :=
  ⟨IpPool.new ⟨Ipv4Addr.new 10 42 0 0, 30⟩, ∅, 30, Ipv4Addr.new 10 42 0 1⟩

/-- Two pods of one name are stored, in two namespaces, and the second is started. -/
private def startOther : List PodEvent :=
  [.applyResource (.pod (webPodIn "default")), .applyResource (.pod (webPodIn "prod")),
    .startPod (buildSpec (.pod (webPodIn "prod"))), .start 0 .checkDuplicate, .start 0 .insertPlaceholders,
    .start 0 (.createCgroup (.ok ())),
    .start 0 (.spawnNext (.ok "/rootfs") ⟨true, .ok 100, .ok true, .ok (), .attached 4 5, []⟩),
    .start 0 .record]

private def defaultService : Service where
  metadata := { name := some "web", inNamespace := some "default" }
  spec := some { selector := some appWeb }

/-- The Service sends its traffic to the pod of the other namespace. -/
theorem backend_in_other_namespace :
    ∃ s ∈ run PodSystem.step (PodSystem.init podNet .new) startOther,
      resolveBackendPods { pods := s.pt.store.getByKind "Pod", running := fun _ => s.sup.running }
          (selectorOf defaultService) (svcNamespace defaultService) 80 = [(Ipv4Addr.new 10 42 0 2, 80)] ∧
      s.sup.running.iter.map (fun e => (e.1, e.2.startedFor, e.2.inst.podIp)) =
        [("web-app", "Pod/prod/web", some (Ipv4Addr.new 10 42 0 2))] ∧
      ¬ BackendsSelected s.pt.store s.sup.running := by
  have hrun : ∃ s ∈ run PodSystem.step (PodSystem.init podNet .new) startOther,
      resolveBackendPods { pods := s.pt.store.getByKind "Pod", running := fun _ => s.sup.running }
          (selectorOf defaultService) (svcNamespace defaultService) 80 = [(Ipv4Addr.new 10 42 0 2, 80)] ∧
      s.sup.running.iter.map (fun e => (e.1, e.2.startedFor, e.2.inst.podIp)) =
        [("web-app", "Pod/prod/web", some (Ipv4Addr.new 10 42 0 2))] ∧
      (∀ e ∈ s.sup.running.iter, e.2.startedFor = "Pod/prod/web") ∧
      ∀ r ∈ resources s.pt.store, r.uid = "Pod/prod/web" → r.namespaceOf = "prod" := by decide +kernel
  obtain ⟨s, hs, hbackends, hiter, hstarted, hstored⟩ := hrun
  refine ⟨s, hs, hbackends, hiter, fun hall => ?_⟩
  have hbackend : IsBackend s.pt.store s.sup.running defaultService (Ipv4Addr.new 10 42 0 2, 80) :=
    ⟨_, _, 80, List.Perm.refl _, List.Perm.refl _, by rw [hbackends]; exact List.mem_cons_self⟩
  obtain ⟨pod, hholds, hselected, cid, rc, hget, howner, -⟩ :=
    hall defaultService (by decide) _ hbackend
  -- the pod of the container is in the other namespace
  have huid : (AnyResource.pod pod).uid = "Pod/prod/web" :=
    howner.symm.trans (hstarted _ (HashMap.mem_iter.2 hget))
  obtain ⟨state, hgot⟩ := hholds
  have hns : podNamespace pod = "prod" := hstored _ (mem_resources.2 ⟨_, _, hgot, rfl⟩) huid
  have hdefault : podNamespace pod = "default" := hselected.1
  rw [hns] at hdefault
  revert hdefault
  decide

end Z8s.Network
