import Z8s.Collections.Proofs.FirstMatchProofs
import Z8s.Network.Proofs.BackendsProofs
import Z8s.Rust.Proofs.StrProofs

/-!
# Proofs: target ports

The port of the backends is the number that was found, cast to 16 bits.
-/

namespace Z8s.Network

open Rust Collections Z8s.Types Netmux

variable {store : ResourceStore} {svc : Service} {p : ServicePort}
variable {name : String} {n : Int}

/-! ### The cast -/

theorem toNat_asU16_iff : ((asU16 n).toNat : Int) = n ↔ FitsU16 n := by
  rw [asU16, BitVec.toNat_ofInt, FitsU16]
  omega

theorem find?_ports (name : String) (r : AnyResource) :
    (((extractContainers r).flatMap fun c => c.ports.getD []).find? fun p => p.name == some name).map
      ContainerPort.containerPort = (declaredPorts name r).head? := by
  rw [declaredPorts, List.head?_map, List.head?_filter]

theorem find?_listed (svc : Service) (pods : List ResourceTracker) (name : String) :
    (((pods.filter fun t => t.resource.namespaceOf == svcNamespace svc).flatMap fun t =>
        (extractContainers t.resource).flatMap fun c => c.ports.getD []).find? fun p => p.name == some name).map
      ContainerPort.containerPort = pods.findSome? fun t => namedPort svc name t.resource := by
  induction pods with
  | nil => rfl
  | cons t pods ih =>
    rw [List.findSome?_cons, List.filter_cons, namedPort]
    by_cases hns : t.resource.namespaceOf == svcNamespace svc
    · rw [if_pos hns, if_pos hns, List.flatMap_cons, List.find?_append, Option.map_or, ih, find?_ports]
      cases (declaredPorts name t.resource).head? <;> rfl
    · rw [if_neg hns, if_neg hns, ih]

theorem containerPort_eq (svc : Service) (p : ServicePort) (lookup : PodLookup) :
    containerPort svc p lookup = asU16 (targetValue svc p lookup.named) := by
  unfold containerPort targetValue targetOf
  cases p.targetPort.getD (.int p.port) with
  | int n => rfl
  | string name =>
    have hfound := find?_listed svc lookup.named name
    simp only [resolveNamedPort]
    rw [← hfound]
    cases ((lookup.named.filter fun t => t.resource.namespaceOf == svcNamespace svc).flatMap fun t =>
        (extractContainers t.resource).flatMap fun c => c.ports.getD []).find? fun p => p.name == some name with
    | some port => rfl
    | none => cases parseUnsigned 65535 name <;> rfl

theorem resolvesTarget_iff {lookup : PodLookup} : ResolvesTarget store svc p lookup ↔
    FitsU16 (targetValue svc p lookup.named) ∧
      ∀ name, targetOf p = .string name → (∃ n, DeclaredBySelected store svc name n) →
        DeclaredBySelected store svc name (targetValue svc p lookup.named) := by
  have hport : ((containerPort svc p lookup).toNat : Int) = targetValue svc p lookup.named ↔
      FitsU16 (targetValue svc p lookup.named) := by
    rw [containerPort_eq, toNat_asU16_iff]
  constructor
  · intro h
    have hfits : FitsU16 (targetValue svc p lookup.named) := by
      by_cases hrange : 1 ≤ targetValue svc p lookup.named ∧ targetValue svc p lookup.named ≤ 65535
      · exact ⟨by omega, hrange.2⟩
      · exact hport.1 (h.outside hrange)
    refine ⟨hfits, fun name hname hexists => ?_⟩
    rw [← hport.2 hfits]
    exact h.named name hname hexists
  · rintro ⟨hfits, hnamed⟩
    refine ⟨fun n hn _ _ => ?_, fun name hname hexists => ?_, fun _ => hport.2 hfits⟩
    · rw [hport.2 hfits]
      simp only [targetValue, hn]
    · rw [hport.2 hfits]
      exact hnamed name hname hexists

/-! ### All listings -/

theorem exists_pod_of_namedPort {t : ResourceTracker} (ht : t ∈ store.getByKind "Pod")
    (hn : namedPort svc name t.resource = some n) :
    ∃ pod, t.resource = .pod pod ∧ store.Holds (.pod pod) := by
  obtain ⟨hget, hkind⟩ := ResourceStore.mem_getByKind.1 ht
  have hholds := ResourceStore.holds_of_get hget
  cases hr : t.resource with
  | pod pod => exact ⟨pod, rfl, hr ▸ hholds⟩
  | deployment d =>
    rw [hr] at hkind
    exact absurd hkind (by simp [AnyResource.kind])
  | _ =>
    rw [hr, namedPort] at hn
    simp [declaredPorts, extractContainers] at hn

theorem forall_targetValue_iff (htarget : targetOf p = .string name) (P : Int → Prop) :
    (∀ lookup : PodLookup, lookup.named.Perm (store.getByKind "Pod") → P (targetValue svc p lookup.named)) ↔
      (∀ pod, store.Holds (.pod pod) → ∀ n ∈ namedPort svc name (.pod pod), P n) ∧
      ((∀ pod, store.Holds (.pod pod) → namedPort svc name (.pod pod) = none) →
        P (((parseUnsigned 65535 name).map Int.ofNat).getD p.port)) := by
  have hvalue (pods : List ResourceTracker) : targetValue svc p pods =
      (pods.findSome? fun t => namedPort svc name t.resource).getD
        (((parseUnsigned 65535 name).map Int.ofNat).getD p.port) := by
    simp only [targetValue, htarget]
  constructor
  · intro h
    refine ⟨fun pod hholds n hn => ?_, fun hnone => ?_⟩
    · obtain ⟨t, ht, hpod⟩ := holds_pod_iff.1 hholds
      obtain ⟨pods, hperm, hfirst⟩ :=
        exists_perm_findSome? (f := fun t : ResourceTracker => namedPort svc name t.resource) ht
          (show namedPort svc name t.resource = some n by rw [hpod]; exact hn)
      have hP := h { named := pods } hperm
      rwa [hvalue, hfirst] at hP
    · have hP := h { named := store.getByKind "Pod" } (.refl _)
      have hnot : (store.getByKind "Pod").findSome? (fun t => namedPort svc name t.resource) = none := by
        rw [List.findSome?_eq_none_iff]
        intro t ht
        by_contra hsome
        obtain ⟨n, hn⟩ := Option.ne_none_iff_exists'.1 hsome
        obtain ⟨pod, hpod, hholds⟩ := exists_pod_of_namedPort ht hn
        rw [hpod, hnone pod hholds] at hn
        cases hn
      rwa [hvalue, hnot] at hP
  · rintro ⟨hfound, hdefault⟩ lookup hperm
    rw [hvalue]
    cases hfirst : lookup.named.findSome? fun t => namedPort svc name t.resource with
    | some n =>
      obtain ⟨t, ht, hn⟩ := exists_mem_of_perm_findSome? hperm hfirst
      obtain ⟨pod, hpod, hholds⟩ := exists_pod_of_namedPort ht hn
      rw [hpod] at hn
      exact hfound pod hholds n hn
    | none =>
      refine hdefault fun pod hholds => ?_
      obtain ⟨t, ht, hpod⟩ := holds_pod_iff.1 hholds
      rw [← hpod]
      exact List.findSome?_eq_none_iff.1 hfirst t (hperm.mem_iff.2 ht)

theorem DeclaredBySelected.exists_namedPort (h : DeclaredBySelected store svc name n) :
    ∃ pod, store.Holds (.pod pod) ∧ namedPort svc name (.pod pod) ≠ none := by
  obtain ⟨pod, hholds, hselected, hn⟩ := h
  refine ⟨pod, hholds, ?_⟩
  have hns : ((AnyResource.pod pod).namespaceOf == svcNamespace svc) = true := beq_iff_eq.2 hselected.1
  rw [namedPort, if_pos hns, Ne, List.head?_eq_none_iff]
  exact List.ne_nil_of_mem hn

theorem fitsU16_default_iff {port : Int} :
    FitsU16 (((parseUnsigned 65535 name).map Int.ofNat).getD port) ↔
      (parseUnsigned 65535 name = none → FitsU16 port) := by
  cases hname : parseUnsigned 65535 name with
  | none => simp
  | some n =>
    have hle := le_of_parseUnsigned hname
    refine iff_of_true ⟨Int.natCast_nonneg n, ?_⟩ fun h => by cases h
    exact Int.ofNat_le.2 hle

/-- The target ports resolve in every listing exactly if no number that may be found is cut off, and if no pod of the
namespace means another port by a name than the selected pods do. -/
theorem targetsResolve_iff (store : ResourceStore) (svc : Service) :
    TargetsResolve store svc ↔ ∀ p ∈ proxiedPorts svc, TargetUnambiguous store svc p := by
  refine forall₂_congr fun p _ => ?_
  simp only [resolvesTarget_iff, TargetUnambiguous]
  cases htarget : targetOf p with
  | int n =>
    have hvalue (pods : List ResourceTracker) : targetValue svc p pods = n := by simp only [targetValue, htarget]
    simp only [hvalue, reduceCtorEq, false_implies, implies_true, and_true]
    exact ⟨fun h => h { named := store.getByKind "Pod" } (.refl _), fun h _ _ => h⟩
  | string name =>
    have hname {P : String → Prop} : (∀ other, IntOrString.string name = .string other → P other) ↔ P name :=
      ⟨fun h => h name rfl, fun h other heq => IntOrString.string.inj heq ▸ h⟩
    simp only [hname]
    rw [forall_targetValue_iff htarget fun n => FitsU16 n ∧
      ((∃ m, DeclaredBySelected store svc name m) → DeclaredBySelected store svc name n)]
    refine and_congr_right fun _ => forall_congr' fun hnone => ?_
    have hundeclared : ¬ ∃ m, DeclaredBySelected store svc name m := by
      rintro ⟨m, hm⟩
      obtain ⟨pod, hholds, hsome⟩ := hm.exists_namedPort
      exact hsome (hnone pod hholds)
    rw [← fitsU16_default_iff]
    exact and_iff_left fun hm => absurd hm hundeclared

private def httpPod (name app : String) (port : Int) : Pod where
  metadata := { name := some name, labels := some (BTreeMap.ofList [("app", app)]) }
  spec := some { containers := [{ name := "app", ports := some [⟨port, some "http"⟩] }] }

private def twoPods : ResourceStore :=
  (ResourceStore.new.apply (.pod (httpPod "web" "web" 8080))).apply (.pod (httpPod "metrics" "metrics" 9090))

private def httpPort : ServicePort where
  port := ⟨8000, by decide⟩
  targetPort := some (.string "http")

private def namedPortService : Service where
  metadata := { name := some "web" }
  spec := some {
    clusterIp := some "10.96.0.7"
    selector := some (BTreeMap.ofList [("app", "web")])
    ports := some [httpPort] }

/-- The Service selects the first pod only, and its backends get the port of the second one. -/
theorem port_of_unselected_pod :
    containerPort namedPortService httpPort { named := twoPods.getByKind "Pod" } = 9090 ∧
      ¬ TargetsResolve twoPods namedPortService := by
  have hport : containerPort namedPortService httpPort { named := twoPods.getByKind "Pod" } = 9090 := by decide +kernel
  have hdeclared : ∀ t ∈ twoPods.getByKind "Pod", 9090 ∈ declaredPorts "http" t.resource →
      (t.resource.metadata.labels.getD ∅).get "app" ≠ some "web" := by decide +kernel
  have hselected : DeclaredBySelected twoPods namedPortService "http" 8080 := by
    refine ⟨httpPod "web" "web" 8080, ⟨.pending, by decide +kernel⟩, ⟨by decide +kernel, ?_⟩, by decide +kernel⟩
    decide +kernel
  refine ⟨hport, fun h => ?_⟩
  have hnamed := (h httpPort (by decide +kernel) { named := twoPods.getByKind "Pod" } (.refl _)).named "http" rfl
    ⟨8080, hselected⟩
  rw [hport] at hnamed
  obtain ⟨pod, hholds, ⟨-, hlabels⟩, hmem⟩ := hnamed
  obtain ⟨t, ht, hpod⟩ := holds_pod_iff.1 hholds
  rw [← hpod] at hmem
  refine hdeclared t ht hmem ?_
  rw [hpod]
  exact hlabels ("app", "web") (by decide +kernel)

end Z8s.Network
