import Z8s.Compute.Proofs.FrameProofs

/-!
# Proofs: pods of other deployments

A new pod is named after its deployment, `-pod-` and eight hexadecimal digits.
-/

namespace Z8s.Compute

open Rust Z8s.Types Netmux Transition List

variable {a b : Deployment} {uuid : UuidGroup} {store : ResourceStore} {pod : Pod}

/-! ### Names -/

theorem dash_notMem (uuid : UuidGroup) : '-' ∉ uuid.digits := fun h =>
  absurd (uuid.hex _ h) (by decide)

theorem p_notMem (uuid : UuidGroup) : 'p' ∉ uuid.digits := fun h =>
  absurd (uuid.hex _ h) (by decide)

theorem pod_prefix_append (rest digits : List Char) :
    ['-', 'p', 'o', 'd', '-'] <+: rest ++ (['-', 'p', 'o', 'd', '-'] ++ digits) ↔
      rest = [] ∨ ['-', 'p', 'o', 'd', '-'] <+: rest ++ ['-'] := by
  match rest with
  | [] => simp
  | [a] => simp [cons_prefix_cons]
  | [a, b] => simp [cons_prefix_cons]
  | [a, b, c] => simp [cons_prefix_cons]
  | [a, b, c, d] => simp [cons_prefix_cons]
  | a :: b :: c :: d :: e :: rest => simp [cons_prefix_cons]

theorem not_prefix_append_pod (uuid : UuidGroup) {rest : List Char} (h : rest ≠ []) :
    ¬ rest ++ ['-', 'p', 'o', 'd', '-'] <+: ['-', 'p', 'o', 'd', '-'] ++ uuid.digits := by
  match rest with
  | [] => exact absurd rfl h
  | [a] => simp [cons_prefix_cons]
  | [a, b] => simp [cons_prefix_cons]
  | [a, b, c] => simp [cons_prefix_cons]
  | [a, b, c, d] =>
    intro hp
    simp only [cons_append, nil_append, cons_prefix_cons] at hp
    obtain ⟨-, -, -, -, -, hp⟩ := hp
    exact p_notMem uuid (hp.subset (by simp))
  | a :: b :: c :: d :: e :: rest =>
    intro hp
    simp only [cons_append, nil_append, cons_prefix_cons] at hp
    obtain ⟨-, -, -, -, -, hp⟩ := hp
    exact dash_notMem uuid (hp.subset (by simp))

/-- Which names `x` give pods whose names start with `y` and `-pod-`. -/
theorem startsWith_newName (x y : String) (uuid : UuidGroup) :
    startsWith (x ++ "-pod-" ++ uuid.toString) (y ++ "-pod-") = true ↔
      x = y ∨ startsWith (x ++ "-") (y ++ "-pod-") = true := by
  have hpod : "-pod-".toList = ['-', 'p', 'o', 'd', '-'] := rfl
  have hdash : "-".toList = ['-'] := rfl
  rw [startsWith_iff, startsWith_iff, UuidGroup.toString]
  simp only [String.toList_append, String.toList_ofList, hpod, hdash, append_assoc,
    ← String.toList_inj]
  generalize x.toList = xs
  generalize y.toList = ys
  constructor
  · intro h
    have hys : ys <+: xs ++ (['-', 'p', 'o', 'd', '-'] ++ uuid.digits) :=
      (prefix_append _ _).trans h
    rcases prefix_or_prefix_of_prefix hys (prefix_append xs _) with ⟨rest, rfl⟩ | ⟨rest, rfl⟩
    · rw [append_assoc, prefix_append_right_inj, pod_prefix_append] at h
      rcases h with rfl | h
      · exact .inl (append_nil ys)
      · rw [append_assoc, prefix_append_right_inj]
        exact .inr h
    · rw [append_assoc, prefix_append_right_inj] at h
      by_cases hrest : rest = []
      · rw [hrest, append_nil]
        exact .inl rfl
      · exact absurd h (not_prefix_append_pod uuid hrest)
  · rintro (rfl | ⟨rest, h⟩)
    · rw [prefix_append_right_inj]
      exact prefix_append _ _
    · -- the name of the deployment is long enough to contain all but the last dash
      have hlen : ys.length ≤ xs.length := by
        have := congrArg List.length h
        simp only [length_append, length_cons, length_nil] at this
        omega
      have hys : ys <+: xs := by
        refine prefix_of_prefix_length_le ?_ (prefix_append xs ['-']) hlen
        exact (prefix_append ys _).trans ⟨rest, h⟩
      obtain ⟨rest', rfl⟩ := hys
      rw [append_assoc, prefix_append_right_inj, pod_prefix_append]
      have hp : ys ++ ['-', 'p', 'o', 'd', '-'] <+: ys ++ rest' ++ ['-'] := ⟨rest, h⟩
      rw [append_assoc, prefix_append_right_inj] at hp
      exact .inr hp

/-! ### Ownership -/

theorem owned_newPod_iff (h : newPod a uuid = .ok pod) :
    podOwnedByDeployment pod (passName b) = false ↔ DeployNamesApart a b := by
  obtain ⟨spec, -, hname, -, -, howner⟩ := newPod_eq_ok h
  have howned : podOwnedByDeployment pod (passName b) = true ↔
      a.metadata.name.getD "deployment" = passName b ∨ passName a = passName b ∨
        startsWith (passName a ++ "-") (passName b ++ "-pod-") = true := by
    unfold podOwnedByDeployment
    rw [hname, howner, Bool.or_eq_true, ← startsWith_newName (passName a) (passName b) uuid]
    simp [newPodName]
  rw [← Bool.not_eq_true, howned, DeployNamesApart]
  simp only [not_or, Bool.not_eq_true, ne_eq]

/-- A pod created for `a` that is not counted as a pod of `b` is out of reach of the passes of `b`. -/
theorem not_removable_newPod (hns : passNamespace a = passNamespace b) (hpod : newPod a uuid = .ok pod)
    (hown : podOwnedByDeployment pod (passName b) = false) : ¬ Removable b store (.pod pod) := by
  intro hr
  have hsel := selects_of_removable hr ((namespaceOf_newPod hpod).trans hns)
  simp [selects, hown] at hsel

theorem not_touched_newPod (hns : passNamespace a = passNamespace b) (hpod : newPod a uuid = .ok pod)
    (hown : podOwnedByDeployment pod (passName b) = false) {t : ResourceTracker}
    (hget : store.get (AnyResource.pod pod).uid = some t) (ht : t.resource = .pod pod) :
    ¬ Touched b store (AnyResource.pod pod).uid := by
  rintro (⟨-, uuid', huid⟩ | ⟨-, r, hr, huid⟩)
  · -- a new pod of `b` with this uid would have this name
    rw [uid_newPod hpod, newPodUid, newPodUid, hns] at huid
    have hname : newPodName b uuid' = newPodName a uuid := string_append_left_cancel huid
    obtain ⟨-, -, hpodName, -⟩ := newPod_eq_ok hpod
    rw [← hname] at hpodName
    simp [podOwnedByDeployment, hpodName, newPodName, startsWith_append] at hown
  · obtain ⟨-, ⟨t', hget', rfl⟩, -⟩ := id hr
    rw [huid] at hget'
    obtain rfl := Option.some.inj (hget.symm.trans hget')
    rw [ht] at hr
    exact not_removable_newPod hns hpod hown hr

/-- Pods created for one deployment are left alone by another one of the namespace exactly when their
names are apart. -/
theorem spares_iff (a b : Deployment) (hns : passNamespace a = passNamespace b) :
    Spares a b ↔ (a.spec.isSome → DeployNamesApart a b) := by
  constructor
  · intro h hspec
    obtain ⟨pod, hpod⟩ := exists_newPod hspec ⟨"00000000".toList, rfl, by simp⟩
    exact (owned_newPod_iff hpod).1 (h _ pod hpod).1
  · intro h uuid pod hpod
    obtain ⟨spec, hspec, -⟩ := newPod_eq_ok hpod
    have hown : podOwnedByDeployment pod (passName b) = false :=
      (owned_newPod_iff hpod).2 (h (by rw [hspec]; rfl))
    refine ⟨hown, fun store t hget ht es store' p hrun => ⟨?_, fun hstop => ?_⟩⟩
    · rw [(passInv_of_run hrun).2.frame _ (not_touched_newPod hns hpod hown hget ht), hget]
    · exact not_removable_newPod hns hpod hown (removable_of_run hrun _ hstop).2

private def named (name : String) : Deployment where
  metadata := { name := some name, inNamespace := some "default" }
  spec := some {
    replicas := some (asI32 0)
    selector := { matchLabels := some (.ofList [("app", "demo")]) } }

private def group : UuidGroup := ⟨"1f8c4a2e".toList, rfl, by simp⟩

/-- The names `web` and `api` are apart. -/
theorem spares_web_api : passNamespace (named "web") = passNamespace (named "api") ∧
    Spares (named "web") (named "api") :=
  ⟨rfl, (spares_iff (named "web") (named "api") rfl).2 fun _ => by decide +kernel⟩

/-- The pod that a pass over `web-pod-1` creates. -/
private def podOfWebPod1 : Pod where
  metadata := {
    name := some "web-pod-1-pod-1f8c4a2e"
    inNamespace := some "default"
    labels := some (.ofList [("app", "demo")])
    ownerReferences := some [⟨"apps/v1", "Deployment", "web-pod-1", some true, some true, ""⟩] }

private def trackerOfWebPod1 : ResourceTracker := .new (.pod podOfWebPod1)

/-- A pod created for `web-pod-1` counts as a pod of `web`, and a pass of `web` with no replicas stops
and deletes it. -/
theorem web_deletes_pod_of_web_pod_1 :
    newPod (named "web-pod-1") group = .ok podOfWebPod1 ∧
    podOwnedByDeployment podOfWebPod1 "web" = true ∧
    (∃ s ∈ run passStep (ResourceStore.new.apply (.pod podOfWebPod1), Pass.enter (named "web"))
        [.list [trackerOfWebPod1], .find [trackerOfWebPod1], .stopped, .delete],
      s.2.isDone = true ∧ s.1.get "Pod/default/web-pod-1-pod-1f8c4a2e" = none) ∧
    ¬ Spares (named "web-pod-1") (named "web") := by
  have hpod : newPod (named "web-pod-1") group = .ok podOfWebPod1 := by decide +kernel
  have hown : podOwnedByDeployment podOfWebPod1 "web" = true := by decide +kernel
  refine ⟨hpod, hown, by decide +kernel, fun h => ?_⟩
  have hnot := (h group podOfWebPod1 hpod).1
  rw [show passName (named "web") = "web" from rfl, hown] at hnot
  cases hnot

end Z8s.Compute
