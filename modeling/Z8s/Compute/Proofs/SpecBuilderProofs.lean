import Z8s.Compute.SpecBuilder
import Z8s.Files.Proofs.LexicalProofs

/-!
# Proofs: sources of volumes

The files of a volume are the keys of its ConfigMap or Secret, joined to its directory, and a sub
path is joined to it as well.
-/

namespace Z8s.Compute

open Rust Collections Files Z8s.Types Cri Path

variable {ctx : VolumeContext} {ns podUid dir : String} {vol : Volume}
variable {path : String} {ok : Nat → Bool}

/-! ### Operations -/

theorem mem_of_mem_tryAll {op : FileOp} {ops : List FileOp} (h : op ∈ (tryAll ok ops).1) : op ∈ ops := by
  induction ops generalizing ok with
  | nil => exact h
  | cons first ops ih =>
    unfold tryAll at h
    split_ifs at h
    · rw [List.mem_singleton] at h
      exact h ▸ List.mem_cons_self
    · rcases List.mem_cons.1 h with rfl | h
      · exact List.mem_cons_self
      · exact List.mem_cons_of_mem _ (ih h)

theorem tryAll_true (ops : List FileOp) : tryAll (fun _ => true) ops = (ops, true) := by
  induction ops with
  | nil => rfl
  | cons op ops ih =>
    unfold tryAll
    rw [if_neg (by simp), ih]

theorem write_mem_materializeConfigmap {cm : ConfigMap} :
    (∃ content, .write path content ∈ materializeConfigmap cm dir) ↔
      ∃ key ∈ (cm.data.getD ∅).iter.map Prod.fst ++ (cm.binaryData.getD ∅).iter.map Prod.fst,
        joinStr dir key = path := by
  simp only [materializeConfigmap, List.mem_append, List.mem_map, FileOp.write.injEq]
  grind

theorem write_mem_secretFile {key : String} {content content' : List UInt8} :
    .write path content ∈ secretFile dir key content' ↔ joinStr dir key = path ∧ content' = content := by
  simp [secretFile, eq_comm]

theorem write_mem_materializeSecret {sec : Secret} :
    (∃ content, .write path content ∈ materializeSecret sec dir) ↔
      ∃ key ∈ (sec.data.getD ∅).iter.map Prod.fst ++ (sec.stringData.getD ∅).iter.map Prod.fst,
        joinStr dir key = path := by
  simp only [materializeSecret, List.mem_append, List.mem_map, List.mem_flatMap, write_mem_secretFile]
  grind

/-! ### Volumes -/

theorem write_mem_volumeSource (hhost : vol.hostPath = none)
    (hdir : (volumeSource ctx ns podUid vol).2 = some dir) :
    (∃ content, .write path content ∈ (volumeSource ctx ns podUid vol).1) ↔
      ∃ key ∈ fileKeys ctx ns vol, joinStr dir key = path := by
  unfold volumeSource at hdir ⊢
  unfold fileKeys
  simp only [hhost, Option.isSome_none, Bool.false_or] at hdir ⊢
  by_cases hempty : vol.emptyDir = true
  · simp [hempty]
  simp only [hempty, Bool.false_eq_true, if_false] at hdir ⊢
  cases hcm : vol.configMap with
  | some name =>
    simp only [hcm, Option.some.injEq] at hdir ⊢
    subst hdir
    cases ctx.getConfigmap ns name with
    | none => simp
    | some cm => simpa using write_mem_materializeConfigmap
  | none =>
    cases hsec : vol.secret.bind id with
    | some name =>
      simp only [hcm, hsec, Option.some.injEq] at hdir ⊢
      subst hdir
      cases ctx.getSecret ns name with
      | none => simp
      | some sec => simpa using write_mem_materializeSecret
    | none => simp

/-! ### Mounts -/

section Mounts

variable {pod : Pod} {mount : VolumeMount} {step : MountStep}

theorem mem_prepareSteps {ok : Nat → Nat → Bool} {container : String} :
    step ∈ prepareSteps ctx ok pod container podUid ↔ ∃ mount i,
      (mount, i) ∈ (mountsOf pod container).zipIdx ∧ prepareMount ctx (ok i) pod podUid mount = some step := by
  simp [prepareSteps]

/-- What is done for a mount of a volume with a directory: some of the operations are tried, and if it is
resolved then to the directory or to the sub path. -/
theorem prepareMount_spec (h : prepareMount ctx ok pod podUid mount = some step)
    (hdir : (volumeSource ctx (podNamespace pod) podUid step.vol).2 = some dir) :
    volumeNamed pod mount.name = some step.vol ∧
      (∀ op ∈ step.ops, op ∈ (volumeSource ctx (podNamespace pod) podUid step.vol).1) ∧
      ∀ r ∈ step.resolved, r.hostPath = dir ∨ ∃ sub ∈ mount.subPath, r.hostPath = joinStr dir sub := by
  obtain ⟨vol, hvol, rfl⟩ := Option.map_eq_some_iff.1 h
  refine ⟨hvol, fun op hop => mem_of_mem_tryAll hop, fun r hr => ?_⟩
  simp only [resolveVolumeSource] at hdir hr
  rw [hdir] at hr
  split_ifs at hr
  · cases hr
    cases hsub : mount.subPath with
    | none => exact .inl rfl
    | some sub => exact .inr ⟨sub, rfl, rfl⟩
  · cases hr

theorem exists_prepareMount (hvol : volumeNamed pod mount.name = some vol)
    (hdir : (volumeSource ctx (podNamespace pod) podUid vol).2 = some dir) :
    ∃ step, prepareMount ctx (fun _ => true) pod podUid mount = some step ∧ step.vol = vol ∧
      step.ops = (volumeSource ctx (podNamespace pod) podUid vol).1 ∧
      ∀ sub ∈ mount.subPath, ∃ r ∈ step.resolved, r.hostPath = joinStr dir sub := by
  refine ⟨_, by rw [prepareMount, hvol, Option.map_some], rfl, ?_, fun sub hsub => ?_⟩
  · simp [resolveVolumeSource, tryAll_true]
  · rw [Option.mem_def] at hsub
    simp [resolveVolumeSource, tryAll_true, hdir, hsub]

theorem sourcesStay_iff (ctx : VolumeContext) (pod : Pod) (container podUid : String) :
    SourcesStay ctx pod container podUid ↔
      ∀ mount ∈ mountsOf pod container, MountStays ctx pod podUid mount := by
  constructor
  · intro h mount hmount vol hvol hhost dir hdir
    rw [Option.mem_def] at hvol hdir
    obtain ⟨step, hstep, rfl, hops, hsubs⟩ := exists_prepareMount hvol hdir
    obtain ⟨i, hi, hget⟩ := List.mem_iff_getElem.1 hmount
    have hmem : step ∈ prepareSteps ctx (fun _ _ => true) pod container podUid := by
      refine mem_prepareSteps.2 ⟨mount, i, List.mk_mem_zipIdx_iff_getElem?.2 ?_, hstep⟩
      rw [List.getElem?_eq_getElem hi, hget]
    obtain ⟨hfiles, hresolved⟩ := h _ step hmem hhost dir hdir
    refine ⟨fun key hkey => ?_, fun sub hsub => ?_⟩
    · obtain ⟨content, hwrite⟩ := (write_mem_volumeSource hhost hdir).2 ⟨key, hkey, rfl⟩
      have hunder := hfiles _ content (hops ▸ hwrite)
      rwa [ofStr_joinStr, under_join_iff] at hunder
    · obtain ⟨r, hr, hpath⟩ := hsubs sub hsub
      have hunder := hresolved r hr
      rwa [hpath, ofStr_joinStr, under_join_iff] at hunder
  · intro h ok step hstep hhost dir hdir
    obtain ⟨mount, i, hmount, hprepared⟩ := mem_prepareSteps.1 hstep
    obtain ⟨hvol, hops, hresolved⟩ := prepareMount_spec hprepared hdir
    obtain ⟨hkeys, hsubs⟩ := h mount (List.fst_mem_of_mem_zipIdx hmount) step.vol hvol hhost dir hdir
    refine ⟨fun path content hwrite => ?_, fun r hr => ?_⟩
    · obtain ⟨key, hkey, rfl⟩ := (write_mem_volumeSource hhost hdir).1 ⟨content, hops _ hwrite⟩
      rw [ofStr_joinStr, under_join_iff]
      exact hkeys key hkey
    · rcases hresolved r hr with hpath | ⟨sub, hsub, hpath⟩
      · rw [hpath]
        exact under_refl _
      · rw [hpath, ofStr_joinStr, under_join_iff]
        exact hsubs sub hsub

/-- A ConfigMap with an absolute key, and a pod that mounts it with a sub path out of the volume. -/
private def cronContext : VolumeContext where
  base := "/var/lib/z8s"
  getConfigmap _ _ := some {
    metadata := { name := some "jobs" }
    data := some (BTreeMap.ofList [("/etc/cron.d/job", "* * * * * root reboot")]) }
  getSecret _ _ := none
  getPvcHostpath _ _ := none

private def cronPod : Pod where
  metadata := { name := some "web", inNamespace := some "default" }
  spec := some {
    containers := [{
      name := "web"
      volumeMounts := some [{ name := "jobs", mountPath := "/jobs", subPath := some "../../../../../../etc" }] }]
    volumes := some [{ name := "jobs", configMap := some "jobs" }] }

theorem key_and_subPath_lead_out :
    (∃ step ∈ prepareSteps cronContext (fun _ _ => true) cronPod "web" "Pod/default/web",
      .write "/etc/cron.d/job" (utf8 "* * * * * root reboot") ∈ step.ops ∧
        ∃ r ∈ step.resolved, Path.normal (.ofStr r.hostPath) = Path.normal (.ofStr "/etc")) ∧
    ¬ SourcesStay cronContext cronPod "web" "Pod/default/web" := by
  refine ⟨by decide +kernel, fun h => ?_⟩
  have hstep : ∃ step ∈ prepareSteps cronContext (fun _ _ => true) cronPod "web" "Pod/default/web",
      step.vol.hostPath = none ∧ (volumeSource cronContext "default" "Pod/default/web" step.vol).2 =
        some "/var/lib/z8s/configmaps/default/jobs" ∧
      .write "/etc/cron.d/job" (utf8 "* * * * * root reboot") ∈ step.ops := by decide +kernel
  obtain ⟨step, hmem, hhost, hdir, hwrite⟩ := hstep
  exact absurd ((h _ step hmem hhost _ hdir).1 _ _ hwrite) (by decide +kernel)

end Mounts

end Z8s.Compute
