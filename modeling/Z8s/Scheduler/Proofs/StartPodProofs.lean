import Z8s.Cri.Proofs.EmptyDirProofs
import Z8s.Files.Proofs.FileSystemProofs
import Z8s.Scheduler.StartPod

/-!
# Proofs: starting a pod that runs

The duplicate is found before a container or an address is touched, but after the clean-up.
-/

namespace Z8s.Scheduler

open Rust Collections Z8s.Types Netmux Files Files.FileSystem Cri Compute

/-! ### Preparing volumes -/

/-! ### The clean-up -/

section Cleanup

variable {cwd : Location} {base podUid : String} {fs : FileSystem}

theorem sub_foldl_removeDirAll (cwd : Location) (dir : Path) (names : List Name) (left : Location → List Location)
    (fs : FileSystem) : Sub (names.foldl (fun fs name => fs.removeDirAll cwd dir name left) fs) fs := by
  induction names generalizing fs with
  | nil => exact Sub.refl fs
  | cons name names ih => exact (ih _).trans (sub_removeDirAll fs cwd dir name left)

theorem sub_cleanupFiles (entries : List Name) (left : Location → List Location) (fs : FileSystem) :
    Sub (cleanupFiles base cwd podUid entries left fs) fs := by
  unfold cleanupFiles
  split
  · exact sub_foldl_removeDirAll _ _ _ _ _
  · exact Sub.refl fs

theorem blocked_foldl_removeDirAll {dir : Path} {name : Name} (hname : isProper name = true)
    {names : List Name} (hmem : name ∈ names) {b : Location}
    (hb : (names.foldl (fun fs name => fs.removeDirAll cwd dir name fun _ => []) fs).resolve cwd dir = some b) :
    Blocked (names.foldl (fun fs name => fs.removeDirAll cwd dir name fun _ => []) fs) (b ++ [name]) := by
  induction names generalizing fs with
  | nil => cases hmem
  | cons first names ih =>
    rcases List.mem_cons.1 hmem with rfl | hmem
    · have hsub := sub_foldl_removeDirAll cwd dir names (fun _ => [])
        (fs.removeDirAll cwd dir name fun _ => [])
      have hbefore := (hsub.trans (sub_removeDirAll _ _ _ _ _)).resolve hb
      exact (blocked_removeDirAll hname hbefore).of_sub hsub
    · exact ih hmem hb

theorem holdsNothing_cleanupFiles {entries : List Name}
    (hentries : ∀ l, fs.resolve cwd (.ofStr (emptyDirBase base)) = some l → fs.children l ⊆ entries)
    (volume : String) :
    HoldsNothing cwd (emptyDirPath base podUid volume)
      (cleanupFiles base cwd podUid entries (fun _ => []) fs) := by
  intro names hnames
  obtain ⟨entry, more, hpath, hproper, hcleaned⟩ := exists_entry_of_emptyDirPath base podUid volume
  unfold contents
  cases hresolve : (cleanupFiles base cwd podUid entries (fun _ => []) fs).resolve cwd
      (.ofStr (emptyDirPath base podUid volume)) with
  | none => rfl
  | some d =>
    rw [hpath] at hresolve
    obtain ⟨b, links, hb, hwalk⟩ := exists_walk_of_append hresolve
    refine node_eq_none_of_blocked (ne_dotdot_of_isProper hproper) ?_ hwalk hnames
    have hbefore : fs.resolve cwd (.ofStr (emptyDirBase base)) = some b :=
      (sub_cleanupFiles entries _ fs).resolve hb
    cases hentry : fs.node (b ++ [entry]) with
    | none =>
      have hmissing : Blocked fs (b ++ [entry]) := .inl hentry
      exact hmissing.of_sub (sub_cleanupFiles entries _ fs)
    | some n =>
      have hmem : entry ∈ entries := hentries b hbefore (mem_children.2 (by rw [hentry]; rfl))
      unfold cleanupFiles at hb ⊢
      rw [hbefore] at hb ⊢
      refine blocked_foldl_removeDirAll hproper (hcleaned _ (List.mem_filter.2 ⟨hmem, ?_⟩)) hb
      rw [hentry]
      rfl

theorem HoldsNothing.of_sub {fs' : FileSystem} {dir : String} (h : HoldsNothing cwd dir fs')
    (hsub : Sub fs fs') : HoldsNothing cwd dir fs := by
  intro names hnames
  cases hcontents : contents cwd dir fs names with
  | none => rfl
  | some n =>
    obtain ⟨l, hl, hnode⟩ := Option.bind_eq_some_iff.1 hcontents
    have hcontents' : contents cwd dir fs' names = some n := by
      rw [contents, hsub.resolve hl]
      exact hsub _ _ hnode
    rw [h names hnames] at hcontents'
    cases hcontents'

end Cleanup

/-! ### The second start -/

section Again

variable {ctx : VolumeContext} {r : RunningPod} {env : StartEnv}

theorem RunningPod.checkDuplicateStart_or (r : RunningPod) :
    checkDuplicateStart r.host.pt.sup.running (buildSpec (.pod r.pod)).podName = true ∨
      (buildSpec (.pod r.pod)).containers = [] := by
  cases hcontainers : extractContainers (.pod r.pod) with
  | nil => exact .inr (by simp [buildSpec, hcontainers])
  | cons c more =>
    left
    have hid : (AnyResource.pod r.pod).name ++ "-" ++ c.name ∈ (buildSpec (.pod r.pod)).ids := by
      simp [ContainerSpec.ids, buildSpec, buildConfig, hcontainers]
    obtain ⟨rc, hget⟩ := Option.isSome_iff_exists.1 (r.running _ hid)
    exact List.any_eq_true.2 ⟨_, HashMap.mem_keys.2 ⟨rc, hget⟩, startsWith_append _ _⟩

theorem RunningPod.sup_startPodFromSpec (r : RunningPod) (createCgroup : Except Error Unit)
    (env : Nat → ContainerEnv) :
    (startPodFromSpec r.host.pt.sup (buildSpec (.pod r.pod)) createCgroup env).2 = r.host.pt.sup := by
  unfold startPodFromSpec
  split_ifs with hdup
  · rfl
  · -- there are no containers, so nothing is inserted or removed
    have hnil := r.checkDuplicateStart_or.resolve_left hdup
    cases createCgroup with
    | error e =>
      simp only [insertPlaceholders, removePlaceholders, ContainerSpec.ids, hnil]
      rfl
    | ok _ =>
      simp only [insertPlaceholders, spawnAllContainers, hnil]
      rfl

theorem RunningPod.sup_startPod (ctx : VolumeContext) (r : RunningPod) (env : StartEnv) :
    (startPod ctx r.host r.pod env).2.pt.sup = r.host.pt.sup := by
  rw [← r.sup_startPodFromSpec env.createCgroup env.containers]
  unfold startPod
  dsimp only
  split
  · rename_i heq
    rw [heq]
  · rename_i heq
    rw [heq]

theorem RunningPod.files_startPod (ctx : VolumeContext) (r : RunningPod) (env : StartEnv) :
    (startPod ctx r.host r.pod env).2.files = filesChecked ctx r.host r.pod env := by
  have hfiles : (startPod ctx r.host r.pod env).2.files =
      if checkDuplicateStart r.host.pt.sup.running (buildSpec (.pod r.pod)).podName then
        filesChecked ctx r.host r.pod env
      else (buildSpec (.pod r.pod)).containers.zipIdx.foldl (fun fs cfg => env.install cfg.2 fs)
        (filesChecked ctx r.host r.pod env) := by
    unfold startPod
    dsimp only
    split <;> rfl
  rw [hfiles]
  split_ifs with hdup
  · rfl
  · rw [r.checkDuplicateStart_or.resolve_left hdup]
    rfl

def StartEnv.smooth (entries : List Name) : StartEnv where
  limits := fun _ _ _ => none
  entries := entries
  left := fun _ => []
  createCgroup := .ok ()
  containers := fun _ => ⟨.ok "", ⟨true, .ok 1, .ok true, .ok (), .attached 1 2, []⟩⟩
  install := fun _ fs => fs

/-- An environment in which the directory `emptydir` cannot be read. -/
def StartEnv.unread (limits : Nat → Nat → Nat → Option Nat) : StartEnv :=
  { StartEnv.smooth [] with limits }

theorem filesChecked_unread (limits : Nat → Nat → Nat → Option Nat) :
    filesChecked ctx r.host r.pod (.unread limits) = buildFiles ctx r.host.cwd limits r.pod r.host.files := by
  unfold filesChecked cleanupFiles
  split <;> rfl

theorem holdsNothing_filesChecked {dir : String} (hdir : dir ∈ emptyDirs ctx.base r.pod) :
    ∃ entries, HoldsNothing r.host.cwd dir (filesChecked ctx r.host r.pod (.smooth entries)) := by
  obtain ⟨vol, -, rfl⟩ := List.mem_map.1 hdir
  obtain ⟨l, hl⟩ : ∃ l, ∀ l', (buildFiles ctx r.host.cwd (fun _ _ _ => none) r.pod r.host.files).resolve
      r.host.cwd (.ofStr (emptyDirBase ctx.base)) = some l' → l' = l := by
    cases hresolve : (buildFiles ctx r.host.cwd (fun _ _ _ => none) r.pod r.host.files).resolve
        r.host.cwd (.ofStr (emptyDirBase ctx.base)) with
    | none => exact ⟨[], fun l' h => by cases h⟩
    | some l => exact ⟨l, fun l' h => (Option.some.inj h).symm⟩
  refine ⟨(buildFiles ctx r.host.cwd (fun _ _ _ => none) r.pod r.host.files).children l, ?_⟩
  refine holdsNothing_cleanupFiles (fun l' hl' => ?_) vol.name
  rw [hl l' hl']
  exact List.Subset.refl _

theorem RunningPod.nothingToLose_of_noOp (h : r.StartIsNoOp ctx) : r.NothingToLose ctx := by
  intro dir hdir
  have hkept : ∀ env, ∀ names ≠ [], contents r.host.cwd dir (filesChecked ctx r.host r.pod env) names =
      contents r.host.cwd dir r.host.files names := fun env names hnames => by
    rw [← r.files_startPod ctx env]
    exact (h env).emptyDirs dir hdir names hnames
  have hbefore : HoldsNothing r.host.cwd dir r.host.files := fun names hnames => by
    obtain ⟨entries, hgone⟩ := holdsNothing_filesChecked hdir
    rw [← hkept (.smooth entries) names hnames, hgone names hnames]
  refine ⟨hbefore, fun limits names hnames => ?_⟩
  rw [← filesChecked_unread, hkept (.unread limits) names hnames, hbefore names hnames]

theorem RunningPod.noOp_of_nothingToLose (h : r.NothingToLose ctx) : r.StartIsNoOp ctx := by
  intro env
  refine ⟨by rw [r.sup_startPod], by rw [r.sup_startPod], fun dir hdir names hnames => ?_⟩
  obtain ⟨hbefore, hprepared⟩ := h dir hdir
  have hafter : HoldsNothing r.host.cwd dir (filesChecked ctx r.host r.pod env) :=
    (hprepared env.limits).of_sub (sub_cleanupFiles _ _ _)
  rw [r.files_startPod, hafter names hnames, hbefore names hnames]

end Again

private def dataPod : Pod where
  metadata := { name := some "web", inNamespace := some "default" }
  spec := some {
    containers := [{
      name := "app", image := some "nginx"
      volumeMounts := some [{ name := "data", mountPath := "/data" }] }]
    volumes := some [{ name := "data", emptyDir := true }] }

private def dataDir : String := "/var/lib/z8s/emptydir/Pod_default_web-data"

private def dataFiles : FileSystem :=
  let made := FileSystem.empty.createDirAll [] none (Path.ofStr dataDir).ancestors
  (made.1.writeFile [] (.ofStr (dataDir ++ "/log")) [104, 105] none).1

private def dataContext : VolumeContext := ⟨"/var/lib/z8s", fun _ _ => none, fun _ _ => none, fun _ _ => none⟩

private def dataSupervisor : Supervisor :=
  (startPodFromSpec ⟨∅, ∅, ⟨IpPool.new ⟨Ipv4Addr.new 10 42 0 0, 29⟩, ∅, 29, Ipv4Addr.new 10 42 0 1⟩⟩
    (buildSpec (.pod dataPod)) (.ok ()) (StartEnv.smooth []).containers).2

private def dataHost : Host := ⟨⟨dataSupervisor, ResourceStore.new.apply (.pod dataPod), []⟩, dataFiles, []⟩

private theorem dataHost_running : ∀ cid ∈ (buildSpec (.pod dataPod)).ids,
    (dataHost.pt.sup.running.get cid).isSome = true := by
  decide +kernel

private def dataRunning : RunningPod := ⟨dataHost, dataPod, dataHost_running⟩

private def dataEnv : StartEnv := .smooth [utf8 "Pod_default_web-data"]

end Z8s.Scheduler
