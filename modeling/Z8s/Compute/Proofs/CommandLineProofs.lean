import Z8s.Collections.Proofs.BTreeMapProofs
import Z8s.Compute.CommandLine

/-!
# Proofs: command lines and environments of containers

Which containers run what the rule of Kubernetes says, and when a native process and an
OCI container see the same environment.
-/

namespace Z8s.Compute

open Collections Z8s.Types Cri List

variable {root : ImageRoot} {image : ImageConfig}

/-! ### The command -/

theorem readImageConfig_of_saved (h : root.saved = some image.config) :
    readImageConfig root = image.config := by
  have hruns : image.config.runs = true := by
    rw [SavedImageConfig.runs, Bool.or_eq_true]
    refine image.nonempty.imp (fun hep => ?_) fun hcmd => ?_
    · cases hlist : image.config.entrypoint with
      | none => exact absurd (by rw [hlist]; rfl) hep
      | some l => simpa [hlist] using hep
    · cases hlist : image.config.cmd with
      | none => exact absurd (by rw [hlist]; rfl) hcmd
      | some l => simpa [hlist] using hcmd
  rw [readImageConfig, h]
  exact if_pos hruns

theorem chooseCommand_of_ne {entrypoint : String} (h : entrypoint ≠ "") (args : List String)
    (workingDir : Option String) : chooseCommand root entrypoint args workingDir = (entrypoint, args) :=
  if_neg h

theorem bind_head?_eq (ep : Option (List String)) : ep.bind List.head? = (ep.getD []).head? := by
  cases ep <;> rfl

/-- Without an entrypoint in the spec, the first word of the Entrypoint of the image is run, or else its
Cmd. -/
theorem chooseCommand_empty (h : root.saved = some image.config) (args : List String)
    (workingDir : Option String) :
    (image.config.entrypoint.getD [] = [] ∧
      (chooseCommand root "" args workingDir).1 :: (chooseCommand root "" args workingDir).2 =
        image.config.cmd.getD []) ∨
    ∃ prog more, image.config.entrypoint.getD [] = prog :: more ∧
      chooseCommand root "" args workingDir =
        (prog, if args.isEmpty then image.config.cmd.getD [] else args) := by
  rw [chooseCommand, if_pos rfl, if_pos (.inl rfl), readImageConfig_of_saved h, bind_head?_eq]
  cases hep : image.config.entrypoint.getD [] with
  | cons prog more => exact .inr ⟨prog, more, rfl, rfl⟩
  | nil =>
    refine .inl ⟨rfl, ?_⟩
    cases hcmd : image.config.cmd.getD [] with
    | cons prog rest => rfl
    | nil => exact absurd image.nonempty (by simp [hep, hcmd])

/-- The cases are those of the command in the pod: absent or empty, with an empty first word, or with a
program. -/
theorem argv_eq_kubernetesArgv_iff (h : root.saved = some image.config) (container : Container) :
    argv root container =
        kubernetesArgv (image.config.entrypoint.getD []) (image.config.cmd.getD [])
          (container.command.getD []) (container.args.getD []) ↔
      wordsKept (image.config.entrypoint.getD []) (image.config.cmd.getD [])
        (container.command.getD []) (container.args.getD []) = true := by
  obtain ⟨name, img, command, args, workingDir, env, envFrom, ports, mounts⟩ := container
  generalize hargs : args.getD [] = a
  rcases hcommand : command.getD [] with _ | ⟨k, ks⟩
  · -- no command
    have hline : commandLine ⟨name, img, command, args, workingDir, env, envFrom, ports, mounts⟩ =
        ("", a) := by
      rcases command with _ | _ | ⟨k, ks⟩
      · exact congrArg _ hargs
      · exact congrArg _ hargs
      · cases hcommand
    rw [argv, hline]
    rcases chooseCommand_empty h a workingDir with ⟨hep, hchosen⟩ | ⟨prog, more, hep, hchosen⟩
    · rw [hchosen, hep]
      cases a with
      | nil => simp [kubernetesArgv, wordsKept]
      | cons arg rest =>
        simp only [kubernetesArgv, wordsKept, ne_eq, not_true_eq_false, if_false, reduceCtorEq,
          not_false_eq_true, if_true, nil_append, isEmpty_cons, Bool.false_or, beq_iff_eq]
        exact eq_comm
    · rw [hchosen, hep]
      cases a with
      | nil => simp [kubernetesArgv, wordsKept]
      | cons arg rest => simp [kubernetesArgv, wordsKept]
  · obtain rfl : command = some (k :: ks) := by
      rcases command with _ | l
      · cases hcommand
      · exact congrArg some hcommand
    have hline : commandLine ⟨name, img, some (k :: ks), args, workingDir, env, envFrom, ports, mounts⟩ =
        (k, ks ++ a) := congrArg (fun l => (k, ks ++ l)) hargs
    rw [argv, hline]
    by_cases hk : k = ""
    · subst hk
      rcases chooseCommand_empty h (ks ++ a) workingDir with ⟨hep, hchosen⟩ | ⟨prog, more, hep, hchosen⟩
      · rw [hchosen, hep]
        simp [kubernetesArgv, wordsKept]
      · rw [hchosen, hep]
        simp only [kubernetesArgv, wordsKept, ne_eq, reduceCtorEq, not_false_eq_true, if_true,
          cons_append, List.cons.injEq, Bool.and_eq_true, beq_iff_eq, Bool.or_eq_true,
          Bool.not_eq_true']
        refine and_congr_right fun _ => ?_
        generalize ks ++ a = words
        cases words <;> simp
    · rw [chooseCommand_of_ne hk]
      simp [kubernetesArgv, wordsKept, hk]

theorem followsRule_iff (image : ImageConfig) (container : Container) :
    FollowsRule image container ↔
      wordsKept (image.config.entrypoint.getD []) (image.config.cmd.getD [])
        (container.command.getD []) (container.args.getD []) = true := by
  constructor
  · intro h
    have hroot : (⟨some image.config, fun _ => false, []⟩ : ImageRoot).saved = some image.config := rfl
    exact (argv_eq_kubernetesArgv_iff hroot container).1 (h _ hroot)
  · intro h root hroot
    exact (argv_eq_kubernetesArgv_iff hroot container).2 h

/-- An Entrypoint of three words runs without the last two. -/
theorem entrypoint_loses_words :
    argv ⟨some { entrypoint := some ["tini", "--", "nginx"], cmd := some ["-g"] }, fun _ => false, []⟩
        { name := "web" } = ["tini", "-g"] ∧
      kubernetesArgv ["tini", "--", "nginx"] ["-g"] [] [] = ["tini", "--", "nginx", "-g"] := by
  decide +kernel

/-! ### The environment -/

theorem exists_lookup_of_mem_keys {es : List (String × String)} {k : String}
    (h : k ∈ es.map Prod.fst) : ∃ v, (k, v) ∈ es ∧ es.lookup k = some v := by
  cases hv : es.lookup k with
  | none =>
    obtain ⟨e, he, rfl⟩ := mem_map.1 h
    exact absurd rfl (bne_iff_ne.1 (lookup_eq_none_iff.1 hv e he))
  | some v =>
    obtain ⟨front, back, rfl, -⟩ := lookup_eq_some_iff.1 hv
    exact ⟨v, mem_append_right front mem_cons_self, rfl⟩

theorem lookup_foldl_pushUnseen (es env : List (String × String)) (k : String) :
    (es.foldl pushUnseen env).lookup k = (env.lookup k).or (es.lookup k) := by
  induction es generalizing env with
  | nil => exact (Option.or_none).symm
  | cons e es ih =>
    rw [foldl_cons, ih, BTreeMap.lookup_cons_eq_ite, pushUnseen]
    by_cases hseen : env.any (·.1 == e.1) = true
    · -- the key has been seen, so the pair adds nothing for it
      rw [if_pos hseen]
      by_cases hk : k = e.1
      · obtain ⟨e', he', heq⟩ := any_eq_true.1 hseen
        have hmem : k ∈ env.map Prod.fst :=
          mem_map.2 ⟨e', he', (beq_iff_eq.1 heq).trans hk.symm⟩
        obtain ⟨v, -, hv⟩ := exists_lookup_of_mem_keys hmem
        rw [hv, Option.some_or, Option.some_or]
      · rw [if_neg hk]
    · rw [if_neg hseen, lookup_append, BTreeMap.lookup_cons_eq_ite, Option.or_assoc]
      by_cases hk : k = e.1
      · rw [if_pos hk, if_pos hk, Option.some_or]
      · rw [if_neg hk, if_neg hk, lookup_nil, Option.none_or]

theorem lookup_mergeEnv (h : (readImageConfig root).env.getD [] = []) (env : List (String × String))
    (k : String) : (mergeEnv env root).lookup k = env.lookup k := by
  rw [mergeEnv, h]
  exact lookup_foldl_pushUnseen env [] k

theorem get_nativeEnv (env : List (String × String)) (k : String) :
    (nativeEnv env).get k = env.reverse.lookup k :=
  BTreeMap.get_ofList env k

theorem uniqueValues_iff {env : List (String × String)} :
    uniqueValues env = true ↔ ∀ k, env.reverse.lookup k = env.lookup k := by
  simp only [uniqueValues, all_eq_true, beq_iff_eq]
  constructor
  · intro h k
    by_cases hk : ∃ e ∈ env, e.1 = k
    · obtain ⟨e, he, rfl⟩ := hk
      exact (h e he).symm
    · have hne (e : String × String) (he : e ∈ env) : (k != e.1) = true := by
        rw [bne_iff_ne]
        rintro rfl
        exact hk ⟨e, he, rfl⟩
      rw [lookup_eq_none_iff.2 hne, lookup_eq_none_iff]
      exact fun e he => hne e (mem_reverse.1 he)
  · intro h e _
    exact (h e.1).symm

theorem explicitEnv_prefix_envVars (toUppercase : String → String)
    (listing : String → List ResourceTracker) (resource : AnyResource) (container : Container) :
    explicitEnv container <+: envVars toUppercase listing resource container := by
  cases resource with
  | pod pod => exact ⟨_, (append_assoc _ _ _).symm⟩
  | _ => exact prefix_rfl

theorem sameEnvironment_iff (toUppercase : String → String) (listing : String → List ResourceTracker)
    (resource : AnyResource) (container : Container) :
    SameEnvironment (explicitEnv container) (envVars toUppercase listing resource container) ↔
      uniqueValues (envVars toUppercase listing resource container) = true := by
  obtain ⟨rest, hrest⟩ := explicitEnv_prefix_envVars toUppercase listing resource container
  rw [← hrest, uniqueValues_iff]
  constructor
  · intro h k
    have hroot : (readImageConfig ⟨none, fun _ => false, []⟩).env.getD [] = [] := rfl
    have hsame := (h _ hroot).1 k
    rwa [get_nativeEnv, lookup_mergeEnv hroot] at hsame
  · intro h root hroot
    refine ⟨fun k => by rw [get_nativeEnv, lookup_mergeEnv hroot, h], fun k hk => ?_⟩
    obtain ⟨v, hmem, hv⟩ := exists_lookup_of_mem_keys hk
    have hfirst : (explicitEnv container ++ rest).lookup k = some v := by
      rw [lookup_append, hv, Option.some_or]
    refine ⟨v, hmem, ?_, ?_⟩
    · rw [get_nativeEnv, h, hfirst]
    · rw [lookup_mergeEnv hroot, hfirst]

private def settings : ConfigMap where
  metadata := { name := some "settings", inNamespace := some "default" }
  data := some (BTreeMap.insert ∅ "MODE" "release")

private def debugged : Container where
  name := "web"
  env := some [{ name := "MODE", value := some "debug" }]
  envFrom := some [{ configMapRef := some "settings" }]

private def listed (kind : String) : List ResourceTracker :=
  if kind = "ConfigMap" then [.new (.configMap settings)] else []

private def debuggedEnv : List (String × String) :=
  envVars id listed (.pod { metadata := {} }) debugged

/-- A native process gets the value of the ConfigMap, an OCI container the one that the container lists. -/
theorem configMap_overrides_native_env :
    debuggedEnv = [("MODE", "debug"), ("MODE", "release")] ∧
      (nativeEnv debuggedEnv).get "MODE" = some "release" ∧
      mergeEnv debuggedEnv ⟨none, fun _ => false, []⟩ = [("MODE", "debug")] := by
  decide +kernel

end Z8s.Compute
