import Z8s.Cri.Command
import Z8s.Rust.Utf8
import Z8s.Types

/-!
# Command lines and environments of containers

Model of the parts of `build_spec` (`src/components/compute/spec_builder.rs`) that make the command line and
the environment of a container, with `resolve_env_from` and `resolve_service_env`. What the store lists for a
kind, in the order of the listing, is an argument, and so is `str::to_uppercase`.
-/

namespace Z8s.Compute

open Rust Z8s.Types Cri

def commandLine (container : Container) : String × List String :=
  match container.command with
  | some (prog :: rest) => (prog, rest ++ container.args.getD [])
  | _ => ("", container.args.getD [])

def argv (root : ImageRoot) (container : Container) : List String :=
  let line := commandLine container
  let chosen := chooseCommand root line.1 line.2 container.workingDir
  chosen.1 :: chosen.2

/-! ### The environment -/

/-- A name and a namespace are empty when they are not given. -/
def objectKey (metadata : ObjectMeta) : String × String :=
  (metadata.inNamespace.getD "", metadata.name.getD "")

/-- The ConfigMap under a key; of several ones the last that is listed. -/
def fetchCms (trackers : List ResourceTracker) (key : String × String) : Option ConfigMap :=
  trackers.reverse.findSome? fun t =>
    match t.resource with
    | .configMap cm => if objectKey cm.metadata = key then some cm else none
    | _ => none

def fetchSecrets (trackers : List ResourceTracker) (key : String × String) : Option Secret :=
  trackers.reverse.findSome? fun t =>
    match t.resource with
    | .secret sec => if objectKey sec.metadata = key then some sec else none
    | _ => none

def sourceVars (ns : String) (cms : String × String → Option ConfigMap)
    (secrets : String × String → Option Secret) (source : EnvFromSource) : List (String × String) :=
  let named (k : String) := source.namePrefix.getD "" ++ k
  let fromConfigMap := (source.configMapRef.bind fun name => cms (ns, name)).toList.flatMap fun cm =>
    (cm.data.getD ∅).iter.map fun e => (named e.1, e.2)
  let fromSecret := (source.secretRef.bind fun name => secrets (ns, name)).toList.flatMap fun sec =>
    ((sec.data.getD ∅).iter.filterMap fun e => (fromUtf8 e.2).map (named e.1, ·)) ++
      (sec.stringData.getD ∅).iter.map fun e => (named e.1, e.2)
  fromConfigMap ++ fromSecret

def resolveEnvFrom (container : Container) (pod : Pod) (cms : String × String → Option ConfigMap)
    (secrets : String × String → Option Secret) : List (String × String) :=
  (container.envFrom.getD []).flatMap (sourceVars (pod.metadata.inNamespace.getD "default") cms secrets)

section

variable (toUppercase : String → String)

def variableName (s : String) : String := replaceChar '-' '_' (toUppercase s)

def portVars (svcPrefix : String) (port : ServicePort) : List (String × String) :=
  (svcPrefix ++ "_SERVICE_PORT", toString port.port.val) ::
    port.name.toList.map fun pname =>
      (svcPrefix ++ "_SERVICE_PORT_" ++ variableName toUppercase pname, toString port.port.val)

def serviceVars (svc : Service) : List (String × String) :=
  let clusterIp := (svc.spec.bind ServiceSpec.clusterIp).getD "None"
  if clusterIp = "None" ∨ clusterIp = "" then []
  else
    let svcPrefix := variableName toUppercase (svc.metadata.name.getD "")
    (svcPrefix ++ "_SERVICE_HOST", clusterIp) ::
      ((svc.spec.bind ServiceSpec.ports).getD []).flatMap (portVars toUppercase svcPrefix)

def resolveServiceEnv (pod : Pod) (trackers : List ResourceTracker) : List (String × String) :=
  trackers.flatMap fun t =>
    match t.resource with
    | .service svc =>
      if svc.metadata.inNamespace.getD "default" = pod.metadata.inNamespace.getD "default" then
        serviceVars toUppercase svc
      else []
    | _ => []

def explicitEnv (container : Container) : List (String × String) :=
  (container.env.getD []).map fun e => (e.name, e.value.getD "")

/-- The environment in the spec of a container. `listing` is what the store lists for a kind. -/
def envVars (listing : String → List ResourceTracker) (resource : AnyResource) (container : Container) :
    List (String × String) :=
  match resource with
  | .pod pod =>
    explicitEnv container ++
      resolveEnvFrom container pod (fetchCms (listing "ConfigMap")) (fetchSecrets (listing "Secret")) ++
      resolveServiceEnv toUppercase pod (listing "Service")
  | _ => explicitEnv container

end

/-! ### What is expected of them -/

/-- A saved config with something to run. -/
structure ImageConfig where
  config : SavedImageConfig
  nonempty : config.entrypoint.getD [] ≠ [] ∨ config.cmd.getD [] ≠ []

/-- The rule of Kubernetes for the lists Entrypoint and Cmd of an image and the command and args of a
container. -/
def kubernetesArgv (entrypoint cmd command args : List String) : List String :=
  if command ≠ [] then command ++ args
  else if args ≠ [] then entrypoint ++ args
  else entrypoint ++ cmd

/-- A container of the image runs what the rule says, wherever the image is unpacked. -/
def FollowsRule (image : ImageConfig) (container : Container) : Prop :=
  ∀ root : ImageRoot, root.saved = some image.config →
    argv root container =
      kubernetesArgv (image.config.entrypoint.getD []) (image.config.cmd.getD [])
        (container.command.getD []) (container.args.getD [])

/-- The Entrypoint is one word, or there is none and the args are those of the image; a command does not
begin with the empty word. A command that does is taken for none, and what is run for it is the same only
by chance. -/
def wordsKept (entrypoint cmd : List String) (command args : List String) : Bool :=
  match command, entrypoint with
  | [], [] => args.isEmpty || args == cmd
  | [], _ :: more => more.isEmpty
  | "" :: rest, [] => cmd == "" :: (rest ++ args)
  | "" :: rest, prog :: _ => prog == "" && (!(rest ++ args).isEmpty || cmd.isEmpty)
  | _ :: _, _ => true

/-- Native processes and OCI containers whose image has no variables see the same environment, and what the
container lists itself takes precedence. -/
def SameEnvironment (explicit env : List (String × String)) : Prop :=
  ∀ root : ImageRoot, (readImageConfig root).env.getD [] = [] →
    (∀ k, (nativeEnv env).get k = (mergeEnv env root).lookup k) ∧
      ∀ k ∈ explicit.map Prod.fst, ∃ v, (k, v) ∈ explicit ∧ (nativeEnv env).get k = some v ∧
        (mergeEnv env root).lookup k = some v

/-- No key stands for one value at its first and for another at its last place. -/
def uniqueValues (env : List (String × String)) : Bool :=
  env.all fun e => env.lookup e.1 == env.reverse.lookup e.1

end Z8s.Compute
