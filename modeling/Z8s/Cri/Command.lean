import Z8s.Collections.BTreeMap
import Z8s.Rust.Str

/-!
# The process of a container

Model of `read_image_config` and `guess_image_config` (`src/cri/oci.rs`), of the program and the arguments
that `spawn_container_from_config` (`src/cri/runtime.rs`) chooses, and of the environments that a native
process and an OCI container get.
-/

namespace Z8s.Cri

open Rust Collections

structure SavedImageConfig where
  entrypoint : Option (List String) := none
  cmd : Option (List String) := none
  env : Option (List String) := none
  workingDir : Option String := none
  deriving DecidableEq, Repr

structure ImageRoot where
  /-- The saved config, if the file can be read and parsed. -/
  saved : Option SavedImageConfig
  /-- There is something at a relative path. -/
  present : String → Bool
  /-- The names of the executable files and links in the root directory. -/
  executables : List String

def entrypointCandidates : List String :=
  ["docker-entrypoint.sh", "usr/local/bin/docker-entrypoint.sh", "usr/bin/docker-entrypoint.sh",
    "entrypoint.sh", "bin/sh"]

def guessImageConfig (root : ImageRoot) : SavedImageConfig :=
  match entrypointCandidates.find? root.present with
  | some rel => { entrypoint := some ["/" ++ trimStartMatches '/' rel] }
  | none =>
    match root.executables with
    | [exe] => { entrypoint := some ["/" ++ exe] }
    | _ => {}

def SavedImageConfig.runs (cfg : SavedImageConfig) : Bool :=
  cfg.entrypoint.any (!·.isEmpty) || cfg.cmd.any (!·.isEmpty)

def readImageConfig (root : ImageRoot) : SavedImageConfig :=
  match root.saved with
  | some cfg => if cfg.runs then cfg else guessImageConfig root
  | none => guessImageConfig root

/-- The program and its arguments, from the entrypoint, the arguments and the working directory in the
spec of the container. -/
def chooseCommand (root : ImageRoot) (entrypoint : String) (args : List String)
    (workingDir : Option String) : String × List String :=
  let oci := if entrypoint = "" ∨ workingDir.isNone then readImageConfig root else {}
  if entrypoint = "" then
    let ociCmd := oci.cmd.getD []
    match oci.entrypoint.bind List.head? with
    | some ep => (ep, if args.isEmpty then ociCmd else args)
    | none =>
      match ociCmd, args with
      | prog :: rest, _ => (prog, rest)
      | [], prog :: rest => (prog, rest)
      | [], [] => (entrypoint, args)
  else (entrypoint, args)

/-! ### Environments -/

/-- `env_clear` and `envs`: a later pair overrides an earlier one. -/
def nativeEnv (envVars : List (String × String)) : BTreeMap String String := .ofList envVars

def pushUnseen (env : List (String × String)) (e : String × String) : List (String × String) :=
  if env.any (·.1 == e.1) then env else env ++ [e]

def mergeEnv (envVars : List (String × String)) (root : ImageRoot) : List (String × String) :=
  let ociEnv := (readImageConfig root).env.getD []
  (ociEnv.filterMap (splitOnce '=')).foldl pushUnseen (envVars.foldl pushUnseen [])

end Z8s.Cri
