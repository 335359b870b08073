import Z8s.Types

/-!
# Container specs

Model of `src/cri/spec.rs` and of `build_spec` (`src/components/compute/spec_builder.rs`). Command line,
environment, volumes, limits and probes of a container decide nothing in the daemon and are left out; the
first three are modelled for themselves in `Z8s.Compute`.
-/

namespace Z8s.Cri

open Z8s.Types Rust

structure ContainerConfig where
  containerId : String
  containerName : String
  image : String
  isNative : Bool
  isolatedNet : Bool
  deriving DecidableEq, Repr

structure ContainerSpec where
  podName : String
  podUid : String
  containers : List ContainerConfig
  subnet : Option String
  deriving DecidableEq, Repr

def ContainerSpec.ids (spec : ContainerSpec) : List String := spec.containers.map (·.containerId)

def buildConfig (podName : String) (container : Container) : ContainerConfig :=
  let imageRef := container.image.getD ""
  { containerId := podName ++ "-" ++ container.name
    containerName := container.name
    image := imageRef
    isNative := imageRef == "" || imageRef == "host" || startsWith imageRef "host://"
    isolatedNet := !(container.ports.getD []).isEmpty }

def buildSpec (resource : AnyResource) : ContainerSpec where
  podName := resource.name
  podUid := resource.uid
  containers := (extractContainers resource).map (buildConfig resource.name)
  subnet := match resource with
    | .pod r => r.metadata.annotations.bind (List.lookup "z8s.io/subnet")
    | _ => none

end Z8s.Cri
