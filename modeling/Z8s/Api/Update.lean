import Z8s.Api.MergePatch
import Z8s.Api.Proto
import Z8s.Compute.Scale

/-!
# Updating an object

Model of `update_configmap`, `update_secret`, `update_service`, `update_ingress`,
`update_networkpolicy` and `patch_deployment` (`src/api/handlers`), which serve both PUT and PATCH. How `serde`
writes and reads an object is left open. The calls of `on_apply` that follow do not write the store.
-/

namespace Z8s.Api

open Rust Collections Z8s.Types Compute

variable (ns name : String)

def badRequest (message : String) : ApiError := { status := 400, message }

/-- How a request ends without an object: with a panic, or with an answer. -/
inductive Refusal
  | panicked (fault : Fault)
  | answered (e : ApiError)
  deriving DecidableEq

/-- The parsers of bodies, `serde_json::from_slice` and `serde_yaml::from_slice`. -/
structure BodyParsers where
  json : List UInt8 → Option Json
  yaml : List UInt8 → Option Json

def parseBody (prof : Profile) (parsers : BodyParsers) (bytes : List UInt8) : Except Refusal Json :=
  match tryProtoToJson prof bytes with
  | .error fault => .error (.panicked fault)
  | .ok (some v) => .ok v
  | .ok none =>
    match (parsers.json bytes).or (parsers.yaml bytes) with
    | some v => .ok v
    | none => .error (.answered (badRequest "invalid body: not valid JSON or YAML"))

/-- `serde_json::to_value` and `serde_json::from_value` of a type of objects. -/
structure Serde (α : Type) where
  toValue : α → Json
  fromValue : Json → Except String α

structure UpdateHandler (α : Type) where
  kind : String
  serde : Serde α
  wrap : α → AnyResource
  unwrap : AnyResource → Option α
  /-- What is filled in before the object is stored, from the namespace and the name of the path. -/
  complete : String → String → α → α
  kind_wrap : ∀ x, (wrap x).kind = kind
  unwrap_wrap : ∀ x, unwrap (wrap x) = some x
  complete_complete : ∀ ns name x, complete ns name (complete ns name x) = complete ns name x

namespace UpdateHandler

variable {α : Type} (h : UpdateHandler α)

/-- The body is merged into what the object is in the list, or into an empty object. -/
def merged (trackers : List ResourceTracker) (patch : Json) : Json :=
  let existing := (trackers.find? fun t => t.resource.namespaceOf == ns && t.resource.name == name).bind
    fun t => (h.unwrap t.resource).map h.serde.toValue
  jsonMergePatch (existing.getD (.obj [])) patch

def updated (trackers : List ResourceTracker) (patch : Json) : Except ApiError α :=
  match h.serde.fromValue (h.merged ns name trackers patch) with
  | .ok x => .ok (h.complete ns name x)
  | .error e => .error (badRequest ("invalid " ++ h.kind ++ ": " ++ e))

/-- A whole request, with the objects of the kind in the order in which the store lists them. -/
def update (prof : Profile) (parsers : BodyParsers) (store : ResourceStore)
    (trackers : List ResourceTracker) (ns name : String) (raw : List UInt8) :
    Except Refusal α × ResourceStore :=
  match parseBody prof parsers raw with
  | .error e => (.error e, store)
  | .ok patch =>
    match h.updated ns name trackers patch with
    | .error e => (.error (.answered e), store)
    | .ok x => (.ok x, store.apply (h.wrap x))

def pathUid : String := h.kind ++ "/" ++ ns ++ "/" ++ name

end UpdateHandler

/-! ### The six handlers -/

/-- The namespace and the name of the path, where the metadata have none. -/
def fillPath (m : ObjectMeta) : ObjectMeta :=
  { m with inNamespace := m.inNamespace.or (some ns), name := m.name.or (some name) }

@[simp] theorem fillPath_fillPath (m : ObjectMeta) :
    fillPath ns name (fillPath ns name m) = fillPath ns name m := by
  simp [fillPath]

/-- A field that may be missing or null, and is an object otherwise. -/
def objectField (v : Json) (k : String) : Except String (Option (List (String × Json))) :=
  match v.get k with
  | none | some .null => .ok none
  | some (.obj fields) => .ok (some fields)
  | some _ => .error ("invalid type of " ++ k ++ ", expected a map")

/-- A field that may be missing or null, and is a text otherwise. -/
def stringField (v : Json) (k : String) : Except String (Option String) :=
  match v.get k with
  | none | some .null => .ok none
  | some (.str s) => .ok (some s)
  | some _ => .error ("invalid type of " ++ k ++ ", expected a string")

def stringMap : List (String × Json) → Except String (BTreeMap String String)
  | [] => .ok ∅
  | (k, .str s) :: fields => (stringMap fields).map (·.insert k s)
  | (k, _) :: _ => .error ("invalid type of " ++ k ++ ", expected a string")

def dataValue (data : BTreeMap String String) : Json := .obj (data.iter.map fun e => (e.1, .str e.2))

def metadataValue (m : ObjectMeta) : Json :=
  .record [("name", m.name.map .str), ("namespace", m.inNamespace.map .str)]

/-- `serde` of config maps with a name, a namespace and data. -/
def configMapSerde : Serde ConfigMap where
  toValue cm := .record [("data", cm.data.map dataValue), ("metadata", some (metadataValue cm.metadata))]
  fromValue v := do
    let metadata := Json.obj ((← objectField v "metadata").getD [])
    let name ← stringField metadata "name"
    let ns ← stringField metadata "namespace"
    let data ← (← objectField v "data").mapM stringMap
    return { metadata := { name, inNamespace := ns }, data }

def updateConfigmap (serde : Serde ConfigMap) : UpdateHandler ConfigMap where
  kind := "ConfigMap"
  serde := serde
  wrap := .configMap
  unwrap
    | .configMap cm => some cm
    | _ => none
  complete ns name cm := { cm with metadata := fillPath ns name cm.metadata }
  kind_wrap _ := rfl
  unwrap_wrap _ := rfl
  complete_complete ns name cm := by simp

/-- The entries of `string_data` become entries of `data`. -/
def moveStringData (sec : Secret) : Secret :=
  match sec.stringData with
  | none => sec
  | some sd =>
    { sec with
      stringData := none
      data := some (sd.iter.foldl (fun data e => data.insert e.1 e.2.toUTF8.toList)
        (sec.data.getD ∅)) }

def updateSecret (serde : Serde Secret) : UpdateHandler Secret where
  kind := "Secret"
  serde := serde
  wrap := .secret
  unwrap
    | .secret sec => some sec
    | _ => none
  complete ns name sec := moveStringData { sec with metadata := fillPath ns name sec.metadata }
  kind_wrap _ := rfl
  unwrap_wrap _ := rfl
  complete_complete ns name sec := by
    unfold moveStringData
    cases sec.stringData <;> simp

/-- A port without a target port leads to the port of the same number. -/
def fillTargetPort (p : ServicePort) : ServicePort :=
  { p with targetPort := p.targetPort.or (some (.int p.port)) }

theorem fillTargetPort_fillTargetPort (p : ServicePort) :
    fillTargetPort (fillTargetPort p) = fillTargetPort p := by
  simp [fillTargetPort]

def fillTargetPorts (spec : ServiceSpec) : ServiceSpec :=
  { spec with ports := spec.ports.map (·.map fillTargetPort) }

theorem fillTargetPorts_fillTargetPorts (spec : ServiceSpec) :
    fillTargetPorts (fillTargetPorts spec) = fillTargetPorts spec := by
  simp [fillTargetPorts, Function.comp_def, fillTargetPort_fillTargetPort]

def updateService (serde : Serde Service) : UpdateHandler Service where
  kind := "Service"
  serde := serde
  wrap := .service
  unwrap
    | .service svc => some svc
    | _ => none
  complete ns name svc := { svc with
    metadata := fillPath ns name svc.metadata
    spec := svc.spec.map fillTargetPorts }
  kind_wrap _ := rfl
  unwrap_wrap _ := rfl
  complete_complete ns name svc := by
    simp [Function.comp_def, fillTargetPorts_fillTargetPorts]

def updateIngress (serde : Serde Ingress) : UpdateHandler Ingress where
  kind := "Ingress"
  serde := serde
  wrap := .ingress
  unwrap
    | .ingress ing => some ing
    | _ => none
  complete ns name ing := { ing with metadata := fillPath ns name ing.metadata }
  kind_wrap _ := rfl
  unwrap_wrap _ := rfl
  complete_complete ns name ing := by simp

def updateNetworkpolicy (serde : Serde NetworkPolicy) : UpdateHandler NetworkPolicy where
  kind := "NetworkPolicy"
  serde := serde
  wrap := .networkPolicy
  unwrap
    | .networkPolicy np => some np
    | _ => none
  complete ns name np := { np with metadata := fillPath ns name np.metadata }
  kind_wrap _ := rfl
  unwrap_wrap _ := rfl
  complete_complete ns name np := by simp

/-- The creation time and the resource version, which no modelled function reads, are left out. -/
def fillDeploymentMetadata (deploy : Deployment) : Deployment :=
  let ns := deploy.metadata.inNamespace.getD "default"
  let name := deploy.metadata.name.getD "unknown"
  { deploy with
    metadata := { deploy.metadata with
      uid := deploy.metadata.uid.or (some ("Deployment/" ++ ns ++ "/" ++ name)) } }

def patchDeployment (serde : Serde Deployment) : UpdateHandler Deployment where
  kind := "Deployment"
  serde := serde
  wrap := .deployment
  unwrap
    | .deployment deploy => some deploy
    | _ => none
  complete ns name deploy :=
    fillDeploymentMetadata { deploy with metadata := fillPath ns name deploy.metadata }
  kind_wrap _ := rfl
  unwrap_wrap _ := rfl
  complete_complete ns name deploy := by
    simp [fillDeploymentMetadata, fillPath]

end Z8s.Api
