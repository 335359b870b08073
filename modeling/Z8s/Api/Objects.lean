import Z8s.Api.Proto

/-!
# The objects behind protobuf bodies

Namespaces, pods and deployments with the fields that the decoder supports and any other fields, their
protobuf encoding inside `runtime.Unknown`, and the document that stands for them. The `Others` of a message
stand among its known fields in the order of field numbers. `Decodable` says which objects survive decoding.
-/

namespace Z8s.Api.Objects

open Rust Wire

/-- The numbers of the fields of containers: those that the decoder reads, and those of Kubernetes'
own message definitions. -/
inductive Numbering
  | decoder
  | kubernetes
  deriving DecidableEq, Repr

def Numbering.containerPort : Numbering → Nat
  | decoder => 1
  | kubernetes => 3

/-! ### Values -/

def strings (s : Option String) : List Value := s.toList.map fun s => .bytes (utf8 s)

def embedded (fields : List Field) : Value := .bytes (encode fields)

def labelFields (kv : String × String) : List Field :=
  numbered [(1, strings (some kv.1)), (2, strings (some kv.2))]

def labelValues (labels : List (String × String)) : List Value :=
  labels.map fun kv => embedded (labelFields kv)

/-! ### Documents -/

def labelsMap (labels : List (String × String)) : List (String × Json) :=
  (labels.map fun kv => (kv.1, .str kv.2)).foldl (fun acc kv => Json.insertField kv.1 kv.2 acc) []

def labelsJson (labels : List (String × String)) : Json := .obj (labelsMap labels)

def nonEmptyString (s : Option String) : Option Json :=
  if s.getD "" = "" then none else some (.str (s.getD ""))

def nonEmptyArray (items : List Json) : Option Json := if items = [] then none else some (.arr items)

/-- A message that is not set stands for an empty object. -/
def orEmpty (j : Option Json) : Json := j.getD (.ofFields [])

/-! ### Metadata -/

structure ObjectMeta where
  name : Option String := none
  generateName : Option String := none
  nspace : Option String := none
  uid : Option String := none
  labels : List (String × String) := []
  others : Others [1, 2, 3, 5, 11] := ∅

namespace ObjectMeta

def blocks (m : ObjectMeta) : List (Nat × List Value) :=
  [(1, strings m.name), (2, strings m.generateName), (3, strings m.nspace), (5, strings m.uid),
    (11, labelValues m.labels)]

def fields (m : ObjectMeta) : List Field := message m.blocks m.others

def toJson (m : ObjectMeta) : Json :=
  .record [("name", some (.str (m.name.getD ""))), ("generateName", nonEmptyString m.generateName),
    ("namespace", nonEmptyString m.nspace), ("uid", nonEmptyString m.uid),
    ("labels", if m.labels = [] then none else some (labelsJson m.labels))]

structure Decodable (m : ObjectMeta) : Prop where
  uid : m.uid.getD "" = "" ∨ blocked 5 m.others.fields = false
  labels : m.labels = [] ∨ blocked 11 m.others.fields = false

end ObjectMeta

/-! ### Containers -/

structure EnvVar where
  name : String
  value : Option String := none
  others : Others [1, 2] := ∅

namespace EnvVar

def blocks (e : EnvVar) : List (Nat × List Value) :=
  [(1, strings (some e.name)), (2, strings e.value)]

def fields (e : EnvVar) : List Field := message e.blocks e.others

def toJson (e : EnvVar) : Json :=
  .record [("name", some (.str e.name)), ("value", some (.str (e.value.getD "")))]

end EnvVar

structure ContainerPort (n : Numbering) where
  containerPort : Nat
  isPort : 1 ≤ containerPort ∧ containerPort ≤ 65535
  protocol : Option String := none
  others : Others [n.containerPort, 4] := ∅

namespace ContainerPort

variable {n : Numbering}

def blocks (p : ContainerPort n) : List (Nat × List Value) :=
  [(n.containerPort, [.varint p.containerPort]), (4, strings p.protocol)]

def fields (p : ContainerPort n) : List Field := message p.blocks p.others

def toJson (p : ContainerPort n) : Json :=
  .record [("containerPort", some (.num p.containerPort)),
    ("protocol", some (.str (p.protocol.getD "TCP")))]

end ContainerPort

structure Container (n : Numbering) where
  name : Option String := none
  image : Option String := none
  command : List String := []
  args : List String := []
  env : List EnvVar := []
  ports : List (ContainerPort n) := []
  others : Others [1, 2, 3, 4, 6, 7] := ∅

namespace Container

variable {n : Numbering}

def sixth (c : Container n) : List (List Field) :=
  match n with
  | .decoder => c.env.map EnvVar.fields
  | .kubernetes => c.ports.map ContainerPort.fields

def seventh (c : Container n) : List (List Field) :=
  match n with
  | .decoder => c.ports.map ContainerPort.fields
  | .kubernetes => c.env.map EnvVar.fields

def blocks (c : Container n) : List (Nat × List Value) :=
  [(1, strings c.name), (2, strings c.image), (3, c.command.map fun s => .bytes (utf8 s)),
    (4, c.args.map fun s => .bytes (utf8 s)), (6, c.sixth.map embedded),
    (7, c.seventh.map embedded)]

def fields (c : Container n) : List Field := message c.blocks c.others

def json (c : Container n) (env ports : List Json) : Json :=
  .record [("name", some (.str (c.name.getD ""))), ("image", some (.str (c.image.getD ""))),
    ("command", nonEmptyArray (c.command.map .str)), ("args", nonEmptyArray (c.args.map .str)),
    ("env", nonEmptyArray env), ("ports", nonEmptyArray ports)]

def toJson (c : Container n) : Json :=
  c.json (c.env.map EnvVar.toJson) (c.ports.map ContainerPort.toJson)

/-- With the decoder's numbers the protocol comes after the port number, which is a varint, and is
always taken to be TCP. With Kubernetes' numbers environment and ports are taken for each other. -/
def Decodable (c : Container n) : Prop :=
  match n with
  | .decoder => ∀ p ∈ c.ports, p.protocol.getD "TCP" = "TCP"
  | .kubernetes => c.env = [] ∧ c.ports = []

end Container

/-! ### Pods -/

structure PodSpec (n : Numbering) where
  containers : List (Container n) := []
  initContainers : List (Container n) := []
  restartPolicy : Option String := none
  dnsPolicy : Option String := none
  serviceAccountName : Option String := none
  others : Others [2, 3, 6, 8, 20] := ∅

namespace PodSpec

variable {n : Numbering}

def blocks (s : PodSpec n) : List (Nat × List Value) :=
  [(2, s.containers.map fun c => embedded c.fields), (3, strings s.restartPolicy),
    (6, strings s.dnsPolicy), (8, strings s.serviceAccountName),
    (20, s.initContainers.map fun c => embedded c.fields)]

def fields (s : PodSpec n) : List Field := message s.blocks s.others

def json (s : PodSpec n) (containers initContainers : List Json) : Json :=
  .record [("containers", some (.arr containers)), ("initContainers", nonEmptyArray initContainers),
    ("dnsPolicy", s.dnsPolicy.map .str), ("serviceAccountName", s.serviceAccountName.map .str),
    ("restartPolicy", s.restartPolicy.map .str)]

def toJson (s : PodSpec n) : Json :=
  s.json (s.containers.map Container.toJson) (s.initContainers.map Container.toJson)

structure Decodable (s : PodSpec n) : Prop where
  containers : s.containers = [] ∨ blocked 2 s.others.fields = false
  restartPolicy : s.restartPolicy = none ∨ blocked 3 s.others.fields = false
  dnsPolicy : s.dnsPolicy = none ∨ blocked 6 s.others.fields = false
  serviceAccountName : s.serviceAccountName = none ∨ blocked 8 s.others.fields = false
  initContainers : s.initContainers = [] ∨ blocked 20 s.others.fields = false
  each : ∀ c ∈ s.containers ++ s.initContainers, c.Decodable

end PodSpec

/-! ### Deployments -/

structure LabelSelector where
  matchLabels : List (String × String) := []
  others : Others [1] := ∅

namespace LabelSelector

def blocks (s : LabelSelector) : List (Nat × List Value) := [(1, labelValues s.matchLabels)]

def fields (s : LabelSelector) : List Field := message s.blocks s.others

def toJson (s : LabelSelector) : Json := .record [("matchLabels", some (labelsJson s.matchLabels))]

end LabelSelector

structure PodTemplate (n : Numbering) where
  metadata : Option ObjectMeta := none
  spec : Option (PodSpec n) := none
  others : Others [1, 2] := ∅

namespace PodTemplate

variable {n : Numbering}

def blocks (t : PodTemplate n) : List (Nat × List Value) :=
  [(1, t.metadata.toList.map fun m => embedded m.fields),
    (2, t.spec.toList.map fun s => embedded s.fields)]

def fields (t : PodTemplate n) : List Field := message t.blocks t.others

def toJson (t : PodTemplate n) : Json :=
  .record [("metadata", some (orEmpty (t.metadata.map ObjectMeta.toJson))),
    ("spec", some (orEmpty (t.spec.map PodSpec.toJson)))]

structure Decodable (t : PodTemplate n) : Prop where
  metadata : ∀ m ∈ t.metadata, m.Decodable
  spec : ∀ s ∈ t.spec, s.Decodable

end PodTemplate

def Replicas : Type := { r : Int // -2 ^ 31 ≤ r ∧ r < 2 ^ 31 }

/-- An `int32` as a varint: sign-extended to 64 bits. -/
def Replicas.varint (r : Replicas) : Nat := (r.val % 2 ^ 64).toNat

structure DeploymentSpec (n : Numbering) where
  replicas : Option Replicas := none
  selector : Option LabelSelector := none
  template : Option (PodTemplate n) := none
  others : Others [1, 2, 3] := ∅

namespace DeploymentSpec

variable {n : Numbering}

def blocks (s : DeploymentSpec n) : List (Nat × List Value) :=
  [(1, s.replicas.toList.map fun r => .varint r.varint),
    (2, s.selector.toList.map fun l => embedded l.fields),
    (3, s.template.toList.map fun t => embedded t.fields)]

def fields (s : DeploymentSpec n) : List Field := message s.blocks s.others

def toJson (s : DeploymentSpec n) : Json :=
  .record [("replicas", some (.num (s.replicas.elim 1 Subtype.val))),
    ("selector", some (orEmpty (s.selector.map LabelSelector.toJson))),
    ("template", some (orEmpty (s.template.map PodTemplate.toJson)))]

/-- A number of replicas that is set hides the selector and the template. -/
structure Decodable (s : DeploymentSpec n) : Prop where
  replicas : s.replicas = none ∨ s.selector = none ∧ s.template = none
  template : ∀ t ∈ s.template, t.Decodable

end DeploymentSpec

/-! ### Bodies -/

inductive Object (n : Numbering)
  | nspace (metadata : Option ObjectMeta) (others : Others [1])
  | pod (metadata : Option ObjectMeta) (spec : Option (PodSpec n)) (others : Others [1, 2])
  | deployment (metadata : Option ObjectMeta) (spec : Option (DeploymentSpec n))
      (others : Others [1, 2])

namespace Object

variable {n : Numbering}

def kind : Object n → String
  | nspace .. => "Namespace"
  | pod .. => "Pod"
  | deployment .. => "Deployment"

def fields : Object n → List Field
  | nspace metadata others =>
    message [(1, metadata.toList.map fun m => embedded m.fields)] others
  | pod metadata spec others =>
    message [(1, metadata.toList.map fun m => embedded m.fields),
      (2, spec.toList.map fun s => embedded s.fields)] others
  | deployment metadata spec others =>
    message [(1, metadata.toList.map fun m => embedded m.fields),
      (2, spec.toList.map fun s => embedded s.fields)] others

/-- The fields of the document beside `apiVersion` and `kind`. -/
def content : Object n → List (String × Option Json)
  | nspace metadata _ => [("metadata", some (orEmpty (metadata.map ObjectMeta.toJson)))]
  | pod metadata spec _ =>
    [("metadata", some (orEmpty (metadata.map ObjectMeta.toJson))),
      ("spec", some (orEmpty (spec.map PodSpec.toJson)))]
  | deployment metadata spec _ =>
    [("metadata", some (orEmpty (metadata.map ObjectMeta.toJson))),
      ("spec", some (orEmpty (spec.map DeploymentSpec.toJson)))]

def Decodable : Object n → Prop
  | nspace metadata _ => ∀ m ∈ metadata, m.Decodable
  | pod metadata spec _ => (∀ m ∈ metadata, m.Decodable) ∧ ∀ s ∈ spec, s.Decodable
  | deployment metadata spec _ => (∀ m ∈ metadata, m.Decodable) ∧ ∀ s ∈ spec, s.Decodable

end Object

/-- An object in its `runtime.Unknown` wrapper. -/
structure Body (n : Numbering) where
  apiVersion : String
  object : Object n
  typeMetaOthers : Others [1, 2] := ∅
  others : Others [1, 2] := ∅

namespace Body

variable {n : Numbering}

def typeMeta (b : Body n) : List Field :=
  message [(1, strings (some b.apiVersion)), (2, strings (some b.object.kind))] b.typeMetaOthers

def fields (b : Body n) : List Field :=
  message [(1, [embedded b.typeMeta]), (2, [embedded b.object.fields])] b.others

def bytes (b : Body n) : List UInt8 := magic ++ encode b.fields

def toJson (b : Body n) : Json :=
  .record ([("apiVersion", some (.str b.apiVersion)), ("kind", some (.str b.object.kind))] ++
    b.object.content)

end Body

end Z8s.Api.Objects
