import Z8s.Program.Query
import Z8s.Rust.Json
import Z8s.Rust.Utf8
import Z8s.Wire.Format

/-!
# Protobuf bodies

Model of the decoder for Kubernetes' protobuf bodies (`src/api/proto.rs`). `Parser.nextField` computes
positions in 64 bits, as the build does. The decoder is a program that asks for the next field of a parser,
again and again. A `while let` loop takes as much fuel as its message has bytes, and one that needed more
would end in `Fault.diverges`.
-/

namespace Z8s.Api

open Rust Wire Program

variable (msg : List UInt8) (field : Nat)

structure Profile where
  overflowChecks : Bool
  deriving DecidableEq, Repr

inductive Fault
  /-- An arithmetic overflow that is checked. -/
  | overflow
  /-- A slice out of order or out of range. -/
  | slice
  /-- A loop that does not end. -/
  | diverges
  deriving DecidableEq, Repr

def usizeAdd (prof : Profile) (a b : Nat) : Except Fault Nat :=
  if a + b < 2 ^ 64 then .ok (a + b)
  else if prof.overflowChecks then .error .overflow
  else .ok ((a + b) % 2 ^ 64)

def slice (data : List UInt8) (start stop : Nat) : Except Fault (List UInt8) :=
  if start ≤ stop ∧ stop ≤ data.length then .ok ((data.take stop).drop start) else .error .slice

def fromLeBytes : List UInt8 → Nat
  | [] => 0
  | b :: bytes => b.toNat + 256 * fromLeBytes bytes

/-! ### The parser -/

structure Parser where
  data : List UInt8
  pos : Nat
  deriving DecidableEq, Repr

namespace Parser

def new (data : List UInt8) : Parser := ⟨data, 0⟩

/-- The loop of `read_varint`. The check of `shift` ends it after ten rounds. -/
def readVarintLoop (data : List UInt8) :
    (rounds pos shift result : Nat) → Option (Nat × Parser)
  | 0, _, _, _ => none
  | rounds + 1, pos, shift, result =>
    match data[pos]? with
    | none => none
    | some b =>
      let pos := pos + 1
      let result := result ||| ((b.toNat &&& 0x7f) <<< shift) % 2 ^ 64
      if b.toNat &&& 0x80 = 0 then some (result, ⟨data, pos⟩)
      else
        let shift := shift + 7
        if shift ≥ 64 then none else readVarintLoop data rounds pos shift result

def readVarint (p : Parser) : Option (Nat × Parser) := readVarintLoop p.data 10 p.pos 0 0

/-- The next `len` bytes, as `next_field` takes them for the wire types 1, 2 and 5. -/
def takeBytes (prof : Profile) (p : Parser) (len : Nat) :
    Except Fault (Option (List UInt8 × Parser)) := do
  let stop ← usizeAdd prof p.pos len
  if stop > p.data.length then
    return none
  let bytes ← slice p.data p.pos stop
  return some (bytes, { p with pos := stop })

def nextField (prof : Profile) (p : Parser) : Except Fault (Option (Field × Parser)) :=
  match p.readVarint with
  | none => .ok none
  | some (tag, p) =>
    let field := (tag >>> 3) % 2 ^ 32
    let wire := tag &&& 0x7
    match wire with
    | 0 => .ok (p.readVarint.map fun (n, p) => (⟨field, .varint n⟩, p))
    | 1 => (p.takeBytes prof 8).map (·.map fun (b, p) => (⟨field, .fixed64 (fromLeBytes b)⟩, p))
    | 2 =>
      match p.readVarint with
      | none => .ok none
      | some (len, p) => (p.takeBytes prof len).map (·.map fun (b, p) => (⟨field, .bytes b⟩, p))
    | 5 => (p.takeBytes prof 4).map (·.map fun (b, p) => (⟨field, .fixed32 (fromLeBytes b)⟩, p))
    | _ => .ok none

end Parser

/-- A part of the decoder: it asks for the next field of parsers. -/
abbrev Decode (α : Type) : Type := Query Parser (Option (Field × Parser)) Fault α

/-- `while let Some(f) = p.next_field()`. -/
def whileFields {α : Type} (body : α → Field → Decode (ForInStep α)) :
    (fuel : Nat) → Parser → α → Decode α
  | 0, _, _ => .fail .diverges
  | fuel + 1, p, acc => .ask p fun
    | none => pure acc
    | some (f, p) => do
      match ← body acc f with
      | .done acc => pure acc
      | .yield acc => whileFields body fuel p acc

def forFields {α : Type} (acc : α) (body : α → Field → Decode (ForInStep α)) : Decode α :=
  whileFields body (msg.length + 1) (Parser.new msg) acc

/-- The loops over all fields of a message that do not end early. -/
def forEachField {α : Type} (acc : α) (visit : α → Field → Decode α) : Decode α :=
  forFields msg acc fun acc f => do return .yield (← visit acc f)

/-- `while let Some((f, Value::Bytes(b))) = p.next_field()`: a field of another wire type ends the
loop. -/
def forBytes {α : Type} (acc : α) (body : α → Nat → List UInt8 → Decode (ForInStep α)) : Decode α :=
  forFields msg acc fun acc f =>
    match f.value with
    | .bytes b => body acc f.num b
    | _ => pure (.done acc)

/-- The loops of that kind that do something for the fields with one number: `if f == field`. -/
def forBytesOf {α : Type} (acc : α) (visit : α → List UInt8 → Decode α) : Decode α :=
  forBytes msg acc fun acc f b => do
    if f = field then return .yield (← visit acc b)
    else return .yield acc

/-! ### Low-level helpers -/

def getBytesField (target : Nat) : Decode (Option (List UInt8)) :=
  forBytes msg none fun acc f b => pure (if f = target then .done (some b) else .yield acc)

def getStringField (target : Nat) : Decode (Option String) := do
  return (← getBytesField msg target).map fromUtf8Lossy

def getVarintField (target : Nat) : Decode (Option Nat) :=
  forFields msg none fun acc f =>
    match f.value with
    | .varint n => pure (if f.num = target then .done (some n) else .yield acc)
    | _ => pure (.yield acc)

def asI64 (n : Nat) : Int := if n < 2 ^ 63 then n else n - 2 ^ 64

/-! ### Field parsers -/

/-- An entry of a `map<string, string>`; one without key or value is skipped. -/
def parseLabel (labels : List (String × Json)) (b : List UInt8) : Decode (List (String × Json)) := do
  let k ← getStringField b 1
  let v ← getStringField b 2
  match k, v with
  | some k, some v => return Json.insertField k (.str v) labels
  | _, _ => return labels

/-- The loops over the entries of a `map<string, string>`. -/
def parseLabels : Decode (List (String × Json)) :=
  forBytesOf msg field [] parseLabel

def parseObjectMeta : Decode Json := do
  match ← getBytesField msg field with
  | none => return .ofFields []
  | some inner =>
    let name := (← getStringField inner 1).getD ""
    let generateName := (← getStringField inner 2).getD ""
    let nspace := (← getStringField inner 3).getD ""
    let uid := (← getStringField inner 5).getD ""
    let labels ← parseLabels inner 11
    let out := Json.ofFields [("name", .str name)]
    let out := if generateName = "" then out else out.insert "generateName" (.str generateName)
    let out := if nspace = "" then out else out.insert "namespace" (.str nspace)
    let out := if uid = "" then out else out.insert "uid" (.str uid)
    let out := if labels = [] then out else out.insert "labels" (.obj labels)
    return out

structure ContainerLists where
  command : List Json := []
  args : List Json := []
  env : List Json := []
  ports : List Json := []

/-- An environment variable; one without name is skipped. -/
def parseEnvVar (b : List UInt8) : Decode (List Json) := do
  match ← getStringField b 1 with
  | none => return []
  | some k =>
    let v := (← getStringField b 2).getD ""
    return [.ofFields [("name", .str k), ("value", .str v)]]

def parseContainerPort (b : List UInt8) : Decode Json := do
  let port := (← getVarintField b 1).getD 0
  let protocol := (← getStringField b 4).getD "TCP"
  return .ofFields [("containerPort", .num (asI64 port)), ("protocol", .str protocol)]

def containerField (acc : ContainerLists) (f : Field) : Decode ContainerLists :=
  match f.num, f.value with
  | 3, .bytes b => pure { acc with command := acc.command ++ [.str (fromUtf8Lossy b)] }
  | 4, .bytes b => pure { acc with args := acc.args ++ [.str (fromUtf8Lossy b)] }
  | 6, .bytes b => do return { acc with env := acc.env ++ (← parseEnvVar b) }
  | 7, .bytes b => do return { acc with ports := acc.ports ++ [← parseContainerPort b] }
  | _, _ => pure acc

def parseContainer : Decode Json := do
  let name := (← getStringField msg 1).getD ""
  let image := (← getStringField msg 2).getD ""
  let lists ← forEachField msg {} containerField
  let c := Json.ofFields [("name", .str name), ("image", .str image)]
  let c := if lists.command = [] then c else c.insert "command" (.arr lists.command)
  let c := if lists.args = [] then c else c.insert "args" (.arr lists.args)
  let c := if lists.env = [] then c else c.insert "env" (.arr lists.env)
  let c := if lists.ports = [] then c else c.insert "ports" (.arr lists.ports)
  return c

def parseContainers : Decode (List Json) :=
  forBytesOf msg field [] fun out b => do return out ++ [← parseContainer b]

def parsePodSpec : Decode Json := do
  match ← getBytesField msg field with
  | none => return .ofFields []
  | some inner =>
    let containers ← parseContainers inner 2
    let initContainers ← parseContainers inner 20
    let spec := Json.ofFields [("containers", .arr containers)]
    let spec := if initContainers = [] then spec
      else spec.insert "initContainers" (.arr initContainers)
    let dns ← getStringField inner 6
    let spec := dns.elim spec fun dns => spec.insert "dnsPolicy" (.str dns)
    let svc ← getStringField inner 8
    let spec := svc.elim spec fun svc => spec.insert "serviceAccountName" (.str svc)
    let restart ← getStringField inner 3
    let spec := restart.elim spec fun restart => spec.insert "restartPolicy" (.str restart)
    return spec

/-- The label selector in field 2 of a deployment's spec. -/
def parseSelector (inner : List UInt8) : Decode Json := do
  match ← getBytesField inner 2 with
  | none => return .ofFields []
  | some sel => return .ofFields [("matchLabels", .obj (← parseLabels sel 1))]

/-- The pod template in field 3 of a deployment's spec. -/
def parseTemplate (inner : List UInt8) : Decode Json := do
  match ← getBytesField inner 3 with
  | none => return .ofFields []
  | some tmpl =>
    let tmplMeta ← parseObjectMeta tmpl 1
    let tmplSpec ← parsePodSpec tmpl 2
    return .ofFields [("metadata", tmplMeta), ("spec", tmplSpec)]

def parseDeploySpec : Decode Json := do
  match ← getBytesField msg field with
  | none => return .ofFields []
  | some inner =>
    let replicas := asI64 ((← getVarintField inner 1).getD 1)
    let selector ← parseSelector inner
    let template ← parseTemplate inner
    return .ofFields [("replicas", .num replicas), ("selector", selector), ("template", template)]

/-! ### Resources -/

def decodeNamespace (raw : List UInt8) (apiVersion : String) : Decode Json := do
  let objMeta ← parseObjectMeta raw 1
  return .ofFields [("apiVersion", .str apiVersion), ("kind", .str "Namespace"), ("metadata", objMeta)]

def decodePod (raw : List UInt8) (apiVersion : String) : Decode Json := do
  let objMeta ← parseObjectMeta raw 1
  let spec ← parsePodSpec raw 2
  return .ofFields
    [("apiVersion", .str apiVersion), ("kind", .str "Pod"), ("metadata", objMeta), ("spec", spec)]

def decodeDeployment (raw : List UInt8) (apiVersion : String) : Decode Json := do
  let objMeta ← parseObjectMeta raw 1
  let spec ← parseDeploySpec raw 2
  return .ofFields
    [("apiVersion", .str apiVersion), ("kind", .str "Deployment"), ("metadata", objMeta),
      ("spec", spec)]

def magic : List UInt8 := [0x6b, 0x38, 0x73, 0x00]

structure Unknown where
  apiVersion : String := ""
  kind : String := ""
  raw : List UInt8 := []

def typeMetaField (acc : Unknown) (f : Field) : Decode Unknown :=
  match f.num, f.value with
  | 1, .bytes s => pure { acc with apiVersion := fromUtf8Lossy s }
  | 2, .bytes s => pure { acc with kind := fromUtf8Lossy s }
  | _, _ => pure acc

def unknownField (acc : Unknown) (f : Field) : Decode Unknown :=
  match f.num, f.value with
  | 1, .bytes b => forEachField b acc typeMetaField
  | 2, .bytes b => pure { acc with raw := b }
  | _, _ => pure acc

/-- The `match` on the kind at the end of `try_proto_to_json`. -/
def decodeObject (u : Unknown) : Decode (Option Json) := do
  if u.kind = "Namespace" then return some (← decodeNamespace u.raw u.apiVersion)
  else if u.kind = "Pod" then return some (← decodePod u.raw u.apiVersion)
  else if u.kind = "Deployment" then return some (← decodeDeployment u.raw u.apiVersion)
  else return none

def decodeBody (bytes : List UInt8) : Decode (Option Json) := do
  if bytes.take 4 ≠ magic then
    return none
  decodeObject (← forEachField (bytes.drop 4) {} unknownField)

def tryProtoToJson (prof : Profile) (bytes : List UInt8) : Except Fault (Option Json) :=
  (decodeBody bytes).run (Parser.nextField prof)

end Z8s.Api
