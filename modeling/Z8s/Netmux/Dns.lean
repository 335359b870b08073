import Z8s.Dns.Message
import Z8s.Program.Query
import Z8s.Rust.Utf8
import Z8s.Types

/-!
# The DNS server

Model of `src/netmux/dns.rs`: how `resolve_service` and `parse_service_name` find the Service of a name, and
how `handle_query` reads a query and builds its reply. `resolve_endpoint` (`src/netmux/ingress.rs`) looks for
Services in the same way. The order in which the store lists the Services is part of the list.
-/

namespace Z8s.Netmux

open Rust Collections Z8s.Types Dns

variable (lower : Lowercase) (domain name : String)

/-! ### Names -/

/-- The name and the namespace of the Service that a name stands for. -/
def parseServiceName : Option (String × Option String) :=
  let parts := splitChar '.' name
  let n := parts.length
  let domainParts := splitChar '.' domain
  let dn := domainParts.length
  let inDomain := parts.drop (n - dn) = domainParts
  let svc := parts[n - dn - 1]? = some "svc"
  if n ≥ dn + 3 ∧ inDomain ∧ svc then some (joinChar '.' (parts.take (n - dn - 2)), parts[n - dn - 2]?)
  else if n ≥ dn + 2 ∧ inDomain ∧ svc then some (parts.headD "", none)
  else if n ≥ dn + 1 ∧ inDomain then some (parts.headD "", none)
  else if n = 1 then some (parts.headD "", none)
  else if n = 2 then some (parts.headD "", parts[1]?)
  else none

/-! ### The search in the store -/

inductive ServiceResolution
  | clusterIp (ip : String)
  | externalName (name : String)
  | none
  deriving DecidableEq, Repr

def serviceName (svc : Service) : String := svc.metadata.name.getD ""

def serviceNamespace (svc : Service) : String := svc.metadata.inNamespace.getD "default"

/-- The Service is the one that is looked for, and has a spec. -/
def serviceFor (ns : Option String) : AnyResource → Option Service
  | .service svc =>
    if serviceName svc = name ∧ (∀ hint ∈ ns, serviceNamespace svc = hint) ∧ svc.spec.isSome then some svc
    else Option.none
  | _ => Option.none

/-- What the first Service that is found resolves to. -/
def resolutionOf (svc : Service) : ServiceResolution :=
  match svc.spec with
  | Option.none => .none
  | some spec =>
    if spec.type = some "ExternalName" then
      match spec.externalName with
      | some ext => if ext = "" then .none else .externalName ext
      | Option.none => .none
    else
      let ip := spec.clusterIp.getD "None"
      if ip = "None" ∨ ip = "" then .none else .clusterIp ip

/-- The Service whose address or name is given back. -/
def foundService (trackers : List ResourceTracker) : Option Service :=
  (parseServiceName domain (trimEndMatches '.' name)).bind fun q =>
    trackers.findSome? fun t => serviceFor q.1 q.2 t.resource

def resolveService (trackers : List ResourceTracker) : ServiceResolution :=
  match foundService domain name trackers with
  | some svc => resolutionOf svc
  | Option.none => .none

/-! ### The backend of an Ingress -/

/-- The address of a Service of this name, if it has one. -/
def endpointFor : AnyResource → Option String
  | .service svc =>
    if svc.metadata.name = some name then
      (svc.spec.bind ServiceSpec.clusterIp).filter fun ip => ip != "" && ip != "None"
    else Option.none
  | _ => Option.none

def resolveEndpoint (port : BitVec 16) (trackers : List ResourceTracker) : String × BitVec 16 :=
  ((trackers.findSome? fun t => endpointFor name t.resource).getD "127.0.0.1", port)

/-! ### Packets -/

/-- `str::to_lowercase`. All that counts of it is that it makes no text more than three times as long. -/
structure Lowercase where
  apply : String → String
  length_le : ∀ s, (utf8 (apply s)).length ≤ 3 * (utf8 s).length

/-- The loop of `parse_name`, from the offset `cur`. The offset behind the name is known after a pointer. -/
def parseLabels (lower : Lowercase) (buf : List UInt8) : (steps cur : Nat) → (offset : Option Nat) →
    Option (List String × Nat)
  | 0, _, _ => none
  | steps + 1, cur, offset =>
    match buf[cur]? with
    | none => none
    | some b =>
      let len := b.toNat
      if len = 0 then some ([], offset.getD (cur + 1))
      else if len &&& 0xC0 = 0xC0 then
        buf[cur + 1]?.bind fun low =>
          parseLabels lower buf steps (((len &&& 0x3F) <<< 8) ||| low.toNat) (offset.or (some (cur + 2)))
      else if cur + 1 + len > buf.length then none
      else
        (fromUtf8 ((buf.drop (cur + 1)).take len)).bind fun label =>
          (parseLabels lower buf steps (cur + 1 + len) offset).map fun r => (lower.apply label :: r.1, r.2)

def parseName (buf : List UInt8) (offset : Nat) : Option (String × Nat) :=
  (parseLabels lower buf 51 offset none).map fun r => (joinChar '.' r.1, r.2)

def encodeName : List UInt8 :=
  ((splitChar '.' name).filter (· ≠ "")).flatMap (fun label => encodeLabel (utf8 label)) ++ [0]

/-- The flags of a response: QR, RD, RA if recursion is desired, and the code. -/
def responseFlags (rd : Bool) (rcode : Nat) : Nat :=
  0x8000 ||| (if rd then 0x0180 else 0x0100) ||| (rcode &&& 0xF)

def makeResponse (id : Nat) (rd : Bool) (questionBytes : List UInt8) (answers : List (List UInt8))
    (rcode : Nat) : List UInt8 :=
  be16 id ++ be16 (responseFlags rd rcode) ++ be16 1 ++ be16 answers.length ++ be16 0 ++ be16 0 ++ questionBytes ++
    answers.flatten

/-- A record of class IN with a time to live of 30 seconds. -/
def record (rtype : Nat) (rdata : List UInt8) : List UInt8 :=
  encodeName name ++ be16 rtype ++ be16 1 ++ (be16 0 ++ be16 30) ++ be16 rdata.length ++ rdata

def aRecord (ip : List UInt8) : List UInt8 := record name 1 ip

def cnameRecord (target : String) : List UInt8 := record name 5 (encodeName target)

def octets (ip : Ipv4Addr) : List UInt8 :=
  be16 (ip.toNat / 65536) ++ be16 ip.toNat

def parseIpv4 (s : String) : Option (List UInt8) :=
  match splitChar '.' s with
  | [a, b, c, d] => do
    let a ← parseUnsigned 255 a
    let b ← parseUnsigned 255 b
    let c ← parseUnsigned 255 c
    let d ← parseUnsigned 255 d
    pure [UInt8.ofNat a, UInt8.ofNat b, UInt8.ofNat c, UInt8.ofNat d]
  | _ => none

/-! ### Queries -/

structure Query where
  id : Nat
  rd : Bool
  name : String
  qtype : Nat
  questionBytes : List UInt8
  deriving DecidableEq, Repr

def parseQuery (query : List UInt8) : Option Query := do
  guard (12 ≤ query.length)
  let id ← readU16 query 0
  let flags ← readU16 query 2
  guard (flags &&& 0x8000 = 0)
  let qdcount ← readU16 query 4
  guard (qdcount ≠ 0)
  let (name, offset) ← parseName lower query 12
  guard (offset + 4 ≤ query.length)
  let qtype ← readU16 query offset
  pure {
    id, name, qtype
    rd := decide (flags &&& 0x0100 ≠ 0)
    questionBytes := (query.drop 12).take (offset + 4 - 12) }

inductive LocalAnswer
  | address (ip : List UInt8)
  | cname (target : String)
  | noData
  | nxdomain
  deriving DecidableEq, Repr

def LocalAnswer.answers : LocalAnswer → List (List UInt8)
  | address ip => [aRecord name ip]
  | cname target => [cnameRecord name target]
  | noData | nxdomain => []

def LocalAnswer.rcode : LocalAnswer → Nat
  | nxdomain => 3
  | _ => 0

inductive QueryOutcome
  | ignored
  | forwarded
  | answered (reply : List UInt8)
  deriving DecidableEq, Repr

/-- What is known of names: the cluster domain, the records of the Ingresses, and the Services. -/
structure Zone where
  domain : String
  records : HashMap String Ipv4Addr
  services : List ResourceTracker

def dataFor (qtype : Nat) (answer : LocalAnswer) : LocalAnswer := if qtype = 28 then .noData else answer

/-- The answer to a query, none if it is forwarded, and an error if it is ignored after all. -/
def answerFor (zone : Zone) (q : Query) : Except Unit (Option LocalAnswer) :=
  if q.qtype ≠ 1 ∧ q.qtype ≠ 28 ∧ q.qtype ≠ 255 then .ok none
  else
    match zone.records.get (trimEndMatches '.' q.name) with
    | some ip => .ok (some (dataFor q.qtype (.address (octets ip))))
    | none =>
      match resolveService zone.domain q.name zone.services with
      | .clusterIp ip =>
        match parseIpv4 ip with
        | some ip => .ok (some (dataFor q.qtype (.address ip)))
        | none => .error ()
      | .externalName name =>
        match parseIpv4 name with
        | some ip => .ok (some (dataFor q.qtype (.address ip)))
        | none => .ok (some (dataFor q.qtype (.cname name)))
      | .none => .ok (if q.rd then none else some .nxdomain)

def handleQuery (zone : Zone) (query : List UInt8) : QueryOutcome :=
  match parseQuery lower query with
  | none => .ignored
  | some q =>
    match answerFor zone q with
    | .error () => .ignored
    | .ok none => .forwarded
    | .ok (some answer) =>
      .answered (makeResponse q.id q.rd q.questionBytes (answer.answers q.name) answer.rcode)

/-! ### What a name denotes -/

def nameForms (ns : String) : List String :=
  [name, name ++ "." ++ ns, name ++ ".svc." ++ domain, name ++ "." ++ ns ++ ".svc." ++ domain,
    name ++ "." ++ domain]

def Denotes (q : String) (svc : Service) : Prop :=
  trimEndMatches '.' q ∈ nameForms domain (serviceName svc) (serviceNamespace svc)

/-- A Service that a name resolves to is one that the name denotes. -/
def ResolvesDenoted (q : String) (trackers : List ResourceTracker) : Prop :=
  ∀ svc ∈ foundService domain q trackers, resolutionOf svc ≠ .none → Denotes domain q svc

/-- The name has labels between its first one and the domain, and the last of them is not `svc`: only the
first label is looked at. -/
def DropsLabels : Prop :=
  let parts := splitChar '.' name
  let domainParts := splitChar '.' domain
  parts.length ≥ domainParts.length + 2 ∧
    parts.drop (parts.length - domainParts.length) = domainParts ∧
    parts[parts.length - domainParts.length - 1]? ≠ some "svc"

/-! ### Results in every order -/

/-- The Service is one of those that the search for a name stops at. -/
def Candidate (svc : Service) : Prop :=
  ∃ q ∈ parseServiceName domain (trimEndMatches '.' name), serviceFor q.1 q.2 (.service svc) = some svc

/-- Both searches give the same in every order of the Services. -/
def OrderFree (service : String) (port : BitVec 16) (store : ResourceStore) : Prop :=
  ∀ l₁ l₂ : List ResourceTracker, l₁.Perm (store.getByKind "Service") →
    l₂.Perm (store.getByKind "Service") →
      resolveService domain name l₁ = resolveService domain name l₂ ∧
        resolveEndpoint service port l₁ = resolveEndpoint service port l₂

/-! ### What a reply has to say -/

/-- The labels of the name that a text denotes: a dot at its end adds none. -/
def nameLabels : List Label :=
  let base := (stripSuffix name ".").getD name
  if base = "" then [] else (splitChar '.' base).map utf8

def writtenLabels : List Label := ((splitChar '.' name).filter (· ≠ "")).map utf8

/-- The name is the external name of the Service that the query asks for. -/
def IsExternalName (zone : Zone) (query : List UInt8) (target : List Label) : Prop :=
  ∃ q ext, parseQuery lower query = some q ∧
    resolveService zone.domain q.name zone.services = .externalName ext ∧ target = nameLabels ext

/-- The message is a response to the query: it repeats the id, the bit RD and the question, its records
belong to the name of the question, and an alias is the external name of the Service. -/
structure Echoes (lower : Lowercase) (zone : Zone) (query : List UInt8) (msg : Message) : Prop where
  id : readU16 query 0 = some msg.id
  qr : msg.qr = true
  rd : (readU16 query 2).map (·.testBit 8) = some msg.rd
  question : (readQuestion query 12).map (fun question => [question.1]) = some msg.questions
  owner : ∀ r ∈ msg.answers, ∀ question ∈ msg.questions, SameName r.owner question.name
  target : ∀ r ∈ msg.answers, ∀ target, r.rdata = .cname target → IsExternalName lower zone query target

def WellFormedReply (zone : Zone) (query reply : List UInt8) : Prop :=
  ∃ msg, decode reply = some msg ∧ Echoes lower zone query msg

/-- The queries that are answered as they should be: recursion is desired, the name of the question is a
name that is read in the reply as it is in the query, it does not change where it is written again as the
owner of a record, and the external name is a name. -/
structure Answerable (query reply : List UInt8) (q : Query) (answer : LocalAnswer) : Prop where
  rd : q.rd = true
  name : ∃ name next, readName query 12 = some (name, next) ∧ readLabels reply nameFuel 12 = some name ∧
    (answer.answers q.name ≠ [] → SameName (writtenLabels q.name) name)
  target : ∀ ext, answer = .cname ext → ValidName (nameLabels ext)

/-! ### Legal names -/

def asciiLower (s : String) : String := .ofList (s.toList.map Char.toLower)

/-- `str::to_lowercase`, of which ASCII texts are known as well. -/
structure AsciiLowercase extends Lowercase where
  ascii : ∀ s, (∀ c ∈ s.toList, c.toNat < 128) → apply s = asciiLower s

def isNameChar (c : Char) : Bool := c.isAlphanum || c == '-' || c == '_'

/-- A name of any number of labels, which may end with a dot. -/
structure LegalName where
  labels : List String
  trailingDot : Bool
  length : ∀ l ∈ labels, 1 ≤ l.length ∧ l.length ≤ 63
  chars : ∀ l ∈ labels, l.toList.all isNameChar = true
  short : (joinChar '.' labels).length ≤ 253

def LegalName.base (n : LegalName) : String := joinChar '.' n.labels

def LegalName.text (n : LegalName) : String := if n.trailingDot then n.base ++ "." else n.base

/-- The encoded name is read back wherever it stands. -/
def LegalName.Survives (n : LegalName) (lower : AsciiLowercase) : Prop :=
  ∀ pre post : List UInt8, parseName lower.toLowercase (pre ++ encodeName n.text ++ post) pre.length =
    some (asciiLower n.base, pre.length + (encodeName n.text).length)

/-! ### Accesses -/

/-- The accesses to the bytes of a datagram. The lengths of labels are told from other bytes. -/
inductive Access
  | lengthByte (i : Nat)
  | byte (i : Nat)
  | slice (start stop : Nat)
  deriving DecidableEq, Repr

/-- What an access gives; one that is out of range panics. -/
def Access.eval (buf : List UInt8) : Access → Except Unit (List UInt8)
  | lengthByte i | byte i => if i < buf.length then .ok ((buf.drop i).take 1) else .error ()
  | slice start stop =>
    if start ≤ stop ∧ stop ≤ buf.length then .ok ((buf.drop start).take (stop - start)) else .error ()

def Access.isLength : Access → Bool
  | lengthByte _ => true
  | _ => false

/-- What a function does with a datagram, by the accesses it makes. -/
abbrev Reading (α : Type) : Type := Program.Query Access (List UInt8) Unit α

/-- `parse_name` on a buffer of a given size, from an iteration on that has collected some labels. -/
def readingLabels (lower : Lowercase) (size : Nat) : (steps cur : Nat) → (offset : Option Nat) →
    (labels : List String) → Reading (Option (String × Nat))
  | 0, _, _, _ => pure none
  | steps + 1, cur, offset, labels =>
    if cur ≥ size then pure none
    else .ask (.lengthByte cur) fun b =>
      let len := (b.headD 0).toNat
      if len = 0 then pure (some (joinChar '.' labels, offset.getD (cur + 1)))
      else if len &&& 0xC0 = 0xC0 then
        if cur + 1 ≥ size then pure none
        else .ask (.byte (cur + 1)) fun low =>
          readingLabels lower size steps (((len &&& 0x3F) <<< 8) ||| (low.headD 0).toNat)
            (offset.or (some (cur + 2))) labels
      else if cur + 1 + len > size then pure none
      else .ask (.slice (cur + 1) (cur + 1 + len)) fun bytes =>
        match fromUtf8 bytes with
        | none => pure none
        | some label => readingLabels lower size steps (cur + 1 + len) offset (labels ++ [lower.apply label])

def readingName (size offset : Nat) : Reading (Option (String × Nat)) :=
  readingLabels lower size 51 offset none []

def readingU16 (i : Nat) : Reading Nat :=
  .ask (.byte i) fun high => .ask (.byte (i + 1)) fun low =>
    pure ((high.headD 0).toNat * 256 + (low.headD 0).toNat)

def readingQuery (size : Nat) : Reading (Option Query) :=
  if size < 12 then pure none
  else do
    let id ← readingU16 0
    let flags ← readingU16 2
    if flags &&& 0x8000 ≠ 0 then pure none
    else
      let qdcount ← readingU16 4
      if qdcount = 0 then pure none
      else
        match ← readingName lower size 12 with
        | none => pure none
        | some (name, offset) =>
          if offset + 4 > size then pure none
          else
            let qtype ← readingU16 offset
            .ask (.slice 12 (offset + 4)) fun questionBytes =>
              pure (some ⟨id, decide (flags &&& 0x0100 ≠ 0), name, qtype, questionBytes⟩)

def InRange (buf : List UInt8) (a : Access) : Prop := ∃ bytes, a.eval buf = .ok bytes

/-- `parse_name` returns, and what it does on the way and at the end. -/
structure NameReadSafely (lower : Lowercase) (buf : List UInt8) (offset : Nat) : Prop where
  returns : (readingName lower buf.length offset).run (Access.eval buf) = .ok (parseName lower buf offset)
  inRange : ∀ a ∈ (readingName lower buf.length offset).asked (Access.eval buf), InRange buf a
  lengths_le : ((readingName lower buf.length offset).asked (Access.eval buf)).countP Access.isLength ≤ 51
  advances : ∀ r ∈ parseName lower buf offset, offset < r.2 ∧ r.2 ≤ buf.length

structure QueryReadSafely (lower : Lowercase) (buf : List UInt8) : Prop where
  returns : (readingQuery lower buf.length).run (Access.eval buf) = .ok (parseQuery lower buf)
  inRange : ∀ a ∈ (readingQuery lower buf.length).asked (Access.eval buf), InRange buf a

end Z8s.Netmux
