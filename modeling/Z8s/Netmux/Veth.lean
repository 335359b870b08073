import Z8s.Api.Proto
import Z8s.Netlink.Attributes
import Z8s.Types

/-!
# Veth interfaces

Model of `veth_name_from_uid` (`src/netmux/mod.rs`): the host side of a pod's veth pair is named after the last
eight hexadecimal digits of the pod's uid, which is `Pod/<namespace>/<name>`. Model of the message that
`create_veth_pair` (`src/netmux/netlink.rs`) sends, and of those of `add_route` and `del_route`: every write into a
buffer is one into a part of it, which panics when the part is outside of the buffer or has another length.
-/

namespace Z8s.Netmux

open Z8s.Types Rust Api Netlink

def isAsciiHexdigit (c : Char) : Bool :=
  ('0' ≤ c && c ≤ '9') || ('a' ≤ c && c ≤ 'f') || ('A' ≤ c && c ≤ 'F')

def hexChars (s : String) : List Char := s.toList.filter isAsciiHexdigit

def lastEight (hex : List Char) : List Char := hex.drop (hex.length - 8)

def vethNameFromUid (uid : String) : String := "veth-" ++ String.ofList (lastEight (hexChars uid))

def vethNames (store : ResourceStore) : List String :=
  (store.getByKind "Pod").map fun t => vethNameFromUid t.resource.uid

/-- The pods have different interface names, which the kernel accepts. -/
def VethNamesApart (store : ResourceStore) : Prop :=
  (vethNames store).Nodup ∧ ∀ name ∈ vethNames store, name.length ≤ 15

/-- The digits of a pod that its interface is named after: a `d` for its kind, then those of its namespace and of
its name. -/
def vethDigits (r : AnyResource) : List Char :=
  lastEight ('d' :: hexChars r.namespaceOf ++ hexChars r.name)

/-! ### The request for a pair -/

/-- `buf[start..stop].copy_from_slice(src)`. -/
def copyFromSlice (buf : List UInt8) (start stop : Nat) (src : List UInt8) : Except Fault (List UInt8) :=
  if start ≤ stop ∧ stop ≤ buf.length ∧ src.length = stop - start then .ok (buf.take start ++ src ++ buf.drop stop)
  else .error .slice

/-- Writes with their ranges, one after the other. -/
def writeAll (buf : List UInt8) (writes : List (Nat × Nat × List UInt8)) : Except Fault (List UInt8) :=
  writes.foldlM (fun buf w => copyFromSlice buf w.1 w.2.1 w.2.2) buf

section

variable (order : ByteOrder)

/-- An attribute in a buffer of `size` bytes, with its header and with the data behind it. -/
def attrBuffer (size type : Nat) (data : List UInt8) : Except Fault (List UInt8) :=
  -- `size as u16` keeps the low 16 bits, and so do two bytes
  writeAll (.replicate size 0) [(0, 2, order.toBytes 2 size), (2, 4, order.toBytes 2 type), (4, 4 + data.length, data)]

/-- The data are the bytes of the value in memory. -/
def nlattr (type : Nat) (data : List UInt8) : Except Fault (List UInt8) :=
  attrBuffer order (data.length + 4) type data

/-- The padding counts as a part of the payload. -/
def nlattrBytes (type : Nat) (data : List UInt8) : Except Fault (List UInt8) :=
  attrBuffer order ((data.length + 3) / 4 * 4 + 4) type data

def nlattrNested (type : Nat) (attrs : List UInt8) : Except Fault (List UInt8) :=
  attrBuffer order (attrs.length + 4) type attrs

def iflaIfname : Nat := 3

def iflaMtu : Nat := 4

def iflaLinkinfo : Nat := 18

def iflaNetNsPid : Nat := 19

def iflaInfoKind : Nat := 1

def iflaInfoData : Nat := 2

def iflaVethPeer : Nat := 1

def copyAttrs (buf : List UInt8) (offset : Nat) : List (List UInt8) → Except Fault (List UInt8)
  | [] => .ok buf
  | attr :: attrs => do
    copyAttrs (← copyFromSlice buf offset (offset + attr.length) attr) (offset + attr.length) attrs

/-- The header, whose type is RTM_NEWLINK with the flags REQUEST, CREATE, EXCL and ACK, and an `ifinfomsg`. -/
def headerWrites (totalLen : Nat) : List (Nat × Nat × List UInt8) :=
  [(0, 4, order.toBytes 4 totalLen), (4, 6, order.toBytes 2 16), (6, 8, order.toBytes 2 (1 ||| 0x400 ||| 0x200 ||| 4)),
    (8, 12, order.toBytes 4 1), (12, 16, order.toBytes 4 0), (16, 17, [0]), (17, 18, [0]), (18, 20, order.toBytes 2 0),
    (20, 24, order.toBytes 4 0), (24, 28, order.toBytes 4 0), (28, 32, order.toBytes 4 0)]

def netNsAttr : Option UInt32 → Except Fault (List UInt8)
  | none => .ok []
  | some pid => nlattr order iflaNetNsPid (order.toBytes 4 pid.toNat)

/-- The buffer that `create_veth_pair` sends. -/
def vethMessage (hostName peerName : String) (peerPid : Option UInt32) : Except Fault (List UInt8) := do
  let peerIfname ← nlattrBytes order iflaIfname (utf8 peerName)
  let peerNetNs ← netNsAttr order peerPid
  let peerNested ← nlattrNested order iflaVethPeer (.replicate 16 0 ++ peerIfname ++ peerNetNs)
  let kind ← nlattrBytes order iflaInfoKind (utf8 "veth" ++ [0])
  let data ← nlattrNested order iflaInfoData peerNested
  let infoNested ← nlattrNested order iflaLinkinfo (kind ++ data)
  let ifnameAttr ← nlattrBytes order iflaIfname (utf8 hostName)
  let mtuAttr ← nlattr order iflaMtu (order.toBytes 4 1500)
  let totalLen := 16 + (16 + ifnameAttr.length + mtuAttr.length + infoNested.length)
  let buf ← writeAll (.replicate totalLen 0) (headerWrites order totalLen)
  copyAttrs buf 32 [ifnameAttr, mtuAttr, infoNested]

end

/-- A name that the kernel accepts for an interface, as far as its length and its bytes are concerned. -/
structure InterfaceName where
  text : String
  short : (utf8 text).length ≤ 15
  noNul : 0 ∉ utf8 text

/-- What is asked for: a link with this name and the MTU 1500, of the kind `veth`, whose other end has its own name
and goes to the network of a process, if one is given. -/
def vethRequest (host peer : InterfaceName) (peerPid : Option UInt32) : Value :=
  .nested (.replicate 16 0) [(iflaIfname, .text (utf8 host.text)), (iflaMtu, .word 1500), (iflaLinkinfo, .nested []
    [(iflaInfoKind, .text (utf8 "veth")), (iflaInfoData, .nested [] [(iflaVethPeer, .nested (.replicate 16 0)
      ((iflaIfname, .text (utf8 peer.text)) :: peerPid.toList.map fun pid => (iflaNetNsPid, .word pid.toNat)))])])]

/-! ### Requests for routes -/

section Routes

/-- The arguments of `add_route` and `del_route`. -/
structure Route where
  dest : Ipv4Addr
  subnetPrefix : UInt8
  gateway : Option Ipv4Addr
  oif : Option UInt32

variable (order : ByteOrder) (route : Route)

/-- The octets of an address stand in memory as they are. -/
def addrAttr (type : Nat) (ip : Ipv4Addr) : RawAttr := ⟨type, ByteOrder.big.toBytes 4 ip.toNat⟩

/-- RTA_DST unless all addresses are meant, RTA_GATEWAY and RTA_OIF. -/
def routeAttrs : List RawAttr :=
  (if 0 < route.subnetPrefix then [addrAttr 1 route.dest] else []) ++ route.gateway.toList.map (addrAttr 5) ++
    route.oif.toList.map fun idx => ⟨4, order.toBytes 4 idx.toNat⟩

/-- The header and an `rtmsg` for a unicast route in the main table. -/
def routeWrites (totalLen type flags : Nat) (scope : UInt8) (rtmFlags : Nat) : List (Nat × Nat × List UInt8) :=
  [(0, 4, order.toBytes 4 totalLen), (4, 6, order.toBytes 2 type), (6, 8, order.toBytes 2 flags),
    (8, 12, order.toBytes 4 1), (12, 16, order.toBytes 4 0), (16, 17, [2]), (17, 18, [route.subnetPrefix]),
    (18, 19, [0]), (19, 20, [0]), (20, 21, [254]), (21, 22, [3]), (22, 23, [scope]), (23, 24, [1]), (24, 28, order.toBytes 4 rtmFlags)]

def routeMessage (type flags : Nat) (scope : UInt8) (rtmFlags : Nat) : Except Fault (List UInt8) := do
  let attrs ← (routeAttrs order route).mapM fun a => nlattr order a.type a.payload
  let totalLen := 16 + 12 + (attrs.map List.length).sum
  copyAttrs (← writeAll (.replicate totalLen 0) (routeWrites order route totalLen type flags scope rtmFlags)) 28
    attrs

/-- The buffer that `add_route` sends. -/
def addRoute : Except Fault (List UInt8) :=
  routeMessage order route 24 (1 ||| 0x400 ||| 4) (if route.gateway.isSome then 0 else 253)
    (if route.gateway.isSome then 4 else 0)

def delRoute : Except Fault (List UInt8) := routeMessage order route 25 (1 ||| 4) 0 0

/-- The bytes of an `rtmsg`: IPv4, the prefix, the main table, the protocol BOOT, the scope and UNICAST. -/
def rtmsg (scope : UInt8) (rtmFlags : Nat) : List UInt8 :=
  [2, route.subnetPrefix, 0, 0, 254, 3, scope, 1] ++ order.toBytes 4 rtmFlags

/-- A request with its length in its header, for the route in this scope. -/
def AsksRoute (built : Except Fault (List UInt8)) (type flags : Nat) (scope : UInt8) (rtmFlags : Nat) : Prop :=
  ∃ buf, built = .ok buf ∧ readMessage order (.nested 12 fun _ => .raw) buf = some ⟨buf.length, type, flags, 1, 0,
    .nested (rtmsg order route scope rtmFlags)
      ((routeAttrs order route).map fun a => (a.type, .raw a.payload))⟩

end Routes

end Z8s.Netmux
