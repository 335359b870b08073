import Z8s.Netmux.Veth

/-!
# Proofs: veth interfaces
-/

namespace Z8s.Netmux

open Z8s.Types Rust Api Netlink List

variable {writes : List (Nat × Nat × List UInt8)}

theorem hexChars_append (s t : String) : hexChars (s ++ t) = hexChars s ++ hexChars t := by
  simp [hexChars]

theorem vethNameFromUid_of_pod {r : AnyResource} (h : r.kind = "Pod") :
    vethNameFromUid r.uid = "veth-" ++ String.ofList (vethDigits r) := by
  have hkind : hexChars "Pod" = ['d'] := by decide
  have hslash : hexChars "/" = [] := by decide
  simp only [vethNameFromUid, vethDigits, AnyResource.uid, h, hexChars_append, hkind, hslash, append_nil,
    singleton_append]

theorem length_vethNameFromUid (uid : String) : (vethNameFromUid uid).length ≤ 13 := by
  simp only [vethNameFromUid, lastEight, String.length_append, String.length_ofList, length_drop]
  have hprefix : "veth-".length = 5 := rfl
  omega

/-- Pods have different interface names exactly if their last eight digits differ. -/
theorem vethNamesApart_iff (store : ResourceStore) :
    VethNamesApart store ↔ ((store.getByKind "Pod").map fun t => vethDigits t.resource).Nodup := by
  have hnames : vethNames store =
      ((store.getByKind "Pod").map fun t => vethDigits t.resource).map fun ds => "veth-" ++ String.ofList ds := by
    rw [vethNames, map_map]
    refine map_congr_left fun t ht => ?_
    exact vethNameFromUid_of_pod (beq_iff_eq.1 (mem_filter.1 ht).2)
  have hlength : ∀ name ∈ vethNames store, name.length ≤ 15 := by
    intro name hname
    obtain ⟨t, -, rfl⟩ := mem_map.1 hname
    exact (length_vethNameFromUid _).trans (by decide)
  rw [VethNamesApart, and_iff_left hlength, hnames]
  refine nodup_map_iff fun ds ds' heq => ?_
  have hlist := congrArg String.toList heq
  rw [String.toList_append, String.toList_append, append_cancel_left_eq] at hlist
  simpa using hlist

/-- The pods `api` and `app` of one namespace have the same interface name. -/
theorem api_and_app_share_veth :
    (AnyResource.pod { metadata := { name := some "api" } }).uid = "Pod/default/api" ∧
      (AnyResource.pod { metadata := { name := some "app" } }).uid = "Pod/default/app" ∧
      vethNameFromUid "Pod/default/api" = "veth-ddefaa" ∧ vethNameFromUid "Pod/default/app" = "veth-ddefaa" := by
  decide

/-! ### The request for a pair -/

section Request

variable {order : ByteOrder}

/-- A write right behind what was written before. -/
theorem copyFromSlice_next (pre src : List UInt8) (k : Nat) {start stop : Nat} (hstart : start = pre.length)
    (hstop : stop = start + src.length) :
    copyFromSlice (pre ++ .replicate (src.length + k) 0) start stop src = .ok (pre ++ src ++ .replicate k 0) := by
  have hlength : stop ≤ (pre ++ List.replicate (src.length + k) (0 : UInt8)).length := by
    rw [length_append, length_replicate]
    omega
  have hdrop : (pre ++ List.replicate (src.length + k) (0 : UInt8)).drop stop = .replicate k 0 := by
    rw [hstop, hstart, drop_length_add_append, drop_replicate, Nat.add_sub_cancel_left]
  rw [copyFromSlice, if_pos ⟨by omega, hlength, by omega⟩, hdrop, take_left' hstart.symm]

/-- The writes are made one behind the other, from `start` on. -/
def Consecutive : (start : Nat) → List (Nat × Nat × List UInt8) → Prop
  | _, [] => True
  | start, (a, b, src) :: writes => a = start ∧ b = start + src.length ∧ Consecutive b writes

theorem writeAll_of_consecutive (pre : List UInt8) (h : Consecutive pre.length writes) (k : Nat) :
    writeAll (pre ++ .replicate ((writes.flatMap fun w => w.2.2).length + k) 0) writes =
      .ok (pre ++ (writes.flatMap fun w => w.2.2) ++ .replicate k 0) := by
  induction writes generalizing pre with
  | nil => simp [writeAll, pure, Except.pure]
  | cons w writes ih =>
    obtain ⟨a, b, src⟩ := w
    obtain ⟨ha, hb, hwrites⟩ := h
    have hnext := copyFromSlice_next pre src ((writes.flatMap fun w => w.2.2).length + k) ha (ha ▸ hb)
    rw [writeAll, foldlM_cons, flatMap_cons, length_append, Nat.add_assoc, hnext]
    rw [hb, ← length_append] at hwrites
    show writeAll _ writes = _
    rw [ih _ hwrites, append_assoc pre]

theorem writeAll_replicate (h : Consecutive 0 writes) {n k : Nat}
    (hn : n = (writes.flatMap fun w => w.2.2).length + k) :
    writeAll (.replicate n 0) writes = .ok ((writes.flatMap fun w => w.2.2) ++ .replicate k 0) := by
  rw [hn]
  exact writeAll_of_consecutive [] h k

theorem attrBuffer_eq (type : Nat) (data : List UInt8) (k : Nat) :
    attrBuffer order (data.length + k + 4) type data =
      .ok (RawAttr.bytes order ⟨type, data ++ .replicate k 0⟩) := by
  rw [attrBuffer, writeAll_replicate (k := k)]
  · simp [RawAttr.bytes]
  · simp [Consecutive]
  · simp only [flatMap_cons, flatMap_nil, length_append, ByteOrder.length_toBytes, length_nil]
    omega

theorem nlattr_eq (type : Nat) (data : List UInt8) :
    nlattr order type data = .ok (RawAttr.bytes order ⟨type, data⟩) := by
  have h : attrBuffer order _ type data = _ := attrBuffer_eq type data 0
  rwa [replicate_zero, append_nil] at h

theorem nlattrNested_eq (type : Nat) (head : List UInt8) (attrs : List (RawAttr × Value)) :
    nlattrNested order type (head ++ attrBytes order attrs) = .ok ((nestedAttr order type head attrs).1.bytes order) :=
  nlattr_eq type _

theorem nlattrBytes_eq (type : Nat) (data : List UInt8) :
    nlattrBytes order type data = .ok ((textAttr type data (align data.length - data.length)).1.bytes order) := by
  have hpadded : (data.length + 3) / 4 * 4 = data.length + (align data.length - data.length) := by
    rw [align]
    omega
  rw [nlattrBytes, hpadded]
  exact attrBuffer_eq type data _

theorem copyAttrs_next (pre : List UInt8) (attrs : List (List UInt8)) (k : Nat) :
    copyAttrs (pre ++ .replicate (attrs.flatten.length + k) 0) pre.length attrs =
      .ok (pre ++ attrs.flatten ++ .replicate k 0) := by
  induction attrs generalizing pre with
  | nil => simp [copyAttrs]
  | cons attr attrs ih =>
    rw [copyAttrs, flatten_cons, length_append, Nat.add_assoc, copyFromSlice_next _ _ _ rfl rfl]
    show copyAttrs _ (pre.length + attr.length) attrs = _
    rw [← length_append, ih, append_assoc pre]

/-- The attributes fill the buffer behind the header. -/
theorem copyAttrs_header (totalLen : Nat) (attrs : List (List UInt8)) :
    (writeAll (.replicate (32 + attrs.flatten.length) 0) (headerWrites order totalLen) >>=
        fun buf => copyAttrs buf 32 attrs) =
      .ok (messageBytes order totalLen 16 0x605 1 0 (.replicate 16 0 ++ attrs.flatten)) := by
  have hzero : order.toBytes 2 0 = .replicate 2 0 ∧ order.toBytes 4 0 = .replicate 4 0 := by
    cases order <;> exact ⟨rfl, rfl⟩
  have hwrites : writeAll (.replicate (32 + attrs.flatten.length) 0) (headerWrites order totalLen) =
      .ok (messageBytes order totalLen 16 0x605 1 0 (.replicate 16 0) ++ .replicate attrs.flatten.length 0) := by
    rw [writeAll_replicate (k := attrs.flatten.length)]
    · simp [headerWrites, messageBytes, hzero]
    · simp [headerWrites, Consecutive]
    · simp [headerWrites]
  have hlength : (messageBytes order totalLen 16 0x605 1 0 (.replicate 16 0)).length = 32 := by
    simp only [messageBytes, length_append, ByteOrder.length_toBytes, length_replicate]
  have hcopy := copyAttrs_next (messageBytes order totalLen 16 0x605 1 0 (.replicate 16 0)) attrs 0
  rw [hlength, Nat.add_zero] at hcopy
  rw [hwrites]
  show copyAttrs _ 32 attrs = _
  rw [hcopy]
  simp [messageBytes]

/-! The attributes of the message, from the innermost to the outermost. -/

section Attributes

variable (order : ByteOrder) (host peer : InterfaceName) (peerPid : Option UInt32)

def nameAttr (name : InterfaceName) : RawAttr × Value :=
  textAttr iflaIfname (utf8 name.text) (align (utf8 name.text).length - (utf8 name.text).length)

def peerAttrs : List (RawAttr × Value) :=
  nameAttr peer :: peerPid.toList.map fun pid => (⟨iflaNetNsPid, order.toBytes 4 pid.toNat⟩, .word pid.toNat)

def peerAttr : RawAttr × Value := nestedAttr order iflaVethPeer (.replicate 16 0) (peerAttrs order peer peerPid)

def infoAttrs : List (RawAttr × Value) :=
  [textAttr iflaInfoKind (utf8 "veth") 4, nestedAttr order iflaInfoData [] [peerAttr order peer peerPid]]

def linkAttrs : List (RawAttr × Value) :=
  [nameAttr host, (⟨iflaMtu, order.toBytes 4 1500⟩, .word 1500),
    nestedAttr order iflaLinkinfo [] (infoAttrs order peer peerPid)]

theorem nlattrBytes_name (name : InterfaceName) :
    nlattrBytes order iflaIfname (utf8 name.text) = .ok ((nameAttr name).1.bytes order) :=
  nlattrBytes_eq iflaIfname _

theorem length_nameAttr (name : InterfaceName) : (nameAttr name).1.payload.length ≤ 16 := by
  have hshort := name.short
  simp only [nameAttr, textAttr, length_append, length_replicate, align]
  omega

theorem reads_nameAttr (name : InterfaceName) (policy : Policy) :
    Reads order (linkPolicy.link policy) (nameAttr name) := by
  have hshort := name.short
  refine .text (by decide) rfl name.noNul ?_ ?_
  · rw [align]
    omega
  · rw [align]
    omega

theorem reads_peerAttrs : ∀ a ∈ peerAttrs order peer peerPid, Reads order (linkPolicy.link .raw) a := by
  refine forall_mem_cons.2 ⟨reads_nameAttr order peer .raw, forall_mem_map.2 fun pid _ => ?_⟩
  exact .word (by decide) rfl pid.toNat_lt

theorem length_peerAttr : (peerAttr order peer peerPid).1.payload.length ≤ 44 := by
  have hname := length_nameAttr peer
  cases peerPid <;> simp [peerAttr, peerAttrs] <;> omega

theorem length_infoAttrs : (attrBytes order (infoAttrs order peer peerPid)).length ≤ 64 := by
  have hlength := length_peerAttr order peer peerPid
  have hkind : (textAttr iflaInfoKind (utf8 "veth") 4).1.payload.length = 8 := by decide +kernel
  simp only [infoAttrs, length_attrBytes_cons, length_attrBytes_nil, hkind, length_nestedAttr, length_nil]
  omega

theorem reads_infoAttrs : ∀ a ∈ infoAttrs order peer peerPid, Reads order linkPolicy.info a := by
  have hlength := length_peerAttr order peer peerPid
  have hpeer : Reads order linkPolicy.veth (peerAttr order peer peerPid) := by
    refine .nested (by decide) rfl rfl (reads_peerAttrs order peer peerPid) ?_
    rw [peerAttr, length_nestedAttr] at hlength
    omega
  refine forall_mem_cons.2 ⟨.text (by decide) rfl ?_ ?_ ?_, forall_mem_singleton.2 ?_⟩
  · decide +kernel
  · decide +kernel
  · decide +kernel
  · refine .nested (by decide) rfl rfl (forall_mem_singleton.2 hpeer) ?_
    rw [length_attrBytes_cons, length_attrBytes_nil, length_nil]
    omega

theorem reads_linkAttrs :
    ∀ a ∈ linkAttrs order host peer peerPid, Reads order (linkPolicy.link (.nested 0 linkPolicy.info)) a := by
  have hlength := length_infoAttrs order peer peerPid
  refine forall_mem_cons.2 ⟨reads_nameAttr order host _, forall_mem_cons.2 ⟨?_,
    forall_mem_singleton.2 ?_⟩⟩
  · exact .word (by decide) rfl (by decide)
  · refine .nested (by decide) rfl rfl (reads_infoAttrs order peer peerPid) ?_
    rw [length_nil]
    omega

theorem netNsAttr_eq : netNsAttr order peerPid = .ok (attrBytes order (peerAttrs order peer peerPid).tail) := by
  cases peerPid with
  | none => rfl
  | some pid => simp [netNsAttr, nlattr_eq, peerAttrs, attrBytes]

theorem nlattrNested_peer : nlattrNested order iflaVethPeer (.replicate 16 0 ++ (nameAttr peer).1.bytes order ++
    attrBytes order (peerAttrs order peer peerPid).tail) = .ok ((peerAttr order peer peerPid).1.bytes order) := by
  rw [append_assoc]
  exact nlattrNested_eq iflaVethPeer _ (peerAttrs order peer peerPid)

theorem nlattrNested_data (a : RawAttr × Value) : nlattrNested order iflaInfoData (a.1.bytes order) =
    .ok ((nestedAttr order iflaInfoData [] [a]).1.bytes order) := by
  rw [← nlattrNested_eq, attrBytes, flatMap_singleton, nil_append]

theorem nlattrNested_info (a b : RawAttr × Value) : nlattrNested order iflaLinkinfo (a.1.bytes order ++ b.1.bytes order) =
    .ok ((nestedAttr order iflaLinkinfo [] [a, b]).1.bytes order) := by
  rw [← nlattrNested_eq, attrBytes, flatMap_cons, flatMap_singleton, nil_append]

theorem vethMessage_eq : vethMessage order host.text peer.text peerPid =
    .ok (messageBytes order (32 + (attrBytes order (linkAttrs order host peer peerPid)).length) 16 0x605 1 0
      (nestedAttr order 0 (.replicate 16 0) (linkAttrs order host peer peerPid)).1.payload) := by
  have hkind : nlattrBytes order iflaInfoKind (utf8 "veth" ++ [0]) =
      .ok ((textAttr iflaInfoKind (utf8 "veth") 4).1.bytes order) := nlattrBytes_eq iflaInfoKind _
  have htotal (x y z : List UInt8) : 16 + (16 + x.length + y.length + z.length) = 32 + [x, y, z].flatten.length := by
    simp only [length_flatten, map_cons, map_nil, sum_cons, sum_nil]
    omega
  rw [vethMessage, nlattrBytes_name]
  show (netNsAttr order peerPid >>= _) = _
  rw [netNsAttr_eq order peer]
  show (nlattrNested order iflaVethPeer _ >>= _) = _
  rw [nlattrNested_peer]
  show (nlattrBytes order iflaInfoKind _ >>= _) = _
  rw [hkind]
  show (nlattrNested order iflaInfoData _ >>= _) = _
  rw [nlattrNested_data]
  show (nlattrNested order iflaLinkinfo _ >>= _) = _
  rw [nlattrNested_info, nlattrBytes_name]
  show (nlattr order iflaMtu _ >>= _) = _
  rw [nlattr_eq]
  show (writeAll (.replicate (16 + (16 + _ + _ + _)) 0) _ >>= _) = _
  rw [htotal]
  exact copyAttrs_header _ _

theorem length_linkAttrs : (attrBytes order (linkAttrs order host peer peerPid)).length ≤ 96 := by
  have hlength := length_infoAttrs order peer peerPid
  have hname := length_nameAttr host
  simp only [linkAttrs, length_attrBytes_cons, length_attrBytes_nil, length_nestedAttr, ByteOrder.length_toBytes,
    length_nil]
  omega

theorem read_linkAttrs :
    linkPolicy.read order (nestedAttr order 0 (.replicate 16 0) (linkAttrs order host peer peerPid)).1.payload =
      some (vethRequest host peer peerPid) := by
  show (Policy.nested (List.replicate 16 (0 : UInt8)).length _).read order _ = _
  rw [read_nestedAttr (reads_linkAttrs order host peer peerPid)]
  cases peerPid with
  | none => rfl
  | some pid => rfl

end Attributes

end Request

/-- The message is built without a panic, its header has its length, and it is read as the request. -/
theorem vethMessage_reads (order : ByteOrder) (host peer : InterfaceName) (peerPid : Option UInt32) :
    ∃ buf, vethMessage order host.text peer.text peerPid = .ok buf ∧
    readMessage order linkPolicy buf = some ⟨buf.length, 16, 0x605, 1, 0, vethRequest host peer peerPid⟩ := by
  refine ⟨_, vethMessage_eq order host peer peerPid, ?_⟩
  have hshort := length_linkAttrs order host peer peerPid
  rw [readMessage_bytes (by omega) (by decide) (by decide) (by decide) (by decide)
    (read_linkAttrs order host peer peerPid)]
  congr 2
  simp only [messageBytes, nestedAttr, length_append, ByteOrder.length_toBytes, length_replicate]
  omega

/-! ### Requests for routes -/

section Routes

variable (order : ByteOrder) (route : Route)

theorem fits_routeAttrs : (∀ a ∈ routeAttrs order route, a.Fits) ∧
    ((routeAttrs order route).flatMap (RawAttr.bytes order)).length ≤ 24 := by
  have hfits (o : ByteOrder) (n : Nat) {type : Nat} (h : type < 2 ^ 16) : RawAttr.Fits ⟨type, o.toBytes 4 n⟩ :=
    ⟨by simp, h, by simp⟩
  unfold routeAttrs
  cases route.gateway <;> cases route.oif <;> split_ifs <;> simp [addrAttr, hfits, RawAttr.length_bytes]

theorem routeMessage_asks {type flags : Nat} (htype : type < 256 ^ 2) (hflags : flags < 256 ^ 2) (scope : UInt8)
    (rtmFlags : Nat) : AsksRoute order route (routeMessage order route type flags scope rtmFlags) type flags scope
      rtmFlags := by
  obtain ⟨hfits, hlength⟩ := fits_routeAttrs order route
  unfold AsksRoute routeMessage
  generalize routeAttrs order route = attrs at hfits hlength ⊢
  have hhead : (rtmsg order route scope rtmFlags).length = 12 := by simp [rtmsg]
  have hbytes : attrs.mapM (fun a => nlattr order a.type a.payload) = .ok (attrs.map (RawAttr.bytes order)) := by
    simp only [nlattr_eq]
    exact mapM_pure
  refine ⟨messageBytes order (28 + (attrs.flatMap (RawAttr.bytes order)).length) type flags 1 0
    (rtmsg order route scope rtmFlags ++ attrs.flatMap (RawAttr.bytes order)), ?_, ?_⟩
  · rw [hbytes, flatMap_def]
    generalize attrs.map (RawAttr.bytes order) = attrs
    show (writeAll (.replicate (28 + (attrs.map List.length).sum) 0) _ >>= fun buf => copyAttrs buf 28 attrs) = _
    rw [← length_flatten, writeAll_replicate (k := attrs.flatten.length)]
    · have hcopy := copyAttrs_next (messageBytes order (28 + attrs.flatten.length) type flags 1 0
        (rtmsg order route scope rtmFlags)) attrs 0
      simpa [routeWrites, messageBytes, rtmsg, bind, Except.bind] using hcopy
    · simp [routeWrites, Consecutive]
    · simp [routeWrites]
  · rw [← hhead, readMessage_bytes (by omega) htype hflags (by decide) (by decide) (read_rawAttrs hfits _)]
    congr 2
    simp only [messageBytes, length_append, ByteOrder.length_toBytes]
    omega

end Routes

end Z8s.Netmux
