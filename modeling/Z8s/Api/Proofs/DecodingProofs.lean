import Z8s.Api.Objects
import Z8s.Api.Proofs.ParserProofs
import Z8s.Rust.Proofs.JsonProofs
import Z8s.Rust.Proofs.Utf8Proofs

/-!
# Proofs: what the decoder makes of an encoded object

Each parser of the decoder, run on the encoding of its message.
-/

namespace Z8s.Api.Objects

open Rust Wire Program List Api.Parser Value
open Query (run_bind run_pure)

variable {t : Nat} {n : Numbering}
variable {blocks : List (Nat × List Value)} {s : Option String} {known : List Nat} {f : Field}
variable (m : ObjectMeta)

theorem except_ok_bind {ε α β : Type} (a : α) (f : α → Except ε β) :
    Except.bind (Except.ok a) f = f a := rfl

theorem ok_bind {ε α β : Type} (a : α) (f : α → Except ε β) : (Except.ok a >>= f) = f a := rfl

theorem foldlM_ok {ε α β : Type} {step : β → α → Except ε β} {g : β → α → β} {l : List α}
    (h : ∀ acc, ∀ a ∈ l, step acc a = .ok (g acc a)) (acc : β) :
    l.foldlM step acc = .ok (l.foldl g acc) := by
  induction l generalizing acc with
  | nil => rfl
  | cons a l ih =>
    rw [foldlM_cons, h acc a mem_cons_self]
    exact ih (fun acc b hb => h acc b (mem_cons_of_mem _ hb)) (g acc a)

/-! ### Values -/

@[simp] theorem contents_strings (s : Option String) :
    (strings s).filterMap contents = s.toList.map utf8 := by
  cases s <;> rfl

@[simp] theorem contents_embedded {α : Type} (l : List α) (g : α → List Field) :
    l.filterMap (fun a => (embedded (g a)).contents) = l.map fun a => encode (g a) :=
  congrFun filterMap_eq_map l

@[simp] theorem contents_labelValues (labels : List (String × String)) :
    (labelValues labels).filterMap contents = labels.map fun kv => encode (labelFields kv) := by
  simp [labelValues]

theorem isBytes_labelValues (labels : List (String × String)) :
    ∀ v ∈ labelValues labels, v.isBytes = true := by
  intro v hv
  obtain ⟨kv, -, rfl⟩ := mem_map.1 hv
  rfl

theorem head?_strings (s : Option String) :
    (s.toList.map utf8).head?.map fromUtf8Lossy = s := by
  cases s with
  | none => rfl
  | some s => simp

/-! What a scan for a known field finds: the field, unless another field before it hides it. -/

theorem scanned_string (h : Delimited known blocks) (o : Others known) (ht : t ∈ known)
    (hs : contentsAt t blocks = s.toList.map utf8) :
    scanned t (message blocks o) = (if blocked t o.fields then none else s).toList.map utf8 := by
  rw [h.scanned_eq o ht hs]
  split <;> rfl

theorem scanned_embedded (h : Delimited known blocks) (o : Others known) (ht : t ∈ known) {α : Type} {l : List α}
    {g : α → List Field} (hl : contentsAt t blocks = l.map fun a => encode (g a)) :
    scanned t (message blocks o) = (if blocked t o.fields then [] else l).map fun a => encode (g a) := by
  rw [h.scanned_eq o ht hl]
  split <;> rfl

section

variable {prof : Profile} {fields : List Field}

theorem run_getStringField_of_scanned (h : Readable fields) (hs : scanned t fields = s.toList.map utf8) :
    (getStringField (encode fields) t).run (nextField prof) = .ok s := by
  rw [run_getStringField h, hs, head?_strings]

/-! ### Labels -/

theorem labelFields_delimited (kv : String × String) :
    Delimited [1, 2] [(1, strings (some kv.1)), (2, strings (some kv.2))] :=
  .of (by simp [strings, isBytes]) rfl (by decide) (by decide)

theorem run_parseLabel (kv : String × String) (h : Readable (labelFields kv))
    (labels : List (String × Json)) :
    (parseLabel labels (encode (labelFields kv))).run (nextField prof) =
      .ok (Json.insertField kv.1 (.str kv.2) labels) := by
  -- an entry has no other fields
  have hk : scanned 1 (labelFields kv) = (some kv.1).toList.map utf8 :=
    (labelFields_delimited kv).scanned_lowest ∅ (by decide) (by decide) (by simp [contentsAt])
  have hv : scanned 2 (labelFields kv) = (some kv.2).toList.map utf8 :=
    (labelFields_delimited kv).scanned_lowest ∅ (by decide) (by decide) (by simp [contentsAt])
  simp only [parseLabel, run_bind, run_getStringField_of_scanned h hk,
    run_getStringField_of_scanned h hv, except_ok_bind, run_pure]

theorem run_parseLabels (h : Readable fields) {labels : List (String × String)}
    (hscan : scanned t fields = labels.map fun kv => encode (labelFields kv)) :
    (parseLabels (encode fields) t).run (nextField prof) =
      .ok (labelsMap labels) := by
  rw [parseLabels, run_forBytesOf h, hscan, foldlM_map, labelsMap, foldl_map]
  refine foldlM_ok (fun acc kv hkv => run_parseLabel kv (h.embedded (t := t) ?_ ?_) acc) []
  · rw [hscan]
    exact mem_map_of_mem hkv
  · exact (labelFields_delimited kv).valid ∅

/-! ### Metadata -/

namespace ObjectMeta

theorem delimited : Delimited [1, 2, 3, 5, 11] m.blocks :=
  .of (by simpa [blocks, strings, isBytes] using isBytes_labelValues m.labels) rfl (by decide) (by decide)

def seen : ObjectMeta :=
  { m with
    uid := if blocked 5 m.others.fields then none else m.uid
    labels := if blocked 11 m.others.fields then [] else m.labels }

theorem scanned_name : scanned 1 m.fields = m.name.toList.map utf8 :=
  m.delimited.scanned_lowest m.others (by decide) (by decide) (by simp [contentsAt, blocks])

theorem scanned_generateName : scanned 2 m.fields = m.generateName.toList.map utf8 :=
  m.delimited.scanned_lowest m.others (by decide) (by decide) (by simp [contentsAt, blocks])

theorem scanned_nspace : scanned 3 m.fields = m.nspace.toList.map utf8 :=
  m.delimited.scanned_lowest m.others (by decide) (by decide) (by simp [contentsAt, blocks])

theorem scanned_uid : scanned 5 m.fields = m.seen.uid.toList.map utf8 :=
  scanned_string m.delimited m.others (by decide) (by simp [contentsAt, blocks])

theorem scanned_labels : scanned 11 m.fields = m.seen.labels.map fun kv => encode (labelFields kv) :=
  scanned_embedded m.delimited m.others (by decide) (by simp [contentsAt, blocks])

end ObjectMeta

theorem labelsMap_eq_nil_iff (labels : List (String × String)) :
    labelsMap labels = [] ↔ labels = [] := by
  simp [labelsMap, Json.foldl_insertField_eq_nil_iff]

theorem run_parseObjectMeta (h : Readable fields) {m : Option ObjectMeta}
    (hscan : scanned t fields = m.toList.map fun m => encode m.fields) :
    (parseObjectMeta (encode fields) t).run (nextField prof) =
      .ok (orEmpty (m.map fun m => m.seen.toJson)) := by
  rw [parseObjectMeta, run_bind, run_getBytesField h, hscan]
  cases m with
  | none => rfl
  | some m =>
    have hm : Readable m.fields := h.embedded (t := t) (by simp [hscan]) (m.delimited.valid m.others)
    simp only [Option.toList_some, map_cons, head?_cons, except_ok_bind, run_bind,
      run_getStringField_of_scanned hm m.scanned_name,
      run_getStringField_of_scanned hm m.scanned_generateName,
      run_getStringField_of_scanned hm m.scanned_nspace,
      run_getStringField_of_scanned hm m.scanned_uid, run_parseLabels hm m.scanned_labels,
      run_pure]
    have hname : ∀ v, Json.ofFields [("name", v)] = .record [("name", some v)] := fun v => rfl
    simp only [hname, Json.ite_insert_record, labelsMap_eq_nil_iff]
    rfl

/-! ### Containers -/

def envOf (fields : List Field) : List Json :=
  ((scanned 1 fields).head?.map fromUtf8Lossy).toList.map fun k =>
    .ofFields [("name", .str k), ("value", .str (((scanned 2 fields).head?.map fromUtf8Lossy).getD ""))]

def portOf (fields : List Field) : Json :=
  .ofFields [("containerPort", .num (asI64 ((fields.findSome? (varintAt 1)).getD 0))),
    ("protocol", .str (((scanned 4 fields).head?.map fromUtf8Lossy).getD "TCP"))]

theorem run_parseEnvVar (h : Readable fields) :
    (parseEnvVar (encode fields)).run (nextField prof) = .ok (envOf fields) := by
  rw [parseEnvVar, run_bind, run_getStringField h, envOf, except_ok_bind]
  cases (scanned 1 fields).head?.map fromUtf8Lossy with
  | none => rfl
  | some k =>
    show Query.run _ (getStringField (encode fields) 2 >>= _) = _
    rw [run_bind, run_getStringField h]
    rfl

theorem run_parseContainerPort (h : Readable fields) :
    (parseContainerPort (encode fields)).run (nextField prof) = .ok (portOf fields) := by
  rw [parseContainerPort, run_bind, run_getVarintField h, except_ok_bind, run_bind,
    run_getStringField h]
  rfl

theorem varintAt_others {known : List Nat} (o : Others known) (h : 1 ∈ known) :
    ∀ f ∈ o.fields, varintAt 1 f = none := by
  intro f hf
  have hnum : f.num ≠ 1 := fun h1 => o.unknown f hf (h1 ▸ h)
  unfold varintAt
  split <;> simp [hnum]

theorem EnvVar.delimited (e : EnvVar) : Delimited [1, 2] e.blocks :=
  .of (by simp [blocks, strings, isBytes]) rfl (by decide) (by decide)

theorem ContainerPort.layout (p : ContainerPort n) :
    Layout [n.containerPort, 4] p.blocks where
  nums := rfl
  sorted := by cases n <;> decide
  range := by cases n <;> decide
  fits := by
    have hport := p.isPort
    simp only [blocks, forall_mem_cons, not_mem_nil, false_implies, implies_true, and_true]
    refine ⟨?_, by simp [strings, Value.Fits]⟩
    show p.containerPort < 2 ^ 64
    omega

theorem containerField_of_not_mem (h : f.num ∉ [3, 4, 6, 7]) (acc : ContainerLists) :
    containerField acc f = pure acc := by
  unfold containerField
  split <;> simp_all

theorem foldlM_add {ε β γ : Type} {step : β → γ → Except ε β} (add : β → List Json → β)
    (g : γ → List Json) (hnil : ∀ acc, add acc [] = acc)
    (happend : ∀ acc x y, add (add acc x) y = add acc (x ++ y)) {l : List γ}
    (hstep : ∀ acc, ∀ a ∈ l, step acc a = .ok (add acc (g a))) (acc : β) :
    l.foldlM step acc = .ok (add acc (l.flatMap g)) := by
  induction l generalizing acc with
  | nil => rw [flatMap_nil, hnil]; rfl
  | cons a l ih =>
    rw [foldlM_cons, hstep acc a mem_cons_self, flatMap_cons, ← happend]
    exact ih (fun acc b hb => hstep acc b (mem_cons_of_mem _ hb)) (add acc (g a))

namespace Container

theorem delimited (c : Container n) : Delimited [1, 2, 3, 4, 6, 7] c.blocks :=
  .of (by simp [blocks, strings, embedded, isBytes]) rfl (by decide) (by decide)

def decoded (c : Container n) : Json := c.json (c.sixth.flatMap envOf) (c.seventh.map portOf)

theorem scanned_name (c : Container n) : scanned 1 c.fields = c.name.toList.map utf8 :=
  c.delimited.scanned_lowest c.others (by decide) (by decide) (by simp [contentsAt, blocks])

theorem scanned_image (c : Container n) : scanned 2 c.fields = c.image.toList.map utf8 :=
  c.delimited.scanned_lowest c.others (by decide) (by decide) (by simp [contentsAt, blocks])

/-! The loop over the fields of a container, one number after the other. -/

theorem run_skipped {num : Nat} (hnum : num ∉ [3, 4, 6, 7]) (vs : List Value)
    (acc : ContainerLists) :
    vs.foldlM (fun acc v => (containerField acc ⟨num, v⟩).run (nextField prof)) acc =
      .ok acc := by
  refine foldlM_add (fun acc _ => acc) (fun _ => []) (fun _ => rfl) (fun _ _ _ => rfl) ?_ acc
  intro acc v _
  rw [containerField_of_not_mem hnum]
  rfl

theorem run_command (command : List String) (acc : ContainerLists) :
    command.foldlM (fun acc s =>
        (containerField acc ⟨3, .bytes (utf8 s)⟩).run (nextField prof)) acc =
      .ok { acc with command := acc.command ++ command.flatMap fun s => [.str s] } := by
  refine foldlM_add (fun acc x => { acc with command := acc.command ++ x }) _ (by simp) (by simp)
    ?_ acc
  intro acc s _
  simp [containerField]

theorem run_args (args : List String) (acc : ContainerLists) :
    args.foldlM (fun acc s =>
        (containerField acc ⟨4, .bytes (utf8 s)⟩).run (nextField prof)) acc =
      .ok { acc with args := acc.args ++ args.flatMap fun s => [.str s] } := by
  refine foldlM_add (fun acc x => { acc with args := acc.args ++ x }) _ (by simp) (by simp) ?_ acc
  intro acc s _
  simp [containerField]

theorem run_sixth {sixth : List (List Field)} (h : ∀ fs ∈ sixth, Readable fs)
    (acc : ContainerLists) :
    sixth.foldlM (fun acc fs =>
        (containerField acc ⟨6, embedded fs⟩).run (nextField prof)) acc =
      .ok { acc with env := acc.env ++ sixth.flatMap envOf } := by
  refine foldlM_add (fun acc x => { acc with env := acc.env ++ x }) envOf (by simp) (by simp) ?_ acc
  intro acc fs hfs
  simp only [containerField, embedded, run_bind, run_parseEnvVar (h fs hfs), except_ok_bind,
    run_pure]

theorem run_seventh {seventh : List (List Field)} (h : ∀ fs ∈ seventh, Readable fs)
    (acc : ContainerLists) :
    seventh.foldlM (fun acc fs =>
        (containerField acc ⟨7, embedded fs⟩).run (nextField prof)) acc =
      .ok { acc with ports := acc.ports ++ seventh.flatMap fun fs => [portOf fs] } := by
  refine foldlM_add (fun acc x => { acc with ports := acc.ports ++ x }) _ (by simp) (by simp) ?_ acc
  intro acc fs hfs
  simp only [containerField, embedded, run_bind, run_parseContainerPort (h fs hfs),
    except_ok_bind, run_pure]

theorem run_lists (c : Container n) (h : Readable c.fields)
    (hsixth : ∀ fs ∈ c.sixth, Readable fs) (hseventh : ∀ fs ∈ c.seventh, Readable fs) :
    (forEachField (encode c.fields) {} containerField).run (nextField prof) =
      .ok { command := c.command.map .str, args := c.args.map .str,
            env := c.sixth.flatMap envOf, ports := c.seventh.map portOf } := by
  have hothers : ∀ f ∈ c.others.fields, ∀ acc,
      (containerField acc f).run (nextField prof) = pure acc := by
    intro f hf acc
    have hnum := c.others.unknown f hf
    rw [containerField_of_not_mem (by simp at hnum ⊢; omega)]
    rfl
  rw [run_forEachField h, fields, message, foldlM_arrange _ hothers]
  simp only [numbered, blocks, flatMap_cons, flatMap_nil, append_nil,
    foldlM_append, foldlM_map]
  simp only [run_skipped (show 1 ∉ [3, 4, 6, 7] by decide),
    run_skipped (show 2 ∉ [3, 4, 6, 7] by decide), run_command, run_args, run_sixth hsixth,
    run_seventh hseventh, ok_bind, nil_append, map_eq_flatMap]

theorem readable_listed {c : Container n} (h : Readable c.fields) {num : Nat} {l : List (List Field)}
    (hl : (num, l.map embedded) ∈ c.blocks) (hvalid : ∀ fs ∈ l, ∀ f ∈ fs, f.Valid) :
    ∀ fs ∈ l, Readable fs := by
  intro fs hfs
  exact h.of_mem (mem_message c.others hl (mem_map_of_mem hfs)) (hvalid fs hfs)

theorem valid_env (c : Container n) : ∀ fs ∈ c.env.map EnvVar.fields, ∀ f ∈ fs, f.Valid := by
  rw [forall_mem_map]
  exact fun e _ => e.delimited.valid e.others

theorem valid_ports (c : Container n) : ∀ fs ∈ c.ports.map ContainerPort.fields, ∀ f ∈ fs, f.Valid := by
  rw [forall_mem_map]
  exact fun p _ => p.layout.valid p.others

theorem readable_sixth {c : Container n} (h : Readable c.fields) : ∀ fs ∈ c.sixth, Readable fs := by
  refine readable_listed h (show (6, _) ∈ c.blocks by simp [blocks]) ?_
  cases n with
  | decoder => exact c.valid_env
  | kubernetes => exact c.valid_ports

theorem readable_seventh {c : Container n} (h : Readable c.fields) :
    ∀ fs ∈ c.seventh, Readable fs := by
  refine readable_listed h (show (7, _) ∈ c.blocks by simp [blocks]) ?_
  cases n with
  | decoder => exact c.valid_ports
  | kubernetes => exact c.valid_env

end Container

theorem run_parseContainer {c : Container n} (h : Readable c.fields) :
    (parseContainer (encode c.fields)).run (nextField prof) = .ok c.decoded := by
  simp only [parseContainer, run_bind, run_getStringField_of_scanned h c.scanned_name,
    run_getStringField_of_scanned h c.scanned_image,
    c.run_lists h (Container.readable_sixth h) (Container.readable_seventh h), except_ok_bind,
    run_pure]
  have hbase : ∀ v w, Json.ofFields [("name", v), ("image", w)] =
      .record [("name", some v), ("image", some w)] := fun v w => rfl
  simp only [hbase, Json.ite_insert_record]
  rfl

theorem run_parseContainers (h : Readable fields) {containers : List (Container n)}
    (hscan : scanned t fields = containers.map fun c => encode c.fields) :
    (parseContainers (encode fields) t).run (nextField prof) =
      .ok (containers.map Container.decoded) := by
  rw [parseContainers, run_forBytesOf h, hscan, foldlM_map,
    foldlM_add (fun acc x => acc ++ x) (fun c => [c.decoded]) (by simp) (by simp)]
  · rw [nil_append, map_eq_flatMap]
  · intro acc c hc
    have hread : Readable c.fields :=
      h.embedded (t := t) (by rw [hscan]; exact mem_map_of_mem hc) (c.delimited.valid c.others)
    simp only [run_bind, run_parseContainer hread, except_ok_bind, run_pure]

/-! ### Pods -/

namespace PodSpec

theorem delimited (s : PodSpec n) : Delimited [2, 3, 6, 8, 20] s.blocks :=
  .of (by simp [blocks, strings, embedded, isBytes]) rfl (by decide) (by decide)

def seen (s : PodSpec n) : PodSpec n :=
  { s with
    containers := if blocked 2 s.others.fields then [] else s.containers
    restartPolicy := if blocked 3 s.others.fields then none else s.restartPolicy
    dnsPolicy := if blocked 6 s.others.fields then none else s.dnsPolicy
    serviceAccountName := if blocked 8 s.others.fields then none else s.serviceAccountName
    initContainers := if blocked 20 s.others.fields then [] else s.initContainers }

def decoded (s : PodSpec n) : Json :=
  s.seen.json (s.seen.containers.map Container.decoded)
    (s.seen.initContainers.map Container.decoded)

theorem scanned_containers (s : PodSpec n) :
    scanned 2 s.fields = s.seen.containers.map fun c => encode c.fields :=
  scanned_embedded s.delimited s.others (by decide) (by simp [contentsAt, blocks])

theorem scanned_initContainers (s : PodSpec n) :
    scanned 20 s.fields = s.seen.initContainers.map fun c => encode c.fields :=
  scanned_embedded s.delimited s.others (by decide) (by simp [contentsAt, blocks])

theorem scanned_restartPolicy (s : PodSpec n) :
    scanned 3 s.fields = s.seen.restartPolicy.toList.map utf8 :=
  scanned_string s.delimited s.others (by decide) (by simp [contentsAt, blocks])

theorem scanned_dnsPolicy (s : PodSpec n) :
    scanned 6 s.fields = s.seen.dnsPolicy.toList.map utf8 :=
  scanned_string s.delimited s.others (by decide) (by simp [contentsAt, blocks])

theorem scanned_serviceAccountName (s : PodSpec n) :
    scanned 8 s.fields = s.seen.serviceAccountName.toList.map utf8 :=
  scanned_string s.delimited s.others (by decide) (by simp [contentsAt, blocks])

end PodSpec

theorem run_parsePodSpec (h : Readable fields) {s : Option (PodSpec n)}
    (hscan : scanned t fields = s.toList.map fun s => encode s.fields) :
    (parsePodSpec (encode fields) t).run (nextField prof) =
      .ok (orEmpty (s.map PodSpec.decoded)) := by
  rw [parsePodSpec, run_bind, run_getBytesField h, hscan]
  cases s with
  | none => rfl
  | some s =>
    have hs : Readable s.fields := h.embedded (t := t) (by simp [hscan]) (s.delimited.valid s.others)
    simp only [Option.toList_some, map_cons, head?_cons, except_ok_bind, run_bind,
      run_parseContainers hs s.scanned_containers, run_parseContainers hs s.scanned_initContainers,
      run_getStringField_of_scanned hs s.scanned_dnsPolicy,
      run_getStringField_of_scanned hs s.scanned_serviceAccountName,
      run_getStringField_of_scanned hs s.scanned_restartPolicy, run_pure]
    have hbase : ∀ v, Json.ofFields [("containers", v)] = .record [("containers", some v)] :=
      fun v => rfl
    simp only [hbase, Json.ite_insert_record, Json.elim_insert_record]
    rfl

/-! ### Deployments -/

theorem LabelSelector.delimited (l : LabelSelector) : Delimited [1] l.blocks :=
  .of (by simpa [blocks] using isBytes_labelValues l.matchLabels) rfl (by decide) (by decide)

theorem LabelSelector.scanned_matchLabels (l : LabelSelector) :
    scanned 1 l.fields = l.matchLabels.map fun kv => encode (labelFields kv) :=
  l.delimited.scanned_lowest l.others (by decide) (by decide) (by simp [contentsAt, blocks])

theorem run_parseSelector (h : Readable fields) {l : Option LabelSelector}
    (hscan : scanned 2 fields = l.toList.map fun l => encode l.fields) :
    (parseSelector (encode fields)).run (nextField prof) =
      .ok (orEmpty (l.map LabelSelector.toJson)) := by
  rw [parseSelector, run_bind, run_getBytesField h, hscan]
  cases l with
  | none => rfl
  | some l =>
    have hl : Readable l.fields := h.embedded (t := 2) (by simp [hscan]) (l.delimited.valid l.others)
    simp only [Option.toList_some, map_cons, head?_cons, except_ok_bind, run_bind,
      run_parseLabels hl l.scanned_matchLabels, run_pure]
    rfl

theorem delimited_metadata_spec {α : Type} (metadata : Option ObjectMeta) (spec : Option α) (g : α → List Field) :
    Delimited [1, 2] [(1, metadata.toList.map fun m => embedded m.fields),
      (2, spec.toList.map fun s => embedded (g s))] :=
  .of (by simp [embedded, isBytes]) rfl (by decide) (by decide)

theorem scanned_metadata_spec {α : Type} (metadata : Option ObjectMeta) (spec : Option α)
    (g : α → List Field) (o : Others [1, 2]) {fields : List Field}
    (hfields : fields = message [(1, metadata.toList.map fun m => embedded m.fields),
      (2, spec.toList.map fun s => embedded (g s))] o) :
    scanned 1 fields = metadata.toList.map (fun m => encode m.fields) ∧
      scanned 2 fields = spec.toList.map fun s => encode (g s) := by
  have h := delimited_metadata_spec metadata spec g
  subst hfields
  exact ⟨h.scanned_lowest o (by decide) (by decide) (by simp [contentsAt]),
    h.scanned_lowest o (by decide) (by decide) (by simp [contentsAt])⟩

def PodTemplate.decoded {n : Numbering} (t : PodTemplate n) : Json :=
  .record [("metadata", some (orEmpty (t.metadata.map fun m => m.seen.toJson))),
    ("spec", some (orEmpty (t.spec.map PodSpec.decoded)))]

theorem run_parseTemplate (h : Readable fields) {t : Option (PodTemplate n)}
    (hscan : scanned 3 fields = t.toList.map fun t => encode t.fields) :
    (parseTemplate (encode fields)).run (nextField prof) =
      .ok (orEmpty (t.map PodTemplate.decoded)) := by
  rw [parseTemplate, run_bind, run_getBytesField h, hscan]
  cases t with
  | none => rfl
  | some t =>
    have ht : Readable t.fields := h.embedded (t := 3) (by simp [hscan])
      ((delimited_metadata_spec t.metadata t.spec PodSpec.fields).valid t.others)
    obtain ⟨hmeta, hspec⟩ := scanned_metadata_spec t.metadata t.spec PodSpec.fields t.others rfl
    simp only [Option.toList_some, map_cons, head?_cons, except_ok_bind, run_bind,
      run_parseObjectMeta ht hmeta, run_parsePodSpec ht hspec, run_pure]
    rfl

theorem Replicas.varint_lt (r : Replicas) : r.varint < 2 ^ 64 := by
  unfold Replicas.varint
  omega

theorem Replicas.asI64_varint (r : Replicas) : asI64 r.varint = r.val := by
  obtain ⟨r, hlow, hhigh⟩ := r
  unfold asI64 Replicas.varint
  dsimp only
  split_ifs <;> omega

namespace DeploymentSpec

theorem layout (s : DeploymentSpec n) : Layout [1, 2, 3] s.blocks where
  nums := rfl
  sorted := by decide
  range := by decide
  fits := by
    simp only [blocks, forall_mem_cons, not_mem_nil, false_implies, implies_true, and_true]
    refine ⟨?_, by simp [embedded, Value.Fits], by simp [embedded, Value.Fits]⟩
    intro v hv
    obtain ⟨r, -, rfl⟩ := mem_map.1 hv
    exact r.varint_lt

def seen (s : DeploymentSpec n) : DeploymentSpec n :=
  { s with
    selector := if s.replicas.isSome then none else s.selector
    template := if s.replicas.isSome then none else s.template }

def decoded (s : DeploymentSpec n) : Json :=
  .record [("replicas", some (.num (s.replicas.elim 1 Subtype.val))),
    ("selector", some (orEmpty (s.seen.selector.map LabelSelector.toJson))),
    ("template", some (orEmpty (s.seen.template.map PodTemplate.decoded)))]

section

variable (s : DeploymentSpec n)

theorem findSome?_replicas : s.fields.findSome? (varintAt 1) = s.replicas.map Replicas.varint := by
  rw [← head?_filterMap, fields, message, filterMap_arrange _ (varintAt_others _ (by decide))]
  cases hr : s.replicas <;> simp [blocks, numbered, hr, varintAt, embedded]

theorem scanned_after_replicas (ht : t = 2 ∨ t = 3) :
    scanned t s.fields = if s.replicas.isSome then [] else contentsAt t s.blocks := by
  have hbytes : ∀ b ∈ s.blocks, b.1 = t → ∀ v ∈ b.2, v.isBytes = true := by
    rcases ht with rfl | rfl <;> simp [blocks, embedded, isBytes]
  have hothers : blocked t s.others.fields = false := by
    refine s.others.not_blocked fun k hk hpos => ?_
    simp only [mem_cons, not_mem_nil, or_false]
    omega
  have hreplicas : blocked t (numbered s.blocks) = s.replicas.isSome := by
    rw [blocked_numbered]
    cases hr : s.replicas <;> rcases ht with rfl | rfl <;>
      simp [blocks, hr, embedded, isBytes]
  rw [fields, s.layout.scanned s.others (by simp; omega) hbytes, hothers, hreplicas,
    Bool.false_or]

theorem scanned_selector : scanned 2 s.fields = s.seen.selector.toList.map fun l => encode l.fields := by
  rw [s.scanned_after_replicas (.inl rfl)]
  simp only [seen]
  split <;> simp [contentsAt, blocks]

theorem scanned_template : scanned 3 s.fields = s.seen.template.toList.map fun t => encode t.fields := by
  rw [s.scanned_after_replicas (.inr rfl)]
  simp only [seen]
  split <;> simp [contentsAt, blocks]

end

end DeploymentSpec

theorem run_parseDeploySpec (h : Readable fields) {s : Option (DeploymentSpec n)}
    (hscan : scanned t fields = s.toList.map fun s => encode s.fields) :
    (parseDeploySpec (encode fields) t).run (nextField prof) =
      .ok (orEmpty (s.map DeploymentSpec.decoded)) := by
  rw [parseDeploySpec, run_bind, run_getBytesField h, hscan]
  cases s with
  | none => rfl
  | some s =>
    have hs : Readable s.fields := h.embedded (t := t) (by simp [hscan]) (s.layout.valid s.others)
    simp only [Option.toList_some, map_cons, head?_cons, except_ok_bind, run_bind,
      run_getVarintField hs, s.findSome?_replicas, run_parseSelector hs s.scanned_selector,
      run_parseTemplate hs s.scanned_template, run_pure]
    have hreplicas : asI64 ((s.replicas.map Replicas.varint).getD 1) =
        s.replicas.elim 1 Subtype.val := by
      cases s.replicas with
      | none => rfl
      | some r => exact r.asI64_varint
    rw [hreplicas]
    rfl

/-! ### Bodies -/

namespace Object

/-- The fields that the decoder returns beside `apiVersion` and `kind`. -/
def decoded : Object n → List (String × Option Json)
  | nspace metadata _ => [("metadata", some (orEmpty (metadata.map fun m => m.seen.toJson)))]
  | pod metadata spec _ =>
    [("metadata", some (orEmpty (metadata.map fun m => m.seen.toJson))),
      ("spec", some (orEmpty (spec.map PodSpec.decoded)))]
  | deployment metadata spec _ =>
    [("metadata", some (orEmpty (metadata.map fun m => m.seen.toJson))),
      ("spec", some (orEmpty (spec.map DeploymentSpec.decoded)))]

theorem delimited_metadata (metadata : Option ObjectMeta) :
    Delimited [1] [(1, metadata.toList.map fun m => embedded m.fields)] :=
  .of (by simp [embedded, isBytes]) rfl (by decide) (by decide)

theorem valid (obj : Object n) : ∀ f ∈ obj.fields, f.Valid := by
  cases obj with
  | nspace metadata o => exact (delimited_metadata metadata).valid o
  | pod metadata spec o => exact (delimited_metadata_spec metadata spec PodSpec.fields).valid o
  | deployment metadata spec o =>
    exact (delimited_metadata_spec metadata spec DeploymentSpec.fields).valid o

end Object

theorem run_decodeObject (apiVersion : String) {obj : Object n} (h : Readable obj.fields) :
    (decodeObject ⟨apiVersion, obj.kind, encode obj.fields⟩).run (nextField prof) =
      .ok (some (.record ([("apiVersion", some (.str apiVersion)), ("kind", some (.str obj.kind))] ++
        obj.decoded))) := by
  cases obj with
  | nspace metadata o =>
    have hscan : scanned 1 (message [(1, metadata.toList.map fun m => embedded m.fields)] o) =
        metadata.toList.map fun m => encode m.fields :=
      (Object.delimited_metadata metadata).scanned_lowest o (by decide) (by decide) (by simp [contentsAt])
    rw [Object.fields] at h
    show Query.run _ (decodeNamespace _ _ >>= _) = _
    simp only [decodeNamespace, run_bind, Object.fields, run_parseObjectMeta h hscan,
      except_ok_bind, run_pure]
    rfl
  | pod metadata spec o =>
    obtain ⟨hmeta, hspec⟩ := scanned_metadata_spec metadata spec PodSpec.fields o rfl
    rw [Object.fields] at h
    show Query.run _ (decodePod _ _ >>= _) = _
    simp only [decodePod, run_bind, Object.fields, run_parseObjectMeta h hmeta,
      run_parsePodSpec h hspec, except_ok_bind, run_pure]
    rfl
  | deployment metadata spec o =>
    obtain ⟨hmeta, hspec⟩ := scanned_metadata_spec metadata spec DeploymentSpec.fields o rfl
    rw [Object.fields] at h
    show Query.run _ (decodeDeployment _ _ >>= _) = _
    simp only [decodeDeployment, run_bind, Object.fields, run_parseObjectMeta h hmeta,
      run_parseDeploySpec h hspec, except_ok_bind, run_pure]
    rfl

namespace Body

theorem typeMeta_delimited (b : Body n) :
    Delimited [1, 2] [(1, strings (some b.apiVersion)), (2, strings (some b.object.kind))] :=
  .of (by simp [strings, isBytes]) rfl (by decide) (by decide)

theorem delimited (b : Body n) :
    Delimited [1, 2] [(1, [embedded b.typeMeta]), (2, [embedded b.object.fields])] :=
  .of (by simp [embedded, isBytes]) rfl (by decide) (by decide)

theorem typeMetaField_of_not_mem (h : f.num ∉ [1, 2]) (acc : Unknown) : typeMetaField acc f = pure acc := by
  unfold typeMetaField
  split <;> simp_all

theorem unknownField_of_not_mem (h : f.num ∉ [1, 2]) (acc : Unknown) : unknownField acc f = pure acc := by
  unfold unknownField
  split <;> simp_all

theorem run_typeMeta {b : Body n} (h : Readable b.typeMeta) (acc : Unknown) :
    (forEachField (encode b.typeMeta) acc typeMetaField).run (nextField prof) =
      .ok { acc with apiVersion := b.apiVersion, kind := b.object.kind } := by
  have hothers : ∀ f ∈ b.typeMetaOthers.fields, ∀ acc,
      (typeMetaField acc f).run (nextField prof) = pure acc := by
    intro f hf acc
    rw [typeMetaField_of_not_mem (b.typeMetaOthers.unknown f hf)]
    rfl
  rw [run_forEachField h, typeMeta, message, foldlM_arrange _ hothers]
  simp [numbered, strings, typeMetaField, ok_bind]

theorem run_unknown {b : Body n} (h : Readable b.fields) :
    (forEachField (encode b.fields) {} unknownField).run (nextField prof) =
      .ok ⟨b.apiVersion, b.object.kind, encode b.object.fields⟩ := by
  have hothers : ∀ f ∈ b.others.fields, ∀ acc,
      (unknownField acc f).run (nextField prof) = pure acc := by
    intro f hf acc
    rw [unknownField_of_not_mem (b.others.unknown f hf)]
    rfl
  have hmem : ⟨1, embedded b.typeMeta⟩ ∈ b.fields :=
    mem_arrange.2 (.inr (by simp [numbered]))
  have htype : Readable b.typeMeta := h.of_mem hmem (b.typeMeta_delimited.valid b.typeMetaOthers)
  rw [run_forEachField h, fields, message, foldlM_arrange _ hothers]
  simp [numbered, embedded, unknownField, run_typeMeta htype, ok_bind]

def decoded (b : Body n) : Json :=
  .record ([("apiVersion", some (.str b.apiVersion)), ("kind", some (.str b.object.kind))] ++
    b.object.decoded)

theorem tryProtoToJson_bytes (prof : Profile) {b : Body n} (h : b.bytes.length < 2 ^ 63) :
    tryProtoToJson prof b.bytes = .ok (some b.decoded) := by
  have hread : Readable b.fields := by
    refine ⟨b.delimited.valid b.others, ?_⟩
    rw [bytes, length_append] at h
    omega
  have hobj : Readable b.object.fields := by
    refine hread.of_mem (t := 2) (mem_arrange.2 (.inr ?_)) b.object.valid
    simp [numbered, embedded]
  have htake : b.bytes.take 4 = magic := rfl
  have hdrop : b.bytes.drop 4 = encode b.fields := rfl
  rw [tryProtoToJson, decodeBody, if_neg (not_not.2 htake), hdrop]
  simp only [run_bind, run_unknown hread, except_ok_bind]
  exact run_decodeObject b.apiVersion hobj

end Body

end

end Z8s.Api.Objects
