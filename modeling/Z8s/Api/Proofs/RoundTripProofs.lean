import Z8s.Api.Proofs.DecodingProofs

/-!
# Proofs: decoding and encoding

The document that the decoder returns for an encoded object is the document of the object exactly
when the object is decodable.
-/

namespace Z8s.Api.Objects

open Rust Wire ContainerPort List

variable {n : Numbering}

/-! ### Fields of documents -/

theorem nonEmptyString_seen_iff (c : Bool) (s : Option String) :
    nonEmptyString (if c then none else s) = nonEmptyString s ↔ s.getD "" = "" ∨ c = false := by
  cases c with
  | false => simp
  | true =>
    by_cases hs : s.getD "" = ""
    · simp [nonEmptyString, hs]
    · simp [nonEmptyString, hs]

theorem map_str_seen_iff (c : Bool) (s : Option String) :
    (if c then none else s).map Json.str = s.map Json.str ↔ s = none ∨ c = false := by
  cases c <;> cases s <;> simp

theorem nonEmptyArray_inj {items items' : List Json} :
    nonEmptyArray items = nonEmptyArray items' ↔ items = items' := by
  unfold nonEmptyArray
  by_cases h : items = [] <;> by_cases h' : items' = [] <;> simp [h, h', eq_comm]

theorem orEmpty_map_inj {α : Type} {x : Option α} {f g : α → Json} :
    orEmpty (x.map f) = orEmpty (x.map g) ↔ ∀ a ∈ x, f a = g a := by
  cases x <;> simp [orEmpty]

/-- A message that is hidden is missed, if its document has any field. -/
theorem orEmpty_hidden_iff {α : Type} {x : Option α} {g : α → Json} {k : String}
    (hg : ∀ a, (g a).get k ≠ none) : orEmpty none = orEmpty (x.map g) ↔ x = none := by
  cases x with
  | none => simp
  | some a =>
    refine iff_of_false (fun h => hg a ?_) (by simp)
    have hget := congrArg (Json.get k) h
    exact hget.symm

/-! ### Metadata -/

theorem ObjectMeta.seen_toJson_iff (m : ObjectMeta) : m.seen.toJson = m.toJson ↔ m.Decodable := by
  have hlabels : (if m.seen.labels = [] then none else some (labelsJson m.seen.labels)) =
      (if m.labels = [] then none else some (labelsJson m.labels)) ↔
      m.labels = [] ∨ blocked 11 m.others.fields = false := by
    cases hb : blocked 11 m.others.fields <;> by_cases hl : m.labels = [] <;> simp [seen, hb, hl]
  refine Iff.trans (Json.record_inj (by rfl) (by simp)) ?_
  simp only [List.cons.injEq, Prod.mk.injEq, true_and, and_true, hlabels]
  have huid := nonEmptyString_seen_iff (blocked 5 m.others.fields) m.uid
  constructor
  · rintro ⟨-, -, -, hu, hl⟩
    exact ⟨huid.1 hu, hl⟩
  · intro h
    exact ⟨rfl, rfl, rfl, huid.2 h.uid, h.labels⟩

/-! ### Containers -/

theorem envOf_fields (e : EnvVar) : envOf e.fields = [e.toJson] := by
  have hname : scanned 1 e.fields = [utf8 e.name] :=
    e.delimited.scanned_lowest e.others (by decide) (by decide) (by simp [contentsAt, EnvVar.blocks])
  have hvalue : scanned 2 e.fields = e.value.toList.map utf8 :=
    e.delimited.scanned_lowest e.others (by decide) (by decide) (by simp [contentsAt, EnvVar.blocks])
  rw [envOf, hname, hvalue, head?_strings]
  simp only [head?_cons, Option.map_some, fromUtf8Lossy_utf8]
  rfl

theorem portOf_fields (p : ContainerPort .decoder) :
    portOf p.fields = .record [("containerPort", some (.num p.containerPort)),
      ("protocol", some (.str "TCP"))] := by
  have hport : p.fields.findSome? (varintAt 1) = some p.containerPort := by
    rw [← head?_filterMap, fields, message,
      filterMap_arrange _ (varintAt_others _ (by decide))]
    simp [blocks, numbered, varintAt, Numbering.containerPort]
  have hprotocol : scanned 4 p.fields = [] := by
    have hblocked : blocked 4 (numbered p.blocks) = true := by
      rw [blocked_numbered]
      simp [blocks, Numbering.containerPort, Value.isBytes]
    rw [fields, p.layout.scanned p.others (by simp) ?_, hblocked, Bool.or_true]
    · rfl
    · simp [blocks, Numbering.containerPort, strings, Value.isBytes]
  have hasI64 : asI64 p.containerPort = p.containerPort := by
    have hle := p.isPort.2
    rw [asI64, if_pos (by omega)]
  rw [portOf, hport, hprotocol]
  simp only [Option.getD_some, hasI64]
  rfl

theorem get_portOf_env (e : EnvVar) : (portOf e.fields).get "containerPort" = some (.num 0) := by
  have hnone : e.fields.findSome? (varintAt 1) = none := by
    rw [findSome?_eq_none_iff]
    intro f hf
    rcases mem_arrange.1 hf with hf | hf
    · exact varintAt_others _ (by decide) f hf
    · obtain ⟨b, hb, -, hv⟩ := mem_numbered.1 hf
      have hbytes := e.delimited.bytes b hb f.value hv
      unfold varintAt
      cases hval : f.value <;> simp_all [Value.isBytes]
  rw [portOf, hnone, Json.get_ofFields (by simp)]
  rfl

namespace Container

theorem json_inj (c : Container n) {env env' ports ports' : List Json} :
    c.json env ports = c.json env' ports' ↔ env = env' ∧ ports = ports' := by
  refine Iff.trans (Json.record_inj (by rfl) (by simp)) ?_
  simp only [List.cons.injEq, Prod.mk.injEq, true_and, and_true, nonEmptyArray_inj]

theorem decoded_iff_decoder (c : Container .decoder) : c.decoded = c.toJson ↔ c.Decodable := by
  have henv : c.sixth.flatMap envOf = c.env.map EnvVar.toJson := by
    rw [sixth, flatMap_map, map_eq_flatMap]
    exact congrArg (c.env.flatMap ·) (funext envOf_fields)
  have hports : c.seventh.map portOf = c.ports.map ContainerPort.toJson ↔ c.Decodable := by
    rw [seventh, map_map, map_inj_left]
    refine forall₂_congr fun p _ => ?_
    rw [Function.comp_apply, portOf_fields, ContainerPort.toJson]
    refine Iff.trans (Json.record_inj (by rfl) (by simp)) ?_
    simp [eq_comm]
  rw [decoded, toJson, json_inj, hports, and_iff_right henv]

theorem decoded_iff_kubernetes (c : Container .kubernetes) :
    c.decoded = c.toJson ↔ c.Decodable := by
  rw [decoded, toJson, json_inj]
  constructor
  · rintro ⟨-, hports⟩
    rw [seventh, map_map] at hports
    cases henv : c.env with
    | nil =>
      rw [henv] at hports
      exact ⟨henv, map_eq_nil_iff.1 hports.symm⟩
    | cons e env =>
      -- the first variable is taken for a port with number 0, which no port has
      rw [henv] at hports
      obtain ⟨p, ports, -, hp, -⟩ := map_eq_cons_iff.1 hports.symm
      have hzero := get_portOf_env e
      rw [← show p.toJson = portOf e.fields from hp, ContainerPort.toJson,
        Json.get_record (by simp)] at hzero
      have hport : p.containerPort = 0 := by simpa [lookup_cons] using hzero
      have hpos := p.isPort.1
      omega
  · rintro ⟨henv, hports⟩
    simp [sixth, seventh, henv, hports]

theorem decoded_iff (c : Container n) : c.decoded = c.toJson ↔ c.Decodable := by
  cases n with
  | decoder => exact c.decoded_iff_decoder
  | kubernetes => exact c.decoded_iff_kubernetes

theorem map_decoded_iff (b : Bool) (containers : List (Container n)) :
    (if b then [] else containers).map decoded = containers.map toJson ↔
      (containers = [] ∨ b = false) ∧ ∀ c ∈ containers, c.Decodable := by
  cases b with
  | true =>
    cases containers with
    | nil => simp
    | cons c containers => simp
  | false =>
    simp only [Bool.false_eq_true, if_false, or_true, true_and, map_inj_left, decoded_iff]

end Container

/-! ### Pods -/

theorem PodSpec.decoded_iff (s : PodSpec n) : s.decoded = s.toJson ↔ s.Decodable := by
  have hcontainers := Container.map_decoded_iff (blocked 2 s.others.fields) s.containers
  have hinit := Container.map_decoded_iff (blocked 20 s.others.fields) s.initContainers
  have hdns := map_str_seen_iff (blocked 6 s.others.fields) s.dnsPolicy
  have hsvc := map_str_seen_iff (blocked 8 s.others.fields) s.serviceAccountName
  have hrestart := map_str_seen_iff (blocked 3 s.others.fields) s.restartPolicy
  refine Iff.trans (Json.record_inj (by rfl) (by simp)) ?_
  simp only [List.cons.injEq, Prod.mk.injEq, true_and, and_true, nonEmptyArray_inj,
    Option.some.injEq, Json.arr.injEq, seen, hcontainers, hinit, hdns, hsvc, hrestart]
  constructor
  · rintro ⟨⟨hc, hceach⟩, ⟨hi, hieach⟩, hd, hs, hr⟩
    refine ⟨hc, hr, hd, hs, hi, fun c hc => ?_⟩
    rcases mem_append.1 hc with hc | hc
    · exact hceach c hc
    · exact hieach c hc
  · intro h
    exact ⟨⟨h.containers, fun c hc => h.each c (mem_append_left _ hc)⟩,
      ⟨h.initContainers, fun c hc => h.each c (mem_append_right _ hc)⟩, h.dnsPolicy,
      h.serviceAccountName, h.restartPolicy⟩

/-! ### Deployments -/

theorem PodTemplate.decoded_iff (t : PodTemplate n) : t.decoded = t.toJson ↔ t.Decodable := by
  refine Iff.trans (Json.record_inj (by rfl) (by simp)) ?_
  simp only [List.cons.injEq, Prod.mk.injEq, true_and, and_true, Option.some.injEq,
    orEmpty_map_inj, ObjectMeta.seen_toJson_iff, PodSpec.decoded_iff]
  exact ⟨fun h => ⟨h.1, h.2⟩, fun h => ⟨h.metadata, h.spec⟩⟩

theorem LabelSelector.get_matchLabels (l : LabelSelector) : l.toJson.get "matchLabels" ≠ none := by
  rw [toJson, Json.get_record (by simp)]
  simp

theorem PodTemplate.get_metadata (t : PodTemplate n) : t.toJson.get "metadata" ≠ none := by
  rw [toJson, Json.get_record (by simp)]
  simp

theorem DeploymentSpec.decoded_iff (s : DeploymentSpec n) : s.decoded = s.toJson ↔ s.Decodable := by
  refine Iff.trans (Json.record_inj (by rfl) (by simp)) ?_
  simp only [List.cons.injEq, Prod.mk.injEq, true_and, and_true, Option.some.injEq]
  cases hr : s.replicas with
  | none =>
    simp only [seen, hr, Option.isSome_none, Bool.false_eq_true, if_false, orEmpty_map_inj,
      PodTemplate.decoded_iff, true_and]
    exact ⟨fun h => ⟨.inl hr, h⟩, fun h => h.template⟩
  | some r =>
    -- both are hidden
    simp only [seen, hr, Option.isSome_some, if_true, Option.map_none,
      orEmpty_hidden_iff LabelSelector.get_matchLabels, orEmpty_hidden_iff PodTemplate.get_metadata]
    constructor
    · rintro ⟨hsel, htmpl⟩
      exact ⟨.inr ⟨hsel, htmpl⟩, fun t ht => by simp [htmpl] at ht⟩
    · intro h
      exact h.replicas.resolve_left (by simp [hr])

/-! ### Bodies -/

theorem Object.keys_decoded (obj : Object n) : obj.decoded.map Prod.fst = obj.content.map Prod.fst := by
  cases obj <;> rfl

theorem Object.decoded_iff (obj : Object n) : obj.decoded = obj.content ↔ obj.Decodable := by
  cases obj with
  | nspace metadata o =>
    simp only [decoded, content, List.cons.injEq, Prod.mk.injEq, true_and, and_true,
      Option.some.injEq, orEmpty_map_inj, ObjectMeta.seen_toJson_iff]
    rfl
  | pod metadata spec o =>
    simp only [decoded, content, List.cons.injEq, Prod.mk.injEq, true_and, and_true,
      Option.some.injEq, orEmpty_map_inj, ObjectMeta.seen_toJson_iff, PodSpec.decoded_iff]
    rfl
  | deployment metadata spec o =>
    simp only [decoded, content, List.cons.injEq, Prod.mk.injEq, true_and, and_true,
      Option.some.injEq, orEmpty_map_inj, ObjectMeta.seen_toJson_iff, DeploymentSpec.decoded_iff]
    rfl

theorem Body.decoded_iff (b : Body n) : b.decoded = b.toJson ↔ b.object.Decodable := by
  rw [← Object.decoded_iff]
  refine Iff.trans (Json.record_inj ?_ ?_) ?_
  · simp [Object.keys_decoded]
  · cases b.object <;> simp [Object.decoded]
  · simp

/-- Decoding undoes encoding exactly for the decodable objects. -/
theorem tryProtoToJson_bytes_iff (prof : Profile) {n : Numbering} (b : Body n)
    (h : b.bytes.length < 2 ^ 63) :
    tryProtoToJson prof b.bytes = .ok (some b.toJson) ↔ b.object.Decodable := by
  rw [Body.tryProtoToJson_bytes prof h, Except.ok.injEq, Option.some.injEq, Body.decoded_iff]

private def webMeta : ObjectMeta := { name := some "web", labels := [("app", "web")] }

/-- A spec with a volume before the containers and a flag after all known fields. -/
private def webPodSpec : PodSpec .kubernetes where
  containers := [{ name := some "app", image := some "nginx", command := ["nginx", "-g"] }]
  restartPolicy := some "Always"
  others := ⟨[⟨1, .bytes []⟩, ⟨27, .varint 1⟩], by decide, by decide⟩

private def webPod : Body .kubernetes where
  apiVersion := "v1"
  object := .pod (some webMeta) (some webPodSpec) ∅

theorem tryProtoToJson_webPod :
    webPod.bytes.length < 2 ^ 63 ∧
    tryProtoToJson ⟨false⟩ webPod.bytes = .ok (some webPod.toJson) := by
  have hlen : webPod.bytes.length < 2 ^ 63 := by decide +kernel
  have hmeta : webMeta.Decodable := ⟨.inl rfl, .inr rfl⟩
  have hspec : webPodSpec.Decodable := by
    refine ⟨.inr rfl, .inr rfl, .inl rfl, .inl rfl, .inl rfl, ?_⟩
    intro c hc
    obtain rfl := mem_singleton.1 hc
    exact ⟨rfl, rfl⟩
  refine ⟨hlen, (tryProtoToJson_bytes_iff ⟨false⟩ webPod hlen).2 ⟨?_, ?_⟩⟩
  · rintro m ⟨⟩
    exact hmeta
  · rintro s ⟨⟩
    exact hspec

private def webDeployment : Body .kubernetes where
  apiVersion := "apps/v1"
  object := .deployment (some webMeta)
    (some { replicas := some ⟨3, by decide⟩, selector := some { matchLabels := [("app", "web")] },
            template := some { metadata := some webMeta, spec := some webPodSpec } }) ∅

/-- The decoder returns the deployment without its selector and its template. -/
theorem replicas_hide_selector_and_template :
    (∃ j ∈ (tryProtoToJson ⟨false⟩ webDeployment.bytes).toOption.join,
      (j.get "spec").bind (Json.get "selector") = some (.ofFields []) ∧
      (j.get "spec").bind (Json.get "template") = some (.ofFields [])) ∧
    (webDeployment.toJson.get "spec").bind (Json.get "selector") =
      some (.ofFields [("matchLabels", .ofFields [("app", .str "web")])]) ∧
    tryProtoToJson ⟨false⟩ webDeployment.bytes ≠ .ok (some webDeployment.toJson) := by
  decide +kernel

end Z8s.Api.Objects
