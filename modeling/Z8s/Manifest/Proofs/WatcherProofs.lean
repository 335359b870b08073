import Z8s.Api.Proofs.ServicesProofs
import Z8s.Manifest.Watcher
import Z8s.Network.Proofs.SyncProofs
import Z8s.Storage.Proofs.OrderProofs

/-!
# Proofs: Manifests and requests

A file stores the document as it is, and no pass makes up for what the handler of a request does.
-/

namespace Z8s.Manifest

open Rust Collections Z8s.Types Netmux Network Storage Api Transition ResourceStore Option AnyResource ResourceTracker

variable {pvc : PersistentVolumeClaim} {svc : Service}
variable {spec : PersistentVolumeClaimSpec} {prof : Profile} {uid uuid : String} {env : PostEnv}
  {created : Service} {cfg : Config}

/-! ### States that differ in uids only -/

section Uids

variable {s s' : ResourceStore} {r r' : AnyResource} {w w' : World}

def eraseTracker (t : ResourceTracker) : ResourceTracker :=
  { t with resource := t.resource.mapMetadata eraseUid }

theorem uid_mapMetadata_eraseUid (r : AnyResource) : (r.mapMetadata eraseUid).uid = r.uid := by
  cases r <;> rfl

theorem blank_mapMetadata_eraseUid (r : AnyResource) : blank (r.mapMetadata eraseUid) = blank r := by
  cases r <;> rfl

def SameEntries (s s' : ResourceStore) : Prop :=
  ∀ uid, (s.get uid).map eraseTracker = (s'.get uid).map eraseTracker

theorem map_comp_congr {α β γ : Type} {a b : Option α} {f : α → β} (h : a.map f = b.map f) (g : β → γ) :
    a.map (g ∘ f) = b.map (g ∘ f) := by
  rw [← map_map, h, map_map]

section

variable (h : SameEntries s s')
include h

theorem SameEntries.state (uid : String) :
    (s.get uid).map state = (s'.get uid).map state :=
  map_comp_congr (h uid) ResourceTracker.state

theorem SameEntries.apply
    (hr : r.mapMetadata eraseUid = r'.mapMetadata eraseUid) : SameEntries (s.apply r) (s'.apply r') := by
  intro uid
  have huid : r.uid = r'.uid := by
    rw [← uid_mapMetadata_eraseUid, hr, uid_mapMetadata_eraseUid]
  rw [get_apply, get_apply, huid, h.state]
  split_ifs
  · simp only [map_some, eraseTracker, hr]
  · exact h uid

theorem SameEntries.delete (r : AnyResource) : SameEntries (s.delete r) (s'.delete r) := by
  intro uid
  rw [get_delete, get_delete]
  split_ifs
  · rfl
  · exact h uid

theorem SameEntries.updateState (u : String) (state : ResourceState) :
    SameEntries (s.updateState u state) (s'.updateState u state) := by
  intro uid
  rw [get_updateState, get_updateState]
  split_ifs
  · rw [map_map, map_map]
    exact map_comp_congr (h uid) fun t => { t with state }
  · exact h uid

end

structure SameUpToUid (w w' : World) : Prop where
  entries : SameEntries w.store w'.store
  manager : w.manager = w'.manager
  routes : w.routes = w'.routes
  dnsRecords : w.dnsRecords = w'.dnsRecords

theorem SameUpToUid.outcome (h : SameUpToUid w w') : SameOutcome w w' where
  entries uid := by
    have herase : blankTracker ∘ eraseTracker = blankTracker := by
      funext t
      simp only [Function.comp_apply, blankTracker, eraseTracker, blank_mapMetadata_eraseUid]
    exact herase ▸ map_comp_congr (h.entries uid) blankTracker
  manager := h.manager
  routes := h.routes
  dnsRecords := h.dnsRecords

theorem asService_mapMetadata_eraseUid (r : AnyResource) : asService (r.mapMetadata eraseUid) =
    (asService r).map fun svc => { svc with metadata := eraseUid svc.metadata } := by
  cases r <;> rfl

theorem SameEntries.services (h : SameEntries s s') (uid : String) :
    ((s.get uid).bind fun t => asService t.resource).map
        (fun svc => { svc with metadata := eraseUid svc.metadata }) =
      ((s'.get uid).bind fun t => asService t.resource).map
        (fun svc => { svc with metadata := eraseUid svc.metadata }) := by
  have hmap := congrArg (Option.bind · fun t => asService t.resource) (h uid)
  simp only [bind_map, Function.comp_def, eraseTracker, asService_mapMetadata_eraseUid] at hmap
  rw [map_bind, map_bind]
  exact hmap

theorem syncService_congr (h : SameEntries s s') (ns : String) (labels : BTreeMap String String)
    (env : String → Nat → PortEnv) (nm : NetworkManager) (uid : String) :
    syncService ns labels env s nm uid = syncService ns labels env s' nm uid := by
  have hservices := h.services uid
  unfold syncService
  cases hsvc : (s.get uid).bind fun t => asService t.resource with
  | none =>
    rw [hsvc, map_none, eq_comm, map_eq_none_iff] at hservices
    rw [hservices]
  | some svc =>
    rw [hsvc, map_some, eq_comm, map_eq_some_iff] at hservices
    obtain ⟨svc', hsvc', heq⟩ := hservices
    rw [hsvc']
    have hmeta : eraseUid svc'.metadata = eraseUid svc.metadata := congrArg Service.metadata heq
    have hname : svc.metadata.name = svc'.metadata.name := (congrArg ObjectMeta.name hmeta).symm
    have hns : svc.metadata.inNamespace = svc'.metadata.inNamespace :=
      (congrArg ObjectMeta.inNamespace hmeta).symm
    have hspec : svc.spec = svc'.spec := (congrArg Service.spec heq).symm
    have hselects : selectsLabels ns labels svc = selectsLabels ns labels svc' := by
      unfold selectsLabels svcNamespace selectorOf
      rw [hns, hspec]
    simp only [hselects, syncServiceProxies_congr hname hns hspec]

theorem SameUpToUid.pass (h : SameUpToUid w w') (step : PassStep) :
    SameUpToUid (pass w step) (pass w' step) := by
  cases step with
  | syncServicesForLabels ns labels uids env =>
    refine ⟨h.entries, ?_, h.routes, h.dnsRecords⟩
    change uids.foldl _ w.manager = uids.foldl _ w'.manager
    rw [h.manager]
    have hsync : syncService ns labels env w.store = syncService ns labels env w'.store := by
      funext nm uid
      exact syncService_congr h.entries ns labels env nm uid
    rw [hsync]
  | applyPod pod => exact ⟨h.entries.apply rfl, h.manager, h.routes, h.dnsRecords⟩
  | deletePod pod => exact ⟨h.entries.delete _, h.manager, h.routes, h.dnsRecords⟩
  | updateState uid state => exact ⟨h.entries.updateState uid state, h.manager, h.routes, h.dnsRecords⟩

theorem SameUpToUid.passes (h : SameUpToUid w w') (steps : List PassStep) :
    SameUpToUid (passes w steps) (passes w' steps) := by
  induction steps generalizing w w' with
  | nil => exact h
  | cons step steps ih => exact ih (h.pass step)

end Uids

/-! ### A document that leaves nothing to the handler -/

section Inert

variable {ns : String} {doc : Document}

theorem eraseUid_fillCreated (hns : SameNamespace ns doc) (uuid : String) :
    eraseUid { doc.resource.metadata with
        inNamespace := doc.resource.metadata.inNamespace.or (some "default") } =
      eraseUid (fillCreated ns uuid doc.resource.metadata) := by
  have hfill : doc.resource.metadata.inNamespace.or (some "default") =
      doc.resource.metadata.inNamespace.or (some ns) := by
    rcases hns with hsome | rfl
    · obtain ⟨n, hn⟩ := isSome_iff_exists.1 hsome
      rw [hn, some_or, some_or]
    · rfl
  unfold eraseUid fillCreated
  rw [hfill]

theorem mapMetadata_fillCreated (hns : SameNamespace ns doc) (uuid : String) :
    (setDefaultNamespace doc.resource).mapMetadata eraseUid =
      (doc.resource.mapMetadata (fillCreated ns uuid)).mapMetadata eraseUid := by
  have hmeta := eraseUid_fillCreated hns uuid
  cases doc with
  | service svc => exact congrArg (fun m => service { svc with metadata := m }) hmeta
  | claim pvc => exact congrArg (fun m => persistentVolumeClaim { pvc with metadata := m }) hmeta
  | ingress ing => exact congrArg (fun m => ingress { ing with metadata := m }) hmeta

theorem createdService_of_complete {s : ServiceState} (h : Complete svc) :
    createdService prof cfg s ns uuid svc =
      .ok ({ svc with metadata := fillCreated ns uuid svc.metadata }, s.ipCounter, s.nodePortCounter) := by
  obtain ⟨hstatus, hspec⟩ := h
  obtain ⟨m, spec, status⟩ := svc
  obtain ⟨st, rfl⟩ := isSome_iff_exists.1 hstatus
  cases spec with
  | none => rfl
  | some spec =>
    obtain ⟨hneeds, hports⟩ := hspec spec rfl
    have hloop : assignPorts (hasNodePorts spec) s.nodePortCounter (spec.ports.getD []) =
        (spec.ports.getD [], s.nodePortCounter) := assignPorts_eq_self hports
    have hfilled : { spec with ports := spec.ports.map fun _ => spec.ports.getD [] } = spec := by
      obtain ⟨type, clusterIp, clusterIps, externalName, selector, ports⟩ := spec
      cases ports <;> rfl
    simp only [createdService, assignClusterIp, hneeds, Bool.false_eq_true, if_false, hloop, Except.map, hfilled]
    rfl

theorem isOk_preparePv_congr {pvc' : PersistentVolumeClaim} (h : pvc'.spec = pvc.spec)
    (cls uid uid' : String) : (preparePv pvc' cls uid').isOk = (preparePv pvc cls uid).isOk := by
  unfold preparePv
  rw [h]
  cases pvc.spec with
  | none => rfl
  | some spec =>
    cases StorageClass.byName cls with
    | none => rfl
    | some c =>
      simp only
      cases select c <;> rfl

theorem isOk_doProvision {cls : String} {result : Except Error Unit} :
    (doProvision pvc cls uid result).isOk = ((preparePv pvc cls uid).isOk && result.isOk) := by
  unfold doProvision
  cases preparePv pvc cls uid <;> cases result <;> rfl

theorem onApplyPvc_eq_self {pvs : List ResourceTracker} {pvUid : String} {backend : Except Error Unit}
    (store : ResourceStore)
    (hbind : volumeName pvc = none → className pvc = none → bindClaim pvc pvs = none)
    (hprov : volumeName pvc = none → ∀ cls, className pvc = some cls → (doProvision pvc cls pvUid backend).isOk = false) :
    onApplyPvc store pvc pvs pvUid backend = store := by
  unfold onApplyPvc
  split_ifs with hvol hclass
  · rfl
  · rcases provisionForPvc_cases store pvc pvUid backend with hsame | ⟨cls, pv, pvc', hcls, hok, -⟩
    · exact hsame
    · have hfails := hprov (not_isSome_iff_eq_none.1 hvol) cls hcls
      rw [hok] at hfails
      cases hfails
  · rw [hbind (not_isSome_iff_eq_none.1 hvol) (not_isSome_iff_eq_none.1 hclass)]

theorem onApplyPvc_of_neverBound (h : NeverBound pvc) (store : ResourceStore) (uuid pvUid : String)
    (pvs : List ResourceTracker) (backend : Except Error Unit) :
    onApplyPvc store (postedPvc ns pvc uuid) pvs pvUid backend = store := by
  have hspec : (postedPvc ns pvc uuid).spec = pvc.spec := rfl
  refine onApplyPvc_eq_self store (fun hvol hnoclass => ?_) fun hvol cls hcls => ?_
  · rcases h with hsome | hnone | ⟨cls, hclass, -⟩
    · exact absurd hvol (isSome_iff_ne_none.1 hsome)
    · unfold bindClaim findMatchingPv
      rw [hspec, hnone]
      rfl
    · exact absurd (hclass.symm.trans hnoclass) (some_ne_none cls)
  · rw [isOk_doProvision, isOk_preparePv_congr hspec cls "" pvUid]
    rcases h with hsome | hnone | ⟨cls', hclass, hfails⟩
    · exact absurd hvol (isSome_iff_ne_none.1 hsome)
    · unfold preparePv
      rw [hnone]
      rfl
    · obtain rfl := Option.some.inj (hclass.symm.trans hcls)
      rw [hfails]
      rfl

theorem sameUpToUid_of_inert (hns : SameNamespace ns doc) (h : Inert doc) {w posted : World}
    (hpost : post env ns w doc = some posted) : SameUpToUid (processFile w [doc.resource]) posted := by
  have hrefl : SameEntries w.store w.store := fun _ => rfl
  have hmeta := mapMetadata_fillCreated hns env.uuid
  cases doc with
  | service svc =>
    obtain ⟨hcomplete, hkeys⟩ := h
    simp only [post, createdService_of_complete hcomplete] at hpost
    cases hpost
    refine ⟨hrefl.apply hmeta, (syncServiceProxies_of_no_keys ?_).symm, rfl, rfl⟩
    have hports := keysOf_eq_nil_iff.1 hkeys
    exact keysOf_eq_nil_iff.2 hports
  | claim pvc =>
    obtain ⟨store, hstep, rfl⟩ := map_eq_some_iff.1 hpost
    obtain ⟨-, rfl⟩ := step_createPvc hstep
    rw [onApplyPvc_of_neverBound h]
    exact ⟨hrefl.apply hmeta, rfl, rfl, rfl⟩
  | ingress ing =>
    cases hpost
    have hspec : ing.spec = none := h
    refine ⟨hrefl.apply hmeta, rfl, ?_, ?_⟩
    · simp [applyIngress, hspec, processFile, World.setStore]
    · simp [recordHosts, ingressRules, hspec, processFile, World.setStore, HashMap.insertAll]

end Inert

/-! ### What the handler adds -/

section Agreement

variable {ns : String} {doc : Document} {w w' : World}

def emptyWorld : World where
  services := .init
  manager := ⟨∅, .new⟩
  routes := ∅
  dnsRecords := ∅
  gateway := Ipv4Addr.new 10 42 0 1

def requestEnv (volumes : List ResourceTracker) (backend : Except Error Unit) : PostEnv where
  prof := ⟨true⟩
  cfg := .new
  uuid := "1"
  ports _ := {}
  volumes
  pvUid := "2"
  backend

def blankAt (s : ResourceStore) (uid : String) : Option AnyResource :=
  ((s.get uid).map ResourceTracker.resource).map blank

theorem SameOutcome.resources (h : SameOutcome w w') (uid : String) :
    blankAt w.store uid = blankAt w'.store uid := by
  unfold blankAt
  rw [map_map, map_map]
  exact map_comp_congr (h.entries uid) resource

def claimVolume : AnyResource → Option String
  | .persistentVolumeClaim pvc => volumeName pvc
  | _ => none

theorem carriedBy_eq (s : ResourceStore) (uid : String) :
    carriedBy s uid = ((s.get uid).map blankTracker).bind fun t => claimVolume t.resource := by
  unfold carriedBy
  rw [bind_map]
  congr 1
  funext t
  obtain ⟨r, state⟩ := t
  cases r <;> rfl

theorem SameOutcome.carriedBy_eq (h : SameOutcome w w') (uid : String) :
    carriedBy w.store uid = carriedBy w'.store uid := by
  rw [Manifest.carriedBy_eq, Manifest.carriedBy_eq, h.entries]

theorem blankAt_apply (s : ResourceStore) (r : AnyResource) : blankAt (s.apply r) r.uid = some (blank r) := by
  rw [blankAt, get_apply, if_pos rfl]
  rfl

theorem post_service (env : PostEnv) (henv : env.cfg = .new) (ns : String) (w : World) (svc : Service) :
    ∃ created i n, createdService env.prof .new w.services ns env.uuid svc = .ok (created, i, n) ∧
      post env ns w (.service svc) = some { w with
        services := ⟨w.store.apply (.service created), i, n⟩
        manager := syncServiceProxies created w.manager env.ports } := by
  obtain ⟨created, i, n, hcreated⟩ := exists_createdService ns env.uuid svc
  refine ⟨created, i, n, hcreated, ?_⟩
  simp only [post, henv, hcreated]

theorem uid_createdService {s : ServiceState} {i n : Nat}
    (h : createdService prof cfg s ns uuid svc = .ok (created, i, n)) :
    (service created).uid = ((service svc).mapMetadata (fillCreated ns uuid)).uid := by
  simp only [uid, kind, namespaceOf, name,
    metadata, mapMetadata, (clusterIp_createdService h).1]

theorem post_claim (env : PostEnv) (ns : String) (w : World) (pvc : PersistentVolumeClaim)
    (hvolumes : env.volumes.Perm ((w.store.apply (.persistentVolumeClaim (postedPvc ns pvc env.uuid))).getByKind
      "PersistentVolume")) :
    post env ns w (.claim pvc) = some (w.setStore (onApplyPvc
      (w.store.apply (.persistentVolumeClaim (postedPvc ns pvc env.uuid))) (postedPvc ns pvc env.uuid)
      env.volumes env.pvUid env.backend)) := by
  simp only [post, VolumeRequest.step]
  rw [if_pos hvolumes]
  rfl

theorem exists_post_empty (ns : String) (doc : Document) :
    ∃ posted r, post (requestEnv [] (.error [])) ns emptyWorld doc = some posted ∧
      posted.store = new.apply r ∧
      r.uid = (doc.resource.mapMetadata (fillCreated ns "1")).uid := by
  cases doc with
  | service svc =>
    obtain ⟨created, i, n, hcreated, hpost⟩ := post_service (requestEnv [] (.error [])) rfl ns emptyWorld svc
    exact ⟨_, .service created, hpost, rfl, uid_createdService hcreated⟩
  | claim pvc =>
    refine ⟨_, .persistentVolumeClaim (postedPvc ns pvc "1"),
      post_claim (requestEnv [] (.error [])) ns emptyWorld pvc List.Perm.nil,
      onApplyPvc_eq_self _ (fun _ _ => ?_) fun _ cls _ => ?_, rfl⟩
    · unfold bindClaim findMatchingPv
      cases (postedPvc ns pvc (requestEnv [] (.error [])).uuid).spec <;> rfl
    · rw [isOk_doProvision]
      exact Bool.and_false _
  | ingress ing => exact ⟨_, _, rfl, rfl, rfl⟩

theorem namespaceOf_mapMetadata (doc : Document) (f : ObjectMeta → ObjectMeta) :
    (doc.resource.mapMetadata f).namespaceOf = (f doc.resource.metadata).inNamespace.getD "default" := by
  cases doc <;> rfl

theorem sameNamespace_of_agrees (h : Agrees ns doc) : SameNamespace ns doc := by
  obtain ⟨posted, r, hpost, hstore, huid⟩ := exists_post_empty ns doc
  have hentries : (((new.apply (setDefaultNamespace doc.resource)).get
      (setDefaultNamespace doc.resource).uid).map blankTracker) =
      (posted.store.get (setDefaultNamespace doc.resource).uid).map blankTracker :=
    (h emptyWorld _ posted [] hpost).entries _
  have hsame : (setDefaultNamespace doc.resource).uid = (doc.resource.mapMetadata (fillCreated ns "1")).uid := by
    by_contra hne
    rw [← huid] at hne
    rw [hstore, get_apply, if_pos rfl, get_apply, if_neg hne] at hentries
    cases hentries
  by_contra hdiffers
  obtain ⟨hnone, hns⟩ := not_or.1 hdiffers
  rw [not_isSome_iff_eq_none] at hnone
  have hnamespace := namespaceOf_eq_of_uid hsame (by cases doc <;> rfl)
  rw [setDefaultNamespace, namespaceOf_mapMetadata, namespaceOf_mapMetadata, fillCreated, hnone] at hnamespace
  exact hns hnamespace.symm

theorem uid_setDefaultNamespace (hns : SameNamespace ns doc) (uuid : String) :
    (setDefaultNamespace doc.resource).uid = (doc.resource.mapMetadata (fillCreated ns uuid)).uid := by
  rw [← uid_mapMetadata_eraseUid, mapMetadata_fillCreated hns, uid_mapMetadata_eraseUid]

theorem complete_of_blank_eq {s : ServiceState} {i n : Nat} {m : ObjectMeta}
    (hcreated : createdService prof .new s ns uuid svc = .ok (created, i, n))
    (h : blank (.service { svc with metadata := m }) = blank (.service created)) : Complete svc := by
  obtain ⟨-, hspec', hstatus⟩ := Service.mk.inj (service.inj h)
  refine ⟨?_, fun spec hsome => ?_⟩
  · rw [hstatus]
    exact status_createdService hcreated
  · obtain ⟨filled, hfilled, hip, hports⟩ := spec_createdService hsome hcreated
    rw [mem_def.1 hsome, hfilled, map_some, map_some, some_inj] at hspec'
    have hips : spec.clusterIp.map blankIp = filled.clusterIp.map blankIp :=
      congrArg ServiceSpec.clusterIp hspec'
    have hblanks : spec.ports.map (fun ports => ports.map blankPort) =
        filled.ports.map fun ports => ports.map blankPort := congrArg ServiceSpec.ports hspec'
    refine ⟨?_, fun p hp => ?_⟩
    · by_contra hneeds
      rw [Bool.not_eq_false] at hneeds
      obtain ⟨ip, hassigned⟩ := hip hneeds
      rw [hassigned, map_some, blankIp, if_neg (dotted_ne_empty ip)] at hips
      obtain ⟨own, hown, hnumber⟩ := map_eq_some_iff.1 hips
      have hempty : own = "" := by simpa [needsClusterIp, hown] using (Bool.and_eq_true_iff.1 hneeds).1
      rw [hempty] at hnumber
      revert hnumber
      decide
    · cases hsp : spec.ports with
      | none =>
        rw [hsp] at hp
        cases hp
      | some ports =>
        rw [hsp] at hp hports hblanks
        rw [hports, map_some, map_some, map_some, some_inj] at hblanks
        have hmem : blankPort p ∈ ports.map blankPort := List.mem_map_of_mem hp
        rw [hblanks] at hmem
        obtain ⟨q, hq, hsame⟩ := List.mem_map.1 hmem
        obtain ⟨htarget, hnode⟩ := filled_assignPorts hq
        have htargets : (blankPort q).targetPort = (blankPort p).targetPort := by rw [hsame]
        have hnodes : (blankPort q).nodePort.isSome = (blankPort p).nodePort.isSome := by rw [hsame]
        rw [blankPort, blankPort, isSome_map, isSome_map] at hnodes
        rw [← hnodes]
        exact ⟨htargets ▸ htarget, hnode⟩

theorem inert_service (hns : SameNamespace ns (.service svc)) (h : Agrees ns (.service svc)) :
    Inert (.service svc) := by
  obtain ⟨created, i, n, hcreated, hpost⟩ := post_service (requestEnv [] (.error [])) rfl ns emptyWorld svc
  have hsame := h emptyWorld _ _ [] hpost
  have huid : (setDefaultNamespace (.service svc)).uid = (service created).uid :=
    (uid_setDefaultNamespace hns "1").trans (uid_createdService hcreated).symm
  have hresources : blankAt (new.apply (setDefaultNamespace (.service svc)))
      (setDefaultNamespace (.service svc)).uid = blankAt (new.apply (.service created)) _ :=
    hsame.resources _
  rw [blankAt_apply, huid, blankAt_apply] at hresources
  have hcomplete : Complete svc := complete_of_blank_eq hcreated (Option.some.inj hresources)
  rw [createdService_of_complete hcomplete] at hcreated
  obtain ⟨rfl, -⟩ := Prod.mk.inj (Except.ok.inj hcreated)
  have hports := keysOf_eq_nil_iff.1 (keysOf_eq_nil rfl hsame.manager.symm)
  exact ⟨hcomplete, keysOf_eq_nil_iff.2 hports⟩

def fittingVolume (spec : PersistentVolumeClaimSpec) : PersistentVolume where
  metadata := { name := some "v" }
  spec := some { capacity := spec.resources.bind (·.requests), accessModes := spec.accessModes }

theorem tryBindPvc_fittingVolume (hspec : pvc.spec = some spec) (uid : String) :
    (tryBindPvc (postedPv (fittingVolume spec) uid) pvc).isSome = true := by
  have hcapacity : storageCapacity (fittingVolume spec).spec = requestedStorage spec := rfl
  have hmodes : modesCovered spec.accessModes spec.accessModes = true := by simp [modesCovered]
  unfold tryBindPvc postedPv
  simp only [fittingVolume] at hcapacity ⊢
  simp [hspec, hcapacity, hmodes]

theorem volumeFirst_isSome (hspec : pvc.spec = some spec) (h : ¬ NeverBound pvc) (ns uuid : String) :
    (volumeFirst (postedPv (fittingVolume spec) "") (postedPvc ns pvc uuid) "2" (.ok ())).isSome = true := by
  have hspec' : (postedPvc ns pvc uuid).spec = some spec := hspec
  have hcls' : className (postedPvc ns pvc uuid) = className pvc := rfl
  unfold volumeFirst
  rw [hcls']
  cases hcls : className pvc with
  | none =>
    rw [if_pos ⟨tryBindPvc_fittingVolume hspec' "", nofun⟩]
    rfl
  | some cls =>
    have hok : (preparePv pvc cls "").isOk = true := by
      by_contra hfails
      exact h (.inr (.inr ⟨cls, hcls, by simpa using hfails⟩))
    have hprovisioned : (doProvision (postedPvc ns pvc uuid) cls "2" (.ok ())).isOk = true := by
      have hsame : (postedPvc ns pvc uuid).spec = pvc.spec := rfl
      rw [isOk_doProvision, isOk_preparePv_congr hsame cls "" "2", hok]
      rfl
    simp only [hprovisioned, if_true, isSome_some]

theorem inert_claim (hns : SameNamespace ns (.claim pvc)) (h : Agrees ns (.claim pvc)) :
    Inert (.claim pvc) := by
  by_contra hbound
  have hvol : volumeName pvc = none := by
    by_contra hsome
    exact hbound (.inl (isSome_iff_ne_none.2 hsome))
  obtain ⟨spec, hspec⟩ := ne_none_iff_exists'.1 fun hnone => hbound (.inr (.inl hnone))
  -- a volume that fits is there before the claim
  let store := new.apply (.persistentVolume (postedPv (fittingVolume spec) ""))
  let volumes := (store.apply (.persistentVolumeClaim (postedPvc ns pvc "1"))).getByKind "PersistentVolume"
  let posted := onApplyPvc (store.apply (.persistentVolumeClaim (postedPvc ns pvc "1"))) (postedPvc ns pvc "1")
    volumes "2" (.ok ())
  have hpost : post (requestEnv volumes (.ok ())) ns (emptyWorld.setStore store) (.claim pvc) =
      some ((emptyWorld.setStore store).setStore posted) :=
    post_claim (requestEnv volumes (.ok ())) ns (emptyWorld.setStore store) pvc (List.Perm.refl _)
  have hbinding : HasBinding posted (postedPvc ns pvc "1")
      (volumeFirst (postedPv (fittingVolume spec) "") (postedPvc ns pvc "1") "2" (.ok ())) _ :=
    hasBinding_volumeFirst (by rfl) (by rfl) (by rfl) hvol (by simp [postedPvc]) rfl (List.Perm.refl volumes)
  have hloaded : carriedBy (processFile (emptyWorld.setStore store) [.persistentVolumeClaim pvc]).store
      (setDefaultNamespace (.persistentVolumeClaim pvc)).uid = volumeName pvc :=
    carriedBy_of_mem (mem_claims_apply_pvc.2 (.inl rfl))
  have hsame := (h _ _ _ [] hpost).carriedBy_eq (setDefaultNamespace (.persistentVolumeClaim pvc)).uid
  have huid : (setDefaultNamespace (.persistentVolumeClaim pvc)).uid =
      (persistentVolumeClaim (postedPvc ns pvc "1")).uid := uid_setDefaultNamespace hns "1"
  have hsome := volumeFirst_isSome hspec hbound ns "1"
  have hnone : volumeName pvc = volumeFirst (postedPv (fittingVolume spec) "") (postedPvc ns pvc "1") "2"
      (.ok ()) := by
    rw [← hbinding.carried, ← huid, ← hloaded]
    exact hsame
  rw [← hnone, hvol] at hsome
  cases hsome

theorem inert_ingress {ing : Ingress} (h : Agrees ns (.ingress ing)) : Inert (.ingress ing) := by
  have hroutes : (∅ : IngressRoutes) =
      applyIngress ∅ { ing with metadata := fillCreated ns "1" ing.metadata } :=
    (h emptyWorld (requestEnv [] (.error [])) _ [] rfl).routes
  change ing.spec = none
  by_contra hsome
  obtain ⟨spec, hspec⟩ := ne_none_iff_exists'.1 hsome
  have hget := congrArg (HashMap.get · (ing.metadata.uid.or (some "1") |>.getD "")) hroutes
  simp [applyIngress, hspec, fillCreated] at hget

end Agreement

/-- A file and a request lead to the same outcome exactly for the documents of the namespace that leave
nothing to the handler. -/
theorem agrees_iff (ns : String) (doc : Document) : Agrees ns doc ↔ SameNamespace ns doc ∧ Inert doc := by
  constructor
  · intro h
    have hns := sameNamespace_of_agrees h
    refine ⟨hns, ?_⟩
    cases doc with
    | service svc => exact inert_service hns h
    | claim pvc => exact inert_claim hns h
    | ingress ing => exact inert_ingress h
  · rintro ⟨hns, hinert⟩ w env posted steps hpost
    exact ((sameUpToUid_of_inert hns hinert hpost).passes steps).outcome

/-! ### No pass makes up for the handler -/

section Passes

variable {w w' : World}

theorem resource_passes (hpod : ∀ pod, uid ≠ (AnyResource.pod pod).uid) (w : World) (steps : List PassStep) :
    ((passes w steps).store.get uid).map resource =
      (w.store.get uid).map resource := by
  induction steps generalizing w with
  | nil => rfl
  | cons step steps ih =>
    refine (ih (pass w step)).trans ?_
    cases step with
    | syncServicesForLabels ns labels uids env => rfl
    | applyPod pod => exact congrArg _ (get_apply_of_ne (hpod pod))
    | deletePod pod => exact congrArg _ (get_delete_of_ne (hpod pod))
    | updateState u state =>
      have hget : (pass w (.updateState u state)).store.get uid =
          if uid = u then (w.store.get uid).map ({ · with state }) else w.store.get uid :=
        get_updateState _ _ _ _
      rw [hget]
      split_ifs
      · rw [map_map]
        rfl
      · rfl

theorem not_sameOutcome_of_resource (hpod : ∀ pod, uid ≠ (AnyResource.pod pod).uid)
    (hne : blankAt w.store uid ≠ blankAt w'.store uid) (steps : List PassStep) :
    ¬ SameOutcome (passes w steps) (passes w' steps) := by
  intro h
  have hsame := h.resources uid
  rw [blankAt, blankAt, resource_passes hpod, resource_passes hpod] at hsame
  exact hne hsame

theorem routes_passes (w : World) (steps : List PassStep) : (passes w steps).routes = w.routes := by
  induction steps generalizing w with
  | nil => rfl
  | cons step steps ih =>
    refine (ih (pass w step)).trans ?_
    cases step <;> rfl

end Passes

private def webService : Service where
  metadata := { name := some "web" }
  spec := some { selector := some (BTreeMap.ofList [("app", "web")]), ports := some [{ port := asI32 80 }] }

private def dataClaim : PersistentVolumeClaim where
  metadata := { name := some "data" }
  spec := some { storageClassName := some "hostpath" }

private def webIngress : Ingress where
  metadata := { name := some "web" }
  spec := some { rules := some [{ host := some "web.local", http := some [some ⟨"web", some (asI32 80)⟩] }] }

theorem exists_post_ahead {ns : String} {doc : Document} (w : World)
    (hpost : ∃ posted ∈ post env ns w doc,
      blankAt (processFile w [doc.resource]).store doc.resource.uid ≠ blankAt posted.store doc.resource.uid) :
    ∃ posted, post env ns w doc = some posted ∧ ∀ steps,
      ¬ SameOutcome (passes (processFile w [doc.resource]) steps) (passes posted steps) := by
  obtain ⟨posted, hposted, hne⟩ := hpost
  have hpod (pod : Pod) : doc.resource.uid ≠ (AnyResource.pod pod).uid := by
    intro huid
    have hkind := kind_eq_of_uid huid
    cases doc <;> simp [Document.resource, kind] at hkind
  exact ⟨posted, hposted, not_sameOutcome_of_resource hpod hne⟩

/-- None of the three documents has the same outcome on both ways, after however many passes. -/
theorem manifest_stays_behind :
    (∃ posted, post (requestEnv [] (.ok ())) "default" emptyWorld (.service webService) = some posted ∧
      ∀ steps, ¬ SameOutcome (passes (processFile emptyWorld [.service webService]) steps)
        (passes posted steps)) ∧
    (∃ posted, post (requestEnv [] (.ok ())) "default" emptyWorld (.claim dataClaim) = some posted ∧
      ∀ steps, ¬ SameOutcome (passes (processFile emptyWorld [.persistentVolumeClaim dataClaim]) steps)
        (passes posted steps)) ∧
    ∃ posted, post (requestEnv [] (.ok ())) "default" emptyWorld (.ingress webIngress) = some posted ∧
      ∀ steps, ¬ SameOutcome (passes (processFile emptyWorld [.ingress webIngress]) steps)
        (passes posted steps) := by
  refine ⟨exists_post_ahead emptyWorld (by decide +kernel), exists_post_ahead emptyWorld (by decide +kernel),
    _, rfl, fun steps hsame => ?_⟩
  have hroutes := hsame.routes
  rw [routes_passes, routes_passes] at hroutes
  have hget := congrArg (HashMap.get · "1") hroutes
  revert hget
  decide +kernel

end Z8s.Manifest
