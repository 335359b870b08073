import Z8s.Collections.Proofs.FirstMatchProofs
import Z8s.Netmux.Dns
import Z8s.Proofs.TypesProofs
import Z8s.Rust.Proofs.StrProofs

/-!
# Which Service a name resolves to

`parse_service_name` counts labels against the cluster domain.
-/

namespace Z8s.Netmux

open Collections Rust Z8s.Types List AnyResource

variable {domain name svc ns : String} {q : String × Option String}

/-! ### The shapes of a name -/

theorem splitChar_svc (domain name : String) :
    splitChar '.' (name ++ ".svc." ++ domain) = splitChar '.' name ++ "svc" :: splitChar '.' domain := by
  have hsvc : name ++ ".svc." ++ domain =
      name ++ String.ofList ['.'] ++ ("svc" ++ String.ofList ['.'] ++ domain) := by
    simp only [String.append_assoc]
    rfl
  rw [hsvc, splitChar_append, splitChar_append, splitChar_of_notMem (s := "svc") (by decide)]
  rfl

theorem splitChar_dot (name rest : String) :
    splitChar '.' (name ++ "." ++ rest) = splitChar '.' name ++ splitChar '.' rest :=
  splitChar_append '.' name rest

/-- A name, and the Service and the namespace that it is taken to stand for. -/
inductive NameShape (domain : String) : String → String × Option String → Prop
  | full (svc ns : String) : NameShape domain (svc ++ "." ++ ns ++ ".svc." ++ domain) (svc, some ns)
  | svcOnly (svc : String) : NameShape domain (svc ++ ".svc." ++ domain) (svc, none)
  | short {svc : String} (hlabel : '.' ∉ svc.toList) : NameShape domain (svc ++ "." ++ domain) (svc, none)
  | dropped {name svc : String} (hdrops : DropsLabels domain name)
      (hhead : (splitChar '.' name).head? = some svc) : NameShape domain name (svc, none)
  | bare {svc : String} (hlabel : '.' ∉ svc.toList) : NameShape domain svc (svc, none)
  | pair (svc ns : String) : NameShape domain (svc ++ "." ++ ns) (svc, some ns)

theorem eq_joinChar_domain {pre : List String} (hpre : pre ≠ [])
    (hparts : splitChar '.' name = pre ++ splitChar '.' domain) :
    name = joinChar '.' pre ++ "." ++ domain := by
  rw [← joinChar_splitChar '.' name, hparts, joinChar_append hpre (splitChar_ne_nil _ _),
    joinChar_splitChar]

theorem eq_joinChar_svc {pre : List String} (hpre : pre ≠ [])
    (hparts : splitChar '.' name = pre ++ ["svc"] ++ splitChar '.' domain) :
    name = joinChar '.' pre ++ ".svc." ++ domain := by
  rw [eq_joinChar_domain (by simp) hparts, joinChar_append hpre (by simp), joinChar_singleton]
  simp only [String.append_assoc]
  rfl

/-- `<svc>.<ns>.svc.<domain>`: the service may have dots of its own. -/
theorem NameShape.of_full {parts : List String} {k : Nat} (hpos : 0 < k) (hlen : k < parts.length)
    (hsvc : parts[k + 1]? = some "svc")
    (hlabels : splitChar '.' name = parts.take (k + 2) ++ splitChar '.' domain) :
    NameShape domain name (joinChar '.' (parts.take k), parts[k]?) := by
  obtain ⟨ns, hns⟩ : ∃ ns, parts[k]? = some ns := ⟨_, getElem?_eq_getElem hlen⟩
  rw [take_add_one, take_add_one, hns, hsvc] at hlabels
  have hne : parts.take k ≠ [] := by
    rw [Ne, take_eq_nil_iff, not_or, ← length_eq_zero_iff]
    omega
  have hname : name = joinChar '.' (parts.take k) ++ "." ++ ns ++ ".svc." ++ domain := by
    rw [eq_joinChar_svc (by simp) hlabels, Option.toList_some, joinChar_append hne (by simp),
      joinChar_singleton]
  rw [hname, hns]
  exact .full _ _

theorem nameShape_of_parse (h : parseServiceName domain name = some q) : NameShape domain name q := by
  unfold parseServiceName at h
  simp only at h
  generalize hparts : splitChar '.' name = parts at h
  obtain ⟨p, rest, hp⟩ := exists_cons_of_ne_nil (hparts ▸ splitChar_ne_nil '.' name)
  have hlabel : '.' ∉ p.toList := notMem_of_mem_splitChar (s := name) (by simp [hparts, hp])
  have htake : parts.take 1 = [p] := by rw [hp, take_succ_cons, take_zero]
  set dn := (splitChar '.' domain).length with hdn
  have hsplit {k : Nat} (hk : parts.length - dn = k)
      (hin : parts.drop (parts.length - dn) = splitChar '.' domain) :
      splitChar '.' name = parts.take k ++ splitChar '.' domain := by
    rw [← hin, hk, take_append_drop, hparts]
  split_ifs at h with hfull hsvc hdomain hone htwo
  · obtain ⟨hlen, hin, hsvc⟩ := hfull
    obtain ⟨k, hk⟩ : ∃ k, parts.length - dn = k + 2 := ⟨parts.length - dn - 2, by omega⟩
    rw [hk] at h hsvc
    cases h
    exact .of_full (by omega) (by omega) hsvc (hsplit hk hin)
  · obtain ⟨hlen, hin, hsvc⟩ := hsvc
    have hk : parts.length - dn = 2 := by
      have := mt (fun hlen => ⟨hlen, hin, hsvc⟩) hfull
      omega
    have hlabels := hsplit hk hin
    rw [hk] at hsvc
    rw [take_add_one, htake, show parts[1]? = some "svc" from hsvc] at hlabels
    cases h
    rw [eq_joinChar_svc (cons_ne_nil _ _) hlabels, joinChar_singleton, hp]
    exact .svcOnly _
  · obtain ⟨hlen, hin⟩ := hdomain
    cases h
    by_cases hk : parts.length - dn = 1
    · rw [eq_joinChar_domain (by simp [hp]) (hsplit hk hin), htake, joinChar_singleton, hp]
      exact .short hlabel
    · -- there is more than the first label, and what stands before the domain is not `svc`
      have hdrops : DropsLabels domain name := by
        refine ⟨?_, ?_, ?_⟩ <;> rw [hparts]
        · omega
        · exact hin
        · exact fun h => hsvc ⟨by omega, hin, h⟩
      exact .dropped hdrops (by rw [hparts, hp]; rfl)
  · cases h
    have hname : name = p := by
      rw [← joinChar_splitChar '.' name, hparts, hp,
        length_eq_zero_iff.1 (show rest.length = 0 by simpa [hp] using hone), joinChar_singleton]
    rw [hp, hname]
    exact .bare hlabel
  · obtain ⟨ns, rfl⟩ := length_eq_one_iff.1 (show rest.length = 1 by simpa [hp] using htwo)
    cases h
    have hname : name = p ++ "." ++ ns := by
      rw [← joinChar_splitChar '.' name, hparts, hp]
      rw [← singleton_append, joinChar_append (by simp) (by simp), joinChar_singleton,
        joinChar_singleton]
    rw [hp, hname]
    exact .pair _ _

/-! ### Names that are denoted -/

theorem not_dropsLabels_svc (domain name : String) : ¬ DropsLabels domain (name ++ ".svc." ++ domain) := by
  rintro ⟨-, -, hsvc⟩
  have hat : (splitChar '.' name ++ "svc" :: splitChar '.' domain).length -
      (splitChar '.' domain).length - 1 = (splitChar '.' name).length := by
    rw [length_append, length_cons]
    omega
  rw [splitChar_svc, hat, getElem?_append_right le_rfl, Nat.sub_self] at hsvc
  exact hsvc rfl

/-- Of the names of a Service, only `<svc>.<ns>` may have labels that are dropped. -/
theorem DropsLabels.mem_nameForms_iff (h : DropsLabels domain name)
    (hhead : (splitChar '.' name).head? = some svc) :
    name ∈ nameForms domain svc ns ↔ name = svc ++ "." ++ ns := by
  have hsvc : splitChar '.' svc = [svc] := by
    refine splitChar_of_notMem (notMem_of_mem_splitChar (s := name) ?_)
    exact mem_of_head? hhead
  have hlen := h.1
  simp only [nameForms, mem_cons, not_mem_nil, or_false]
  constructor
  · rintro (rfl | hpair | rfl | rfl | rfl)
    · rw [hsvc, length_singleton] at hlen
      omega
    · exact hpair
    · exact absurd h (not_dropsLabels_svc _ _)
    · exact absurd h (not_dropsLabels_svc _ _)
    · rw [splitChar_dot, hsvc, length_append, length_singleton] at hlen
      omega
  · exact fun hpair => .inr (.inl hpair)

/-! ### The Service that is found -/

section Found

variable {trackers : List ResourceTracker} {found : Service}

theorem serviceFor_eq_some {hint : Option String} {r : AnyResource} :
    serviceFor name hint r = some found ↔
      r = .service found ∧ serviceName found = name ∧ (∀ ns ∈ hint, serviceNamespace found = ns) ∧
        found.spec.isSome := by
  cases r with
  | service s =>
    simp only [serviceFor, Option.ite_none_right_eq_some, Option.some.injEq, service.injEq]
    constructor
    · rintro ⟨h, rfl⟩
      exact ⟨rfl, h⟩
    · rintro ⟨rfl, h⟩
      exact ⟨h, rfl⟩
  | _ => simp [serviceFor]

theorem exists_nameShape_of_found (h : foundService domain name trackers = some found) :
    ∃ hint : Option String, NameShape domain (trimEndMatches '.' name) (serviceName found, hint) ∧
      ∀ ns ∈ hint, serviceNamespace found = ns := by
  obtain ⟨⟨svc, hint⟩, hparse, hfind⟩ := Option.bind_eq_some_iff.1 h
  obtain ⟨t, -, hfor⟩ := exists_of_findSome?_eq_some hfind
  obtain ⟨-, rfl, hns, -⟩ := serviceFor_eq_some.1 hfor
  exact ⟨hint, nameShape_of_parse hparse, hns⟩

/-- Every name that is taken apart denotes what is found, unless labels are dropped. -/
theorem denotes_iff (h : foundService domain name trackers = some found) :
    Denotes domain name found ↔
      (DropsLabels domain (trimEndMatches '.' name) →
        trimEndMatches '.' name = serviceName found ++ "." ++ serviceNamespace found) := by
  obtain ⟨hint, hshape, hns⟩ := exists_nameShape_of_found h
  unfold Denotes
  generalize trimEndMatches '.' name = q at hshape ⊢
  generalize serviceName found = svc at hshape ⊢
  generalize serviceNamespace found = m at hns ⊢
  cases hshape with
  | full _ ns =>
    cases hns ns rfl
    exact iff_of_true (by simp [nameForms]) fun h => absurd h (not_dropsLabels_svc _ _)
  | svcOnly _ => exact iff_of_true (by simp [nameForms]) fun h => absurd h (not_dropsLabels_svc _ _)
  | short hlabel =>
    refine iff_of_true (by simp [nameForms]) fun h => absurd h.1 ?_
    rw [splitChar_dot, splitChar_of_notMem hlabel, length_append, length_singleton]
    omega
  | dropped hdrops hhead => rw [hdrops.mem_nameForms_iff hhead, forall_prop_of_true hdrops]
  | bare hlabel =>
    refine iff_of_true (by simp [nameForms]) fun h => absurd h.1 ?_
    rw [splitChar_of_notMem hlabel, length_singleton]
    omega
  | pair _ ns =>
    cases hns ns rfl
    exact iff_of_true (by simp [nameForms]) fun _ => rfl

theorem resolvesDenoted_iff (domain name : String) (trackers : List ResourceTracker) :
    ResolvesDenoted domain name trackers ↔
      ∀ svc ∈ foundService domain name trackers, resolutionOf svc ≠ .none →
        DropsLabels domain (trimEndMatches '.' name) →
          trimEndMatches '.' name = serviceName svc ++ "." ++ serviceNamespace svc := by
  refine forall₂_congr fun svc hfound => ?_
  rw [denotes_iff (Option.mem_def.1 hfound)]

/-- A Service `web`, with an address. -/
private def webAt (ns ip : String) : Service :=
  { metadata := { name := some "web", inNamespace := some ns }, spec := some { clusterIp := some ip } }

theorem middle_labels_are_dropped :
    resolveService "cluster.local" "web.mail.cluster.local"
        ((ResourceStore.new.apply (.service (webAt "shop" "10.96.0.10"))).getByKind "Service") =
          .clusterIp "10.96.0.10" ∧
      ¬ ResolvesDenoted "cluster.local" "web.mail.cluster.local"
        ((ResourceStore.new.apply (.service (webAt "shop" "10.96.0.10"))).getByKind "Service") := by
  refine ⟨by decide +kernel, fun h => ?_⟩
  have hdenotes := h (webAt "shop" "10.96.0.10") (by decide +kernel) (by decide +kernel)
  revert hdenotes
  unfold Denotes
  decide +kernel

end Found

/-! ### The full name of a Service -/

section Fqdn

variable {store : ResourceStore} {found : Service} {trackers : List ResourceTracker}

theorem parseServiceName_fqdn (hname : '.' ∉ name.toList) (hns : '.' ∉ ns.toList) :
    parseServiceName domain (name ++ "." ++ ns ++ ".svc." ++ domain) = some (name, some ns) := by
  have hparts : splitChar '.' (name ++ "." ++ ns ++ ".svc." ++ domain) =
      name :: ns :: "svc" :: splitChar '.' domain := by
    rw [splitChar_svc, splitChar_dot, splitChar_of_notMem hname, splitChar_of_notMem hns]
    rfl
  have hlen : (name :: ns :: "svc" :: splitChar '.' domain).length =
      3 + (splitChar '.' domain).length := by
    simp only [length_cons]
    omega
  unfold parseServiceName
  simp only [hparts, hlen, Nat.add_sub_cancel]
  rw [if_pos ⟨by omega, rfl, rfl⟩]
  exact congrArg some (Prod.ext (joinChar_singleton '.' name) rfl)

theorem getLast?_ne_dot (hdomain : ∀ label ∈ splitChar '.' domain, label ≠ "") :
    domain.toList.getLast? ≠ some '.' := by
  intro hlast
  obtain ⟨init, hinit⟩ := getLast?_eq_some_iff.1 hlast
  have hsplit : splitChar '.' domain = splitChar '.' (String.ofList init) ++ splitChar '.' "" := by
    rw [← splitChar_append, ← String.ofList_toList (s := domain), hinit, String.ofList_append,
      String.append_empty]
  refine hdomain "" ?_ rfl
  rw [hsplit, splitChar_of_notMem (s := "") (by decide)]
  exact mem_append_right _ mem_cons_self

theorem getLast?_append_ne_dot (s : String) (hdomain : ∀ label ∈ splitChar '.' domain, label ≠ "") :
    (s ++ domain).toList.getLast? ≠ some '.' := by
  have hlast := getLast?_ne_dot hdomain
  rw [String.toList_append, getLast?_append]
  cases h : domain.toList.getLast? with
  | none =>
    have hempty : domain = "" := String.toList_eq_nil_iff.1 (getLast?_eq_none_iff.1 h)
    refine absurd rfl (hdomain "" ?_)
    rw [hempty, splitChar_of_notMem (by decide)]
    exact mem_cons_self
  | some c =>
    rw [h] at hlast
    exact hlast

theorem eq_of_serviceFor (hstored : store.Holds (.service found)) (hname : serviceName found ≠ "")
    {other : Service} (hother : store.Holds (.service other)) (hsame : serviceName other = serviceName found)
    (hns : serviceNamespace other = serviceNamespace found) : other = found := by
  have hnamed {svc : Service} (hne : serviceName svc ≠ "") :
      (service svc).name = serviceName svc := by
    unfold serviceName name at *
    change svc.metadata.name.getD "<unnamed>" = _
    cases h : svc.metadata.name with
    | none => simp [h] at hne
    | some n => rfl
  have huid : (service other).uid = (service found).uid := by
    unfold uid
    rw [hnamed hname, hnamed (hsame ▸ hname), hsame]
    change "Service/" ++ serviceNamespace other ++ _ ++ _ = "Service/" ++ serviceNamespace found ++ _ ++ _
    rw [hns]
  cases hother.eq_of_uid hstored huid
  rfl

theorem mem_services_iff {t : ResourceTracker} (hperm : trackers.Perm (store.getByKind "Service")) :
    t ∈ trackers ↔ ∃ svc state, t = ⟨.service svc, state⟩ ∧
      store.get (service svc).uid = some ⟨.service svc, state⟩ := by
  rw [hperm.mem_iff, ResourceStore.mem_getByKind]
  constructor
  · rintro ⟨hget, hkind⟩
    obtain ⟨r, state⟩ := t
    cases r with
    | service svc => exact ⟨svc, state, rfl, hget⟩
    | _ => simp [kind] at hkind
  · rintro ⟨svc, state, rfl, hget⟩
    exact ⟨hget, rfl⟩

theorem resolveService_fqdn {spec : ServiceSpec} {ip : String} (hstored : store.Holds (.service found))
    (hname : serviceName found ≠ "") (hlabel : '.' ∉ (serviceName found).toList)
    (hns : '.' ∉ (serviceNamespace found).toList)
    (hdomain : ∀ label ∈ splitChar '.' domain, label ≠ "") (hspec : found.spec = some spec)
    (htype : spec.type ≠ some "ExternalName") (hip : spec.clusterIp = some ip) (hset : ip ≠ "")
    (hnone : ip ≠ "None") (hperm : trackers.Perm (store.getByKind "Service")) (dots : Nat) :
    resolveService domain (serviceName found ++ "." ++ serviceNamespace found ++ ".svc." ++ domain ++
      String.ofList (List.replicate dots '.')) trackers = .clusterIp ip := by
  have hfound : foundService domain (serviceName found ++ "." ++ serviceNamespace found ++ ".svc." ++
      domain ++ String.ofList (List.replicate dots '.')) trackers = some found := by
    unfold foundService
    rw [trimEndMatches_append_replicate (getLast?_append_ne_dot _ hdomain), parseServiceName_fqdn hlabel hns,
      Option.bind_some]
    obtain ⟨state, hget⟩ := hstored
    refine findSome?_eq_some_of_unique ((mem_services_iff hperm).2 ⟨found, state, rfl, hget⟩) ?_ ?_
    · exact serviceFor_eq_some.2 ⟨rfl, rfl, by simp, by simp [hspec]⟩
    · -- another one of this name is in another namespace, or has no name
      rintro t ht other hother
      obtain ⟨svc, state', rfl, hget'⟩ := (mem_services_iff hperm).1 ht
      obtain ⟨heq, hsame, hsame', -⟩ := serviceFor_eq_some.1 hother
      cases heq
      exact eq_of_serviceFor ⟨state, hget⟩ hname ⟨state', hget'⟩ hsame (hsame' _ rfl)
  unfold resolveService
  simp [hfound, resolutionOf, hspec, htype, hip, hset, hnone]

theorem web_shop_has_its_address :
    (∀ label ∈ splitChar '.' "cluster.local", label ≠ "") ∧
      resolveService "cluster.local" "web.shop.svc.cluster.local.."
        (((ResourceStore.new.apply (.service (webAt "shop" "10.96.0.10"))).apply
          (.service (webAt "mail" "10.96.0.11"))).getByKind "Service") = .clusterIp "10.96.0.10" := by
  have hstored : ((ResourceStore.new.apply (.service (webAt "shop" "10.96.0.10"))).apply
      (.service (webAt "mail" "10.96.0.11"))).Holds (.service (webAt "shop" "10.96.0.10")) :=
    ⟨.pending, by decide +kernel⟩
  refine ⟨by decide +kernel, ?_⟩
  exact resolveService_fqdn hstored
    (by decide +kernel) (by decide +kernel) (by decide +kernel) (by decide +kernel) rfl (by decide) rfl
    (by decide) (by decide) (List.Perm.refl _) 2

end Fqdn

/-! ### The order of the store -/

section Order

variable {store : ResourceStore} {trackers : List ResourceTracker}

def resolutionFor (domain name : String) (t : ResourceTracker) : Option ServiceResolution :=
  (parseServiceName domain (trimEndMatches '.' name)).bind fun q =>
    (serviceFor q.1 q.2 t.resource).map resolutionOf

theorem resolveService_eq (domain name : String) (trackers : List ResourceTracker) :
    resolveService domain name trackers = (trackers.findSome? (resolutionFor domain name)).getD .none := by
  unfold resolveService foundService resolutionFor
  cases parseServiceName domain (trimEndMatches '.' name) with
  | none =>
    have hnone : trackers.findSome? (fun _ => (none : Option ServiceResolution)) = none :=
      findSome?_eq_none_iff.2 fun _ _ => rfl
    simp [hnone]
  | some q =>
    have hmap := map_findSome? (f := fun t => serviceFor q.1 q.2 t.resource) (g := resolutionOf)
      (l := trackers)
    simp only [Option.bind_some]
    rw [show trackers.findSome? (fun t => (serviceFor q.1 q.2 t.resource).map resolutionOf) = _ from
      hmap.symm]
    cases trackers.findSome? fun t => serviceFor q.1 q.2 t.resource <;> rfl

theorem resolutionFor_eq_some {svc : Service} {state : ResourceState} {res : ServiceResolution} :
    resolutionFor domain name ⟨.service svc, state⟩ = some res ↔
      Candidate domain name svc ∧ resolutionOf svc = res := by
  unfold resolutionFor Candidate
  cases parseServiceName domain (trimEndMatches '.' name) with
  | none => simp
  | some q =>
    simp only [Option.bind_some, Option.map_eq_some_iff, Option.mem_some, exists_eq_left']
    constructor
    · rintro ⟨found, hfound, rfl⟩
      cases (serviceFor_eq_some.1 hfound).1
      exact ⟨hfound, rfl⟩
    · rintro ⟨hfound, rfl⟩
      exact ⟨svc, hfound, rfl⟩

theorem matchesAgree_services_iff {β : Type*} {f : ResourceTracker → Option β} {P : Service → β → Prop}
    (hf : ∀ svc state b, f ⟨.service svc, state⟩ = some b ↔ P svc b) :
    MatchesAgree f (store.getByKind "Service") ↔
      ∀ svc svc', store.Holds (.service svc) → store.Holds (.service svc') →
        ∀ b b', P svc b → P svc' b' → b = b' := by
  have hmem (t : ResourceTracker) := mem_services_iff (t := t) (List.Perm.refl (store.getByKind "Service"))
  constructor
  · rintro h svc svc' ⟨state, hget⟩ ⟨state', hget'⟩ b b' hb hb'
    exact h _ ((hmem _).2 ⟨svc, state, rfl, hget⟩) _ ((hmem _).2 ⟨svc', state', rfl, hget'⟩) b b'
      ((hf ..).2 hb) ((hf ..).2 hb')
  · intro h t ht t' ht' b b' hb hb'
    obtain ⟨svc, state, rfl, hget⟩ := (hmem t).1 ht
    obtain ⟨svc', state', rfl, hget'⟩ := (hmem t').1 ht'
    exact h svc svc' ⟨state, hget⟩ ⟨state', hget'⟩ b b' ((hf ..).1 hb) ((hf ..).1 hb')

theorem orderFree_iff (domain name service : String) (port : BitVec 16) (store : ResourceStore) :
    OrderFree domain name service port store ↔
      (∀ svc svc', store.Holds (.service svc) → store.Holds (.service svc') →
        Candidate domain name svc → Candidate domain name svc' → resolutionOf svc = resolutionOf svc') ∧
      (∀ svc svc', store.Holds (.service svc) → store.Holds (.service svc') → ∀ ip ip',
        endpointFor service (.service svc) = some ip → endpointFor service (.service svc') = some ip' →
          ip = ip') := by
  have hnames := (findSome?_orderFree_iff (f := resolutionFor domain name)
    (l := store.getByKind "Service") .none).trans
      (matchesAgree_services_iff fun svc state res => resolutionFor_eq_some)
  have hbackends := (findSome?_orderFree_iff (f := fun t : ResourceTracker => endpointFor service t.resource)
    (l := store.getByKind "Service") "127.0.0.1").trans
      (matchesAgree_services_iff (P := fun svc ip => endpointFor service (.service svc) = some ip)
        fun svc state ip => Iff.rfl)
  rw [← hbackends]
  unfold OrderFree
  simp only [resolveService_eq, resolveEndpoint, Prod.mk.injEq, and_true, forall_and]
  rw [hnames]
  refine and_congr_left fun _ => forall₄_congr fun svc svc' _ _ => ?_
  constructor
  · intro h hc hc'
    exact h _ _ ⟨hc, rfl⟩ ⟨hc', rfl⟩
  · rintro h _ _ ⟨hc, rfl⟩ ⟨hc', rfl⟩
    exact h hc hc'

theorem bare_name_depends_on_order :
    ¬ OrderFree "cluster.local" "web" "web" 80
      ((ResourceStore.new.apply (.service (webAt "shop" "10.96.0.10"))).apply
        (.service (webAt "mail" "10.96.0.11"))) := by
  intro h
  have hreversed := h _ _ (List.Perm.refl _) (reverse_perm _)
  revert hreversed
  decide +kernel

end Order

end Z8s.Netmux
