import Z8s.Api.Ingresses
import Z8s.Transition.Proofs.RunProofs

/-!
# Proofs: routes and DNS records of Ingresses

The store has one Ingress under a namespace and a name, the routes have one table under a uid, and
the records have one entry for a host.
-/

namespace Z8s.Api

open Rust Collections Z8s.Types Network Netmux Transition IngressState

variable {gateway : Ipv4Addr} {s s' : IngressState} {req : IngressRequest}
variable {ing old : Ingress}

/-! ### Requests -/

theorem holds_of_find {ns name : String} (h : s.find ns name = some ing) :
    s.store.Holds (.ingress ing) := by
  obtain ⟨t, hfound, hres⟩ := Option.bind_eq_some_iff.1 h
  obtain ⟨hget, -⟩ := ResourceStore.mem_getByKind.1 (List.mem_of_find?_eq_some hfound)
  cases hkind : t.resource with
  | ingress found =>
    rw [hkind] at hres
    cases hres
    rw [← hkind]
    exact ResourceStore.holds_of_get hget
  | _ =>
    rw [hkind] at hres
    cases hres

/-- What a request can do: store an Ingress, delete one, or find none to delete. -/
inductive IngressMove (gateway : Ipv4Addr) (s : IngressState) : IngressRequest → IngressState → Prop
  | stored {req new : _} (hnew : req.stored = some new)
      (hremoved : s.removed req = none) : IngressMove gateway s req (s.applied gateway new)
  | deleted {req old : _} (hnew : req.stored = none)
      (hremoved : s.removed req = some old) (hold : s.store.Holds (.ingress old)) :
      IngressMove gateway s req (s.deleted old)
  | unknown {req : _} (hnew : req.stored = none) (hremoved : s.removed req = none) :
      IngressMove gateway s req s

theorem exists_ingressMove (gateway : Ipv4Addr) (s : IngressState) (req : IngressRequest) :
    ∃ s', s.step gateway req = some s' ∧ IngressMove gateway s req s' := by
  cases req with
  | create ns uuid ing | update ns name merged => exact ⟨_, rfl, .stored rfl rfl⟩
  | delete ns name =>
    cases hfind : s.find ns name with
    | none => exact ⟨s, by simp [step, hfind], .unknown rfl hfind⟩
    | some old =>
      exact ⟨s.deleted old, by simp [step, hfind], .deleted rfl hfind (holds_of_find hfind)⟩

theorem ingressMove_of_step (h : s.step gateway req = some s') : IngressMove gateway s req s' := by
  obtain ⟨t, ht, hmove⟩ := exists_ingressMove gateway s req
  cases ht.symm.trans h
  exact hmove

theorem isSome_ingressStep (gateway : Ipv4Addr) (s : IngressState) (req : IngressRequest) :
    (s.step gateway req).isSome := by
  obtain ⟨s', h, -⟩ := exists_ingressMove gateway s req
  rw [h]
  rfl

theorem holds_applied {new : Ingress} :
    (s.applied gateway new).store.Holds (.ingress ing) ↔ ing = new ∨ s.Other new ing := by
  unfold IngressState.applied IngressState.Other
  rw [ResourceStore.holds_apply, AnyResource.ingress.injEq, and_comm (a := _ ≠ _)]

theorem holds_deleted : (s.deleted old).store.Holds (.ingress ing) ↔ s.Other old ing := by
  unfold deleted IngressState.Other
  rw [ResourceStore.holds_delete, and_comm]

theorem replaced_or_other (new : Ingress) (h : s.store.Holds (.ingress ing)) :
    s.Replaced new ing ∨ s.Other new ing := by
  by_cases huid : (AnyResource.ingress ing).uid = (AnyResource.ingress new).uid
  · exact .inl ⟨h, huid⟩
  · exact .inr ⟨h, huid⟩

theorem eq_or_other (hold : s.store.Holds (.ingress old)) (h : s.store.Holds (.ingress ing)) :
    ing = old ∨ s.Other old ing := by
  rcases replaced_or_other old h with ⟨-, huid⟩ | hother
  · cases h.eq_of_uid hold huid
    exact .inl rfl
  · exact .inr hother

theorem not_holds_init (r : AnyResource) : ¬ init.store.Holds r := by
  rintro ⟨state, h⟩
  cases h

/-- A property is kept along a run exactly if each request meets the condition under which storing or
deleting an Ingress keeps it. -/
theorem mirrors_iff_along {P : IngressState → Prop} {stores removes : IngressState → Ingress → Prop}
    (hinit : P .init) (hstored : ∀ s new, P s → (P (s.applied gateway new) ↔ stores s new))
    (hdeleted : ∀ s old, P s → s.store.Holds (.ingress old) → (P (s.deleted old) ↔ removes s old))
    (reqs : List IngressRequest) :
    Always (step gateway) P .init reqs ↔
      Along (step gateway) (fun s req =>
        (∀ new ∈ req.stored, stores s new) ∧ ∀ old ∈ s.removed req, removes s old) .init reqs := by
  have hstep (s : IngressState) (req : IngressRequest) (s' : IngressState) (hs : P s)
      (h : s.step gateway req = some s') :
      P s' ↔ (∀ new ∈ req.stored, stores s new) ∧ ∀ old ∈ s.removed req, removes s old := by
    cases ingressMove_of_step h with
    | stored hnew hremoved => simp [hnew, hremoved, hstored s _ hs]
    | deleted hnew hremoved hold => simp [hnew, hremoved, hdeleted s _ hs hold]
    | unknown hnew hremoved => simp [hnew, hremoved, hs]
  exact always_iff_along (I := P) (fun s req s' hs hok h => (hstep s req s' hs h).2 hok) (fun _ hs => hs)
    (fun s req s' hs h => (hstep s req s' hs h).1) hinit (isSome_run (isSome_ingressStep gateway) _ _)

/-! ### Routes -/

theorem get_routesByHost_of_spec_none (h : ing.spec.isSome = false) (host : String) :
    (routesByHost ing).get host = none := by
  rw [Option.isSome_eq_false_iff, Option.isNone_iff_eq_none] at h
  simp [routesByHost, ingressRules, h, HashMap.ofList, HashMap.insertAll]

theorem routeAt_applyIngress (routes : IngressRoutes) (new : Ingress) (key host : String) :
    routeAt (applyIngress routes new) key host =
      if key = routeKey new ∧ new.spec.isSome then (routesByHost new).get host else routeAt routes key host := by
  unfold applyIngress routeAt
  by_cases hspec : new.spec.isSome
  · rw [if_pos hspec, HashMap.get_insert]
    simp only [hspec, and_true, ← routeKey.eq_def]
    split_ifs <;> rfl
  · simp [hspec]

theorem routeAt_removeIngress (routes : IngressRoutes) (old : Ingress) (key host : String) :
    routeAt (removeIngress routes old) key host =
      if key = routeKey old then none else routeAt routes key host := by
  unfold removeIngress routeAt
  rw [HashMap.get_remove, ← routeKey.eq_def]
  split_ifs <;> rfl

section Stored

variable {new : Ingress}

theorem routeAt_applied (key host : String) :
    routeAt (s.applied gateway new).routes key host =
      if key = routeKey new ∧ new.spec.isSome then (routesByHost new).get host
      else routeAt s.routes key host :=
  routeAt_applyIngress s.routes new key host

theorem storesRoutes_of_mirrors (hs : MirrorsRoutes s) (hs' : MirrorsRoutes (s.applied gateway new)) :
    StoresRoutes s new := by
  constructor
  · intro other hother hkey host
    have hroute := hs'.current other (holds_applied.2 (.inr hother)) host
    rw [hkey, hs'.current new (holds_applied.2 (.inl rfl)) host] at hroute
    exact hroute.symm
  · intro old hold host hsome
    by_cases hover : routeKey old = routeKey new ∧ new.spec.isSome
    · exact .inl hover
    · -- the route stays, so it has to be that of an Ingress that is there
      obtain ⟨backend, hbackend⟩ := Option.isSome_iff_exists.1 hsome
      have hstays : routeAt (s.applied gateway new).routes (routeKey old) host = some backend := by
        rw [routeAt_applied, if_neg hover, hs.current old hold.1, hbackend]
      obtain ⟨ing, hing, hkey, hhas⟩ := hs'.only _ _ _ hstays
      rcases holds_applied.1 hing with rfl | hother
      · have hspec : ing.spec.isSome := by
          by_contra hnone
          rw [get_routesByHost_of_spec_none (Bool.eq_false_iff.2 hnone)] at hhas
          cases hhas
        exact absurd ⟨hkey.symm, hspec⟩ hover
      · exact .inr ⟨ing, hother, hkey⟩

theorem StoresRoutes.routeAt_eq_none (hs : MirrorsRoutes s) (hok : StoresRoutes s new)
    (hspec : new.spec.isSome = false) (host : String) : routeAt s.routes (routeKey new) host = none := by
  have hnone := get_routesByHost_of_spec_none hspec host
  have hothers {other : Ingress} (hother : s.Other new other) (hkey : routeKey other = routeKey new) :
      routeAt s.routes (routeKey new) host = none := by
    rw [← hkey, hs.current other hother.1, hok.others other hother hkey, hnone]
  rw [← Option.not_isSome_iff_eq_none]
  intro hsome
  obtain ⟨backend, hbackend⟩ := Option.isSome_iff_exists.1 hsome
  obtain ⟨ing, hing, hkey, hhas⟩ := hs.only _ _ _ hbackend
  have hgone : routeAt s.routes (routeKey new) host = none := by
    rcases replaced_or_other new hing with hold | hother
    · rcases hok.replaced ing hold host (by rw [hhas]; rfl) with ⟨-, hspec'⟩ | ⟨other, hother, hkey'⟩
      · rw [hspec] at hspec'
        cases hspec'
      · exact hothers hother (hkey'.trans hkey)
    · exact hothers hother hkey
  rw [hgone] at hbackend
  cases hbackend

theorem mirrorsRoutes_applied (hs : MirrorsRoutes s) (hok : StoresRoutes s new) :
    MirrorsRoutes (s.applied gateway new) := by
  constructor
  · intro ing hing host
    rw [routeAt_applied]
    rcases holds_applied.1 hing with rfl | hother
    · cases hspec : ing.spec.isSome with
      | true => exact if_pos ⟨rfl, rfl⟩
      | false =>
        rw [if_neg (by simp), hok.routeAt_eq_none hs hspec, get_routesByHost_of_spec_none hspec]
    · split_ifs with hover
      · exact (hok.others ing hother hover.1 host).symm
      · exact hs.current ing hother.1 host
  · intro key host backend hroute
    rw [routeAt_applied] at hroute
    split_ifs at hroute with hover
    · exact ⟨new, holds_applied.2 (.inl rfl), hover.1.symm, hroute⟩
    · obtain ⟨ing, hing, hkey, hhas⟩ := hs.only _ _ _ hroute
      rcases replaced_or_other new hing with hold | hother
      · rcases hok.replaced ing hold host (by rw [hhas]; rfl) with hover' | ⟨other, hother, hkey'⟩
        · exact absurd ⟨hkey ▸ hover'.1, hover'.2⟩ hover
        · refine ⟨other, holds_applied.2 (.inr hother), hkey'.trans hkey, ?_⟩
          rw [← hs.current other hother.1, hkey', hkey, hroute]
      · exact ⟨ing, holds_applied.2 (.inr hother), hkey, hhas⟩

end Stored

theorem mirrorsRoutes_deleted_iff (hs : MirrorsRoutes s) (hold : s.store.Holds (.ingress old)) :
    MirrorsRoutes (s.deleted old) ↔ RemovesRoutes s old := by
  have hroutes (key host : String) : routeAt (s.deleted old).routes key host =
      if key = routeKey old then none else routeAt s.routes key host :=
    routeAt_removeIngress s.routes old key host
  constructor
  · intro hs' other hother hkey host
    rw [← hs'.current other (holds_deleted.2 hother), hroutes, if_pos hkey]
  · intro hok
    constructor
    · intro other hother host
      rw [holds_deleted] at hother
      rw [hroutes]
      split_ifs with hkey
      · exact (hok other hother hkey host).symm
      · exact hs.current other hother.1 host
    · intro key host backend hroute
      rw [hroutes] at hroute
      split_ifs at hroute with hkey
      obtain ⟨ing, hing, rfl, hhas⟩ := hs.only _ _ _ hroute
      rcases eq_or_other hold hing with rfl | hother
      · exact absurd rfl hkey
      · exact ⟨ing, holds_deleted.2 hother, rfl, hhas⟩

theorem mirrorsRoutes_init : MirrorsRoutes .init :=
  ⟨fun ing hing => absurd hing (not_holds_init _), fun key host backend h => by cases h⟩

/-- The routes are those of the stored Ingresses in every state of a run exactly if no request takes
away or leaves behind a route. -/
theorem mirrorsRoutes_iff_along (gateway : Ipv4Addr) (reqs : List IngressRequest) :
    Always (IngressState.step gateway) MirrorsRoutes .init reqs ↔
      Along (IngressState.step gateway) KeepsRoutes .init reqs :=
  mirrors_iff_along mirrorsRoutes_init
    (fun _ _ hs => ⟨storesRoutes_of_mirrors hs, mirrorsRoutes_applied hs⟩)
    (fun _ _ hs hold => mirrorsRoutes_deleted_iff hs hold) reqs

private def ingressOf (name host service : String) : Ingress where
  metadata := { name := some name }
  spec := some { rules := some [{ host := some host, http := some [some { name := service }] }] }

private def localGateway : Ipv4Addr := Ipv4Addr.new 10 42 0 1

/-- An Ingress is created a second time with other backends: the routes of the first version stay under
the uid that it had got. -/
theorem routes_of_first_version_stay :
    ∃ s ∈ run (IngressState.step localGateway) .init
        [.create "default" "u-1" (ingressOf "web" "shop.example" "old"),
          .create "default" "u-2" (ingressOf "web" "shop.example" "new")],
      routeAt s.routes "u-1" "shop.example" = some ("old", 80) ∧ ¬ MirrorsRoutes s := by
  refine ⟨_, rfl, by decide +kernel, fun h => ?_⟩
  obtain ⟨ing, hing, hkey, -⟩ := h.only "u-1" "shop.example" ("old", 80) (by decide +kernel)
  rcases holds_applied.1 hing with rfl | ⟨hing, huid⟩
  · exact absurd hkey (by decide +kernel)
  · rcases holds_applied.1 hing with rfl | ⟨hing, -⟩
    · exact huid rfl
    · exact not_holds_init _ hing

/-! ### DNS records -/

theorem isSome_get_recordHosts (records : DnsRecords) (new : Ingress) {host : String} (hne : host ≠ "") :
    ((recordHosts records gateway new).get host).isSome ↔
      host ∈ hostsOf new ∨ (records.get host).isSome := by
  have hmem : host ∈ (((ingressRules new).filterMap fun rule => rule.host.filter (· != "")).map
      fun host => (host, gateway)).map Prod.fst ↔ host ∈ hostsOf new := by
    simp [hostsOf, Option.filter_eq_some_iff, hne]
  rw [recordHosts, HashMap.isSome_get_insertAll, hmem]

theorem isSome_get_forgetHosts (records : DnsRecords) (old : Ingress) (host : String) :
    ((forgetHosts records old).get host).isSome ↔ host ∉ hostsOf old ∧ (records.get host).isSome := by
  unfold forgetHosts
  rw [HashMap.get_removeAll, ← hostsOf.eq_def]
  split_ifs with h <;> simp [h]

theorem mirrorsHosts_applied_iff (hs : MirrorsHosts s) (new : Ingress) :
    MirrorsHosts (s.applied gateway new) ↔ StoresHosts s new := by
  have hrecords {host : String} (hne : host ≠ "") :
      ((s.applied gateway new).dnsRecords.get host).isSome ↔
        host ∈ hostsOf new ∨ ∃ ing, s.store.Holds (.ingress ing) ∧ host ∈ hostsOf ing := by
    rw [← hs host hne]
    exact isSome_get_recordHosts s.dnsRecords new hne
  constructor
  · intro hs' old hold host hhost hne
    obtain ⟨ing, hing, hhas⟩ := (hs' host hne).1 ((hrecords hne).2 (.inr ⟨old, hold.1, hhost⟩))
    rcases holds_applied.1 hing with rfl | hother
    · exact .inl hhas
    · exact .inr ⟨ing, hother, hhas⟩
  · intro hok host hne
    rw [hrecords hne]
    constructor
    · rintro (hnew | ⟨ing, hing, hhas⟩)
      · exact ⟨new, holds_applied.2 (.inl rfl), hnew⟩
      · rcases replaced_or_other new hing with hold | hother
        · rcases hok ing hold host hhas hne with hnew | ⟨other, hother, hhas⟩
          · exact ⟨new, holds_applied.2 (.inl rfl), hnew⟩
          · exact ⟨other, holds_applied.2 (.inr hother), hhas⟩
        · exact ⟨ing, holds_applied.2 (.inr hother), hhas⟩
    · rintro ⟨ing, hing, hhas⟩
      rcases holds_applied.1 hing with rfl | hother
      · exact .inl hhas
      · exact .inr ⟨ing, hother.1, hhas⟩

theorem mirrorsHosts_deleted_iff (hs : MirrorsHosts s) (hold : s.store.Holds (.ingress old)) :
    MirrorsHosts (s.deleted old) ↔ RemovesHosts s old := by
  have hrecords {host : String} (hne : host ≠ "") :
      ((s.deleted old).dnsRecords.get host).isSome ↔
        host ∉ hostsOf old ∧ ∃ ing, s.store.Holds (.ingress ing) ∧ host ∈ hostsOf ing := by
    rw [← hs host hne]
    exact isSome_get_forgetHosts s.dnsRecords old host
  constructor
  · intro hs' other hother host hhost hne
    exact ((hrecords hne).1 ((hs' host hne).2 ⟨other, holds_deleted.2 hother, hhost⟩)).1
  · intro hok host hne
    rw [hrecords hne]
    constructor
    · rintro ⟨hnot, ing, hing, hhas⟩
      rcases eq_or_other hold hing with rfl | hother
      · exact absurd hhas hnot
      · exact ⟨ing, holds_deleted.2 hother, hhas⟩
    · rintro ⟨other, hother, hhas⟩
      rw [holds_deleted] at hother
      exact ⟨hok other hother host hhas hne, other, hother.1, hhas⟩

theorem mirrorsHosts_init : MirrorsHosts .init := by
  intro host _
  refine iff_of_false (by simp [init]) ?_
  rintro ⟨ing, hing, -⟩
  exact not_holds_init _ hing

/-- There are records for exactly the hosts of the stored Ingresses in every state of a run exactly if no
request leaves a host behind or takes away the host of another Ingress. -/
theorem mirrorsHosts_iff_along (gateway : Ipv4Addr) (reqs : List IngressRequest) :
    Always (IngressState.step gateway) MirrorsHosts .init reqs ↔
      Along (IngressState.step gateway) KeepsHosts .init reqs :=
  mirrors_iff_along mirrorsHosts_init (fun _ new hs => mirrorsHosts_applied_iff hs new)
    (fun _ _ hs hold => mirrorsHosts_deleted_iff hs hold) reqs

/-- An Ingress gets another host: the record of its old host stays. And one of two Ingresses with the same
host is deleted: the record is gone. -/
theorem hosts_not_mirrored :
    (∃ s ∈ run (IngressState.step localGateway) .init
        [.create "default" "u-1" (ingressOf "web" "old.example" "web"),
          .update "default" "web" (ingressOf "web" "new.example" "web")],
      (s.dnsRecords.get "old.example").isSome ∧ ¬ MirrorsHosts s) ∧
    ∃ s ∈ run (IngressState.step localGateway) .init
        [.create "default" "u-1" (ingressOf "web" "shop.example" "web"),
          .create "default" "u-2" (ingressOf "api" "shop.example" "api"), .delete "default" "web"],
      s.dnsRecords.get "shop.example" = none ∧ ¬ MirrorsHosts s := by
  refine ⟨⟨_, rfl, by decide +kernel, fun h => ?_⟩, ⟨_, rfl, by decide +kernel, fun h => ?_⟩⟩
  · obtain ⟨ing, hing, hhost⟩ := (h "old.example" (by decide)).1 (by decide +kernel)
    rcases holds_applied.1 hing with rfl | ⟨hing, huid⟩
    · exact absurd hhost (by decide +kernel)
    · rcases holds_applied.1 hing with rfl | ⟨hing, -⟩
      · exact huid rfl
      · exact not_holds_init _ hing
  · have hsome := (h "shop.example" (by decide)).2
      ⟨{ ingressOf "api" "shop.example" "api" with metadata := fillCreated "default" "u-2" { name := some "api" } },
        ⟨.pending, by decide +kernel⟩, by decide +kernel⟩
    exact absurd hsome (by decide +kernel)

end Z8s.Api
