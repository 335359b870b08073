import Z8s.Collections.Proofs.FirstMatchProofs
import Z8s.Network.Isolation

/-!
# Proofs: namespaces of Ingresses

Any table can come first and any Service can be found first, so connections stay in the namespace exactly
when all backends resolve within it.
-/

namespace Z8s.Network

open Collections Z8s.Types Netmux

variable {r : OwnedRoutes} {store : ResourceStore}
variable {entries : List (String × HashMap String (String × U16))} {backend : String × U16}
  {host key : String}
variable {x : AnyResource} {ing : Ingress} {ip name : String}

theorem chosenBackend_eq_of_routedBy (h : routedBy host entries = some (key, backend)) :
    chosenBackend host (entries.map Prod.snd) = some backend := by
  induction entries with
  | nil => cases h
  | cons e entries ih =>
    rw [routedBy, List.findSome?_cons] at h
    rw [chosenBackend, List.map_cons, List.findSome?_cons]
    cases hbackend : backendFor host e.2 with
    | none =>
      rw [hbackend] at h
      exact ih h
    | some b =>
      rw [hbackend] at h
      exact congrArg some (Prod.mk.inj (Option.some.inj h)).2

theorem exists_of_routedBy (hperm : entries.Perm r.routes.iter)
    (h : routedBy host entries = some (key, backend)) (hing : r.owners.get key = some ing) :
    ∃ host', (routesByHost ing).get host' = some backend := by
  obtain ⟨⟨key', table⟩, hmem, hbackend⟩ := exists_mem_of_perm_findSome? hperm h
  obtain ⟨b, hb, heq⟩ := Option.map_eq_some_iff.1 hbackend
  cases heq
  have htable : r.routes.get key' = some table := HashMap.mem_iter.1 hmem
  rw [r.owned, hing] at htable
  cases htable
  rcases Option.or_eq_some_iff.1 hb with hhost | ⟨-, hwildcard⟩
  · exact ⟨host, hhost⟩
  · exact ⟨"*", hwildcard⟩

theorem handleConnection_of_routedBy (h : routedBy host entries = some (key, backend))
    (trackers : List ResourceTracker) :
    handleConnection host (entries.map Prod.snd) trackers =
      some ((trackers.findSome? fun t => endpointFor backend.1 t.resource).getD "127.0.0.1", backend.2) := by
  rw [handleConnection, chosenBackend_eq_of_routedBy h]
  rfl

theorem kind_of_endpointFor (h : endpointFor name x = some ip) : x.kind = "Service" := by
  cases x with
  | service => rfl
  | _ => cases h

theorem endpointFor_of_serviceAddress {ns : String} (h : ServiceAddress store ns name ip)
    (hip : ip ≠ "" ∧ ip ≠ "None") : ∃ x, store.Holds x ∧ endpointFor name x = some ip := by
  obtain ⟨svc, hheld, -, hname, haddress⟩ := h
  refine ⟨.service svc, hheld, ?_⟩
  rw [endpointFor, if_pos hname, haddress, Option.filter_some, if_pos]
  simpa using hip

theorem mem_trackers {trackers : List ResourceTracker} (h : trackers.Perm (store.getByKind "Service")) :
    (∃ t ∈ trackers, t.resource = x) ↔ store.Holds x ∧ x.kind = "Service" := by
  constructor
  · rintro ⟨t, ht, rfl⟩
    obtain ⟨hget, hkind⟩ := ResourceStore.mem_getByKind.1 (h.mem_iff.1 ht)
    exact ⟨⟨t.state, hget⟩, hkind⟩
  · rintro ⟨⟨state, hget⟩, hkind⟩
    exact ⟨⟨x, state⟩, h.mem_iff.2 (ResourceStore.mem_getByKind.2 ⟨hget, hkind⟩), rfl⟩

theorem staysInNamespace_of_backendsWithin (h : BackendsWithin r store) : StaysInNamespace r store := by
  intro host entries trackers hentries htrackers key backend hrouted ing hing
  obtain ⟨host', hhost'⟩ := exists_of_routedBy hentries hrouted hing
  have hwithin := h key ing hing host' backend hhost'
  obtain ⟨x, ip, hx, hip⟩ := hwithin.exists_address
  obtain ⟨t, ht, rfl⟩ := (mem_trackers htrackers).2 ⟨hx, kind_of_endpointFor hip⟩
  -- some address is found, and each of them is one of the namespace
  have hsome : (trackers.findSome? fun t => endpointFor backend.1 t.resource).isSome = true :=
    List.findSome?_isSome_iff.2 ⟨t, ht, by rw [hip]; rfl⟩
  obtain ⟨ip', hfound⟩ := Option.isSome_iff_exists.1 hsome
  obtain ⟨t', ht', hip'⟩ := List.exists_of_findSome?_eq_some hfound
  have hheld := ((mem_trackers htrackers).1 ⟨t', ht', rfl⟩).1
  refine ⟨ip', ?_, hwithin.within t'.resource ip' hheld hip'⟩
  rw [handleConnection_of_routedBy hrouted, hfound]
  rfl

theorem exists_routedBy (hing : r.owners.get key = some ing)
    (hbackend : (routesByHost ing).get host = some backend) :
    ∃ entries, entries.Perm r.routes.iter ∧ routedBy host entries = some (key, backend) := by
  have hmem : (key, routesByHost ing) ∈ r.routes.iter := by
    rw [HashMap.mem_iter, r.owned, hing]
    rfl
  refine exists_perm_findSome? hmem ?_
  rw [backendFor, hbackend]
  rfl

theorem backendsWithin_of_staysInNamespace (h : StaysInNamespace r store) : BackendsWithin r store := by
  intro key ing hing host backend hbackend
  obtain ⟨entries, hentries, hrouted⟩ := exists_routedBy hing hbackend
  have hstays (trackers : List ResourceTracker) (htrackers : trackers.Perm (store.getByKind "Service")) :
      ServiceAddress store (ingressNamespace ing) backend.1
        ((trackers.findSome? fun t => endpointFor backend.1 t.resource).getD "127.0.0.1") := by
    obtain ⟨ip, hip, haddress⟩ := h host entries trackers hentries htrackers key backend hrouted ing hing
    rw [handleConnection_of_routedBy hrouted] at hip
    rwa [(Prod.mk.inj (Option.some.inj hip)).1]
  constructor
  · -- without any address the connection would go to the node itself
    have haddress := hstays _ (.refl _)
    cases hfound : (store.getByKind "Service").findSome? fun t => endpointFor backend.1 t.resource with
    | some ip =>
      obtain ⟨t, ht, hip⟩ := List.exists_of_findSome?_eq_some hfound
      exact ⟨t.resource, ip, ((mem_trackers (.refl _)).1 ⟨t, ht, rfl⟩).1, hip⟩
    | none =>
      rw [hfound] at haddress
      obtain ⟨x, hx, hip⟩ := endpointFor_of_serviceAddress haddress (by decide)
      exact ⟨x, _, hx, hip⟩
  · intro x ip hx hip
    obtain ⟨t, ht, rfl⟩ := (mem_trackers (.refl _)).2 ⟨hx, kind_of_endpointFor hip⟩
    obtain ⟨trackers, htrackers, hfound⟩ :=
      exists_perm_findSome? (f := fun t : ResourceTracker => endpointFor backend.1 t.resource) ht hip
    have haddress := hstays trackers htrackers
    rwa [hfound] at haddress

theorem staysInNamespace_iff (ops : List IngressOp) (store : ResourceStore) :
    StaysInNamespace (routesAfter ops) store ↔ BackendsWithin (routesAfter ops) store :=
  ⟨backendsWithin_of_staysInNamespace, staysInNamespace_of_backendsWithin⟩

private def apiIn (ns ip : String) : AnyResource :=
  .service {
    metadata := { name := some "api", inNamespace := some ns }
    spec := some { clusterIp := some ip } }

private def shopIngress : Ingress where
  metadata := { name := some "web", inNamespace := some "shop", uid := some "u-1" }
  spec := some { rules := some [{ host := some "shop.example", http := some [some { name := "api" }] }] }

private def shopRoutes : IngressRoutes := (routesAfter [.apply shopIngress]).routes

/-- The Ingress of the namespace `shop` leads to a Service of the namespace `other`. -/
theorem ingress_leads_to_other_namespace :
    ((ResourceStore.new.apply (apiIn "shop" "10.96.0.5")).apply (apiIn "other" "10.96.0.9")).getByKind
        "Service" = [.new (apiIn "other" "10.96.0.9"), .new (apiIn "shop" "10.96.0.5")] ∧
      handleConnection "shop.example" shopRoutes.values
        [.new (apiIn "other" "10.96.0.9"), .new (apiIn "shop" "10.96.0.5")] = some ("10.96.0.9", 80) := by
  decide +kernel

end Z8s.Network
