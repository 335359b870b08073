import Z8s.Collections.Proofs.FirstMatchProofs
import Z8s.Network.Ingress

/-!
# Proofs: the backend of a connection

Each Ingress falls back to its own `*` before the next one is asked.
-/

namespace Z8s.Network

open Collections Netmux

variable {host : String} {routes : IngressRoutes} {tables : List (HashMap String (String × U16))}

theorem isSome_backendFor {table : HashMap String (String × U16)} :
    (backendFor host table).isSome = true ↔ (table.get host).isSome ∨ (table.get "*").isSome := by
  rw [backendFor, Option.isSome_or, Bool.or_eq_true]

/-- Where every Ingress with a `*` has the host as well, the wildcard is used only if no Ingress has
the host. -/
theorem usesWildcard_iff
    (hboth : HasHost routes host → ∀ table ∈ routes.values, (table.get "*").isSome → (table.get host).isSome)
    (hperm : tables.Perm routes.values) :
    UsesWildcard host tables ↔
      ¬ HasHost routes host ∧ ∃ table ∈ routes.values, (table.get "*").isSome := by
  constructor
  · rintro ⟨table, hfound, hnone⟩
    have hmem : table ∈ routes.values := hperm.mem_iff.1 (List.mem_of_find?_eq_some hfound)
    have hsome := isSome_backendFor.1
      (List.find?_some (p := fun table => (backendFor host table).isSome) hfound)
    rw [hnone, Option.isSome_none, Bool.false_eq_true, false_or] at hsome
    refine ⟨fun hhas => ?_, table, hmem, hsome⟩
    have := hboth hhas table hmem hsome
    rw [hnone] at this
    cases this
  · rintro ⟨hno, table, hmem, hsome⟩
    have hfound : (decidingTable host tables).isSome :=
      List.find?_isSome.2 ⟨table, hperm.mem_iff.2 hmem, isSome_backendFor.2 (.inr hsome)⟩
    obtain ⟨first, hfirst⟩ := Option.isSome_iff_exists.1 hfound
    refine ⟨first, hfirst, ?_⟩
    rw [← Option.not_isSome_iff_eq_none]
    exact fun h => hno ⟨first, hperm.mem_iff.1 (List.mem_of_find?_eq_some hfirst), h⟩

theorem exactWins_iff (routes : IngressRoutes) (host : String) :
    ExactWins routes host ↔
      (HasHost routes host →
        ∀ table ∈ routes.values, (table.get "*").isSome → (table.get host).isSome) := by
  constructor
  · intro h hhas table hmem hsome
    by_contra hnone
    -- the Ingress comes first in some order
    obtain ⟨tables, hperm, hfirst⟩ := exists_perm_find? (p := fun table => (backendFor host table).isSome)
      hmem (isSome_backendFor.2 (.inr hsome))
    exact h.wildcard tables hperm ⟨table, hfirst, Option.not_isSome_iff_eq_none.1 hnone⟩ hhas
  · intro hboth
    refine ⟨fun hhas tables hperm => ?_, fun tables hperm huses => ?_, fun tables tables' hperm hperm' => ?_⟩
    · obtain ⟨table, hmem, hsome⟩ := hhas
      have hfound : (chosenBackend host tables).isSome :=
        List.findSome?_isSome_iff.2 ⟨table, hperm.mem_iff.2 hmem, isSome_backendFor.2 (.inl hsome)⟩
      obtain ⟨backend, hbackend⟩ := Option.isSome_iff_exists.1 hfound
      obtain ⟨first, hfirst, hgives⟩ := exists_mem_of_perm_findSome? hperm hbackend
      have hexact : (first.get host).isSome := by
        rcases isSome_backendFor.1 (Option.isSome_of_eq_some hgives) with hexact | hstar
        · exact hexact
        · exact hboth ⟨table, hmem, hsome⟩ first hfirst hstar
      refine ⟨first, hfirst, backend, ?_, hbackend⟩
      rw [backendFor, Option.or_of_isSome hexact] at hgives
      exact hgives
    · exact ((usesWildcard_iff hboth hperm).1 huses).1
    · rw [usesWildcard_iff hboth hperm, usesWildcard_iff hboth hperm']

/-- One Ingress for every host, and one for `shop.example` only: the first one may take the connections
of the second. -/
theorem wildcard_before_exact_host :
    chosenBackend "shop.example"
        (HashMap.ofList [("u-1", HashMap.ofList [("shop.example", ("shop", 80))]),
          ("u-2", HashMap.ofList [("*", ("fallback", 80))])] : IngressRoutes).values =
      some ("fallback", 80) ∧
    ¬ ExactWins (HashMap.ofList [("u-1", HashMap.ofList [("shop.example", ("shop", 80))]),
      ("u-2", HashMap.ofList [("*", ("fallback", 80))])]) "shop.example" := by
  have hchosen : chosenBackend "shop.example"
        (HashMap.ofList [("u-1", HashMap.ofList [("shop.example", ("shop", 80))]),
          ("u-2", HashMap.ofList [("*", ("fallback", 80))])] : IngressRoutes).values =
      some ("fallback", 80) := by decide +kernel
  refine ⟨hchosen, fun h => ?_⟩
  obtain ⟨table, hmem, backend, hexact, hfirst⟩ :=
    h.exact (by unfold HasHost; decide +kernel) _ (List.Perm.refl _)
  rw [hchosen] at hfirst
  cases hfirst
  revert hexact
  revert table
  decide +kernel

end Z8s.Network
