import Z8s.Api.Update
import Z8s.Proofs.TypesProofs

/-!
# Proofs: what an update changes in the store

An update stores at most one object.
-/

namespace Z8s.Api

open Collections Z8s.Types

namespace UpdateHandler

variable {α : Type} (h : UpdateHandler α)

theorem uid_wrap (x : α) :
    (h.wrap x).uid = h.pathUid (h.wrap x).namespaceOf (h.wrap x).name := by
  rw [AnyResource.uid, h.kind_wrap, pathUid]

theorem update_snd (prof : Profile) (parsers : BodyParsers) (store : ResourceStore)
    (trackers : List ResourceTracker) (ns name : String) (raw : List UInt8) :
    (h.update prof parsers store trackers ns name raw).2 =
      (h.update prof parsers store trackers ns name raw).1.toOption.elim store
        fun x => store.apply (h.wrap x) := by
  unfold update
  cases parseBody prof parsers raw with
  | error e => rfl
  | ok patch =>
    dsimp only
    cases h.updated ns name trackers patch <;> rfl

end UpdateHandler

/-- Every entry of the store but the one under `uid` is the same. -/
def UnchangedExcept (uid : String) (store store' : ResourceStore) : Prop :=
  ∀ uid', uid' ≠ uid → store'.get uid' = store.get uid'

theorem unchangedExcept_apply_iff {uid : String} {store : ResourceStore} {r : AnyResource} :
    UnchangedExcept uid store (store.apply r) ↔ r.uid = uid ∨ store.Holds r := by
  constructor
  · intro hsame
    by_cases huid : r.uid = uid
    · exact .inl huid
    · have hget := hsame r.uid huid
      rw [ResourceStore.get_apply, if_pos rfl] at hget
      exact .inr ⟨_, hget.symm⟩
  · rintro (huid | ⟨state, hget⟩) uid' hne
    · exact ResourceStore.get_apply_of_ne (huid ▸ hne)
    · by_cases huid : uid' = r.uid
      · subst huid
        rw [ResourceStore.get_apply, if_pos rfl, hget]
        rfl
      · exact ResourceStore.get_apply_of_ne huid

private def dataMap (name value : String) : ConfigMap where
  metadata := { name := some name, inNamespace := some "default" }
  data := some (BTreeMap.ofList [("key", value)])

private def twoMaps : ResourceStore :=
  (ResourceStore.new.apply (.configMap (dataMap "a" "1"))).apply (.configMap (dataMap "b" "2"))

/-- The text `{"metadata":{"name":"b"}}`. -/
private def renameBody : List UInt8 :=
  [123, 34, 109, 101, 116, 97, 100, 97, 116, 97, 34, 58, 123, 34, 110, 97, 109, 101, 34, 58, 34, 98,
    34, 125, 125]

private def renameParsers : BodyParsers where
  json bytes := if bytes = renameBody then some (.obj [("metadata", .obj [("name", .str "b")])]) else none
  yaml _ := none

end Z8s.Api
