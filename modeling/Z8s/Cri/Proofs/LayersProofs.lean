import Z8s.Collections.Proofs.HashMapProofs
import Z8s.Cri.Layers

/-!
# The layers of an image: order

The map keeps one layer for each digest, so that no digest comes out twice.
-/

namespace Z8s.Cri

open Collections HashMap OciDescriptor

variable {sha256Digest : ImageLayer → String}
variable {descs : List OciDescriptor} {layer : ImageLayer}

theorem digest_of_get_byDigest {layers : List ImageLayer} {digest : String}
    (h : (byDigest sha256Digest layers).get digest = some layer) :
    sha256Digest layer = digest ∧ layer ∈ layers := by
  rcases mem_of_get_insertAll h with h | ⟨-, h⟩
  · obtain ⟨l, hl, he⟩ := List.mem_map.1 h
    cases he
    exact ⟨rfl, hl⟩
  · simp at h

theorem get_byDigest {layers : List ImageLayer} (hnd : (layers.map sha256Digest).Nodup) (h : layer ∈ layers) :
    (byDigest sha256Digest layers).get (sha256Digest layer) = some layer := by
  refine get_insertAll_of_mem _ ?_ (List.mem_map_of_mem h)
  simpa [Function.comp_def] using hnd

theorem takeLayers_snd (descs : List OciDescriptor) (layers : HashMap String ImageLayer) :
    (takeLayers descs layers).2 = layers.removeAll (descs.map digest) := by
  induction descs generalizing layers with
  | nil => rfl
  | cons desc descs ih =>
    rw [takeLayers]
    split <;> exact ih _

theorem get_of_mem_takeLayers {layers : HashMap String ImageLayer} (h : layer ∈ (takeLayers descs layers).1) :
    ∃ digest ∈ descs.map OciDescriptor.digest, layers.get digest = some layer := by
  induction descs generalizing layers with
  | nil => cases h
  | cons desc descs ih =>
    -- a layer found later was there before the digest of `desc` was removed
    have hrest : layer ∈ (takeLayers descs (layers.remove desc.digest)).1 →
        ∃ digest ∈ (desc :: descs).map OciDescriptor.digest, layers.get digest = some layer := by
      intro h
      obtain ⟨digest, hmem, hget⟩ := ih h
      rw [get_remove] at hget
      split at hget
      · cases hget
      · exact ⟨digest, List.mem_cons_of_mem _ hmem, hget⟩
    rw [takeLayers] at h
    split at h
    · rename_i first hfirst
      rcases List.mem_cons.1 h with rfl | h
      · exact ⟨_, List.mem_cons_self, hfirst⟩
      · exact hrest h
    · exact hrest h

section Keyed

variable {layers : HashMap String ImageLayer}
  (hkeyed : ∀ digest layer, layers.get digest = some layer → sha256Digest layer = digest)
include hkeyed

theorem nodup_digests_takeLayers (descs : List OciDescriptor) :
    ((takeLayers descs layers).1.map sha256Digest).Nodup := by
  induction descs generalizing layers with
  | nil => exact List.nodup_nil
  | cons desc descs ih =>
    have hkeyed' : ∀ digest layer, (layers.remove desc.digest).get digest = some layer →
        sha256Digest layer = digest := by
      intro digest layer h
      rw [get_remove] at h
      split at h
      · cases h
      · exact hkeyed _ _ h
    rw [takeLayers]
    split
    · rename_i first hfirst
      rw [List.map_cons, List.nodup_cons]
      refine ⟨fun hmem => ?_, ih hkeyed'⟩
      obtain ⟨layer, hlayer, he⟩ := List.mem_map.1 hmem
      obtain ⟨digest, -, hget⟩ := get_of_mem_takeLayers hlayer
      have hdigest : digest = desc.digest := by
        rw [← hkeyed' _ _ hget, he, hkeyed _ _ hfirst]
      rw [get_remove, if_pos hdigest] at hget
      cases hget
    · exact ih hkeyed'

theorem values_digests : layers.values.map sha256Digest = layers.keys := by
  rw [HashMap.values, HashMap.keys, List.map_map]
  refine List.map_congr_left fun kv hkv => ?_
  exact hkeyed _ _ (mem_iter.1 hkv)

end Keyed

theorem orderLayers_manifest (intoValues : HashMap String ImageLayer → List ImageLayer)
    (pulled : List ImageLayer) (descs : List OciDescriptor) :
    orderLayers sha256Digest intoValues ⟨pulled, some descs⟩ =
      (takeLayers descs (byDigest sha256Digest pulled)).1 ++
        intoValues (takeLayers descs (byDigest sha256Digest pulled)).2 :=
  rfl

theorem nodup_digests_orderLayers {intoValues : HashMap String ImageLayer → List ImageLayer}
    (hvalues : ∀ m, (intoValues m).Perm m.values) (descs : List OciDescriptor)
    (pulled : List ImageLayer) :
    ((orderLayers sha256Digest intoValues ⟨pulled, some descs⟩).map sha256Digest).Nodup := by
  have hkeyed : ∀ digest layer, (byDigest sha256Digest pulled).get digest = some layer →
      sha256Digest layer = digest := fun _ _ h => (digest_of_get_byDigest h).1
  have hleft : ∀ digest layer, (takeLayers descs (byDigest sha256Digest pulled)).2.get digest = some layer →
      digest ∉ descs.map OciDescriptor.digest ∧ sha256Digest layer = digest := by
    intro digest layer h
    rw [takeLayers_snd, get_removeAll] at h
    split at h
    · cases h
    · exact ⟨‹_›, hkeyed _ _ h⟩
  rw [orderLayers_manifest, List.map_append, List.nodup_append]
  refine ⟨nodup_digests_takeLayers hkeyed descs, ?_, ?_⟩
  · rw [((hvalues _).map _).nodup_iff, values_digests fun _ _ h => (hleft _ _ h).2]
    exact nodup_keys _
  · intro a ha b hb hab
    obtain ⟨layer, hlayer, rfl⟩ := List.mem_map.1 ha
    obtain ⟨digest, hmem, hget⟩ := get_of_mem_takeLayers hlayer
    rw [((hvalues _).map _).mem_iff, values_digests fun _ _ h => (hleft _ _ h).2, mem_keys] at hb
    obtain ⟨other, hother⟩ := hb
    rw [← hab, hkeyed _ _ hget] at hother
    exact (hleft _ _ hother).1 hmem

theorem takeLayers_fst (hnd : (descs.map digest).Nodup) (layers : HashMap String ImageLayer) :
    (takeLayers descs layers).1 = (descs.map digest).filterMap layers.get := by
  induction descs generalizing layers with
  | nil => rfl
  | cons desc descs ih =>
    rw [List.map_cons, List.nodup_cons] at hnd
    have hrest : (takeLayers descs (layers.remove desc.digest)).1 =
        (descs.map digest).filterMap layers.get := by
      rw [ih hnd.2]
      refine List.filterMap_congr fun digest hdigest => ?_
      rw [get_remove, if_neg]
      exact fun he => hnd.1 (he ▸ hdigest)
    rw [takeLayers, List.map_cons, List.filterMap_cons]
    cases layers.get desc.digest with
    | some layer => exact congrArg (layer :: ·) hrest
    | none => exact hrest

theorem takeLayers_byDigest {layers pulled : List ImageLayer}
    (hlayers : layers.map sha256Digest = descs.map digest) (hpulled : pulled.Perm layers)
    (hnd : (descs.map digest).Nodup) :
    (takeLayers descs (byDigest sha256Digest pulled)).1 = layers := by
  have hnd' : (pulled.map sha256Digest).Nodup := by
    rw [(hpulled.map _).nodup_iff, hlayers]
    exact hnd
  rw [takeLayers_fst hnd, ← hlayers, List.filterMap_map]
  have hget : ∀ layer ∈ layers, ((byDigest sha256Digest pulled).get ∘ sha256Digest) layer = some layer :=
    fun layer h => get_byDigest hnd' (hpulled.mem_iff.2 h)
  rw [List.filterMap_congr hget, List.filterMap_some]

theorem values_takeLayers_byDigest {layers pulled : List ImageLayer}
    (hlayers : layers.map sha256Digest = descs.map digest) (hpulled : pulled.Perm layers) :
    (takeLayers descs (byDigest sha256Digest pulled)).2.values = [] := by
  rw [List.eq_nil_iff_forall_not_mem]
  intro layer hlayer
  obtain ⟨⟨digest, _⟩, hmem, rfl⟩ := List.mem_map.1 hlayer
  have hget := mem_iter.1 hmem
  rw [takeLayers_snd, get_removeAll] at hget
  split at hget
  · cases hget
  · rename_i hnot
    obtain ⟨rfl, hin⟩ := digest_of_get_byDigest hget
    exact hnot (hlayers ▸ List.mem_map_of_mem (hpulled.mem_iff.1 hin))

/-- The pulled layers, one for each descriptor, come out as the manifest lists them exactly when it lists
no digest twice. -/
theorem orderLayers_eq_iff {intoValues : HashMap String ImageLayer → List ImageLayer}
    (hvalues : ∀ m, (intoValues m).Perm m.values) {descs : List OciDescriptor}
    {layers pulled : List ImageLayer} (hlayers : layers.map sha256Digest = descs.map OciDescriptor.digest)
    (hpulled : pulled.Perm layers) :
    (orderLayers sha256Digest intoValues ⟨pulled, some descs⟩ = layers ∧ layers.length = descs.length) ↔
      (descs.map OciDescriptor.digest).Nodup := by
  constructor
  · rintro ⟨horder, -⟩
    rw [← hlayers, ← horder]
    exact nodup_digests_orderLayers hvalues descs pulled
  · intro hnd
    have hrest : intoValues (takeLayers descs (byDigest sha256Digest pulled)).2 = [] := by
      have hperm := hvalues (takeLayers descs (byDigest sha256Digest pulled)).2
      rw [values_takeLayers_byDigest hlayers hpulled] at hperm
      exact hperm.eq_nil
    refine ⟨?_, by simpa using congrArg List.length hlayers⟩
    rw [orderLayers_manifest, hrest, List.append_nil]
    exact takeLayers_byDigest hlayers hpulled hnd

private def baseLayer : ImageLayer := ⟨[1], "application/vnd.oci.image.layer.v1.tar"⟩

private def topLayer : ImageLayer := ⟨[2], "application/vnd.oci.image.layer.v1.tar"⟩

private def bytesDigest (layer : ImageLayer) : String :=
  "sha256:" ++ String.ofList (layer.data.map fun b => Char.ofNat (48 + b.toNat))

private def twoLayers : List OciDescriptor := [⟨"sha256:1"⟩, ⟨"sha256:2"⟩]

theorem orderLayers_downloaded_in_reverse :
    orderLayers bytesDigest HashMap.values ⟨[topLayer, baseLayer], some twoLayers⟩ =
        [baseLayer, topLayer] ∧
      [baseLayer, topLayer].length = twoLayers.length := by
  have hlayers : [baseLayer, topLayer].map bytesDigest = twoLayers.map digest := by decide
  have hpulled : [topLayer, baseLayer].Perm [baseLayer, topLayer] := .swap _ _ _
  exact (orderLayers_eq_iff (fun _ => .refl _) hlayers hpulled).2 (by decide)

/-- A layer that the manifest lists twice is unpacked once: with it goes what the second unpacking would
have put back after the layer between. -/
theorem repeated_layer_unpacked_once :
    orderLayers bytesDigest HashMap.values
        ⟨[baseLayer, topLayer, baseLayer], some [⟨"sha256:1"⟩, ⟨"sha256:2"⟩, ⟨"sha256:1"⟩]⟩ =
      [baseLayer, topLayer] := by
  decide

end Z8s.Cri
