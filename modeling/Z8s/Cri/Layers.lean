import Z8s.Collections.HashMap

/-!
# The layers of an image

Model of the step of `unpack_image` (`src/cri/image.rs`) that puts the pulled layers into the order of
the manifest. The layers arrive in the order in which their downloads end. The digest of a layer, a hash
of its data, is a parameter.
-/

namespace Z8s.Cri

open Collections

structure ImageLayer where
  data : List UInt8
  mediaType : String
  deriving DecidableEq, Repr

structure OciDescriptor where
  digest : String
  deriving DecidableEq, Repr

structure ImageData where
  layers : List ImageLayer
  manifest : Option (List OciDescriptor)
  deriving DecidableEq, Repr

variable (sha256Digest : ImageLayer → String)

def byDigest (layers : List ImageLayer) : HashMap String ImageLayer :=
  HashMap.insertAll ∅ (layers.map fun layer => (sha256Digest layer, layer))

/-- Take the layer of each descriptor out of the map: the layers that were there, and what is left. -/
def takeLayers : List OciDescriptor → HashMap String ImageLayer →
    List ImageLayer × HashMap String ImageLayer
  | [], layers => ([], layers)
  | desc :: descs, layers =>
    let rest := takeLayers descs (layers.remove desc.digest)
    match layers.get desc.digest with
    | some layer => (layer :: rest.1, rest.2)
    | none => rest

/-- The layers in the order in which they are unpacked. The layers that the manifest does not name come
last, in the order `intoValues` in which the map happens to give them. -/
def orderLayers (intoValues : HashMap String ImageLayer → List ImageLayer) (image : ImageData) :
    List ImageLayer :=
  match image.manifest with
  | some descs =>
    let taken := takeLayers descs (byDigest sha256Digest image.layers)
    taken.1 ++ intoValues taken.2
  | none => image.layers

end Z8s.Cri
