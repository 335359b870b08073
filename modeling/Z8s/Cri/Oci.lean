import Z8s.Cri.Image
import Z8s.Files.Overlay

/-!
# Layers by the image specification

What the entries of a layer say by the OCI image specification, and the layers for which unpacking one entry
after the other comes to the same tree.
-/

namespace Z8s.Cri

open Files Rust

/-- Names that start with `.wh.` are reserved for whiteouts. -/
def isReserved (name : Name) : Bool := (utf8 ".wh.").isPrefixOf name

/-- What an entry says: `.wh.name` hides `name`, `.wh..wh..opq` hides what is in its directory. -/
def change (entry : TarEntry) : Change :=
  let comps := (Path.ofBytes entry.path).comps
  match comps.getLast? with
  | none => .put [] .directory
  | some name =>
    if name = utf8 ".wh..wh..opq" then .opq comps.dropLast
    else if isReserved name then .whiteout (comps.dropLast ++ [name.drop 4])
    else .put comps entry.kind.node

/-- A file or directory with a relative path without `..`. Only a directory has the path of the target. -/
def SafeEntry (entry : TarEntry) : Prop :=
  let path := Path.ofBytes entry.path
  path.absolute = false ∧ dotdot ∉ path.comps ∧
    (entry.kind = .directory ∨ path.comps ≠ [] ∧ entry.kind.isFile = true)
  deriving Decidable

/-- Nodes have no reserved names, and a whiteout hides a name that a node can have, in UTF-8. -/
def Change.wellNamed : Change → Bool
  | .put path _ => path.all fun name => !isReserved name
  | .whiteout path => path.getLast?.all fun name => isProper name && utf8 (fromUtf8Lossy name) == name
  | .opq _ => true

/-- The entry finds nothing of another type in its way, and hides nothing of its own layer. The tree so far is
that of the layers below and of the entries of the layer that were there before. -/
def InOrder (lower : Tree) (done : List Change) (c : Change) : Prop :=
  c.fits (overlay done lower) ∧ c.sparesAll done = true ∧ Change.wellNamed c = true
  deriving Decidable

def LayerInOrder (lower : Tree) : List Change → List Change → Prop
  | _, [] => True
  | done, c :: cs => InOrder lower done c ∧ LayerInOrder lower (done ++ [c]) cs

instance decidableLayerInOrder (lower : Tree) : ∀ done cs, Decidable (LayerInOrder lower done cs)
  | _, [] => isTrue trivial
  | done, c :: cs =>
    have := decidableLayerInOrder lower (done ++ [c]) cs
    inferInstanceAs (Decidable (InOrder lower done c ∧ _))

def LayersInOrder (lower : Tree) : List (List Change) → Prop
  | [] => True
  | layer :: layers => LayerInOrder lower [] layer ∧ LayersInOrder (overlay layer lower) layers

instance decidableLayersInOrder : ∀ lower layers, Decidable (LayersInOrder lower layers)
  | _, [] => isTrue trivial
  | lower, layer :: layers =>
    have := decidableLayersInOrder (overlay layer lower) layers
    inferInstanceAs (Decidable (LayerInOrder lower [] layer ∧ _))

/-- A tree of files and directories without reserved names. -/
def Plain (tree : Tree) : Prop :=
  ∀ q n, tree q = some n → (∀ target, n ≠ .symlink target) ∧ ∀ name ∈ q, isReserved name = false

end Z8s.Cri
