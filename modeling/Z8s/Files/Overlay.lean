import Z8s.Files.FileSystem

/-!
# Layered file trees

What a stack of layers means, by sets: at each location a layer has a node of its own, or hides what the
layers below have, or lets it through. The order of the changes in a layer does not matter, apart from two
nodes that are put at one location.
-/

namespace Z8s.Files

/-- The node at each location below some directory. -/
abbrev Tree := Location → Option Node

/-- What one entry of a layer says. -/
inductive Change
  /-- The layer has this node. -/
  | put (path : Location) (node : Node)
  /-- Hide the node of the layers below, with all that is below it. -/
  | whiteout (path : Location)
  /-- Hide everything that the layers below have in the directory. -/
  | opq (dir : Location)
  deriving DecidableEq, Repr

namespace Change

/-- The change hides what the layers below have at the location. -/
def hides : Change → Location → Bool
  | .put _ _, _ => false
  | .whiteout path, p => path.isPrefixOf p
  | .opq dir, p => dir.isPrefixOf p && p != dir

/-- The node of the layer at a location, after the change: a node makes directories of the locations above
it. -/
def gives (p : Location) (found : Option Node) : Change → Option Node
  | .put path node =>
    if p = path then some node else if p <+: path then some (found.getD .directory) else found
  | _ => found

end Change

/-- The node that the layer itself has at a location. -/
def own (layer : List Change) (p : Location) : Option Node := layer.foldl (Change.gives p) none

/-- The layer has a node above the location that is no directory. -/
def covered (layer : List Change) (p : Location) : Bool :=
  p.inits.any fun q => q != p && (own layer q).any (· != .directory)

def overlay (layer : List Change) (lower : Tree) : Tree := fun p =>
  (own layer p).or (if layer.any (·.hides p) || covered layer p then none else lower p)

def overlays (lower : Tree) (layers : List (List Change)) : Tree :=
  layers.foldl (fun tree layer => overlay layer tree) lower

/-- The change finds nothing of another type in the way: a file takes the place of a file, a directory that of
a directory, and what is above is a directory. -/
def Change.fits (tree : Tree) : Change → Prop
  | .put path node =>
    (∀ q ∈ path.dropLast.inits, tree q = none ∨ tree q = some .directory) ∧
      (if node = .directory then tree path = none ∨ tree path = some .directory
        else tree path ≠ some .directory)
  | _ => True

instance (tree : Tree) (c : Change) : Decidable (c.fits tree) := by
  cases c <;> unfold Change.fits <;> infer_instance

/-- The change hides nothing that is put by one of the changes. -/
def Change.sparesAll (c : Change) (done : List Change) : Bool :=
  done.all fun d => match d with
    | .put path _ => !c.hides path
    | _ => true

end Z8s.Files
