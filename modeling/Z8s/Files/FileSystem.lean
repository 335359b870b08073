import Z8s.Collections.Proofs.HashMapProofs
import Z8s.Files.Path

/-!
# File systems

A tree of files, directories and symbolic links. A location is the list of names from the root to a
node; it has no links in it. Paths are resolved to locations as the kernel does: `..` is the directory
above the one that was reached, and a link is followed, at most forty times in one path.
-/

namespace Z8s.Files

open Collections

variable (fs : FileSystem) (cwd : Location) (dir : Path) (name : Name)

abbrev Location := List Name

inductive Node
  | file (content : List UInt8)
  | directory
  | symlink (target : Path)
  deriving DecidableEq, Repr

/-- The nodes below the root. Names are proper, and only directories have nodes below them. -/
structure FileSystem where
  nodes : HashMap Location Node
  closed : ∀ (l : Location) (name : Name), (nodes.get (l ++ [name])).isSome = true →
    isProper name = true ∧ (l = [] ∨ nodes.get l = some .directory)

namespace FileSystem

/-- The node at a location. The root is a directory. -/
def node (l : Location) : Option Node :=
  if l = [] then some .directory else fs.nodes.get l

def empty : FileSystem := ⟨∅, fun _ _ h => by simp at h⟩

def children (dir : Location) : List Name :=
  fs.nodes.keys.filterMap fun l => if l.dropLast = dir then l.getLast? else none

/-- Remove the node at a location and all nodes below it, apart from those in `left` and the directories
above them. -/
def remove (l : Location) (left : List Location) : FileSystem where
  nodes := fs.nodes.filter fun x _ => !l.isPrefixOf x || left.any x.isPrefixOf
  closed := by
    intro dir name h
    rw [HashMap.get_filter] at h ⊢
    obtain ⟨node, hnode⟩ := Option.isSome_iff_exists.1 h
    obtain ⟨hget, hstays⟩ := Option.filter_eq_some_iff.1 hnode
    refine (fs.closed dir name (by simp [hget])).imp_right (Or.imp_right fun hdir => ?_)
    rw [hdir, Option.filter_some, if_pos]
    -- what keeps an entry keeps the directory it is in
    rw [Bool.or_eq_true] at hstays ⊢
    refine hstays.imp (fun hout => ?_) fun hleft => ?_
    · rw [Bool.not_eq_true', ← Bool.not_eq_true, List.isPrefixOf_iff_prefix] at hout ⊢
      exact fun hpre => hout (hpre.trans (List.prefix_append _ _))
    · obtain ⟨x, hx, hpre⟩ := List.any_eq_true.1 hleft
      rw [List.isPrefixOf_iff_prefix] at hpre
      exact List.any_eq_true.2 ⟨x, hx, List.isPrefixOf_iff_prefix.2 ((List.prefix_append _ _).trans hpre)⟩

/-- Put a node into a directory, in place of the file or link of that name. -/
def put (dir : Location) (name : Name) (node : Node) : Option FileSystem :=
  if h : isProper name = true ∧ fs.node dir = some .directory ∧
      fs.node (dir ++ [name]) ≠ some .directory then
    some {
      nodes := fs.nodes.insert (dir ++ [name]) node
      closed := by
        intro l n hsome
        rw [HashMap.get_insert] at hsome ⊢
        by_cases heq : l ++ [n] = dir ++ [name]
        · obtain ⟨rfl, hname⟩ := List.append_inj' heq rfl
          cases hname
          refine ⟨h.1, ?_⟩
          rw [if_neg (by simp)]
          by_cases hnil : l = []
          · exact .inl hnil
          · exact .inr (by simpa [FileSystem.node, hnil] using h.2.1)
        · rw [if_neg heq] at hsome
          refine (fs.closed l n hsome).imp_right (Or.imp_right fun hdir => ?_)
          rw [if_neg, hdir]
          rintro rfl
          exact h.2.2 (by simpa [FileSystem.node] using hdir) }
  else none

/-- Walk along the components from a directory. A link is handed to `follow`, with the directory its
target starts from and the components that remain. -/
def walkWith (fs : FileSystem) (follow : Location → List Name → Option Location) :
    Location → List Name → Option Location
  | l, [] => some l
  | l, comp :: comps =>
    if comp = dotdot then walkWith fs follow l.dropLast comps
    else match fs.node (l ++ [comp]) with
      | some .directory => walkWith fs follow (l ++ [comp]) comps
      | some (.file _) => if comps = [] then some (l ++ [comp]) else none
      | some (.symlink target) => follow (if target.absolute then [] else l) (target.comps ++ comps)
      | none => none

/-- Walk along the components, with at most `links` links. -/
def walk (fs : FileSystem) : (links : Nat) → Location → List Name → Option Location
  | 0 => fs.walkWith fun _ _ => none
  | links + 1 => fs.walkWith (fs.walk links)

/-- The location of a file or directory, all links followed. -/
def resolve (path : Path) : Option Location :=
  fs.walk 40 (if path.absolute then [] else cwd) path.comps

/-! ### Paths with a last component

The functions below are called for `dir.join(name)`, where `name` has no slash. After an empty name or `.`
the path stands for `dir`; it ends in a slash or in `.` then, so that the kernel follows a link at its end. -/

/-- The directory entry that `dir/name` stands for when a link at its end is not followed. -/
def entryAt : Option Location :=
  if isProper name then (fs.resolve cwd dir).map (· ++ [name]) else none

/-- The location of `dir/name`, all links followed. -/
def resolveAt : Option Location :=
  fs.resolve cwd ⟨dir.absolute, dir.comps ++ if name = [] ∨ name = [46] then [] else [name]⟩

def isDir : Bool :=
  (fs.resolveAt cwd dir name).bind fs.node == some .directory

/-- `remove_file`: nothing happens to a directory. What cannot be removed is in `left`. -/
def removeFile (left : Location → List Location) : FileSystem :=
  match fs.entryAt cwd dir name with
  | some l => if fs.node l = some .directory then fs else fs.remove l (left l)
  | none => fs

/-- Whether the path, which does not end in a proper name, ends in the slash after a directory that is not
reached through a link. No other directory can be removed under such a path. -/
def endsInDirectory : Bool :=
  name == [] && (dir.comps.getLast?.bind fun last =>
    (fs.entryAt cwd ⟨dir.absolute, dir.comps.dropLast⟩ last).bind fs.node) == some .directory

/-- `remove_dir_all`: a link is removed and not followed. What cannot be removed is in `left`. -/
def removeDirAll (left : Location → List Location) : FileSystem :=
  if isProper name then
    match fs.entryAt cwd dir name with
    | some l =>
      match fs.node l with
      | some (.file _) => fs
      | _ => fs.remove l (left l)
    | none => fs
  else
    match fs.resolveAt cwd dir name with
    | some l =>
      if fs.node l = some .directory then
        fs.remove l (if fs.endsInDirectory cwd dir name then left l else l :: left l)
      else fs
    | none => fs

end FileSystem

end Z8s.Files
