import Z8s.Cri.Image

/-!
# Unpacking stays below the target

What it means that unpacking a layer touches nothing outside the target directory, and the entries for which
it does: whiteouts that name an entry of a directory below the target and reach it without `..` and links.
-/

namespace Z8s.Cri

open Files

def Below (root l : Location) : Prop := root <+: l ∧ l ≠ root
  deriving Decidable

/-- The path leads to a directory, and not through the directory itself: it would also if the directory were
empty. -/
structure Leads (fs : FileSystem) (cwd : Location) (target : Path) (root : Location) : Prop where
  start : (fs.remove root [root]).node (if target.absolute then [] else cwd) = some .directory
  resolves : (fs.remove root [root]).resolve cwd target = some root
  directory : fs.node root = some .directory

/-- `unpack_in` writes only below its target. -/
def UnpacksBelow (host : Host) (target : Path) : Prop :=
  ∀ fs root entry, Leads fs host.cwd target root →
    ∀ l, ¬ Below root l → (host.unpackIn target entry fs).1.node l = fs.node l

/-- The name that is removed is that of an entry, or stands for the directory itself, which is not the
target. -/
def removesBelow (dir : List Name) : EntryName → Bool
  | .whiteout realName => realName != dotdot && (realName != [] || dir != [])
  | _ => true

def isLink : Option Node → Bool
  | some (.symlink _) => true
  | _ => false

/-- A whiteout has a relative path without `..`, no link is on the way to its directory, and what it removes is
below the target. Ordinary entries are left to `unpack_in`. -/
def Careful (root : Location) (fs : FileSystem) (entry : TarEntry) : Prop :=
  let path := Path.ofBytes entry.path
  entryName path = .ordinary ∨
    path.absolute = false ∧ dotdot ∉ path.comps ∧ removesBelow path.comps.dropLast (entryName path) = true ∧
      ∀ q ∈ path.comps.dropLast.inits, isLink (fs.node (root ++ q)) = false
  deriving Decidable

/-- Every entry is handled with care, in the file system that it finds. -/
def CarefulAlong (host : Host) (target : Path) (root : Location) :
    FileSystem → List (Option TarEntry) → Prop
  | fs, some entry :: entries =>
    Careful root fs entry ∧
      ((unpackEntry host target fs entry).2 = true →
        CarefulAlong host target root (unpackEntry host target fs entry).1 entries)
  | _, _ => True

instance decidableCarefulAlong (host : Host) (target : Path) (root : Location) :
    ∀ fs entries, Decidable (CarefulAlong host target root fs entries)
  | _, [] => isTrue trivial
  | _, none :: _ => isTrue trivial
  | fs, some entry :: entries =>
    have := decidableCarefulAlong host target root (unpackEntry host target fs entry).1 entries
    inferInstanceAs (Decidable (Careful root fs entry ∧ (_ → _)))

end Z8s.Cri
