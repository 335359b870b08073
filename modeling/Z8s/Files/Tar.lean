import Z8s.Files.FileSystem

/-!
# Tar archives

The entries of an archive, and what `Entry::unpack_in` of the library `tar` does with files and directories
in a tree without links: leading slashes are dropped, an entry with `..` in its path is skipped, missing
directories are created, and a file takes the place of a file. Neither takes the place of the other.
-/

namespace Z8s.Files

inductive EntryKind
  | file (content : List UInt8)
  | directory
  | symlink (target : Path)
  | other
  deriving DecidableEq, Repr

def EntryKind.isFile : EntryKind → Bool
  | .file _ => true
  | _ => false

def EntryKind.node : EntryKind → Node
  | .file content => .file content
  | .symlink target => .symlink target
  | _ => .directory

/-- An entry of a tar archive; the path is as the archive has it. -/
structure TarEntry where
  path : List UInt8
  kind : EntryKind
  deriving DecidableEq, Repr

namespace FileSystem

/-- Create the directories that are missing along the components; `false` if something else is in the
way. -/
def createDirs (fs : FileSystem) (l : Location) : List Name → FileSystem × Bool
  | [] => (fs, true)
  | comp :: comps =>
    match fs.node (l ++ [comp]) with
    | some .directory => createDirs fs (l ++ [comp]) comps
    | some _ => (fs, false)
    | none =>
      match fs.put l comp .directory with
      | some fs => createDirs fs (l ++ [comp]) comps
      | none => (fs, false)

/-- Put a node into a directory; `false` if it cannot be put there. -/
def putNode (fs : FileSystem) (dir : Location) (name : Name) (node : Node) : FileSystem × Bool :=
  match fs.put dir name node with
  | some fs => (fs, true)
  | none => (fs, false)

def unpackNode (fs : FileSystem) (dir : Location) (name : Name) (kind : EntryKind) : FileSystem × Bool :=
  match kind with
  | .directory =>
    if fs.node (dir ++ [name]) = some .directory then (fs, true)
    else if fs.node (dir ++ [name]) = none then fs.putNode dir name .directory
    else (fs, false)
  | .file content => fs.putNode dir name (.file content)
  | _ => (fs, false)

def unpackIn (cwd : Location) (target : Path) (entry : TarEntry) (fs : FileSystem) : FileSystem × Bool :=
  let comps := (Path.ofBytes entry.path).comps
  if dotdot ∈ comps then (fs, true)
  else match comps.getLast?, fs.resolve cwd target with
    | none, _ => (fs, true)
    | some _, none => (fs, false)
    | some name, some root =>
      let made := fs.createDirs root comps.dropLast
      if made.2 then made.1.unpackNode (root ++ comps.dropLast) name entry.kind else made

end FileSystem

end Z8s.Files
