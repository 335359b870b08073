import Z8s.Files.Tar
import Z8s.Rust.Str
import Z8s.Rust.Utf8

/-!
# Unpacking the layers of an image

Model of `unpack_layer` (`src/cri/image.rs`) and of the loop of `unpack_image` that calls it for every
layer. A layer is the list of entries that its tar archive gives; reading an entry can fail. Ordinary
entries are handed to `Entry::unpack_in` of the library `tar`. An entry whose name starts with `.wh.` is a
whiteout: it removes what the layers below have put there.
-/

namespace Z8s.Cri

open Files Rust

structure Host where
  /-- The working directory of the process. -/
  cwd : Location
  /-- `entry.unpack_in(target)`: the file system afterwards, and whether the call succeeded. -/
  unpackIn : Path → TarEntry → FileSystem → FileSystem × Bool
  /-- What the kernel refuses to remove when the node at the location is to be removed. -/
  left : FileSystem → Location → List Location

/-- A host that removes what it is asked to remove, for archives of files and directories. -/
def Host.plain (cwd : Location) : Host := ⟨cwd, FileSystem.unpackIn cwd, fun _ _ => []⟩

variable (host : Host)

/-- What an archive entry is to the loop, by the last component of its path. -/
inductive EntryName
  | opq
  | whiteout (realName : Name)
  | ordinary
  deriving DecidableEq, Repr

def filename (path : Path) : String := (path.fileName.map fromUtf8Lossy).getD ""

def entryName (path : Path) : EntryName :=
  if filename path = ".wh..wh..opq" then .opq
  else match stripPrefix (filename path) ".wh." with
    | some realName => .whiteout (utf8 realName)
    | none => .ordinary

/-- The directory of an entry, below the target unless the path is absolute. -/
def entryDir (target path : Path) : Path := (path.parent.map target.join).getD target

/-- Remove `dir/name`, whatever it is. The results of the calls are ignored. -/
def removeAt (fs : FileSystem) (dir : Path) (name : Name) : FileSystem :=
  if fs.isDir host.cwd dir name then fs.removeDirAll host.cwd dir name (host.left fs)
  else fs.removeFile host.cwd dir name (host.left fs)

/-- Remove the listed entries of a directory, apart from those whose names start with `.wh.`. -/
def clearEntries (dir : Path) (fs : FileSystem) (names : List Name) : FileSystem :=
  names.foldl (fun fs name =>
    if startsWith (fromUtf8Lossy name) ".wh." then fs else removeAt host fs dir name) fs

def clearDir (fs : FileSystem) (dir : Path) : FileSystem :=
  match fs.resolve host.cwd dir with
  | some l => clearEntries host dir fs (fs.children l)
  | none => fs

/-- The body of the loop: the file system afterwards, and whether the loop goes on. -/
def unpackEntry (target : Path) (fs : FileSystem) (entry : TarEntry) : FileSystem × Bool :=
  let path := Path.ofBytes entry.path
  match entryName path with
  | .opq => (clearDir host fs (entryDir target path), true)
  | .whiteout realName => (removeAt host fs (entryDir target path) realName, true)
  | .ordinary => host.unpackIn target entry fs

/-- `unpack_layer`: the file system afterwards, and whether the call succeeded. An entry that cannot be
read is `none`. -/
def unpackLayer (target : Path) : FileSystem → List (Option TarEntry) → FileSystem × Bool
  | fs, [] => (fs, true)
  | fs, none :: _ => (fs, false)
  | fs, some entry :: entries =>
    let unpacked := unpackEntry host target fs entry
    if unpacked.2 then unpackLayer target unpacked.1 entries else unpacked

def unpackLayers (target : Path) : FileSystem → List (List (Option TarEntry)) → FileSystem × Bool
  | fs, [] => (fs, true)
  | fs, layer :: layers =>
    let unpacked := unpackLayer host target fs layer
    if unpacked.2 then unpackLayers target unpacked.1 layers else unpacked

end Z8s.Cri
