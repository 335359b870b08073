import Z8s.Files.FileSystem

/-!
# Creating files and directories

`create_dir_all` and `fs::write`. Both can also fail for reasons that are not in the tree, and then leave a
part of the work behind.
-/

namespace Z8s.Files

/-- The text ends in a slash or in the component `.`, so that only a directory can be there. -/
def endsInDir (bytes : List UInt8) : Bool :=
  (bytes.splitOn 47).getLast?.any fun last => last == [] || last == [46]

namespace FileSystem

def isDirectory (fs : FileSystem) (cwd : Location) (path : Path) : Bool :=
  (fs.resolve cwd path).bind fs.node == some .directory

def makeDir (fs : FileSystem) (cwd : Location) (path : Path) : Option FileSystem :=
  match path.parent, path.fileName with
  | some parent, some name =>
    (fs.resolve cwd parent).bind fun dir =>
      if fs.node (dir ++ [name]) = none then fs.put dir name .directory else none
  | _, _ => none

/-- `create_dir_all` of a path with these ancestors, the shortest one first. If there is a limit, only so
many directories can be created. -/
def createDirAll (fs : FileSystem) (cwd : Location) (limit : Option Nat) : List Path → FileSystem × Bool
  | [] => (fs, true)
  | path :: paths =>
    if fs.isDirectory cwd path then createDirAll fs cwd limit paths
    else if limit = some 0 then (fs, false)
    else
      match fs.makeDir cwd path with
      | some fs => createDirAll fs cwd (limit.map (· - 1)) paths
      | none => (fs, false)

/-- Where `File::create` puts the file. A link at the end of the path is handed to `follow`, with the
directory it is in. -/
def createsWith (fs : FileSystem) (follow : Location → Path → Option (Location × Name)) (cwd : Location)
    (path : Path) : Option (Location × Name) :=
  match path.parent, path.fileName with
  | some parent, some name =>
    (fs.resolve cwd parent).bind fun dir =>
      match fs.node (dir ++ [name]) with
      | some .directory => none
      | some (.symlink target) => follow dir target
      | _ => some (dir, name)
  | _, _ => none

/-- The same, with at most `links` links. -/
def creates (fs : FileSystem) : (links : Nat) → Location → Path → Option (Location × Name)
  | 0 => fs.createsWith fun _ _ => none
  | links + 1 => fs.createsWith (fs.creates links)

/-- `fs::write`. If there is a limit it fails, before it opens the file or after some bytes. -/
def writeFile (fs : FileSystem) (cwd : Location) (path : Path) (content : List UInt8)
    (limit : Option Nat) : FileSystem × Bool :=
  match fs.creates 40 cwd path, limit with
  | some (dir, name), none =>
    let written := fs.put dir name (.file content)
    (written.getD fs, written.isSome)
  | some (dir, name), some (bytes + 1) => ((fs.put dir name (.file (content.take bytes))).getD fs, false)
  | _, _ => (fs, false)

end FileSystem

end Z8s.Files
