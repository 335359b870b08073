import Mathlib.Data.List.SplitOn

/-!
# Paths

Paths of a Unix file system, as `std::path` reads them. Names are sequences of bytes. Repeated slashes,
a slash at the end and the components `.` do not count.
-/

namespace Z8s.Files

/-- The name of a directory entry, in bytes. -/
abbrev Name := List UInt8

def dotdot : Name := [46, 46]

def isProper (name : Name) : Bool := name != [] && name != [46] && name != dotdot

structure Path where
  absolute : Bool
  comps : List Name
  deriving DecidableEq, Repr

namespace Path

/-- The path that is written as `bytes`. -/
def ofBytes (bytes : List UInt8) : Path where
  absolute := bytes.head? == some 47
  comps := (bytes.splitOn 47).filter fun comp => comp != [] && comp != [46]

/-- `self.join(path)`: an absolute `path` takes the place of `self`. -/
def join (self path : Path) : Path :=
  if path.absolute then path else ⟨self.absolute, self.comps ++ path.comps⟩

def parent (self : Path) : Option Path :=
  if self.comps = [] then none else some ⟨self.absolute, self.comps.dropLast⟩

/-- `self.file_name()`: the last component, unless it is `..`. -/
def fileName (self : Path) : Option Name := self.comps.getLast?.filter (· != dotdot)

end Path

end Z8s.Files
