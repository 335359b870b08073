import Z8s.Files.Path
import Z8s.Rust.Utf8

/-!
# Paths without a file system

Where a path leads when no component is a link: `..` takes away the component before it. At the root it
does nothing, and at the start of a relative path it stays.
-/

namespace Z8s.Files.Path

open Rust

/-- The path that is written as `s`. -/
def ofStr (s : String) : Path := .ofBytes (utf8 s)

def joinStr (self path : String) : String :=
  if (utf8 path).head? = some 47 then path
  else if (utf8 self).getLast?.all (· == 47) then self ++ path
  else self ++ "/" ++ path

/-- What `..` leads to. -/
def climb (absolute : Bool) (stack : List Name) : List Name :=
  if stack = [] ∨ stack.getLast? = some dotdot then
    if absolute then stack else stack ++ [dotdot]
  else stack.dropLast

def push (absolute : Bool) (stack : List Name) (comp : Name) : List Name :=
  if comp = dotdot then climb absolute stack else stack ++ [comp]

/-- The names that are left, behind those `..` that have nothing before them. -/
def normal (p : Path) : List Name := p.comps.foldl (push p.absolute) []

def Under (dir p : Path) : Prop :=
  p.absolute = dir.absolute ∧ dir.normal <+: p.normal ∧ dotdot ∉ p.normal.drop dir.normal.length
  deriving Decidable

def StrictlyUnder (dir p : Path) : Prop := Under dir p ∧ p.normal ≠ dir.normal
  deriving Decidable

def climbs (p : Path) : Nat := (p.normal.takeWhile (· == dotdot)).length

def names (p : Path) : List Name := p.normal.dropWhile (· == dotdot)

/-- Joined to the directory, the path leads to the directory or to something below it: it does not lead
out of the directory, or it leads back in. -/
def Stays (dir p : Path) : Prop :=
  if p.absolute then dir.absolute = true ∧ dir.normal <+: p.normal
  else (dir.absolute = true ∨ p.climbs ≤ dir.normal.length) ∧
    dir.normal.drop (dir.normal.length - p.climbs) <+: p.names
  deriving Decidable

def child (p : Path) (name : Name) : Path := ⟨p.absolute, p.comps ++ [name]⟩

/-- The path and the paths above it that it is written with, the shortest one first. -/
def ancestors (p : Path) : List Path := p.comps.inits.tail.map fun comps => ⟨p.absolute, comps⟩

end Z8s.Files.Path
