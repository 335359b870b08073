import Z8s.Collections.LastMax
import Z8s.Files.Lexical
import Z8s.Rust.Str

/-!
# Entering a root file system

Model of `read_subid` and `make_parent_mount_private` (`src/cri/rootfs.rs`), on the contents of the files that they
read: the ranges of subordinate ids, and the mounts of the process.
-/

namespace Z8s.Cri

open Rust Collections Files

/-! ### Subordinate ids -/

section Subid

variable (hostId : UInt32) (username : Option String)

def isIgnored (line : String) : Bool := line == "" || startsWith line "#"

def idMatches (idField : String) : Bool :=
  parseUnsigned (2 ^ 32 - 1) idField == some hostId.toNat || username.any (idField == ·)

/-- The loop over the lines. A field that is missing or no number ends it. -/
def scanSubids : List String → Option (Nat × Nat)
  | [] => none
  | line :: rest =>
    if isIgnored (trim line) then scanSubids rest
    else do
      let parts := splitn ':' 3 (trim line)
      let idField ← parts[0]?
      let start ← parts[1]?.bind (parseUnsigned (2 ^ 64 - 1))
      let count ← parts[2]?.bind (parseUnsigned (2 ^ 64 - 1))
      if idMatches hostId username idField then some (start, count) else scanSubids rest

/-- `file` is what the file holds, if it can be read. -/
def readSubid (file : Option (List UInt8)) : Option (Nat × Nat) :=
  (file.bind fromUtf8).bind fun content => scanSubids hostId username (lines content)

/-- A well-formed line: three fields with colons between them, of which the last two are numbers of 64 bits. -/
def subidEntry (line : String) : Option (String × Nat × Nat) :=
  if isIgnored (trim line) then none
  else
    match splitChar ':' (trim line) with
    | [idField, start, count] => do
      let start ← parseUnsigned (2 ^ 64 - 1) start
      let count ← parseUnsigned (2 ^ 64 - 1) count
      some (idField, start, count)
    | _ => none

/-- The range of a well-formed line for the id or for the name of the user. -/
def entryFor (line : String) : Option (Nat × Nat) :=
  ((subidEntry line).filter fun e => idMatches hostId username e.1).map Prod.snd

/-- A line of a file that is not UTF-8 has no range. -/
def byteEntryFor (line : List UInt8) : Option (Nat × Nat) := (fromUtf8 line).bind (entryFor hostId username)

/-- The range of the first line for the user is found. -/
def SubidFound (content : List UInt8) : Prop :=
  readSubid hostId username (some content) = (content.splitOn 10).findSome? (byteEntryFor hostId username)
  deriving Decidable

/-- If there is a line for the user, the file is UTF-8, and every line before the first one for the user is blank, a
comment or well-formed. -/
def SubidsReadable (content : List UInt8) : Prop :=
  (∃ line ∈ content.splitOn 10, (byteEntryFor hostId username line).isSome = true) →
    (fromUtf8 content).isSome = true ∧
      ∀ line ∈ (content.splitOn 10).takeWhile fun line => (byteEntryFor hostId username line).isNone,
        ∀ text ∈ fromUtf8 line, isIgnored (trim text) = true ∨ (subidEntry text).isSome = true

end Subid

/-! ### The parent mount -/

/-- The fifth field of a line of `mountinfo`. -/
def mountPoint (line : String) : Option String := (splitWhitespace line)[4]?

/-- One of the fields that follow the sixth one is a `shared:` tag. -/
def hasSharedTag (text : String) : Bool := ((splitWhitespace text).drop 6).any (startsWith · "shared:")

def isShared (line : String) : Bool :=
  match before " - ".toList line.toList with
  | some head => hasSharedTag (String.ofList head)
  | none => hasSharedTag line

structure BestMount where
  mount : Option String := none
  len : Nat := 0
  isShared : Bool := false
  deriving DecidableEq, Repr

section Mounts

variable (rootfs : List UInt8)

def mountMatches (rootfsStr mp : String) : Bool :=
  if mp = "" then startsWith rootfsStr "/" else rootfsStr == mp || startsWith rootfsStr (mp ++ "/")

/-- The body of the loop over the lines. -/
def considerLine (rootfsStr : String) (best : BestMount) (line : String) : BestMount :=
  match mountPoint line with
  | none => best
  | some mount =>
    let mp := trimEndMatches '/' mount
    if mountMatches rootfsStr mp && (utf8 mp).length ≥ best.len then ⟨some mount, (utf8 mp).length, isShared line⟩
    else best

def bestMount (mountinfo : String) : BestMount :=
  (lines mountinfo).foldl (considerLine (fromUtf8Lossy rootfs)) {}

/-- The mount that is made private, if there is one. -/
def makeParentMountPrivate (mountinfo : String) : Option String :=
  if (bestMount rootfs mountinfo).isShared then (bestMount rootfs mountinfo).mount else none

/-- The optional fields of a line stand between its sixth field and the first separator. One of them is a tag. -/
def SharedLine (line : String) : Prop :=
  ∃ head, (IsBefore " - ".toList line.toList head ∨ ¬ " - ".toList <:+: line.toList ∧ head = line.toList) ∧
    ∃ field ∈ (splitWhitespace (String.ofList head)).drop 6, "shared:".toList <+: field.toList

/-- The depth of a mount point that leads to the root file system or to a directory above it. -/
def parentDepth (line : String) : Option Nat :=
  ((mountPoint line).filter fun mp => (Path.ofStr mp).Under (.ofBytes rootfs)).map fun mp =>
    (Path.ofStr mp).normal.length

/-- The mount with the longest path to the root file system or above it, the last one if there are several. -/
def IsParent (mountinfo line : String) : Prop := LastMax (parentDepth rootfs) (lines mountinfo) line

/-- The parent mount is the one that is considered, and it is made private exactly if it is shared. -/
structure ParentChosen (mountinfo : String) : Prop where
  considered : ∀ mp, (bestMount rootfs mountinfo).mount = some mp ↔
    ∃ line, IsParent rootfs mountinfo line ∧ mountPoint line = some mp
  madePrivate : ∀ mp, makeParentMountPrivate rootfs mountinfo = some mp ↔
    ∃ line, IsParent rootfs mountinfo line ∧ mountPoint line = some mp ∧ SharedLine line

/-- The length of a mount point that the text of the root file system begins with. -/
def textLength (line : String) : Option Nat :=
  (((mountPoint line).map (trimEndMatches '/')).filter (mountMatches (fromUtf8Lossy rootfs))).map fun mp =>
    (utf8 mp).length

/-- The text of the root file system begins with that of its parent mount, and with no longer one. Without a parent
it begins with none. -/
structure ParentInText (mountinfo : String) : Prop where
  parent : ∀ line, IsParent rootfs mountinfo line → ∃ n, textLength rootfs line = some n ∧
    ∀ other ∈ lines mountinfo, ∀ m ∈ textLength rootfs other, m ≤ n
  none : (∀ line, ¬ IsParent rootfs mountinfo line) → ∀ other ∈ lines mountinfo, textLength rootfs other = none

end Mounts

end Z8s.Cri
