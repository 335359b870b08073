import Z8s.Api.Proto

/-!
# The interpreter of an ELF file

Model of `read_elf_interpreter` (`src/cri/rootfs.rs`), on the content of the file. Sums are those of a `usize` of
64 bits: with overflow checks a sum that does not fit aborts the process, without them it wraps around.
-/

namespace Z8s.Cri

open Rust Api

/-- The bytes of a file that was read into memory. -/
structure FileContent where
  bytes : List UInt8
  short : bytes.length < 2 ^ 63

def getRange (data : List UInt8) (start stop : Nat) : Option (List UInt8) :=
  if start ≤ stop ∧ stop ≤ data.length then some ((data.take stop).drop start) else none

def leAt (data : List UInt8) (start stop : Nat) : Option Nat := (getRange data start stop).map fromLeBytes

structure ElfHeader where
  is64 : Bool
  phoff : Nat
  phentsize : Nat
  phnum : Nat
  deriving DecidableEq, Repr

def elfHeader (data : List UInt8) : Option ElfHeader :=
  if data.length < 64 ∨ getRange data 0 4 ≠ some [0x7f, 0x45, 0x4c, 0x46] then none
  else
    match (data[4]? : Option UInt8) with
    | some 2 => do
      let phoff ← leAt data 32 40
      let phentsize ← leAt data 54 56
      let phnum ← leAt data 56 58
      some ⟨true, phoff, phentsize, phnum⟩
    | some 1 => do
      let phoff ← leAt data 28 32
      let phentsize ← leAt data 42 44
      let phnum ← leAt data 44 46
      some ⟨false, phoff, phentsize, phnum⟩
    | _ => none

section

variable (prof : Profile) (data : List UInt8)

/-- The number at `data.get(off + start..off + stop)`. -/
def leFrom (off start stop : Nat) : Except Fault (Option Nat) := do
  let start ← usizeAdd prof off start
  let stop ← usizeAdd prof off stop
  return leAt data start stop

/-- `p_offset` and `p_filesz` of the program header at an offset. -/
def fileRange (is64 : Bool) (off : Nat) : Except Fault (Option (Nat × Nat)) := do
  match ← if is64 then leFrom prof data off 8 16 else leFrom prof data off 4 8 with
  | none => return none
  | some offset =>
    let filesz ← if is64 then leFrom prof data off 32 40 else leFrom prof data off 16 20
    return filesz.map fun filesz => (offset, filesz)

def interpreterText (offset filesz : Nat) : Except Fault (Option String) := do
  if filesz = 0 then return none
  let stop ← usizeAdd prof offset filesz
  if stop > data.length then return none
  let bytes ← slice data offset stop
  return some (fromUtf8Lossy (bytes.take ((bytes.findIdx? (· == 0)).getD bytes.length)))

/-- The loop over the program headers, `todo` of which are left. -/
def scanHeaders (h : ElfHeader) : (todo i : Nat) → Except Fault (Option String)
  | 0, _ => return none
  | todo + 1, i => do
    let off ← usizeAdd prof h.phoff (i * h.phentsize)
    match ← leFrom prof data off 0 4 with
    | none => return none
    | some ptype =>
      if ptype ≠ 3 then scanHeaders h todo (i + 1)
      else
        match ← fileRange prof data h.is64 off with
        | none => return none
        | some (offset, filesz) => interpreterText prof data offset filesz

def readElfInterpreter : Except Fault (Option String) :=
  match elfHeader data with
  | none => return none
  | some h => do
    if h.phentsize < 8 then return none
    let stop ← usizeAdd prof h.phoff (min (h.phnum * h.phentsize) (2 ^ 64 - 1))
    if stop > data.length then return none
    scanHeaders prof data h h.phnum 0

end

/-! ### What should be read -/

namespace ElfHeader

variable (h : ElfHeader) (data : List UInt8)

def offsetOf (i : Nat) : Nat := h.phoff + i * h.phentsize

def tableEnd : Nat := h.phoff + h.phnum * h.phentsize

def isInterp (i : Nat) : Bool := leAt data (h.offsetOf i) (h.offsetOf i + 4) == some 3

/-- The place of the segment of a program header in the file: its offset and its size. -/
def segmentOf (i : Nat) : Option (Nat × Nat) :=
  let off := h.offsetOf i
  let offset := if h.is64 then leAt data (off + 8) (off + 16) else leAt data (off + 4) (off + 8)
  let filesz := if h.is64 then leAt data (off + 32) (off + 40) else leAt data (off + 16) (off + 20)
  offset.bind fun offset => filesz.map fun filesz => (offset, filesz)

/-- The place of the first segment of type PT_INTERP. -/
def interpSegment : Option (Nat × Nat) :=
  ((List.range h.phnum).find? (h.isInterp data)).bind (h.segmentOf data)

end ElfHeader

/-- The bytes of a place in the file up to the first 0. -/
def textBytes (data : List UInt8) (segment : Nat × Nat) : List UInt8 :=
  ((data.drop segment.1).take segment.2).takeWhile (· != 0)

/-- The file is read without a panic in every build, and what is read from a little-endian file of 64 bits is the
text of its first segment of type PT_INTERP. -/
structure ElfReadSafely (data : List UInt8) : Prop where
  returns : ∀ prof, ∃ r, readElfInterpreter prof data = .ok r
  text : ∀ prof s, readElfInterpreter prof data = .ok (some s) → data[4]? = some 2 → data[5]? = some 1 →
    ∃ h ∈ elfHeader data, ∃ segment ∈ h.interpSegment data, utf8 s = textBytes data segment

/-- The end of the table of program headers is a `usize`, and that of the first segment of type PT_INTERP, if it
is asked for; the text of the latter is UTF-8. -/
def ElfFits (data : List UInt8) : Prop :=
  ∀ h ∈ elfHeader data, 8 ≤ h.phentsize → h.tableEnd < 2 ^ 64 ∧
    (h.tableEnd ≤ data.length → ∀ segment ∈ h.interpSegment data, segment.2 ≠ 0 → segment.1 + segment.2 < 2 ^ 64 ∧
      (segment.1 + segment.2 ≤ data.length → h.is64 = true → data[5]? = some 1 →
        (fromUtf8 (textBytes data segment)).isSome = true))

end Z8s.Cri
