import Z8s.Rust.Json

/-!
# Merging a patch into a value

Model of `json_merge_patch` (`src/api/server.rs`), and what it means that a value contains the changes
of a patch, that two patches touch different keys, and that the objects of a patch meet objects.
-/

namespace Z8s.Api

open Rust Rust.Json

def removeField (k : String) (fields : List (String × Json)) : List (String × Json) :=
  fields.filter (·.1 != k)

mutual

def jsonMergePatch (base : Json) : Json → Json
  | .obj p =>
    match base with
    | .obj b => .obj (mergeFields b p)
    | base => base
  | _ => base

def mergeFields (b : List (String × Json)) : List (String × Json) → List (String × Json)
  | [] => b
  | (k, .null) :: p => mergeFields (removeField k b) p
  | (k, .obj o) :: p =>
    mergeFields (insertField k (jsonMergePatch ((b.lookup k).getD (.obj [])) (.obj o)) b) p
  | (k, v) :: p => mergeFields (insertField k v b) p

end

mutual

/-- The fields `b` are as the fields `p` of a patch say. -/
def holdsFields (b : List (String × Json)) : List (String × Json) → Bool
  | [] => true
  | (k, v) :: p => holdsChange (b.lookup k) v && holdsFields b p

/-- A field is as the value that a patch has for it says. A field that is not there counts as an
empty object. -/
def holdsChange (b : Option Json) : Json → Bool
  | .null => b.isNone
  | .obj p =>
    match b with
    | none => holdsFields [] p
    | some (.obj b) => holdsFields b p
    | some _ => false
  | v => b == some v

end

/-- The value contains the changes of the patch. A patch that is no object changes nothing. -/
def containsChanges (value : Json) : Json → Bool
  | .obj p => holdsChange (some value) (.obj p)
  | _ => true

mutual

def apartFields : List (String × Json) → List (String × Json) → Bool
  | [], _ => true
  | (k, v) :: p, q => (q.all fun e => k != e.1 || apartValues v e.2) && apartFields p q

def apartValues : Json → Json → Bool
  | .obj p, .obj q => apartFields p q
  | _, _ => false

end

mutual

/-- At every depth an object of the patch meets an object or nothing. -/
def meetsObjects (b : List (String × Json)) : List (String × Json) → Bool
  | [] => true
  | (k, v) :: p => meetsObject (b.lookup k) v && meetsObjects b p

def meetsObject (target : Option Json) : Json → Bool
  | .obj p =>
    match target with
    | none => true
    | some (.obj b) => meetsObjects b p
    | some _ => false
  | _ => true

end

def touchApart : Json → Json → Bool
  | .obj p, .obj q => apartFields p q
  | _, _ => true

end Z8s.Api
