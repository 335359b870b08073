import Z8s.Rust.Json

/-!
# JSON Merge Patch

The objects of JSON as a parser makes them, and the algorithm `MergePatch` of RFC 7396 on them. The
algorithm goes through the members of the patch; `updateFields` is such a pass for any rule that says
what a member of a patch makes of the field of its name.
-/

namespace Z8s.Rust.Json

mutual

/-- The keys of every object increase, at every depth. -/
def wellFormed : Json → Bool
  | arr items => wellFormedItems items
  | obj fields => wellFormedFields fields
  | _ => true

def wellFormedItems : List Json → Bool
  | [] => true
  | v :: items => wellFormed v && wellFormedItems items

def wellFormedFields : List (String × Json) → Bool
  | [] => true
  | (k, v) :: fields => fields.all (fun e => k < e.1) && wellFormed v && wellFormedFields fields

end

structure Value where
  json : Json
  wellFormed : json.wellFormed = true

structure Object where
  fields : List (String × Json)
  wellFormed : wellFormedFields fields = true

def Object.toJson (o : Object) : Json := obj o.fields

def setField (k : String) (v : Option Json) (fields : List (String × Json)) : List (String × Json) :=
  match v with
  | some v => insertField k v fields
  | none => fields.filter (·.1 != k)

/-- The members of `p` in turn; `rule` says what a member makes of the field of its name. -/
def updateFields (rule : Option Json → Json → Option Json) (b p : List (String × Json)) :
    List (String × Json) :=
  p.foldl (fun b e => setField e.1 (rule (b.lookup e.1) e.2) b) b

/-- The members of a target; a target that is no object counts as the empty object. -/
def members : Option Json → List (String × Json)
  | some (obj fields) => fields
  | _ => []

mutual

/-- `MergePatch(Target, Patch)`; the target may be undefined. -/
def mergePatch (target : Option Json) : Json → Json
  | obj p => obj (mergeMembers (members target) p)
  | v => v

/-- The loop of `MergePatch` over the members of the patch. -/
def mergeMembers (b : List (String × Json)) : List (String × Json) → List (String × Json)
  | [] => b
  | (k, null) :: p => mergeMembers (b.filter (·.1 != k)) p
  | (k, v) :: p => mergeMembers (insertField k (mergePatch (b.lookup k) v) b) p

end

end Z8s.Rust.Json
