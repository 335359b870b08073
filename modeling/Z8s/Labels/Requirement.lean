import Z8s.Rust.Str

/-!
# Label requirements of Kubernetes

The keys and values that labels may have, the requirements a selector can state about one label, the text of each
and when it holds.
-/

namespace Z8s.Labels

open Rust

/-- Characters of `inner` only, with a letter or a digit at both ends. -/
def isName (inner : Char → Bool) (cs : List Char) : Bool :=
  cs.all inner && cs.head?.any Char.isAlphanum && cs.getLast?.any Char.isAlphanum

def isLabelName (s : String) : Bool :=
  s.toList.length ≤ 63 && isName (fun c => c.isAlphanum || c == '-' || c == '_' || c == '.') s.toList

/-- A DNS subdomain: parts of small letters, digits and dashes with dots between them. -/
def isSubdomain (s : String) : Bool :=
  s.toList.length ≤ 253 &&
    (splitChar '.' s).all fun part => isName (fun c => c.isLower || c.isDigit || c == '-') part.toList

/-- The name of a label, which may have a subdomain and a slash before it. -/
def isLabelKey (s : String) : Bool :=
  match splitChar '/' s with
  | [name] => isLabelName name
  | [subdomain, name] => isSubdomain subdomain && isLabelName name
  | _ => false

def isLabelValue (s : String) : Bool := s == "" || isLabelName s

structure LabelKey where
  text : String
  valid : isLabelKey text = true
  deriving DecidableEq

structure LabelValue where
  text : String
  valid : isLabelValue text = true
  deriving DecidableEq

inductive Requirement
  /-- `k=v`, or `k==v` if `double`. -/
  | equals (k : LabelKey) (double : Bool) (v : LabelValue)
  | notEquals (k : LabelKey) (v : LabelValue)
  | present (k : LabelKey)
  | absent (k : LabelKey)
  /-- The values are `v` and `vs`. -/
  | isIn (k : LabelKey) (v : LabelValue) (vs : List LabelValue)
  | notIn (k : LabelKey) (v : LabelValue) (vs : List LabelValue)
  deriving DecidableEq

namespace Requirement

def key : Requirement → LabelKey
  | equals k .. | notEquals k _ | present k | absent k | isIn k .. | notIn k .. => k

def valuesText (v : LabelValue) (vs : List LabelValue) : String := joinChar ',' ((v :: vs).map LabelValue.text)

def text : Requirement → String
  | equals k double v => k.text ++ (if double then "==" else "=") ++ v.text
  | notEquals k v => k.text ++ "!=" ++ v.text
  | present k => k.text
  | absent k => "!" ++ k.text
  | isIn k v vs => k.text ++ " in (" ++ valuesText v vs ++ ")"
  | notIn k v vs => k.text ++ " notin (" ++ valuesText v vs ++ ")"

/-- The requirement holds if its label has this value, or is missing. A label that is missing is not equal to any value
and is in no list of values. -/
def holds : Requirement → Option String → Bool
  | equals _ _ v, label => label == some v.text
  | notEquals _ v, label => label != some v.text
  | present _, label => label.isSome
  | absent _, label => label.isNone
  | isIn _ v vs, label => (v :: vs).any fun w => label == some w.text
  | notIn _ v vs, label => (v :: vs).all fun w => label != some w.text

def isSimple : Requirement → Bool
  | equals .. | present _ => true
  | _ => false

end Requirement

def selectorText (reqs : List Requirement) : String := joinChar ',' (reqs.map Requirement.text)

end Z8s.Labels
