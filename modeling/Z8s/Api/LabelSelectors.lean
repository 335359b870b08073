import Z8s.Collections.BTreeMap
import Z8s.Labels.Requirement
import Z8s.Url.Percent

/-!
# Label selectors of list requests

Model of `extract_label_selector`, `parse_label_selector`, `urlpath_decode` and `labels_match_selector`
(`src/api/handlers/pod.rs`), and the queries with a selector that clients send.
-/

namespace Z8s.Api

open Rust Collections Url Labels

/-- The byte that the escape of a `%` with the next two bytes stands for. -/
def escapeValue (b hi lo : UInt8) : Option Nat :=
  if b = 0x25 then do
    let hi ← hexValue (Char.ofNat hi.toNat)
    let lo ← hexValue (Char.ofNat lo.toNat)
    some (hi * 16 + lo)
  else none

/-- Bytes that are no escape become characters one by one. -/
def urlpathDecodeBytes : List UInt8 → List Char
  | b :: hi :: lo :: bytes =>
    match escapeValue b hi lo with
    | some n => Char.ofNat n :: urlpathDecodeBytes bytes
    | none => Char.ofNat b.toNat :: urlpathDecodeBytes (hi :: lo :: bytes)
  | bytes => latin1 bytes

def urlpathDecode (s : String) : String := String.ofList (urlpathDecodeBytes (utf8 s))

def parseRequirement (req : String) : String × Option String :=
  let req := urlpathDecode (trim req)
  match splitOnce '=' req with
  | some (k, v) => (trim k, some (trimStartMatches '=' v))
  | none => (req, none)

def parseLabelSelector (raw : String) : List (String × Option String) :=
  if raw = "" then [] else ((splitChar ',' raw).filter (· != "")).map parseRequirement

/-- The selector in a parameter, if the decoded parameter starts as one. -/
def selectorParam (part : String) : Option String := stripPrefix (urlpathDecode part) "labelSelector="

def extractLabelSelector (rawQuery : String) : List (String × Option String) :=
  if rawQuery = "" then []
  else ((((splitChar '&' rawQuery).filter (· != "")).findSome? selectorParam).map parseLabelSelector).getD []

def entryMatches (val label : Option String) : Bool :=
  match val with
  | some v => label == some v
  | none => label.isSome

def labelsMatchSelector (selector : List (String × Option String)) (labels : BTreeMap String String) : Bool :=
  selector.all fun entry => entryMatches entry.2 (labels.get entry.1)

/-! ### Queries that clients send -/

def IsOtherParam (part : String) : Prop :=
  '&' ∉ part.toList ∧ ¬ Encodes false (utf8 "labelSelector") (part.toList.takeWhile (· != '='))

/-- A query whose parameter `labelSelector` is a percent-encoded conjunction of requirements. -/
structure SelectorQuery where
  before : List String
  name : List Char
  reqs : List Requirement
  value : List Char
  after : List String
  before_other : ∀ part ∈ before, IsOtherParam part
  name_encodes : Encodes false (utf8 "labelSelector") name
  value_encodes : Encodes false (utf8 (selectorText reqs)) value
  after_other : ∀ part ∈ after, IsOtherParam part

def satisfies (reqs : List Requirement) (labels : BTreeMap String String) : Bool :=
  reqs.all fun r => r.holds (labels.get r.key.text)

/-- The value of a label, or that it is missing, is as the entries for its key ask. -/
def Admits (selector : List (String × Option String)) (key : String) (label : Option String) : Prop :=
  ∀ entry ∈ selector, entry.1 = key → entryMatches entry.2 label = true

/-- The value of a label, or that it is missing, is as the requirements on its key ask. -/
def Allows (reqs : List Requirement) (key : String) (label : Option String) : Prop :=
  ∀ r ∈ reqs, r.key.text = key → r.holds label = true

/-- Two entries ask for different values of one label. -/
def Clashing (selector : List (String × Option String)) : Prop :=
  ∃ key v v', (key, some v) ∈ selector ∧ (key, some v') ∈ selector ∧ v ≠ v'

/-- The requirements on one label exclude every value, and that it is missing. -/
def Contradictory (reqs : List Requirement) : Prop := ∃ key, ∀ label, ¬ Allows reqs key label

namespace SelectorQuery

def text (q : SelectorQuery) : String :=
  joinChar '&' (q.before ++ String.ofList (q.name ++ '=' :: q.value) :: q.after)

/-- The filter lets through the labels that satisfy the requirements. -/
def Filters (q : SelectorQuery) : Prop :=
  ∀ labels, labelsMatchSelector (extractLabelSelector q.text) labels = true ↔ satisfies q.reqs labels = true

/-- A parameter before that is taken for the selector, since it is decoded before its name is looked at. -/
def taken (q : SelectorQuery) : Option String := q.before.findSome? selectorParam

/-- The entries that are read ask for the same as the requirements, for each label. -/
def Faithful (q : SelectorQuery) : Prop :=
  match q.taken with
  | none => ∀ r ∈ q.reqs, r.isSimple = true
  | some v => ∀ key label, Admits (parseLabelSelector v) key label ↔ Allows q.reqs key label

end SelectorQuery

end Z8s.Api
