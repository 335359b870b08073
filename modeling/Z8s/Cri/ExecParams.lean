import Z8s.Collections.HashMap
import Z8s.Rust.Str
import Z8s.Url.Percent

/-!
# Parameters of an exec request

Model of `ExecParams::from_request_parts`, `parse_query_params` and `url_decode` (`src/cri/exec.rs`), and the queries
that a client builds from a command.
-/

namespace Z8s.Cri

open Rust Collections Url

def digitOrZero (c : Char) : Nat := (hexValue c).getD 0

/-- The two characters after a `%` are read whatever they are, and missing ones count as 0. -/
def urlDecodeChars : List Char → List Char
  | [] => []
  | '+' :: cs => ' ' :: urlDecodeChars cs
  | ['%'] => [Char.ofNat 0]
  | ['%', hi] => [Char.ofNat (digitOrZero hi * 16)]
  | '%' :: hi :: lo :: cs => Char.ofNat (digitOrZero hi * 16 + digitOrZero lo) :: urlDecodeChars cs
  | c :: cs => c :: urlDecodeChars cs

def urlDecode (s : String) : String := String.ofList (urlDecodeChars s.toList)

def pushValue (map : HashMap String (List String)) (kv : String × String) : HashMap String (List String) :=
  map.insert kv.1 ((map.get kv.1).getD [] ++ [kv.2])

def parsePair (pair : String) : String × String :=
  match splitOnce '=' pair with
  | some (key, value) => (urlDecode key, urlDecode value)
  | none => (urlDecode pair, urlDecode "")

def parseQueryParams (query : String) : HashMap String (List String) :=
  (((splitChar '&' query).filter (· != "")).map parsePair).foldl pushValue ∅

structure ExecParams where
  command : List String
  container : Option String
  tty : Bool
  stdin : Bool
  stdout : Bool
  stderr : Bool
  deriving DecidableEq, Repr

def parseBool (params : HashMap String (List String)) (key : String) (default : Bool) : Bool :=
  (((params.get key).bind List.head?).map (· == "true")).getD default

/-- `ExecParams::from_request_parts`, on the query of the request if it has one. -/
def ExecParams.fromRequestParts (query : Option String) : ExecParams :=
  let params := parseQueryParams (query.getD "")
  { command := ((params.get "command").or (params.get "command[]")).getD []
    container := (params.get "container").bind List.head?
    tty := parseBool params "tty" false
    stdin := parseBool params "stdin" false
    stdout := parseBool params "stdout" true
    stderr := parseBool params "stderr" true }

/-! ### Queries that clients build -/

inductive ExecArg
  | command (value : String)
  | container (value : String)
  deriving DecidableEq, Repr

namespace ExecArg

def name : ExecArg → String
  | command _ => "command"
  | container _ => "container"

def value : ExecArg → String
  | command value | container value => value

/-- `raw` is a way to write the parameter: its name, and its value as an encoded form. -/
def Written (arg : ExecArg) (raw : String) : Prop :=
  ∃ text, Encodes true (utf8 arg.value) text ∧ raw = String.ofList (arg.name.toList ++ '=' :: text)

end ExecArg

/-- A query with one parameter for every word of the command and for the container, in any order of the two. -/
structure ExecQuery where
  args : List ExecArg
  raws : List String
  written : List.Forall₂ ExecArg.Written args raws

namespace ExecQuery

def text (q : ExecQuery) : String := joinChar '&' q.raws

def values (q : ExecQuery) (name : String) : List String :=
  (q.args.filter (·.name == name)).map ExecArg.value

/-- The query is read as it was meant: the same words of the command in the same order, and the same container. -/
def ReadBack (q : ExecQuery) : Prop :=
  ((parseQueryParams q.text).get "command").getD [] = q.values "command" ∧
    ((parseQueryParams q.text).get "container").getD [] = q.values "container"

end ExecQuery

end Z8s.Cri
