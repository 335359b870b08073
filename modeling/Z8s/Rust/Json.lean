import Mathlib.Algebra.Ring.Int.Defs
import Mathlib.Algebra.Ring.Nat
import Mathlib.Tactic.Common

/-!
# JSON values

`serde_json::Value`. An object is a map with its keys in order (serde_json is built without
`preserve_order`); inserting a key keeps the order and overwrites an earlier value.
-/

namespace Z8s.Rust

inductive Json
  | null
  | bool (b : Bool)
  | num (n : Int)
  /-- A number that is no integer, by the bits of the `f64`. -/
  | float (bits : UInt64)
  | str (s : String)
  | arr (items : List Json)
  | obj (fields : List (String × Json))

namespace Json

mutual

def decEq : (a b : Json) → Decidable (a = b)
  | null, null => isTrue rfl
  | bool a, bool b => decidable_of_iff (a = b) (by simp)
  | num a, num b => decidable_of_iff (a = b) (by simp)
  | float a, float b => decidable_of_iff (a = b) (by simp)
  | str a, str b => decidable_of_iff (a = b) (by simp)
  | arr a, arr b =>
    match decEqList a b with
    | isTrue h => isTrue (by rw [h])
    | isFalse h => isFalse (by simpa using h)
  | obj a, obj b =>
    match decEqObj a b with
    | isTrue h => isTrue (by rw [h])
    | isFalse h => isFalse (by simpa using h)
  | null, bool _ | null, num _ | null, float _
  | null, str _ | null, arr _ | null, obj _ => isFalse nofun
  | bool _, null | bool _, num _ | bool _, float _
  | bool _, str _ | bool _, arr _ | bool _, obj _ => isFalse nofun
  | num _, null | num _, bool _ | num _, float _
  | num _, str _ | num _, arr _ | num _, obj _ => isFalse nofun
  | float _, null | float _, bool _ | float _, num _
  | float _, str _ | float _, arr _ | float _, obj _ => isFalse nofun
  | str _, null | str _, bool _ | str _, num _
  | str _, float _ | str _, arr _ | str _, obj _ => isFalse nofun
  | arr _, null | arr _, bool _ | arr _, num _
  | arr _, float _ | arr _, str _ | arr _, obj _ => isFalse nofun
  | obj _, null | obj _, bool _ | obj _, num _
  | obj _, float _ | obj _, str _ | obj _, arr _ => isFalse nofun

def decEqList : (a b : List Json) → Decidable (a = b)
  | [], [] => isTrue rfl
  | a :: as, b :: bs =>
    match decEq a b, decEqList as bs with
    | isTrue h, isTrue h' => isTrue (by rw [h, h'])
    | isFalse h, _ => isFalse (by simp [h])
    | _, isFalse h => isFalse (by simp [h])
  | [], _ :: _ | _ :: _, [] => isFalse nofun

def decEqObj : (a b : List (String × Json)) → Decidable (a = b)
  | [], [] => isTrue rfl
  | (k, a) :: as, (k', b) :: bs =>
    match decEq a b, decEqObj as bs with
    | isTrue h, isTrue h' => decidable_of_iff (k = k') (by simp [h, h'])
    | isFalse h, _ => isFalse (by simp [h])
    | _, isFalse h => isFalse (by simp [h])
  | [], _ :: _ | _ :: _, [] => isFalse nofun

end

instance : DecidableEq Json := decEq

def insertField (k : String) (v : Json) : List (String × Json) → List (String × Json)
  | [] => [(k, v)]
  | (k', v') :: fields =>
    if k = k' then (k, v) :: fields
    else if k < k' then (k, v) :: (k', v') :: fields
    else (k', v') :: insertField k v fields

def insert (out : Json) (k : String) (v : Json) : Json :=
  match out with
  | obj fields => obj (insertField k v fields)
  | out => out

/-- `json!({ ... })`: the fields inserted one after the other. -/
def ofFields (fields : List (String × Json)) : Json :=
  obj (fields.foldl (fun acc kv => insertField kv.1 kv.2 acc) [])

def record (fields : List (String × Option Json)) : Json :=
  ofFields (fields.filterMap fun (k, v) => v.map (k, ·))

def get (k : String) : Json → Option Json
  | obj fields => fields.lookup k
  | _ => none

def asInt : Json → Option Int
  | num n => some n
  | _ => none

/-- `value.as_i64()`: an integer outside the range of `i64` is none. -/
def asI64 (v : Json) : Option Int := v.asInt.filter fun n => -2 ^ 63 ≤ n ∧ n < 2 ^ 63

end Json

end Z8s.Rust
