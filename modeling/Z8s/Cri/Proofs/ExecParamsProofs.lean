import Z8s.Collections.Proofs.HashMapProofs
import Z8s.Cri.ExecParams
import Z8s.Rust.Proofs.StrProofs
import Z8s.Url.Proofs.PercentProofs

/-!
# Reading exec requests

An escape is read as one character with the number of its byte.
-/

namespace Z8s.Cri

open Rust Collections Url

variable {form : Bool}
variable {args : List ExecArg} {raws : List String}

/-! ### Decoding -/

theorem urlDecodeChars_plain {c : Char} (h : isPlain c = true) (cs : List Char) :
    urlDecodeChars (c :: cs) = c :: urlDecodeChars cs := by
  obtain ⟨-, -, hpercent, -, hplus, -⟩ := isPlain_iff.1 h
  rw [urlDecodeChars] <;> simp_all

theorem urlDecodeChars_of_encodesByte {b : UInt8} {raw : List Char} (h : EncodesByte form b raw) (rest : List Char) :
    urlDecodeChars (raw ++ rest) = Char.ofNat b.toNat :: urlDecodeChars rest := by
  cases h with
  | plain hplain =>
    rw [List.singleton_append, urlDecodeChars_plain hplain, ofNat_byte (isPlain_ascii hplain)]
  | escape hhi hlo =>
    simp only [List.cons_append, List.nil_append, urlDecodeChars, digitOrZero, hhi, hlo, Option.getD_some,
      Nat.div_add_mod']
  | space _ => rfl

theorem urlDecodeChars_of_encodes {bytes : List UInt8} {raw : List Char} (h : Encodes form bytes raw) :
    urlDecodeChars raw = latin1 bytes := by
  induction h with
  | nil => rfl
  | cons hfirst _ ih => rw [urlDecodeChars_of_encodesByte hfirst, ih, latin1, latin1, List.map_cons]

/-! ### The parameters of a query -/

theorem getD_get_pushValue (map : HashMap String (List String)) (kv : String × String) (key : String) :
    ((pushValue map kv).get key).getD [] =
      (map.get key).getD [] ++ if kv.1 = key then [kv.2] else [] := by
  rw [pushValue, HashMap.get_insert]
  by_cases hkey : kv.1 = key
  · simp [hkey]
  · simp [hkey, Ne.symm hkey]

theorem getD_get_foldl_pushValue (map : HashMap String (List String)) (kvs : List (String × String)) (key : String) :
    ((kvs.foldl pushValue map).get key).getD [] =
      (map.get key).getD [] ++ (kvs.filter (·.1 == key)).map Prod.snd := by
  induction kvs generalizing map with
  | nil => simp
  | cons kv kvs ih =>
    rw [List.foldl_cons, ih, getD_get_pushValue, List.append_assoc, List.filter_cons]
    by_cases hkey : kv.1 = key
    · simp [hkey]
    · simp [hkey]

namespace ExecArg

variable {arg : ExecArg} {raw : String}

/-- The value as it is read: the bytes of its UTF-8 form as characters. -/
def asRead (arg : ExecArg) : String := String.ofList (latin1 (utf8 arg.value))

theorem asRead_eq_iff : arg.asRead = arg.value ↔ isAscii arg.value = true := by
  rw [← latin1_utf8_eq_iff, asRead, ← String.toList_inj, String.toList_ofList]

theorem name_plain (arg : ExecArg) : '=' ∉ arg.name.toList ∧ '&' ∉ arg.name.toList ∧ urlDecode arg.name = arg.name := by
  cases arg with
  | command _ => exact (by decide : '=' ∉ "command".toList ∧ '&' ∉ "command".toList ∧ urlDecode "command" = "command")
  | container _ =>
    exact (by decide : '=' ∉ "container".toList ∧ '&' ∉ "container".toList ∧ urlDecode "container" = "container")

theorem Written.ne_empty (h : arg.Written raw) : raw ≠ "" := by
  obtain ⟨text, -, rfl⟩ := h
  intro heq
  simpa using congrArg String.toList heq

theorem Written.amp_notMem (h : arg.Written raw) : '&' ∉ raw.toList := by
  obtain ⟨text, htext, rfl⟩ := h
  simp [arg.name_plain.2.1, htext.amp_notMem]

theorem Written.parsePair (h : arg.Written raw) : parsePair raw = (arg.name, arg.asRead) := by
  obtain ⟨text, htext, rfl⟩ := h
  simp only [Cri.parsePair, splitOnce_append arg.name_plain.1, arg.name_plain.2.2]
  rw [urlDecode, String.toList_ofList, urlDecodeChars_of_encodes htext, asRead]

theorem written_of_mem (h : List.Forall₂ Written args raws) (hraw : raw ∈ raws) :
    ∃ arg : ExecArg, arg.Written raw := by
  induction h with
  | nil => cases hraw
  | cons hwritten _ ih =>
    rcases List.mem_cons.1 hraw with rfl | hraw
    · exact ⟨_, hwritten⟩
    · exact ih hraw

theorem map_parsePair (h : List.Forall₂ Written args raws) :
    raws.map Cri.parsePair = args.map fun arg => (arg.name, arg.asRead) := by
  induction h with
  | nil => rfl
  | cons hwritten _ ih => rw [List.map_cons, List.map_cons, hwritten.parsePair, ih]

end ExecArg

namespace ExecQuery

variable (q : ExecQuery)

/-- Written parameters are not empty and have no separator, so the parts of the query are the parameters. -/
theorem parts_text : (splitChar '&' q.text).filter (· != "") = q.raws := by
  have hne : ∀ raw ∈ q.raws, (raw != "") = true := by
    intro raw hraw
    obtain ⟨arg, hwritten⟩ := ExecArg.written_of_mem q.written hraw
    exact bne_iff_ne.2 hwritten.ne_empty
  have hamp : ∀ raw ∈ q.raws, '&' ∉ raw.toList := by
    intro raw hraw
    obtain ⟨arg, hwritten⟩ := ExecArg.written_of_mem q.written hraw
    exact hwritten.amp_notMem
  by_cases hnil : q.raws = []
  · rw [text, hnil]
    rfl
  · rw [text, splitChar_joinChar_of_notMem hnil hamp, List.filter_eq_self.2 hne]

theorem getD_get_text (name : String) : ((parseQueryParams q.text).get name).getD [] =
    (q.args.filter (·.name == name)).map ExecArg.asRead := by
  rw [parseQueryParams, parts_text, ExecArg.map_parsePair q.written, getD_get_foldl_pushValue]
  simp [List.filter_map, Function.comp_def]

theorem values_eq_iff (name : String) : ((parseQueryParams q.text).get name).getD [] = q.values name ↔
    ∀ arg ∈ q.args, arg.name = name → isAscii arg.value = true := by
  rw [getD_get_text, values, List.map_inj_left]
  simp only [List.mem_filter, beq_iff_eq, and_imp, ExecArg.asRead_eq_iff]

/-- Exactly the arguments with ASCII characters only survive. -/
theorem readBack_iff : q.ReadBack ↔ ∀ arg ∈ q.args, isAscii arg.value = true := by
  rw [ReadBack, values_eq_iff, values_eq_iff]
  constructor
  · rintro ⟨hcommand, hcontainer⟩ arg harg
    cases arg with
    | command value => exact hcommand _ harg rfl
    | container value => exact hcontainer _ harg rfl
  · intro h
    exact ⟨fun arg harg _ => h arg harg, fun arg harg _ => h arg harg⟩

/-- A command with an accented letter, which is two bytes in UTF-8. -/
def accented : ExecQuery where
  args := [.command "é", .container "web"]
  raws := ["command=%C3%A9", "container=web"]
  written := by
    refine .cons ⟨['%', 'C', '3', '%', 'A', '9'], ?_, by decide⟩ (.cons ⟨"web".toList, ?_, by decide⟩ .nil)
    · exact .cons (b := 0xC3) (.escape (by decide) (by decide))
        (.cons (b := 0xA9) (.escape (by decide) (by decide)) .nil)
    · exact encodes_self (by decide)

theorem accented_word_read_as_bytes : accented.text = "command=%C3%A9&container=web" ∧ ¬ accented.ReadBack ∧
    (ExecParams.fromRequestParts (some accented.text)).command = ["Ã©"] := by
  refine ⟨by decide, ?_, by decide⟩
  rw [ReadBack]
  decide

end ExecQuery

end Z8s.Cri
