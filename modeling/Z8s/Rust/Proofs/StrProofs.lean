import Mathlib.Data.List.TakeWhile
import Z8s.Rust.Fmt

/-!
# Proofs: strings

The functions on `str` through the lists of characters.
-/

namespace Z8s.Rust

open List String

variable {x : Char} {s : String}
variable {a b p : String} {head : List Char} {max n : Nat} {c : Char}

theorem startsWith_iff : startsWith s p = true ↔ p.toList <+: s.toList :=
  isPrefixOf_iff_prefix

theorem startsWith_append (s p : String) : startsWith (s ++ p) s = true := by
  simp [startsWith_iff]

theorem stripPrefix_append (s p : String) : stripPrefix (s ++ p) s = some p := by
  rw [stripPrefix, if_pos (startsWith_append s p), toList_append, drop_left,
    ofList_toList]

/-! ### Splitting and joining -/

section Split

variable {c : Char} {t : String} {parts parts' : List String}

theorem splitChar_ne_nil (c : Char) (s : String) : splitChar c s ≠ [] := by
  simp [splitChar, splitOn_ne_nil]

theorem notMem_of_mem_splitOn {α : Type*} [DecidableEq α] {a : α} {xs p : List α} (h : p ∈ xs.splitOn a) :
    a ∉ p := by
  induction xs generalizing p with
  | nil =>
    rw [splitOn_nil, mem_singleton] at h
    simp [h]
  | cons x xs ih =>
    rw [splitOn_cons_eq_if_modifyHead] at h
    split_ifs at h with hx
    · rcases mem_cons.1 h with rfl | h
      · simp
      · exact ih h
    · -- the first part grows by `x`
      cases hsplit : xs.splitOn a with
      | nil =>
        rw [hsplit] at h
        cases h
      | cons q rest =>
        rw [hsplit] at h ih
        rcases mem_cons.1 h with rfl | h
        · rw [mem_cons, not_or]
          exact ⟨fun ha => hx (beq_iff_eq.2 ha.symm), ih mem_cons_self⟩
        · exact ih (mem_cons_of_mem _ h)

theorem notMem_of_mem_splitChar (h : p ∈ splitChar c s) : c ∉ p.toList := by
  obtain ⟨cs, hcs, rfl⟩ := mem_map.1 h
  rw [toList_ofList]
  exact notMem_of_mem_splitOn hcs

@[simp] theorem joinChar_splitChar (c : Char) (s : String) : joinChar c (splitChar c s) = s := by
  simp [joinChar, splitChar, Function.comp_def, intercalate_splitOn]

theorem splitChar_of_notMem (h : c ∉ s.toList) : splitChar c s = [s] := by
  rw [splitChar, splitOn_eq_singleton h, map_singleton, ofList_toList]

theorem splitChar_append (c : Char) (s t : String) :
    splitChar c (s ++ String.ofList [c] ++ t) = splitChar c s ++ splitChar c t := by
  simp [splitChar, splitOn_append_cons_self]

@[simp] theorem joinChar_singleton (c : Char) (s : String) : joinChar c [s] = s := by
  simp [joinChar]

theorem joinChar_cons (c : Char) (p : String) (hparts : parts ≠ []) :
    joinChar c (p :: parts) = p ++ String.ofList [c] ++ joinChar c parts := by
  unfold joinChar
  rw [List.map_cons, List.intercalate_cons_of_ne_nil (by simpa using hparts)]
  rw [String.ofList_append, String.ofList_append, String.ofList_toList, String.append_assoc]

theorem joinChar_append (hparts : parts ≠ []) (hparts' : parts' ≠ []) :
    joinChar c (parts ++ parts') = joinChar c parts ++ String.ofList [c] ++ joinChar c parts' := by
  induction parts with
  | nil => exact absurd rfl hparts
  | cons p parts ih =>
    cases parts with
    | nil => rw [singleton_append, joinChar_cons c p hparts', joinChar_singleton]
    | cons q parts =>
      rw [cons_append, joinChar_cons c p (by simp), joinChar_cons c p (by simp), ih (by simp)]
      simp only [String.append_assoc]

theorem mem_joinChar (h : x ∈ (joinChar c parts).toList) : x = c ∨ ∃ p ∈ parts, x ∈ p.toList := by
  induction parts with
  | nil => simp [joinChar] at h
  | cons p parts ih =>
    cases parts with
    | nil => exact .inr ⟨p, mem_singleton_self p, by simpa using h⟩
    | cons q parts =>
      rw [joinChar_cons c p (by simp), toList_append, toList_append, toList_ofList] at h
      simp only [mem_append, mem_singleton, or_assoc] at h
      rcases h with hp | hx | hrest
      · exact .inr ⟨p, mem_cons_self, hp⟩
      · exact .inl hx
      · exact (ih hrest).imp_right fun ⟨r, hr, hx⟩ => ⟨r, mem_cons_of_mem p hr, hx⟩

theorem mem_joinChar_of_mem (h : p ∈ parts) (hx : x ∈ p.toList) : x ∈ (joinChar c parts).toList := by
  induction parts with
  | nil => cases h
  | cons q parts ih =>
    by_cases hparts : parts = []
    · rw [hparts, mem_singleton] at h
      rw [hparts, joinChar_singleton, ← h]
      exact hx
    · rw [joinChar_cons c q hparts, toList_append, toList_append]
      rcases mem_cons.1 h with rfl | h
      · simp [hx]
      · simp [ih h]

theorem splitChar_joinChar (hparts : parts ≠ []) :
    splitChar c (joinChar c parts) = parts.flatMap (splitChar c) := by
  induction parts with
  | nil => exact absurd rfl hparts
  | cons p parts ih =>
    cases parts with
    | nil => simp
    | cons q parts =>
      rw [joinChar_cons c p (by simp), splitChar_append, ih (by simp)]
      rfl

theorem splitChar_joinChar_of_notMem (hne : parts ≠ []) (hparts : ∀ p ∈ parts, c ∉ p.toList) :
    splitChar c (joinChar c parts) = parts := by
  rw [splitChar_joinChar hne, flatMap_congr fun p hp => splitChar_of_notMem (hparts p hp), flatMap_singleton']

theorem exists_mem_splitChar (h : x ∈ s.toList) (hx : x ≠ c) : ∃ p ∈ splitChar c s, x ∈ p.toList := by
  rw [← joinChar_splitChar c s] at h
  exact (mem_joinChar h).resolve_left hx

theorem mem_of_mem_splitChar (h : p ∈ splitChar c s) (hx : x ∈ p.toList) : x ∈ s.toList := by
  rw [← joinChar_splitChar c s]
  exact mem_joinChar_of_mem h hx

theorem splitOnce_append (h : c ∉ s.toList) (t : List Char) :
    splitOnce c (String.ofList (s.toList ++ c :: t)) = some (s, String.ofList t) := by
  have hall : ∀ x ∈ s.toList, (x != c) = true := by
    intro x hx
    exact bne_iff_ne.2 fun heq => h (heq ▸ hx)
  rw [splitOnce, toList_ofList, if_pos (by simp), takeWhile_append_of_pos hall,
    dropWhile_append_of_pos hall]
  simp

theorem splitOnce_eq_some (h : splitOnce c s = some (a, b)) :
    s = a ++ String.ofList [c] ++ b ∧ c ∉ a.toList := by
  unfold splitOnce at h
  split_ifs at h with hmem
  cases h
  obtain ⟨rest, hrest⟩ : ∃ rest, s.toList.dropWhile (· != c) = c :: rest := by
    cases hdrop : s.toList.dropWhile (· != c) with
    | nil => exact absurd (dropWhile_eq_nil_iff.1 hdrop c hmem) (by simp)
    | cons x rest =>
      have hx := head?_dropWhile_not (· != c) s.toList
      rw [hdrop] at hx
      exact ⟨rest, by simpa using hx⟩
  constructor
  · refine toList_inj.1 ?_
    conv_lhs => rw [← takeWhile_append_dropWhile (p := (· != c)) (l := s.toList), hrest]
    simp [hrest]
  · rw [toList_ofList]
    intro hc
    simpa using mem_takeWhile_imp hc

theorem splitOnce_eq_none (h : splitOnce c s = none) : splitChar c s = [s] := by
  unfold splitOnce at h
  split_ifs at h with hmem
  exact splitChar_of_notMem hmem

theorem splitn_of_none (h : splitOnce c s = none) (n : Nat) : splitn c (n + 2) s = [s] := by
  rw [splitn, h]

theorem splitn_of_some (h : splitOnce c s = some (a, b)) (n : Nat) :
    splitn c (n + 2) s = a :: splitn c (n + 1) b := by
  rw [splitn, h]

theorem splitChar_of_splitOnce (h : splitOnce c s = some (a, b)) : splitChar c s = a :: splitChar c b := by
  obtain ⟨rfl, ha⟩ := splitOnce_eq_some h
  rw [splitChar_append, splitChar_of_notMem ha, singleton_append]

theorem ne_empty_of_mem_splitWhitespace (h : p ∈ splitWhitespace s) : p ≠ "" := by
  obtain ⟨cs, hcs, rfl⟩ := mem_map.1 h
  intro heq
  have hnil : cs = [] := by simpa using congrArg String.toList heq
  simp [hnil] at hcs

theorem before_eq_some {p s : List Char} (h : before p s = some head) : IsBefore p s head := by
  induction s generalizing head with
  | nil =>
    rw [before] at h
    split_ifs at h with hp
    cases h
    exact ⟨by simp [hp], by simp⟩
  | cons c s ih =>
    rw [before] at h
    split_ifs at h with hp
    · cases h
      exact ⟨List.isPrefixOf_iff_prefix.1 hp, by simp⟩
    · obtain ⟨tail, htail, rfl⟩ := Option.map_eq_some_iff.1 h
      obtain ⟨hpre, hle⟩ := ih htail
      refine ⟨(prefix_cons_inj c).2 hpre, fun head' hhead' => ?_⟩
      cases head' with
      | nil => exact absurd (List.isPrefixOf_iff_prefix.2 hhead') hp
      | cons d head' => exact Nat.succ_le_succ (hle head' (cons_prefix_cons.1 hhead').2)

theorem IsBefore.unique {p s head' : List Char} (h : IsBefore p s head) (h' : IsBefore p s head') :
    head = head' := by
  have hlen : head.length = head'.length := Nat.le_antisymm (h.2 _ h'.1) (h'.2 _ h.1)
  have hpre : head <+: s := (prefix_append _ _).trans h.1
  have hpre' : head' <+: s := (prefix_append _ _).trans h'.1
  exact (prefix_of_prefix_length_le hpre hpre' hlen.le).eq_of_length hlen

theorem before_eq_none_iff {p s : List Char} : before p s = none ↔ ¬ p <:+: s := by
  induction s with
  | nil => simp [before]
  | cons c s ih =>
    rw [before, infix_cons_iff, not_or, ← ih]
    split_ifs with hp
    · simp [List.isPrefixOf_iff_prefix.1 hp]
    · have hpre : ¬ p <+: c :: s := fun h => hp (List.isPrefixOf_iff_prefix.2 h)
      simp [hpre]

theorem isWhitespace_of_visible (h : 0x21 ≤ c.toNat ∧ c.toNat ≤ 0x7E) : isWhitespace c = false := by
  rw [Bool.eq_false_iff]
  intro hws
  simp only [isWhitespace, Bool.or_eq_true, Bool.and_eq_true, decide_eq_true_eq, contains_iff_mem, mem_cons,
    not_mem_nil, or_false] at hws
  omega

theorem isAlphanum_range (h : c.isAlphanum = true) :
    48 ≤ c.toNat ∧ c.toNat ≤ 57 ∨ 65 ≤ c.toNat ∧ c.toNat ≤ 90 ∨ 97 ≤ c.toNat ∧ c.toNat ≤ 122 := by
  have hcases : ((c.isUpper || c.isLower) || c.isDigit) = true := h
  rw [Bool.or_eq_true, Bool.or_eq_true] at hcases
  rcases hcases with (hupper | hlower) | hdigit
  · have hrange : 65 ≤ c.toNat ∧ c.toNat ≤ 90 := of_decide_eq_true hupper
    exact .inr (.inl hrange)
  · obtain ⟨hlo, hhi⟩ := Bool.and_eq_true_iff.1 hlower
    have hrange : 97 ≤ c.toNat ∧ c.toNat ≤ 122 := ⟨of_decide_eq_true hlo, of_decide_eq_true hhi⟩
    exact .inr (.inr hrange)
  · exact .inl (Char.isDigit_iff_toNat.1 hdigit)

theorem mem_trim_of_mem (h : c ∈ s.toList) (hc : isWhitespace c = false) : c ∈ (trim s).toList := by
  have hdrop {cs : List Char} (hmem : c ∈ cs) : c ∈ cs.dropWhile isWhitespace := by
    rw [← takeWhile_append_dropWhile (p := isWhitespace) (l := cs), mem_append] at hmem
    refine hmem.resolve_left fun htake => ?_
    rw [mem_takeWhile_imp htake] at hc
    exact absurd hc (by decide)
  rw [trim, toList_ofList, List.rdropWhile, mem_reverse]
  exact hdrop (mem_reverse.2 (hdrop h))

theorem mem_of_mem_trim (h : c ∈ (trim s).toList) : c ∈ s.toList := by
  rw [trim, toList_ofList, List.rdropWhile, mem_reverse] at h
  exact (dropWhile_sublist _).mem (mem_reverse.1 ((dropWhile_sublist _).mem h))

theorem trim_of_not_whitespace (h : ∀ c ∈ s.toList, isWhitespace c = false) : trim s = s := by
  have hdrop {cs : List Char} (hcs : ∀ c ∈ cs, isWhitespace c = false) : cs.dropWhile isWhitespace = cs := by
    cases cs with
    | nil => rfl
    | cons c cs => exact dropWhile_cons_of_neg (by simp [hcs c mem_cons_self])
  rw [trim, hdrop h, List.rdropWhile, hdrop fun c hc => h c (mem_reverse.1 hc), reverse_reverse,
    ofList_toList]

theorem trim_append_of_whitespace (hc : isWhitespace c = true) (s : String) : trim (s ++ String.ofList [c]) = trim s := by
  rw [trim, trim, toList_append, toList_ofList, dropWhile_append]
  split_ifs with hs
  · rw [isEmpty_iff.1 hs, dropWhile_cons_of_pos hc]
    rfl
  · rw [rdropWhile_concat_pos _ _ _ hc]

/-- A carriage return at the end of a line goes with the rest of the white space. -/
theorem trim_stripSuffix (line : String) : trim ((stripSuffix line "\r").getD line) = trim line := by
  rw [stripSuffix]
  split_ifs with hsuffix
  · obtain ⟨t, ht⟩ := isSuffixOf_iff_suffix.1 hsuffix
    have hline : line = String.ofList t ++ String.ofList ['\r'] := by
      rw [← ofList_append, ← ofList_toList (s := line), ← ht]
      rfl
    have htake : line.toList.take (line.toList.length - "\r".toList.length) = t := by
      rw [← ht, List.length_append, Nat.add_sub_cancel, List.take_left]
    rw [htake, hline]
    exact (trim_append_of_whitespace (by decide) _).symm
  · rfl

theorem trimStartMatches_of_notMem (h : c ∉ s.toList) : trimStartMatches c s = s := by
  rw [trimStartMatches]
  cases hs : s.toList with
  | nil =>
    rw [← ofList_toList (s := s), hs]
    rfl
  | cons d cs =>
    have hd : d ≠ c := fun heq => h (by simp [hs, heq])
    rw [dropWhile_cons_of_neg (by simpa using hd), ← hs, ofList_toList]

theorem trimEndMatches_append_replicate (h : s.toList.getLast? ≠ some c) (k : Nat) :
    trimEndMatches c (s ++ String.ofList (List.replicate k c)) = s := by
  unfold trimEndMatches
  induction k with
  | zero =>
    have hself : s.toList.rdropWhile (· == c) = s.toList := by
      rw [rdropWhile_eq_self_iff]
      intro hne hlast
      rw [getLast?_eq_some_getLast hne, beq_iff_eq.1 hlast] at h
      exact h rfl
    simp [hself]
  | succ k ih =>
    rw [List.replicate_succ', String.ofList_append, ← String.append_assoc, String.toList_append,
      toList_ofList, rdropWhile_concat_pos (· == c) _ _ (beq_self_eq_true c)]
    exact ih

theorem exists_trimEndMatches (c : Char) (s : String) :
    ∃ k, s = trimEndMatches c s ++ String.ofList (List.replicate k c) := by
  refine ⟨(s.toList.rtakeWhile (· == c)).length, ?_⟩
  have hall : ∀ x ∈ s.toList.rtakeWhile (· == c), x = c := by
    intro x hx
    simpa using mem_rtakeWhile_imp hx
  rw [trimEndMatches, ← eq_replicate_of_mem hall, ← ofList_append, rdropWhile_append_rtakeWhile,
    ofList_toList]

end Split

/-! ### Replacing -/

theorem replaceChar_append (c d : Char) (s t : String) :
    replaceChar c d (s ++ t) = replaceChar c d s ++ replaceChar c d t := by
  simp [replaceChar]

theorem notMem_replaceChar {d : Char} (h : c ≠ d) (s : String) : c ∉ (replaceChar c d s).toList := by
  rw [replaceChar, toList_ofList, mem_map]
  rintro ⟨x, -, hx⟩
  split at hx
  · exact h hx.symm
  · rename_i hne
    exact hne (by simp [hx])

theorem replaceChar_of_notMem (d : Char) (h : c ∉ s.toList) : replaceChar c d s = s := by
  have hsame : s.toList.map (fun x => if x = c then d else x) = s.toList.map id := by
    refine map_congr_left fun x hx => if_neg ?_
    rintro rfl
    exact h hx
  rw [replaceChar, hsame, List.map_id, String.ofList_toList]

/-! ### Numbers and addresses -/

theorem mapM_eq_some_iff {α β : Type} {f : α → Option β} {l : List α} {r : List β} :
    l.mapM f = some r ↔ l.map f = r.map some := by
  induction l generalizing r with
  | nil => cases r <;> simp
  | cons a l ih =>
    rw [mapM_cons, map_cons]
    cases ha : f a with
    | none => cases r <;> simp
    | some b =>
      cases r with
      | nil => simp [Option.bind_eq_some_iff]
      | cons b' r => simp [← ih, Option.bind_eq_some_iff, and_comm]

theorem filterMap_of_map_eq {α β : Type} {f : α → Option β} {l : List α} {r : List β} (h : l.map f = r.map some) :
    l.filterMap f = r := by
  rw [← Function.id_comp f, ← filterMap_map, h]
  simp

theorem Ipv4Addr.parse_eq_some_iff {ip : Ipv4Addr} : Ipv4Addr.parse s = some ip ↔
    ∃ a b c d, ((splitChar '.' s).map fun octet => parseOctet octet.toList) = [a, b, c, d].map some ∧
      Ipv4Addr.new a b c d = ip := by
  unfold Ipv4Addr.parse splitChar
  rw [List.map_map]
  rcases s.toList.splitOn '.' with _ | ⟨a, _ | ⟨b, _ | ⟨c, _ | ⟨d, _ | ⟨e, rest⟩⟩⟩⟩⟩
  all_goals simp [Option.bind_eq_some_iff, and_assoc]

theorem parseUnsigned_eq (max : Nat) (s : String) : ∃ ds,
    (s.toList = '+' :: ds ∨ s.toList = ds ∧ ds.head? ≠ some '+') ∧
      parseUnsigned max s =
        if ds ≠ [] ∧ ds.all Char.isDigit ∧ digitsValue ds ≤ max then some (digitsValue ds) else none := by
  unfold parseUnsigned
  cases s.toList with
  | nil => exact ⟨[], .inr ⟨rfl, by simp⟩, rfl⟩
  | cons c cs =>
    by_cases hc : c = '+'
    · subst hc
      exact ⟨cs, .inl rfl, rfl⟩
    · refine ⟨c :: cs, .inr ⟨rfl, by simpa using hc⟩, ?_⟩
      dsimp only
      split
      · rename_i heq
        exact absurd (List.cons.inj heq).1 hc
      · rfl

section

variable (h : parseUnsigned max s = some n)
include h

theorem mem_of_parseUnsigned (hx : x ∈ s.toList) : x = '+' ∨ x.isDigit = true := by
  obtain ⟨ds, hs, heq⟩ := parseUnsigned_eq max s
  rw [heq] at h
  have hdigits : ds.all Char.isDigit = true := by
    split_ifs at h with hds
    exact hds.2.1
  rcases hs with hs | ⟨hs, -⟩
  · rw [hs, mem_cons] at hx
    exact hx.imp_right (all_eq_true.1 hdigits x)
  · rw [hs] at hx
    exact .inr (all_eq_true.1 hdigits x hx)
theorem le_of_parseUnsigned : n ≤ max := by
  simp only [parseUnsigned] at h
  split_ifs at h with hds
  cases h
  exact hds.2.2

theorem parseUnsigned_mono {max' : Nat} (hmax : max ≤ max') : parseUnsigned max' s = some n := by
  simp only [parseUnsigned] at h ⊢
  split_ifs at h with hds
  rw [if_pos ⟨hds.1, hds.2.1, hds.2.2.trans hmax⟩]
  exact h

end

theorem le_foldl_digits (n : Nat) (ds : List Char) :
    n * 10 ^ ds.length ≤ ds.foldl (fun n d => n * 10 + (d.toNat - '0'.toNat)) n := by
  induction ds generalizing n with
  | nil => simp
  | cons d ds ih =>
    rw [foldl_cons, length_cons, pow_succ']
    calc n * (10 * 10 ^ ds.length) = n * 10 * 10 ^ ds.length := (Nat.mul_assoc _ _ _).symm
      _ ≤ (n * 10 + (d.toNat - '0'.toNat)) * 10 ^ ds.length := Nat.mul_le_mul_right _ (Nat.le_add_right _ _)
      _ ≤ _ := ih _

theorem parseOctet_toDigits (h : n < 256) : parseOctet (Nat.toDigits 10 n) = some n := by
  have hall : ∀ n : Fin 256, parseOctet (Nat.toDigits 10 n) = some n.val := by decide +kernel
  exact hall ⟨n, h⟩

theorem Ipv4Addr.parse_dotted (ip : Ipv4Addr) : Ipv4Addr.parse (dotted ip) = some ip := by
  have hlt := ip.isLt
  have hpart (n : Nat) : splitChar '.' (toString n) = [toString n] :=
    splitChar_of_notMem (by rw [toList_toString]; exact dot_notMem_toDigits n)
  have hdot : "." = String.ofList ['.'] := rfl
  refine parse_eq_some_iff.2 ⟨ip.toNat / 2 ^ 24, ip.toNat / 2 ^ 16 % 256, ip.toNat / 2 ^ 8 % 256,
    ip.toNat % 256, ?_, ?_⟩
  · rw [dotted, hdot, splitChar_append, splitChar_append, splitChar_append, hpart, hpart, hpart, hpart]
    simp only [cons_append, nil_append, map_cons, map_nil, toList_toString]
    rw [parseOctet_toDigits, parseOctet_toDigits, parseOctet_toDigits, parseOctet_toDigits] <;> omega
  · refine BitVec.eq_of_toNat_eq ?_
    rw [Ipv4Addr.new, BitVec.toNat_ofNat]
    omega

end Z8s.Rust
