import Z8s.Rust.Str

/-!
# Formatted numbers

`format!` of unsigned integers in hexadecimal with a fixed number of digits, and of the four bytes of an
address in decimal.
-/

namespace Z8s.Rust

/-- The last `width` hexadecimal digits of `n`, most significant first. -/
def hexDigits : (width n : Nat) → List Char
  | 0, _ => []
  | width + 1, n => hexDigits width (n / 16) ++ [Nat.digitChar (n % 16)]

/-- `format!("{:0width$x}", n)` for an `n` of at most `width` digits. -/
def hexPadded (width n : Nat) : String := String.ofList (hexDigits width n)

@[simp] theorem length_hexDigits (width n : Nat) : (hexDigits width n).length = width := by
  induction width generalizing n with
  | zero => rfl
  | succ width ih => simp [hexDigits, ih]

theorem digitChar_inj {m n : Nat} (hm : m < 16) (hn : n < 16)
    (h : Nat.digitChar m = Nat.digitChar n) : m = n := by
  have hfin : ∀ a b : Fin 16, Nat.digitChar a = Nat.digitChar b → a = b := by decide
  exact congrArg Fin.val (hfin ⟨m, hm⟩ ⟨n, hn⟩ h)

theorem hexDigits_inj {width m n : Nat} (hm : m < 16 ^ width) (hn : n < 16 ^ width)
    (h : hexDigits width m = hexDigits width n) : m = n := by
  induction width generalizing m n with
  | zero =>
    rw [pow_zero] at hm hn
    omega
  | succ width ih =>
    rw [pow_succ] at hm hn
    obtain ⟨hinit, hlast⟩ := List.append_inj h (by simp)
    have hdigit := digitChar_inj (Nat.mod_lt m (by omega)) (Nat.mod_lt n (by omega))
      (List.singleton_inj.1 hlast)
    have hquot := ih (Nat.div_lt_of_lt_mul (by omega)) (Nat.div_lt_of_lt_mul (by omega)) hinit
    omega

/-! ### Addresses -/

/-- The four bytes in decimal, with dots between them. -/
def dotted (ip : Ipv4Addr) : String :=
  toString (ip.toNat / 2 ^ 24) ++ "." ++ toString (ip.toNat / 2 ^ 16 % 256) ++ "." ++
    toString (ip.toNat / 2 ^ 8 % 256) ++ "." ++ toString (ip.toNat % 256)

theorem toList_toString (n : Nat) : (toString n).toList = Nat.toDigits 10 n := by
  rw [Nat.toString_eq_repr, Nat.toList_repr]

theorem toDigits_inj {m n : Nat} (h : Nat.toDigits 10 m = Nat.toDigits 10 n) : m = n := by
  simpa using congrArg (fun digits => Nat.ofDigitChars 10 digits 0) h

theorem dot_notMem_toDigits (n : Nat) : '.' ∉ Nat.toDigits 10 n := by
  intro h
  have hdigit := Nat.isDigit_of_mem_toDigits (by decide) (by decide) h
  revert hdigit
  decide

theorem append_cons_inj_of_notMem {α : Type} {a : α} {xs ys xs' ys' : List α} (hxs : a ∉ xs)
    (hxs' : a ∉ xs') (h : xs ++ a :: ys = xs' ++ a :: ys') : xs = xs' ∧ ys = ys' := by
  induction xs generalizing xs' with
  | nil =>
    cases xs' with
    | nil => exact ⟨rfl, (List.cons.inj h).2⟩
    | cons x xs' => exact absurd (List.cons.inj h).1 fun heq => hxs' (heq ▸ List.mem_cons_self)
  | cons x xs ih =>
    cases xs' with
    | nil => exact absurd (List.cons.inj h).1 fun heq => hxs (heq ▸ List.mem_cons_self)
    | cons x' xs' =>
      obtain ⟨rfl, hrest⟩ := List.cons.inj h
      rw [List.mem_cons, not_or] at hxs hxs'
      obtain ⟨rfl, hys⟩ := ih hxs.2 hxs'.2 hrest
      exact ⟨rfl, hys⟩

theorem dotted_ne_empty (ip : Ipv4Addr) : dotted ip ≠ "" := by
  intro h
  have hlist := congrArg String.toList h
  simp [dotted] at hlist

theorem dotted_inj {ip ip' : Ipv4Addr} (h : dotted ip = dotted ip') : ip = ip' := by
  have hdot : ".".toList = ['.'] := rfl
  have hlist := congrArg String.toList h
  simp only [dotted, String.toList_append, toList_toString, hdot, List.append_assoc,
    List.singleton_append] at hlist
  obtain ⟨ha, hlist⟩ := append_cons_inj_of_notMem (dot_notMem_toDigits _) (dot_notMem_toDigits _) hlist
  obtain ⟨hb, hlist⟩ := append_cons_inj_of_notMem (dot_notMem_toDigits _) (dot_notMem_toDigits _) hlist
  obtain ⟨hc, hd⟩ := append_cons_inj_of_notMem (dot_notMem_toDigits _) (dot_notMem_toDigits _) hlist
  have ha := toDigits_inj ha
  have hb := toDigits_inj hb
  have hc := toDigits_inj hc
  have hd := toDigits_inj hd
  exact BitVec.eq_of_toNat_eq (by omega)

end Z8s.Rust
