import Z8s.Files.Lexical
import Z8s.Rust.Proofs.Utf8Proofs

/-!
# Proofs: paths without a file system

A relative path leads up some directories and then down some names, from wherever it starts.
-/

namespace Z8s.Files.Path

open Rust List

variable {dir p q : Path} {absolute : Bool} {stack : List Name}
variable {names : List Name} {s : String} {name : Name}

/-! ### Paths as text -/

theorem comps_ofBytes_append (x y : List UInt8) :
    (ofBytes (x ++ 47 :: y)).comps = (ofBytes x).comps ++ (ofBytes y).comps := by
  simp only [ofBytes, splitOn_append_cons_self, filter_append]

theorem ofBytes_append {x : List UInt8} (hx : x ≠ []) (y : List UInt8) :
    ofBytes (x ++ 47 :: y) = ⟨(ofBytes x).absolute, (ofBytes x).comps ++ (ofBytes y).comps⟩ := by
  rw [← comps_ofBytes_append]
  simp [ofBytes, head?_append_of_ne_nil _ hx]

theorem comps_ofBytes_slash (x : List UInt8) : (ofBytes (x ++ [47])).comps = (ofBytes x).comps := by
  rw [comps_ofBytes_append]
  simp [ofBytes]

theorem comps_ofBytes_slashes (x : List UInt8) (k : Nat) :
    (ofBytes (x ++ List.replicate k 47)).comps = (ofBytes x).comps := by
  induction k with
  | zero => rw [replicate_zero, append_nil]
  | succ k ih => rw [replicate_succ', ← append_assoc, comps_ofBytes_slash, ih]

/-- The slashes at the end of a path are no part of it, unless it has nothing else. -/
theorem ofStr_trimEndMatches (h : s ≠ "") : ofStr s =
    ⟨(utf8 (trimEndMatches '/' s)).head?.all (· == 47), (ofStr (trimEndMatches '/' s)).comps⟩ := by
  obtain ⟨k, hk⟩ := exists_trimEndMatches '/' s
  generalize trimEndMatches '/' s = t at hk ⊢
  have hslashes : utf8 (String.ofList (List.replicate k '/')) = List.replicate k 47 := by
    rw [utf8_of_ascii (by simp), String.toList_ofList, map_replicate]
    rfl
  have hbytes : utf8 s = utf8 t ++ List.replicate k 47 := by rw [hk, utf8_append, hslashes]
  have habs : ((utf8 t ++ List.replicate k 47).head? == some 47) = (utf8 t).head?.all (· == 47) := by
    cases hhead : utf8 t with
    | cons b bytes => simp
    | nil =>
      -- only slashes are left, and at least one
      cases k with
      | zero =>
        have hs : s = "" := utf8_injective (by rw [hbytes, hhead]; rfl)
        exact absurd hs h
      | succ k => rfl
  rw [ofStr, hbytes, ofStr, ← comps_ofBytes_slashes (utf8 t) k, ← habs]
  rfl

theorem comps_ofStr_append (s t : String) : (ofStr (s ++ "/" ++ t)).comps = (ofStr s).comps ++ (ofStr t).comps := by
  rw [ofStr, utf8_append, utf8_append, append_assoc]
  exact comps_ofBytes_append _ _

theorem ofStr_append_slash (hs : utf8 s ≠ []) (t : String) :
    ofStr (s ++ "/" ++ t) = ⟨(ofStr s).absolute, (ofStr s).comps ++ (ofStr t).comps⟩ := by
  rw [ofStr, utf8_append, utf8_append, append_assoc]
  exact ofBytes_append hs _

theorem comps_ofStr (hslash : '/' ∉ s.toList) (hs : isProper (utf8 s) = true) :
    (ofStr s).comps = [utf8 s] := by
  have hbyte : 47 ∉ utf8 s := fun h => hslash ((ascii_mem_utf8_iff (c := '/') (by decide)).1 h)
  simp only [isProper, Bool.and_eq_true, bne_iff_ne] at hs
  rw [ofStr, ofBytes, splitOn_eq_singleton hbyte]
  simp [hs.1.1, hs.1.2]

theorem exists_comps_append (hslash : '/' ∉ s.toList) (hs : ∀ v : String, isProper (utf8 (s ++ v)) = true)
    (t : String) : ∃ v more, (ofStr (s ++ t)).comps = utf8 (s ++ v) :: more := by
  have hone : ∀ v : String, '/' ∉ v.toList → (ofStr (s ++ v)).comps = [utf8 (s ++ v)] := fun v hv =>
    comps_ofStr (by simp [hslash, hv]) (hs v)
  by_cases ht : '/' ∈ t.toList
  · obtain ⟨front, back, hsplit, hfront⟩ := eq_append_cons_of_mem ht
    have ht : s ++ t = s ++ String.ofList front ++ "/" ++ String.ofList back := by
      apply String.toList_injective
      simp [hsplit]
    have hne : utf8 (s ++ String.ofList front) ≠ [] := fun h => by
      have hproper := hs (String.ofList front)
      rw [h] at hproper
      cases hproper
    refine ⟨String.ofList front, (ofStr (String.ofList back)).comps, ?_⟩
    rw [ht, ofStr_append_slash hne, hone _ (by simpa using hfront)]
    rfl
  · exact ⟨t, [], hone t ht⟩

@[simp] theorem ofStr_joinStr (s t : String) : ofStr (joinStr s t) = (ofStr s).join (ofStr t) := by
  unfold joinStr
  by_cases habs : (utf8 t).head? = some 47
  · simp [join, ofStr, ofBytes, habs]
  have hrel : (ofStr t).absolute = false := by simpa [ofStr, ofBytes] using habs
  rw [if_neg habs, join, hrel, if_neg Bool.false_ne_true]
  split_ifs with hsep
  · cases hlast : (utf8 s).getLast? with
    | none =>
      have hs := getLast?_eq_none_iff.1 hlast
      rw [ofStr, utf8_append, ofStr, hs, nil_append]
      simp [ofBytes, ofStr] at hrel ⊢
      exact hrel
    | some c =>
      obtain ⟨x, hx⟩ := getLast?_eq_some_iff.1 hlast
      obtain rfl : c = 47 := by simpa [hlast] using hsep
      rw [ofStr, utf8_append, ofStr, hx, comps_ofBytes_slash, append_assoc]
      refine congrArg₂ Path.mk ?_ (comps_ofBytes_append x (utf8 t))
      cases x <;> rfl
  · have hne : utf8 s ≠ [] := by
      rintro hs
      simp [hs] at hsep
    exact ofStr_append_slash hne t

/-! ### Up and down -/

@[simp] theorem push_dotdot : push absolute stack dotdot = climb absolute stack := if_pos rfl

theorem push_of_ne {comp : Name} (h : comp ≠ dotdot) : push absolute stack comp = stack ++ [comp] := if_neg h

theorem climb_append (hne : names ≠ []) (h : dotdot ∉ names) :
    climb absolute (stack ++ names) = stack ++ names.dropLast := by
  unfold climb
  rw [getLast?_append_of_ne_nil _ hne, if_neg, dropLast_append_of_ne_nil hne]
  rw [not_or]
  refine ⟨by simp [hne], fun hlast => h ?_⟩
  exact mem_of_getLast? hlast

theorem exists_walk (comps : List Name) : ∃ (k : Nat) (names : List Name), dotdot ∉ names ∧
    ∀ absolute stack, comps.foldl (push absolute) stack = (climb absolute)^[k] stack ++ names := by
  induction comps using List.reverseRecOn with
  | nil => exact ⟨0, [], by simp, by simp⟩
  | append_singleton comps comp ih =>
    obtain ⟨k, names, hnames, hwalk⟩ := ih
    by_cases hcomp : comp = dotdot
    · subst hcomp
      by_cases hnil : names = []
      · refine ⟨k + 1, [], by simp, fun absolute stack => ?_⟩
        rw [foldl_append, hwalk, hnil, append_nil, append_nil, Function.iterate_succ_apply']
        exact push_dotdot
      · refine ⟨k, names.dropLast, fun h => hnames (dropLast_subset _ h), fun absolute stack => ?_⟩
        rw [foldl_append, hwalk]
        exact push_dotdot.trans (climb_append hnil hnames)
    · refine ⟨k, names ++ [comp], by simp [hnames, Ne.symm hcomp], fun absolute stack => ?_⟩
      rw [foldl_append, hwalk, ← append_assoc]
      exact push_of_ne hcomp

theorem iterate_climb (absolute : Bool) (stack : List Name) (h : dotdot ∉ names) {k : Nat}
    (hk : k ≤ names.length) :
    (climb absolute)^[k] (stack ++ names) = stack ++ names.take (names.length - k) := by
  induction k with
  | zero => simp
  | succ k ih =>
    have hleft : (names.take (names.length - k)).length = names.length - k :=
      length_take_of_le (Nat.sub_le _ _)
    rw [Function.iterate_succ_apply', ih (by omega), climb_append, dropLast_eq_take, hleft, take_take]
    · congr 2
      omega
    · exact ne_nil_of_length_pos (by omega)
    · exact fun hmem => h (mem_of_mem_take hmem)

theorem iterate_climb_replicate (j k : Nat) :
    (climb false)^[k] (List.replicate j dotdot) = List.replicate (j + k) dotdot := by
  induction k with
  | zero => rfl
  | succ k ih =>
    rw [Function.iterate_succ_apply', ih, climb, if_pos, ← Nat.add_assoc, replicate_succ']
    · rfl
    · rw [replicate_eq_nil_iff, getLast?_replicate]
      by_cases h : j + k = 0
      · exact .inl h
      · exact .inr (if_neg h)

theorem iterate_climb_root (k : Nat) : (climb true)^[k] [] = [] := by
  induction k with
  | zero => rfl
  | succ k ih =>
    rw [Function.iterate_succ_apply', ih]
    rfl

theorem dotdot_notMem_normal (h : p.absolute = true) : dotdot ∉ p.normal := by
  obtain ⟨k, names, hnames, hwalk⟩ := exists_walk p.comps
  rw [normal, h, hwalk, iterate_climb_root]
  exact hnames

theorem relative_walk (h : p.absolute = false) : dotdot ∉ p.names ∧
    ∀ absolute stack, p.comps.foldl (push absolute) stack = (climb absolute)^[p.climbs] stack ++ p.names := by
  obtain ⟨k, names, hnames, hwalk⟩ := exists_walk p.comps
  have hnormal : p.normal = List.replicate k dotdot ++ names := by
    rw [normal, h, hwalk, show ([] : List Name) = List.replicate 0 dotdot from rfl, iterate_climb_replicate,
      Nat.zero_add]
  have hhead : names.takeWhile (· == dotdot) = [] ∧ names.dropWhile (· == dotdot) = names := by
    cases names with
    | nil => exact ⟨rfl, rfl⟩
    | cons name names =>
      have hne : (name == dotdot) = false := beq_eq_false_iff_ne.2 fun h => hnames (h ▸ mem_cons_self)
      simp [hne]
  have hclimbs : p.climbs = k := by
    rw [climbs, hnormal, takeWhile_append_of_pos (by simp), hhead.1]
    simp
  have hnames' : p.names = names := by
    rw [Path.names, hnormal, dropWhile_append_of_pos (by simp), hhead.2]
  rw [hclimbs, hnames']
  exact ⟨hnames, hwalk⟩

theorem normal_eq (h : p.absolute = false) : p.normal = List.replicate p.climbs dotdot ++ p.names := by
  have hwalk := (relative_walk h).2 false []
  rw [show ([] : List Name) = List.replicate 0 dotdot from rfl, iterate_climb_replicate, Nat.zero_add] at hwalk
  rw [normal, h]
  exact hwalk

theorem normal_join (h : p.absolute = false) :
    (dir.join p).normal = (climb dir.absolute)^[p.climbs] dir.normal ++ p.names := by
  rw [join, h, if_neg Bool.false_ne_true, normal, foldl_append]
  exact (relative_walk h).2 _ _

/-! ### Staying in a directory -/

theorem under_refl (dir : Path) : Under dir dir := ⟨rfl, prefix_refl _, by simp⟩

/-- The names that are left after leading up, and others below them, begin with all the names exactly if
the others begin with the names that were left out. -/
theorem append_prefix_take_iff (stack : List Name) {back : List Name} (k : Nat) :
    stack ++ names <+: stack ++ names.take (names.length - k) ++ back ↔
      names.drop (names.length - k) <+: back := by
  rw [append_assoc, prefix_append_right_inj]
  nth_rewrite 1 [← take_append_drop (names.length - k) names]
  exact prefix_append_right_inj _

theorem iterate_climb_absolute (h : dotdot ∉ names) (k : Nat) :
    (climb true)^[k] names = names.take (names.length - k) := by
  rcases Nat.le_total k names.length with hk | hk
  · exact iterate_climb true [] h hk
  · obtain ⟨more, rfl⟩ := Nat.exists_eq_add_of_le' hk
    have htop := iterate_climb true [] h le_rfl
    rw [Nat.sub_self, take_zero] at htop
    rw [Function.iterate_add_apply, show (climb true)^[names.length] names = [] from htop, iterate_climb_root,
      show names.length - (more + names.length) = 0 by omega, take_zero]

theorem under_join_absolute (hdir : dir.absolute = true) (hp : p.absolute = false) :
    Under dir (dir.join p) ↔ dir.normal.drop (dir.normal.length - p.climbs) <+: p.names := by
  have hproper := dotdot_notMem_normal hdir
  have hjoin : (dir.join p).absolute = true := by rw [join, hp, if_neg Bool.false_ne_true, hdir]
  rw [Under, normal_join hp, hjoin, hdir, iterate_climb_absolute hproper, eq_self_iff_true, true_and,
    ← append_prefix_take_iff []]
  refine and_iff_left fun hmem => ?_
  rcases mem_append.1 (mem_of_mem_drop hmem) with hmem | hmem
  · exact hproper (mem_of_mem_take hmem)
  · exact (relative_walk hp).1 hmem

theorem under_join_of_climbs_le (hdir : dir.absolute = false) (hp : p.absolute = false)
    (hle : p.climbs ≤ dir.names.length) :
    Under dir (dir.join p) ↔ dir.normal.drop (dir.normal.length - p.climbs) <+: p.names := by
  have hproper := (relative_walk hdir).1
  have hjoin : (dir.join p).absolute = false := by rw [join, hp, if_neg Bool.false_ne_true, hdir]
  have hdrop : dir.normal.drop (dir.normal.length - p.climbs) =
      dir.names.drop (dir.names.length - p.climbs) := by
    rw [normal_eq hdir, length_append, length_replicate, Nat.add_sub_assoc hle,
      drop_append, length_replicate, Nat.add_sub_cancel_left, drop_eq_nil_of_le (by simp),
      nil_append]
  rw [Under, normal_join hp, hjoin, hdir, eq_self_iff_true, true_and, hdrop, normal_eq hdir,
    iterate_climb _ _ hproper hle, append_prefix_take_iff]
  refine and_iff_left fun hmem => (relative_walk hp).1 ?_
  rw [drop_append, drop_eq_nil_of_le (by simp), nil_append] at hmem
  exact mem_of_mem_drop hmem

theorem not_under_join (hdir : dir.absolute = false) (hp : p.absolute = false)
    (hlt : dir.names.length < p.climbs) : ¬ Under dir (dir.join p) := by
  have hproper := (relative_walk hdir).1
  obtain ⟨more, hmore⟩ := Nat.exists_eq_add_of_lt hlt
  have htop := iterate_climb false (List.replicate dir.climbs dotdot) hproper le_rfl
  rw [Nat.sub_self, take_zero, append_nil] at htop
  have hnormal : (dir.join p).normal =
      List.replicate dir.climbs dotdot ++ dotdot :: (List.replicate more dotdot ++ p.names) := by
    rw [normal_join hp, hdir, hmore, Nat.add_assoc, Nat.add_comm, Function.iterate_add_apply, normal_eq hdir, htop,
      iterate_climb_replicate, ← replicate_append_replicate, replicate_succ]
    simp
  rintro ⟨-, hbelow, hnone⟩
  rw [hnormal, normal_eq hdir] at hbelow hnone
  rw [prefix_append_right_inj] at hbelow
  cases hnames : dir.names with
  | nil => simp [hnames] at hnone
  | cons name names =>
    rw [hnames] at hbelow hproper
    obtain ⟨rfl, -⟩ := cons_prefix_cons.1 hbelow
    exact hproper mem_cons_self

theorem under_join_iff (dir p : Path) : Under dir (dir.join p) ↔ Stays dir p := by
  unfold Stays
  by_cases hp : p.absolute = true
  · rw [if_pos hp, join, if_pos hp, Under, hp, eq_comm (a := true)]
    refine and_congr_right fun _ => and_iff_left fun hmem => ?_
    exact dotdot_notMem_normal hp (mem_of_mem_drop hmem)
  rw [if_neg hp]
  rw [Bool.not_eq_true] at hp
  cases hdir : dir.absolute with
  | true => rw [under_join_absolute hdir hp, eq_self_iff_true, true_or, true_and]
  | false =>
    have hlength : dir.normal.length = dir.climbs + dir.names.length := by
      rw [normal_eq hdir, length_append, length_replicate]
    by_cases hle : p.climbs ≤ dir.names.length
    · rw [under_join_of_climbs_le hdir hp hle, and_iff_right (.inr (by omega))]
    · rw [not_le] at hle
      refine iff_of_false (not_under_join hdir hp hle) ?_
      rintro ⟨hclimbs, hback⟩
      -- what it would have to lead back through begins with `..`
      refine (relative_walk hp).1 (hback.subset ?_)
      have hclimbs : p.climbs ≤ dir.normal.length := by simpa using hclimbs
      rw [normal_eq hdir, drop_append_of_le_length (by simp; omega), drop_replicate]
      refine mem_append_left _ (mem_replicate.2 ⟨?_, rfl⟩)
      simp
      omega

/-! ### Above and below -/

theorem mem_tail_inits {α : Type*} {xs ys : List α} : xs ∈ ys.inits.tail ↔ xs ≠ [] ∧ xs <+: ys := by
  cases ys with
  | nil => simp
  | cons y ys =>
    cases xs with
    | nil => simp
    | cons x xs =>
      simp [cons_prefix_cons, mem_inits, and_comm, eq_comm]

theorem mem_ancestors :
    q ∈ p.ancestors ↔ q.absolute = p.absolute ∧ q.comps ≠ [] ∧ q.comps <+: p.comps := by
  obtain ⟨absolute, comps⟩ := q
  unfold ancestors
  rw [mem_map]
  simp only [mem_tail_inits, Path.mk.injEq]
  constructor
  · rintro ⟨comps, h, rfl, rfl⟩
    exact ⟨rfl, h⟩
  · rintro ⟨rfl, h⟩
    exact ⟨comps, h, rfl, rfl⟩

theorem mem_ancestors_child : q ∈ (p.child name).ancestors ↔ q ∈ p.ancestors ∨ q = p.child name := by
  obtain ⟨absolute, comps⟩ := q
  simp only [mem_ancestors, child, prefix_concat_iff, Path.mk.injEq]
  constructor
  · rintro ⟨habs, hne, hlast | hpre⟩
    · exact .inr ⟨habs, hlast⟩
    · exact .inl ⟨habs, hne, hpre⟩
  · rintro (⟨habs, hne, hpre⟩ | ⟨habs, rfl⟩)
    · exact ⟨habs, hne, .inr hpre⟩
    · exact ⟨habs, by simp, .inl rfl⟩

theorem mem_ancestors_iff_parent :
    q ∈ p.ancestors ↔ (q = p ∧ p.comps ≠ []) ∨ ∃ parent, p.parent = some parent ∧ q ∈ parent.ancestors := by
  obtain ⟨absolute, comps⟩ := p
  cases comps using List.reverseRecOn with
  | nil => simp [mem_ancestors, parent]
  | append_singleton comps name _ =>
    have hparent : parent ⟨absolute, comps ++ [name]⟩ = some ⟨absolute, comps⟩ := by simp [parent]
    rw [show (⟨absolute, comps ++ [name]⟩ : Path) = child ⟨absolute, comps⟩ name from rfl, mem_ancestors_child,
      show (child ⟨absolute, comps⟩ name).parent = _ from hparent]
    simp [child, or_comm]

theorem normal_child (h : name ≠ dotdot) : (p.child name).normal = p.normal ++ [name] := by
  rw [normal, child, foldl_append]
  exact push_of_ne h

theorem StrictlyUnder.child (h : StrictlyUnder dir p) (hname : name ≠ dotdot) :
    StrictlyUnder dir (p.child name) := by
  obtain ⟨⟨habs, ⟨rest, hrest⟩, hnone⟩, hne⟩ := h
  refine ⟨⟨habs, ⟨rest ++ [name], ?_⟩, ?_⟩, fun heq => ?_⟩
  · rw [normal_child hname, ← hrest, append_assoc]
  · rw [← hrest, drop_left] at hnone
    rw [normal_child hname, ← hrest, append_assoc, drop_left]
    simp [hnone, hname.symm]
  · have hlength := congrArg List.length heq
    rw [normal_child hname, ← hrest, length_append, length_append, length_singleton] at hlength
    omega

end Z8s.Files.Path
