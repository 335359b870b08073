import Mathlib.Data.List.Induction
import Z8s.Files.Create
import Z8s.Files.Lexical

/-!
# Proofs: file systems

What removing and putting a node does at every location, where a walk can end, and what is there after files and
directories are created.
-/

namespace Z8s.Files.FileSystem

open Collections List

variable {fs : FileSystem}
variable {b cwd dir l : Location} {comps : List Name} {name : Name} {content : List UInt8}
  {limit : Option Nat} {path : Path} {links : Nat} {fs' : FileSystem}
variable {d rest root x : Location} {fs₁ fs₂ fs₃ : FileSystem} {paths : List Path} {n : Node}
  {target : Path}

@[simp] theorem node_nil (fs : FileSystem) : fs.node [] = some .directory := rfl

@[simp] theorem node_append_singleton (fs : FileSystem) (l : Location) (name : Name) :
    fs.node (l ++ [name]) = fs.nodes.get (l ++ [name]) := by
  simp [node]

theorem node_dir_of_entry {x : Node} (h : fs.node (l ++ [name]) = some x) :
    fs.node l = some .directory := by
  rw [node_append_singleton] at h
  rcases (fs.closed l name (by simp [h])).2 with rfl | hdir
  · rfl
  · by_cases hl : l = []
    · simp [hl]
    · simpa [node, hl] using hdir

theorem node_dir_of_append (hrest : rest ≠ []) {x : Node} (h : fs.node (l ++ rest) = some x) :
    fs.node l = some .directory := by
  induction rest using List.reverseRecOn generalizing x with
  | nil => exact absurd rfl hrest
  | append_singleton rest name ih =>
    rw [← append_assoc] at h
    have hdir := node_dir_of_entry h
    by_cases hnil : rest = []
    · simpa [hnil] using hdir
    · exact ih hnil hdir

theorem isSome_of_append {x : Node} (h : fs.node (l ++ rest) = some x) : (fs.node l).isSome = true := by
  by_cases hrest : rest = []
  · rw [hrest, append_nil] at h
    rw [h, Option.isSome_some]
  · rw [node_dir_of_append hrest h, Option.isSome_some]

theorem node_eq_none_of_append (hrest : rest ≠ []) (h : fs.node l ≠ some .directory) :
    fs.node (l ++ rest) = none := by
  by_contra hne
  obtain ⟨x, hx⟩ := Option.ne_none_iff_exists'.1 hne
  exact h (node_dir_of_append hrest hx)

theorem node_remove (fs : FileSystem) (l : Location) (left : List Location) (x : Location) :
    (fs.remove l left).node x =
      if x ≠ [] ∧ l <+: x ∧ ∀ y ∈ left, ¬ x <+: y then none else fs.node x := by
  by_cases hx : x = []
  · simp [hx]
  · have hget : (fs.remove l left).node x =
        (fs.nodes.get x).filter fun _ => !l.isPrefixOf x || left.any x.isPrefixOf := by
      simp only [node, hx, if_false, remove]
      exact HashMap.get_filter _ _ _
    by_cases hgone : l <+: x ∧ ∀ y ∈ left, ¬ x <+: y
    · have hfalse : (!l.isPrefixOf x || left.any x.isPrefixOf) = false := by
        rw [Bool.or_eq_false_iff, Bool.not_eq_false', isPrefixOf_iff_prefix, any_eq_false]
        exact ⟨hgone.1, fun y hy => by simpa using hgone.2 y hy⟩
      rw [hget, hfalse, if_pos ⟨hx, hgone⟩]
      simp
    · have htrue : (!l.isPrefixOf x || left.any x.isPrefixOf) = true := by
        rw [Bool.or_eq_true, Bool.not_eq_true', ← Bool.not_eq_true, isPrefixOf_iff_prefix,
          any_eq_true, Classical.or_iff_not_imp_left, Classical.not_not]
        intro hpre
        by_contra hnone
        exact hgone ⟨hpre, fun y hy hxy => hnone ⟨y, hy, isPrefixOf_iff_prefix.2 hxy⟩⟩
      rw [hget, htrue, if_neg fun h => hgone h.2, node, if_neg hx]
      cases fs.nodes.get x <;> rfl

theorem node_remove_nil (hl : l ≠ []) (x : Location) :
    (fs.remove l []).node x = if l <+: x then none else fs.node x := by
  rw [node_remove]
  by_cases hpre : l <+: x
  · have hx : x ≠ [] := by
      rintro rfl
      exact hl (prefix_nil.1 hpre)
    rw [if_pos hpre, if_pos ⟨hx, hpre, fun _ hy => absurd hy not_mem_nil⟩]
  · rw [if_neg hpre, if_neg fun h => hpre h.2.1]

theorem node_remove_of_not_prefix (h : ¬ l <+: x) (left : List Location) :
    (fs.remove l left).node x = fs.node x := by
  rw [node_remove, if_neg fun hx => h hx.2.1]

theorem node_remove_of_left {y : Location} {left : List Location} (hy : y ∈ left) (h : x <+: y) :
    (fs.remove l left).node x = fs.node x := by
  rw [node_remove, if_neg fun hx => hx.2.2 y hy h]

theorem put_eq_some (h : fs.put dir name n = some fs') (x : Location) :
    fs'.node x = if x = dir ++ [name] then some n else fs.node x := by
  rw [put] at h
  split at h
  · cases h
    by_cases hx : x = []
    · simp [hx]
    · simp only [node, hx, if_false, HashMap.get_insert]
  · cases h

theorem put_isSome (hname : isProper name = true) (hdir : fs.node dir = some .directory)
    (hfree : fs.node (dir ++ [name]) ≠ some .directory) : ∃ fs', fs.put dir name n = some fs' := by
  rw [put, dif_pos ⟨hname, hdir, hfree⟩]
  exact ⟨_, rfl⟩

theorem mem_children : name ∈ fs.children dir ↔ (fs.node (dir ++ [name])).isSome = true := by
  rw [children, mem_filterMap, node_append_singleton, Option.isSome_iff_exists, ← HashMap.mem_keys]
  constructor
  · rintro ⟨l, hl, hlast⟩
    split at hlast
    · rename_i hdir
      obtain ⟨hne, rfl⟩ := mem_getLast?_eq_getLast hlast
      rw [← hdir, dropLast_append_getLast hne]
      exact hl
    · cases hlast
  · intro h
    exact ⟨_, h, by simp⟩

/-! ### Walks -/

theorem walk_eq (fs : FileSystem) (links : Nat) :
    ∃ follow, fs.walk links = fs.walkWith follow ∧
      ∀ l comps, follow l comps = none ∨ ∃ k < links, follow l comps = fs.walk k l comps := by
  cases links with
  | zero => exact ⟨_, rfl, fun _ _ => .inl rfl⟩
  | succ links => exact ⟨_, rfl, fun _ _ => .inr ⟨links, Nat.lt_succ_self _, rfl⟩⟩

@[simp] theorem walk_nil (fs : FileSystem) (links : Nat) (l : Location) :
    fs.walk links l [] = some l := by
  obtain ⟨follow, hwalk, -⟩ := walk_eq fs links
  rw [hwalk, walkWith]

section Step

variable {comp : Name}

theorem walk_dotdot (links : Nat) (l : Location) (comps : List Name) :
    fs.walk links l (dotdot :: comps) = fs.walk links l.dropLast comps := by
  obtain ⟨follow, hwalk, -⟩ := walk_eq fs links
  rw [hwalk, walkWith, if_pos rfl]

section

variable (hcomp : comp ≠ dotdot)
include hcomp

theorem walk_directory (h : fs.node (l ++ [comp]) = some .directory) (links : Nat) (comps : List Name) :
    fs.walk links l (comp :: comps) = fs.walk links (l ++ [comp]) comps := by
  obtain ⟨follow, hwalk, -⟩ := walk_eq fs links
  rw [hwalk, walkWith, if_neg hcomp, h]

theorem walk_file (h : fs.node (l ++ [comp]) = some (.file content)) (links : Nat) (comps : List Name) :
    fs.walk links l (comp :: comps) = if comps = [] then some (l ++ [comp]) else none := by
  obtain ⟨follow, hwalk, -⟩ := walk_eq fs links
  rw [hwalk, walkWith, if_neg hcomp, h]

theorem walk_missing (h : fs.node (l ++ [comp]) = none)
    (links : Nat) (comps : List Name) : fs.walk links l (comp :: comps) = none := by
  obtain ⟨follow, hwalk, -⟩ := walk_eq fs links
  rw [hwalk, walkWith, if_neg hcomp, h]

theorem walk_zero_symlink (h : fs.node (l ++ [comp]) = some (.symlink target))
    (comps : List Name) : fs.walk 0 l (comp :: comps) = none := by
  rw [walk, walkWith, if_neg hcomp, h]

theorem walk_succ_symlink (h : fs.node (l ++ [comp]) = some (.symlink target))
    (links : Nat) (comps : List Name) :
    fs.walk (links + 1) l (comp :: comps) =
      fs.walk links (if target.absolute then [] else l) (target.comps ++ comps) := by
  rw [walk, walkWith, if_neg hcomp, h]

end

end Step

/-- Induction along a walk: one case for every kind of node that the next component can lead to. -/
@[elab_as_elim]
theorem walk_induction (fs : FileSystem) {motive : Nat → Location → List Name → Prop}
    (nil : ∀ links l, motive links l [])
    (up : ∀ links l comps, motive links l.dropLast comps → motive links l (dotdot :: comps))
    (missing : ∀ links l comp comps, comp ≠ dotdot → fs.node (l ++ [comp]) = none →
      motive links l (comp :: comps))
    (file : ∀ links l comp comps content, comp ≠ dotdot → fs.node (l ++ [comp]) = some (.file content) →
      motive links l (comp :: comps))
    (directory : ∀ links l comp comps, comp ≠ dotdot → fs.node (l ++ [comp]) = some .directory →
      motive links (l ++ [comp]) comps → motive links l (comp :: comps))
    (lastLink : ∀ l comp comps target, comp ≠ dotdot → fs.node (l ++ [comp]) = some (.symlink target) →
      motive 0 l (comp :: comps))
    (link : ∀ links l comp comps target, comp ≠ dotdot → fs.node (l ++ [comp]) = some (.symlink target) →
      motive links (if target.absolute then [] else l) (target.comps ++ comps) →
      motive (links + 1) l (comp :: comps))
    (links : Nat) (l : Location) (comps : List Name) : motive links l comps := by
  -- every step but that over a link leaves fewer components
  have hcomps : ∀ links, (∀ l comp comps target, comp ≠ dotdot →
      fs.node (l ++ [comp]) = some (.symlink target) → motive links l (comp :: comps)) →
      ∀ l comps, motive links l comps := by
    intro links hlink l comps
    induction comps generalizing l with
    | nil => exact nil links l
    | cons comp comps ih =>
      by_cases hcomp : comp = dotdot
      · rw [hcomp]
        exact up links l comps (ih _)
      · cases hnode : fs.node (l ++ [comp]) with
        | none => exact missing links l comp comps hcomp hnode
        | some n =>
          cases n with
          | file content => exact file links l comp comps content hcomp hnode
          | directory => exact directory links l comp comps hcomp hnode (ih _)
          | symlink target => exact hlink l comp comps target hcomp hnode
  induction links generalizing l comps with
  | zero => exact hcomps 0 lastLink l comps
  | succ links ih =>
    refine hcomps _ (fun l comp comps target hcomp hnode => ?_) l comps
    exact link links l comp comps target hcomp hnode (ih _ _)

theorem node_dropLast (h : fs.node l = some .directory) : fs.node l.dropLast = some .directory := by
  rcases eq_nil_or_concat l with rfl | ⟨l, name, rfl⟩
  · rfl
  · rw [concat_eq_append, dropLast_concat]
    rw [concat_eq_append] at h
    exact node_dir_of_entry h

/-- A walk along two lists of components is a walk along the first to a directory, and from there along the
second. -/
def SplitsWalk (fs : FileSystem) (links : Nat) (l : Location) (comps rest : List Name) : Prop :=
  (∃ b k, fs.walk links l comps = some b ∧ fs.node b = some .directory ∧
    fs.walk links l (comps ++ rest) = fs.walk k b rest) ∨
  ((rest ≠ [] → fs.walk links l (comps ++ rest) = none) ∧
    ∀ b, fs.walk links l comps = some b → fs.node b ≠ some .directory)

theorem splitsWalk (links : Nat) (hl : fs.node l = some .directory) (comps rest : List Name) :
    SplitsWalk fs links l comps rest := by
  induction links, l, comps using walk_induction fs with
  | nil links l => exact .inl ⟨l, links, walk_nil _ _ _, hl, rfl⟩
  | up links l comps ih =>
    rw [SplitsWalk, cons_append, walk_dotdot, walk_dotdot]
    exact ih (node_dropLast hl)
  | missing links l comp comps hcomp hnode => exact .inr (by simp [walk_missing hcomp hnode])
  | file links l comp comps content hcomp hnode =>
    simp only [SplitsWalk, cons_append, walk_file hcomp hnode, append_eq_nil_iff]
    refine .inr ⟨fun hrest => if_neg fun h => hrest h.2, fun b hb => ?_⟩
    split at hb
    · cases hb
      simp [hnode]
    · cases hb
  | directory links l comp comps hcomp hnode ih =>
    simp only [SplitsWalk, cons_append, walk_directory hcomp hnode]
    exact ih hnode
  | lastLink l comp comps target hcomp hnode => exact .inr (by simp [walk_zero_symlink hcomp hnode])
  | link links l comp comps target hcomp hnode ih =>
    simp only [SplitsWalk, cons_append, walk_succ_symlink hcomp hnode, ← append_assoc]
    refine ih ?_
    split
    · rfl
    · exact hl

/-- No node vanishes; only the content of a file can be another one. -/
def Keeps (fs fs' : FileSystem) : Prop :=
  ∀ x n, fs.node x = some n → fs'.node x = some n ∨ ∃ c c', n = .file c ∧ fs'.node x = some (.file c')

theorem Keeps.walk (h : Keeps fs fs') (hwalk : fs.walk links l comps = some b) :
    fs'.walk links l comps = some b := by
  have hfile {x : Location} {content : List UInt8} (hx : fs.node x = some (.file content)) :
      ∃ content', fs'.node x = some (.file content') := by
    rcases h x _ hx with hx | ⟨_, c', -, hx⟩
    · exact ⟨_, hx⟩
    · exact ⟨c', hx⟩
  have hother {x : Location} {n : Node} (hn : ∀ c, n ≠ .file c) (hx : fs.node x = some n) : fs'.node x = some n :=
    (h x n hx).resolve_right fun ⟨c, _, hc, _⟩ => hn c hc
  induction links, l, comps using walk_induction fs with
  | nil links l => rwa [walk_nil] at hwalk ⊢
  | up links l comps ih =>
    rw [walk_dotdot] at hwalk ⊢
    exact ih hwalk
  | missing links l comp comps hcomp hnode =>
    rw [walk_missing hcomp hnode] at hwalk
    cases hwalk
  | file links l comp comps content hcomp hnode =>
    rw [walk_file hcomp hnode] at hwalk
    obtain ⟨content', hnode'⟩ := hfile hnode
    rw [walk_file hcomp hnode', hwalk]
  | directory links l comp comps hcomp hnode ih =>
    rw [walk_directory hcomp hnode] at hwalk
    rw [walk_directory hcomp (hother (by simp) hnode)]
    exact ih hwalk
  | lastLink l comp comps target hcomp hnode =>
    rw [walk_zero_symlink hcomp hnode] at hwalk
    cases hwalk
  | link links l comp comps target hcomp hnode ih =>
    rw [walk_succ_symlink hcomp hnode] at hwalk
    rw [walk_succ_symlink hcomp (hother (by simp) hnode)]
    exact ih hwalk

theorem walk_mono (h : ∀ l x, fs.node l = some x → fs'.node l = some x)
    (hwalk : fs.walk links l comps = some b) : fs'.walk links l comps = some b :=
  Keeps.walk (fun x n hx => .inl (h x n hx)) hwalk

theorem exists_walk_of_append {rest : List Name} (hwalk : fs.walk links l (comps ++ rest) = some d) :
    ∃ b k, fs.walk links l comps = some b ∧ fs.walk k b rest = some d := by
  induction links, l, comps using walk_induction fs with
  | nil links l => exact ⟨l, links, walk_nil _ _ _, hwalk⟩
  | up links l comps ih =>
    rw [cons_append, walk_dotdot] at hwalk
    rw [walk_dotdot]
    exact ih hwalk
  | missing links l comp comps hcomp hnode =>
    rw [cons_append, walk_missing hcomp hnode] at hwalk
    cases hwalk
  | file links l comp comps content hcomp hnode =>
    rw [cons_append, walk_file hcomp hnode] at hwalk
    split at hwalk
    · rename_i hnil
      obtain ⟨rfl, rfl⟩ := append_eq_nil_iff.1 hnil
      exact ⟨d, 0, by rw [walk_file hcomp hnode, if_pos rfl, hwalk], walk_nil _ _ _⟩
    · cases hwalk
  | directory links l comp comps hcomp hnode ih =>
    rw [cons_append, walk_directory hcomp hnode] at hwalk
    rw [walk_directory hcomp hnode]
    exact ih hwalk
  | lastLink l comp comps target hcomp hnode =>
    rw [cons_append, walk_zero_symlink hcomp hnode] at hwalk
    cases hwalk
  | link links l comp comps target hcomp hnode ih =>
    rw [cons_append, walk_succ_symlink hcomp hnode, ← append_assoc] at hwalk
    rw [walk_succ_symlink hcomp hnode]
    exact ih hwalk

/-! ### Trees with fewer nodes -/

def Sub (fs fs' : FileSystem) : Prop := ∀ l x, fs.node l = some x → fs'.node l = some x

theorem Sub.refl (fs : FileSystem) : Sub fs fs := fun _ _ h => h

theorem Sub.trans (h : Sub fs₁ fs₂) (h' : Sub fs₂ fs₃) : Sub fs₁ fs₃ :=
  fun l x hx => h' l x (h l x hx)

theorem Sub.resolve (h : Sub fs fs') (hl : fs.resolve cwd path = some l) : fs'.resolve cwd path = some l :=
  walk_mono h hl

theorem sub_remove (fs : FileSystem) (l : Location) (left : List Location) : Sub (fs.remove l left) fs := by
  intro x n hx
  rw [node_remove] at hx
  split at hx
  · cases hx
  · exact hx

theorem sub_removeDirAll (fs : FileSystem) (cwd : Location) (dir : Path) (name : Name)
    (left : Location → List Location) : Sub (fs.removeDirAll cwd dir name left) fs := by
  unfold removeDirAll
  repeat' split
  all_goals first | exact sub_remove _ _ _ | exact Sub.refl _

def Blocked (fs : FileSystem) (l : Location) : Prop :=
  fs.node l = none ∨ ∃ content, fs.node l = some (.file content)

theorem Blocked.of_sub (h : Blocked fs' l) (hsub : Sub fs fs') : Blocked fs l := by
  cases hnode : fs.node l with
  | none => exact .inl hnode
  | some n =>
    have hnode' := hsub l n hnode
    rcases h with hnone | ⟨content, hfile⟩
    · rw [hnone] at hnode'
      cases hnode'
    · exact .inr ⟨content, by rw [hnode, ← hnode', hfile]⟩

/-- `remove_dir_all` leaves at most a file under the name. -/
theorem blocked_removeDirAll {dir : Path} (hname : isProper name = true) (hb : fs.resolve cwd dir = some b) :
    Blocked (fs.removeDirAll cwd dir name fun _ => []) (b ++ [name]) := by
  rw [removeDirAll, if_pos hname, entryAt, if_pos hname, hb, Option.map_some]
  dsimp only
  split
  · rename_i content hfile
    exact .inr ⟨content, hfile⟩
  · left
    rw [node_remove_nil (by simp), if_pos (prefix_refl _)]

theorem node_eq_none_of_blocked {names : Location} {more : List Name} (hname : name ≠ dotdot)
    (h : Blocked fs (b ++ [name])) (hwalk : fs.walk links b (name :: more) = some d) (hnames : names ≠ []) :
    fs.node (d ++ names) = none := by
  rcases h with hnone | ⟨content, hfile⟩
  · rw [walk_missing hname hnone] at hwalk
    cases hwalk
  · rw [walk_file hname hfile] at hwalk
    split at hwalk
    · refine node_eq_none_of_append hnames ?_
      rw [← Option.some.inj hwalk, hfile]
      simp
    · cases hwalk

/-- No link is on the way from `root` along the components. -/
def NoLinks (fs : FileSystem) (root : Location) (comps : List Name) : Prop :=
  ∀ q, q <+: comps → ∀ target, fs.node (root ++ q) ≠ some (.symlink target)

theorem NoLinks.tail {comp : Name} (h : NoLinks fs root (comp :: comps)) :
    NoLinks fs (root ++ [comp]) comps := by
  intro q hq target
  rw [append_assoc]
  exact h (comp :: q) ((prefix_cons_inj comp).2 hq) target

/-- Without `..` and links a walk goes straight down. -/
theorem walk_eq_append (hdots : dotdot ∉ comps) (hlinks : NoLinks fs root comps)
    (h : fs.walk links root comps = some b) : b = root ++ comps := by
  induction comps generalizing root with
  | nil => simpa using h.symm
  | cons comp comps ih =>
    rw [mem_cons, not_or] at hdots
    have hcomp : comp ≠ dotdot := Ne.symm hdots.1
    cases hnode : fs.node (root ++ [comp]) with
    | none =>
      rw [walk_missing hcomp hnode] at h
      cases h
    | some n =>
      cases n with
      | file content =>
        rw [walk_file hcomp hnode] at h
        split at h
        · rename_i hnil
          rw [hnil]
          exact (Option.some.inj h).symm
        · cases h
      | directory =>
        rw [walk_directory hcomp hnode] at h
        rw [ih hdots.2 hlinks.tail h, append_assoc, singleton_append]
      | symlink target => exact absurd hnode (hlinks [comp] (by simp) target)

theorem walk_to_directory (hdots : dotdot ∉ comps) (h : fs.node (root ++ comps) = some .directory)
    (links : Nat) : fs.walk links root comps = some (root ++ comps) := by
  induction comps generalizing root with
  | nil => simp
  | cons comp comps ih =>
    rw [mem_cons, not_or] at hdots
    rw [← singleton_append, ← append_assoc] at h
    have hnode : fs.node (root ++ [comp]) = some .directory := by
      by_cases hnil : comps = []
      · simpa [hnil] using h
      · exact node_dir_of_append hnil h
    rw [walk_directory (Ne.symm hdots.1) hnode, ih hdots.2 h, append_assoc, singleton_append]

/-! ### Creating -/

section Create

theorem Sub.keeps (h : Sub fs fs') : Keeps fs fs' := fun x n hx => .inl (h x n hx)

theorem Keeps.refl (fs : FileSystem) : Keeps fs fs := (Sub.refl fs).keeps

theorem Keeps.trans (h : Keeps fs₁ fs₂) (h' : Keeps fs₂ fs₃) : Keeps fs₁ fs₃ := by
  intro x n hx
  rcases h x n hx with hx₂ | ⟨c, c', rfl, hx₂⟩
  · exact h' x n hx₂
  · rcases h' x _ hx₂ with hx₃ | ⟨_, c'', -, hx₃⟩
    · exact .inr ⟨c, c', rfl, hx₃⟩
    · exact .inr ⟨c, c'', rfl, hx₃⟩

theorem Keeps.isSome (h : Keeps fs fs') (hx : (fs.node x).isSome = true) : (fs'.node x).isSome = true := by
  obtain ⟨n, hn⟩ := Option.isSome_iff_exists.1 hx
  rcases h x n hn with hx | ⟨_, _, -, hx⟩ <;> rw [hx, Option.isSome_some]

theorem Keeps.resolve (h : Keeps fs fs') (hl : fs.resolve cwd path = some l) :
    fs'.resolve cwd path = some l :=
  h.walk hl

theorem Keeps.node_directory (h : Keeps fs fs') (hl : fs.node l = some .directory) :
    fs'.node l = some .directory :=
  (h l _ hl).resolve_right fun ⟨c, _, hc, _⟩ => by cases hc

theorem keeps_put (hput : fs.put dir name (.file content) = some fs')
    (hplace : ∀ n, fs.node (dir ++ [name]) = some n → ∃ c, n = .file c) : Keeps fs fs' := by
  intro x n hx
  rw [put_eq_some hput]
  by_cases hplaced : x = dir ++ [name]
  · obtain ⟨c, rfl⟩ := hplace n (hplaced ▸ hx)
    rw [if_pos hplaced]
    exact .inr ⟨c, content, rfl, rfl⟩
  · rw [if_neg hplaced]
    exact .inl hx

theorem creates_place (h : fs.creates links cwd path = some (dir, name))
    (hn : fs.node (dir ++ [name]) = some n) : ∃ c, n = .file c := by
  have hwith {follow : Location → Path → Option (Location × Name)}
      (hfollow : ∀ l p, follow l p = some (dir, name) → ∃ c, n = .file c) {cwd : Location} {path : Path}
      (h : fs.createsWith follow cwd path = some (dir, name)) : ∃ c, n = .file c := by
    unfold createsWith at h
    split at h
    · obtain ⟨d, hd, h⟩ := Option.bind_eq_some_iff.1 h
      split at h
      · cases h
      · exact hfollow _ _ h
      · rename_i hdir hlink
        cases h
        cases n with
        | file c => exact ⟨c, rfl⟩
        | directory => exact absurd hn hdir
        | symlink target => exact absurd hn (hlink target)
    · cases h
  induction links generalizing cwd path with
  | zero => exact hwith (fun _ _ h => by cases h) h
  | succ links ih => exact hwith (fun _ _ h => ih h) h

theorem keeps_writeFile (fs : FileSystem) (cwd : Location) (path : Path) (content : List UInt8) (limit : Option Nat) :
    Keeps fs (fs.writeFile cwd path content limit).1 := by
  have hgetD {dir : Location} {name : Name} (h : fs.creates 40 cwd path = some (dir, name)) (content : List UInt8) :
      Keeps fs ((fs.put dir name (.file content)).getD fs) := by
    cases hput : fs.put dir name (.file content) with
    | none => exact .refl fs
    | some fs' => exact keeps_put hput fun n => creates_place h
  unfold writeFile
  split
  · rename_i h
    exact hgetD h content
  · rename_i h
    exact hgetD h _
  · exact .refl fs

theorem creates_child {dir : Path} (hname : isProper name = true) (hdir : fs.resolve cwd dir = some l)
    (hplace : ∀ n, fs.node (l ++ [name]) = some n → ∃ c, n = .file c) (links : Nat) :
    fs.creates links cwd (dir.child name) = some (l, name) := by
  have hparent : (dir.child name).parent = some dir := by simp [Path.child, Path.parent]
  have hfile : (dir.child name).fileName = some name := by
    simp only [isProper, Bool.and_eq_true, bne_iff_ne] at hname
    simp [Path.child, Path.fileName, hname.2]
  have hwith (follow : Location → Path → Option (Location × Name)) :
      fs.createsWith follow cwd (dir.child name) = some (l, name) := by
    rw [createsWith, hparent, hfile]
    simp only [hdir, Option.bind_some]
    cases hn : fs.node (l ++ [name]) with
    | none => rfl
    | some n =>
      obtain ⟨c, rfl⟩ := hplace n hn
      rfl
  cases links with
  | zero => exact hwith _
  | succ links => exact hwith _

theorem node_writeFile_child {dir : Path} (hname : isProper name = true)
    (hdir : fs.resolve cwd dir = some l) (hplace : ∀ n, fs.node (l ++ [name]) = some n → ∃ c, n = .file c)
    (h : fs.writeFile cwd (dir.child name) content limit = (fs', true)) (x : Location) :
    fs'.node x = if x = l ++ [name] then some (.file content) else fs.node x := by
  unfold writeFile at h
  rw [creates_child hname hdir hplace] at h
  cases limit with
  | none =>
    cases hput : fs.put l name (.file content) with
    | none => simp [hput] at h
    | some fs₁ =>
      simp only [hput, Option.getD_some, Option.isSome_some, Prod.mk.injEq, and_true] at h
      rw [← h, put_eq_some hput]
  | some bytes => cases bytes <;> simp at h

theorem walk_append_directory (hwalk : fs.walk links l comps = some b) (hname : name ≠ dotdot)
    (hnode : fs.node (b ++ [name]) = some .directory) :
    fs.walk links l (comps ++ [name]) = some (b ++ [name]) := by
  induction links, l, comps using walk_induction fs with
  | nil links l =>
    rw [walk_nil] at hwalk
    cases hwalk
    rw [nil_append, walk_directory hname hnode, walk_nil]
  | up links l comps ih =>
    rw [walk_dotdot] at hwalk
    rw [cons_append, walk_dotdot]
    exact ih hwalk
  | missing links l comp comps hcomp hmissing =>
    rw [walk_missing hcomp hmissing] at hwalk
    cases hwalk
  | file links l comp comps content hcomp hfile =>
    rw [walk_file hcomp hfile] at hwalk
    split_ifs at hwalk
    cases hwalk
    -- nothing is below a file
    rw [node_dir_of_entry hnode] at hfile
    cases hfile
  | directory links l comp comps hcomp hdir ih =>
    rw [walk_directory hcomp hdir] at hwalk
    rw [cons_append, walk_directory hcomp hdir]
    exact ih hwalk
  | lastLink l comp comps target hcomp hlink =>
    rw [walk_zero_symlink hcomp hlink] at hwalk
    cases hwalk
  | link links l comp comps target hcomp hlink ih =>
    rw [walk_succ_symlink hcomp hlink] at hwalk
    rw [cons_append, walk_succ_symlink hcomp hlink, ← append_assoc]
    exact ih hwalk

theorem makeDir_eq_some (h : fs.makeDir cwd path = some fs') :
    Sub fs fs' ∧ fs'.isDirectory cwd path = true := by
  unfold makeDir at h
  split at h
  · rename_i parent name hparent hname
    obtain ⟨dir, hdir, h⟩ := Option.bind_eq_some_iff.1 h
    split_ifs at h with hnone
    have hnode := put_eq_some h
    have hsub : Sub fs fs' := by
      intro x n hx
      rw [hnode, if_neg]
      · exact hx
      · rintro rfl
        rw [hnone] at hx
        cases hx
    refine ⟨hsub, ?_⟩
    have hplace : fs'.node (dir ++ [name]) = some .directory := by rw [hnode, if_pos rfl]
    obtain ⟨hlast, hdots⟩ := Option.filter_eq_some_iff.1 hname
    unfold Path.parent at hparent
    split_ifs at hparent with hcomps
    cases hparent
    have hwalk := walk_append_directory (hsub.resolve hdir) (bne_iff_ne.1 hdots) hplace
    rw [isDirectory, resolve, ← dropLast_append_getLast? name hlast]
    rw [hwalk]
    exact beq_iff_eq.2 hplace
  · cases h

theorem sub_createDirAll (fs : FileSystem) (cwd : Location) (limit : Option Nat) (paths : List Path) :
    Sub fs (fs.createDirAll cwd limit paths).1 := by
  induction paths generalizing fs limit with
  | nil => exact .refl fs
  | cons path paths ih =>
    unfold createDirAll
    split_ifs
    · exact ih fs limit
    · exact .refl fs
    · cases hmake : fs.makeDir cwd path with
      | none => exact .refl fs
      | some fs' => exact (makeDir_eq_some hmake).1.trans (ih fs' _)

theorem Sub.isDirectory (h : Sub fs fs') (hdir : fs.isDirectory cwd path = true) :
    fs'.isDirectory cwd path = true := by
  rw [FileSystem.isDirectory, beq_iff_eq] at hdir ⊢
  obtain ⟨l, hl, hnode⟩ := Option.bind_eq_some_iff.1 hdir
  rw [h.resolve hl, Option.bind_some]
  exact h l _ hnode

theorem createDirAll_cons (h : fs.createDirAll cwd limit (path :: paths) = (fs', true)) :
    ∃ (fs₁ : FileSystem) (limit' : Option Nat), fs₁.isDirectory cwd path = true ∧
      fs₁.createDirAll cwd limit' paths = (fs', true) := by
  rw [createDirAll] at h
  split_ifs at h with hdir
  · exact ⟨fs, limit, hdir, h⟩
  · cases h
  · cases hmake : fs.makeDir cwd path with
    | none => simp [hmake] at h
    | some fs₁ =>
      rw [hmake] at h
      exact ⟨fs₁, _, (makeDir_eq_some hmake).2, h⟩

theorem isDirectory_createDirAll (h : fs.createDirAll cwd limit paths = (fs', true)) (hpath : path ∈ paths) :
    fs'.isDirectory cwd path = true := by
  induction paths generalizing fs limit with
  | nil => cases hpath
  | cons first paths ih =>
    obtain ⟨fs₁, limit', hdir, hrest⟩ := createDirAll_cons h
    rcases mem_cons.1 hpath with rfl | hpath
    · have hsub := sub_createDirAll fs₁ cwd limit' paths
      rw [hrest] at hsub
      exact hsub.isDirectory hdir
    · exact ih hrest hpath

end Create

end Z8s.Files.FileSystem
