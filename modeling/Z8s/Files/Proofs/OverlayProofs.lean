import Mathlib.Data.List.Infix
import Z8s.Files.Overlay

/-!
# Proofs: layered file trees

One more change at the end of a layer: under which conditions the tree of the longer layer is the tree of the
shorter one with the change carried out on it.
-/

namespace Z8s.Files

open List

variable {done : List Change} {lower : Tree} {p path : Location}
variable {layer : List Change} {c : Change}

theorem own_append_singleton (done : List Change) (c : Change) (p : Location) :
    own (done ++ [c]) p = c.gives p (own done p) := by
  simp [own]

theorem exists_put_of_own {n : Node} (h : own done p = some n) :
    ∃ path node, Change.put path node ∈ done ∧ p <+: path := by
  induction done using List.reverseRecOn generalizing n with
  | nil => cases h
  | append_singleton done c ih =>
    rw [own_append_singleton] at h
    have hdone : own done p = some n →
        ∃ path node, Change.put path node ∈ done ++ [c] ∧ p <+: path := by
      intro h
      obtain ⟨path, node, hmem, hpre⟩ := ih h
      exact ⟨path, node, mem_append_left _ hmem, hpre⟩
    cases c with
    | put path node =>
      simp only [Change.gives] at h
      split at h
      · rename_i heq
        exact ⟨path, node, mem_append_right _ mem_cons_self, heq ▸ prefix_refl _⟩
      · split at h
        · exact ⟨path, node, mem_append_right _ mem_cons_self, ‹_›⟩
        · exact hdone h
    | whiteout path => exact hdone h
    | opq dir => exact hdone h

theorem Change.hides_mono (h : c.hides p = true) (hpre : p <+: path) : c.hides path = true := by
  cases c with
  | put => cases h
  | whiteout q =>
    rw [hides, isPrefixOf_iff_prefix] at h ⊢
    exact h.trans hpre
  | opq dir =>
    rw [hides, Bool.and_eq_true, isPrefixOf_iff_prefix, bne_iff_ne] at h ⊢
    refine ⟨h.1.trans hpre, fun heq => h.2 ?_⟩
    rw [heq] at hpre
    exact hpre.eq_of_length (Nat.le_antisymm hpre.length_le h.1.length_le)

theorem own_eq_none_of_spares (hspares : c.sparesAll done = true) (h : c.hides p = true) :
    own done p = none := by
  by_contra hne
  obtain ⟨n, hn⟩ := Option.ne_none_iff_exists'.1 hne
  obtain ⟨path, node, hmem, hpre⟩ := exists_put_of_own hn
  have hput := all_eq_true.1 hspares _ hmem
  rw [Bool.not_eq_true', Change.hides_mono h hpre] at hput
  cases hput

theorem overlay_append_hides (hgives : ∀ p found, c.gives p found = found)
    (hspares : c.sparesAll done = true) (p : Location) :
    overlay (done ++ [c]) lower p = if c.hides p then none else overlay done lower p := by
  have hown : ∀ p, own (done ++ [c]) p = own done p := fun p => by rw [own_append_singleton, hgives]
  have hcovered : covered (done ++ [c]) p = covered done p := by simp only [covered, hown]
  simp only [overlay, hown, hcovered, any_append, any_cons, any_nil, Bool.or_false]
  by_cases hhides : c.hides p = true
  · rw [if_pos hhides, own_eq_none_of_spares hspares hhides]
    simp [hhides]
  · simp [hhides]

theorem covered_eq_true :
    covered layer p = true ↔ ∃ q n, q <+: p ∧ q ≠ p ∧ own layer q = some n ∧ n ≠ .directory := by
  simp only [covered, any_eq_true, mem_inits, Bool.and_eq_true, bne_iff_ne, Option.any_eq_true,
    ne_eq]
  constructor
  · rintro ⟨q, hq, hne, n, hn, hdir⟩
    exact ⟨q, n, hq, hne, hn, hdir⟩
  · rintro ⟨q, n, hq, hne, hn, hdir⟩
    exact ⟨q, hq, hne, n, hn, hdir⟩

theorem overlay_of_own {n : Node} (h : own layer p = some n) : overlay layer lower p = some n := by
  simp [overlay, h]

theorem prefix_dropLast {q : Location} (h : q <+: path) (hne : q ≠ path) : q <+: path.dropLast := by
  rcases eq_nil_or_concat path with rfl | ⟨dir, name, rfl⟩
  · exact absurd (prefix_nil.1 h) hne
  · rw [concat_eq_append] at h hne ⊢
    rw [dropLast_concat]
    exact (prefix_concat_iff.1 h).resolve_left hne

section Put

variable {node : Node} (hfits : (Change.put path node).fits (overlay done lower))
include hfits

theorem own_append_put (q : Location) :
    own (done ++ [.put path node]) q =
      if q = path then some node else if q <+: path then some .directory else own done q := by
  rw [own_append_singleton, Change.gives]
  split
  · rfl
  · split
    · rename_i hne hpre
      -- the layer has no node above the path, or a directory
      cases hown : own done q with
      | none => rfl
      | some n =>
        have habove := hfits.1 q ((mem_inits _ _).2 (prefix_dropLast hpre hne))
        rw [overlay_of_own hown] at habove
        simpa using habove
    · rfl

/-- A node that is no directory covers what is below it. Otherwise the locations that are covered stay the
same. -/
theorem covered_append_put (hp : ¬ p <+: path) :
    covered (done ++ [.put path node]) p = true ↔
      covered done p = true ∨ path <+: p ∧ node ≠ .directory := by
  simp only [covered_eq_true, own_append_put hfits]
  constructor
  · rintro ⟨q, n, hq, hne, hown, hn⟩
    split at hown
    · rename_i heq
      subst heq
      cases hown
      exact .inr ⟨hq, hn⟩
    · split at hown
      · cases hown
        exact absurd rfl hn
      · exact .inl ⟨q, n, hq, hne, hown, hn⟩
  · rintro (⟨q, n, hq, hne, hown, hn⟩ | ⟨hpre, hn⟩)
    · refine ⟨q, if q = path then node else n, hq, hne, ?_, ?_⟩
      · split
        · rfl
        · rename_i hqp
          rw [if_neg, hown]
          intro hpre
          have habove := hfits.1 q ((mem_inits _ _).2 (prefix_dropLast hpre hqp))
          rw [overlay_of_own hown] at habove
          exact hn (by simpa using habove)
      · split
        · rename_i heq
          subst heq
          rintro rfl
          have hthere := hfits.2
          rw [if_pos rfl, overlay_of_own hown] at hthere
          exact hn (by simpa using hthere)
        · exact hn
    · exact ⟨path, node, hpre, fun heq => hp (heq ▸ prefix_refl _), if_pos rfl, hn⟩

/-- A node at the end that finds nothing of another type in its way is put there, with the directories above
it. -/
theorem overlay_append_put
    (hclosed : ∀ p, path <+: p → p ≠ path → overlay done lower path ≠ some .directory →
      overlay done lower p = none) (p : Location) :
    overlay (done ++ [.put path node]) lower p =
      if p = path then some node else if p <+: path then some .directory else overlay done lower p := by
  by_cases hpre : p <+: path
  · have hown : own (done ++ [.put path node]) p =
        some (if p = path then node else .directory) := by
      rw [own_append_put hfits, if_pos hpre]
      split <;> rfl
    rw [overlay_of_own hown, if_pos hpre]
    split <;> rfl
  have hne : p ≠ path := fun heq => hpre (heq ▸ prefix_refl _)
  have hhides : (done ++ [Change.put path node]).any (·.hides p) = done.any (·.hides p) := by
    rw [any_append, any_cons, Change.hides, any_nil, Bool.or_false, Bool.or_false]
  rw [if_neg hne, if_neg hpre]
  by_cases hcovers : path <+: p ∧ node ≠ .directory
  · -- the file takes the place of something that is no directory either
    have hnotdir : overlay done lower path ≠ some .directory := by
      have hthere := hfits.2
      rwa [if_neg hcovers.2] at hthere
    have hnone := hclosed p hcovers.1 hne hnotdir
    have hown : own done p = none := by
      by_contra hown
      obtain ⟨n, hn⟩ := Option.ne_none_iff_exists'.1 hown
      rw [overlay_of_own hn] at hnone
      cases hnone
    rw [hnone, overlay, own_append_put hfits, if_neg hne, if_neg hpre, hown,
      (covered_append_put hfits hpre).2 (.inr hcovers)]
    simp
  · have hcovered : covered (done ++ [.put path node]) p = covered done p := by
      rw [Bool.eq_iff_iff, covered_append_put hfits hpre, or_iff_left hcovers]
    rw [overlay, overlay, own_append_put hfits, if_neg hne, if_neg hpre, hhides, hcovered]

end Put

end Z8s.Files
