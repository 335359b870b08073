import Z8s.Labels.Requirement
import Z8s.Rust.Proofs.StrProofs

/-!
# Characters of requirements

Keys and values consist of few characters, so the other characters of a requirement show what kind it is.
-/

namespace Z8s.Labels

open Rust List

def isLabelChar (c : Char) : Bool := c.isAlphanum || ['-', '_', '.', '/'].contains c

variable {c : Char}

theorem isLabelChar_range (h : isLabelChar c = true) :
    45 ≤ c.toNat ∧ c.toNat ≤ 57 ∨ 65 ≤ c.toNat ∧ c.toNat ≤ 90 ∨ c.toNat = 95 ∨ 97 ≤ c.toNat ∧ c.toNat ≤ 122 := by
  rw [isLabelChar, Bool.or_eq_true] at h
  rcases h with halnum | hother
  · have hrange := isAlphanum_range halnum
    omega
  · simp only [contains_iff_mem, mem_cons, not_mem_nil, or_false] at hother
    rcases hother with rfl | rfl | rfl | rfl <;> decide

theorem isLabelChar_ascii (h : isLabelChar c = true) : c.toNat < 128 := by
  have := isLabelChar_range h
  omega

theorem isLabelChar_not_whitespace (h : isLabelChar c = true) : isWhitespace c = false := by
  have hrange := isLabelChar_range h
  exact isWhitespace_of_visible (by omega)

theorem all_of_isName {inner : Char → Bool} {cs : List Char} (h : isName inner cs = true) (hc : c ∈ cs) :
    inner c = true := by
  rw [isName, Bool.and_eq_true, Bool.and_eq_true, all_eq_true] at h
  exact h.1.1 c hc

theorem isLabelChar_of_isLabelName {s : String} (h : isLabelName s = true) (hc : c ∈ s.toList) :
    isLabelChar c = true := by
  rw [isLabelName, Bool.and_eq_true] at h
  have hinner := all_of_isName h.2 hc
  simp only [Bool.or_eq_true, beq_iff_eq] at hinner
  rcases hinner with ((halnum | rfl) | rfl) | rfl
  · simp [isLabelChar, halnum]
  all_goals decide

theorem isLabelChar_of_isSubdomain {s : String} (h : isSubdomain s = true) (hc : c ∈ s.toList) :
    isLabelChar c = true := by
  rw [isSubdomain, Bool.and_eq_true, all_eq_true] at h
  rw [← joinChar_splitChar '.' s] at hc
  rcases mem_joinChar hc with rfl | ⟨part, hpart, hc⟩
  · decide
  · have hinner := all_of_isName (h.2 part hpart) hc
    simp only [Bool.or_eq_true, beq_iff_eq] at hinner
    rcases hinner with (hlower | hdigit) | rfl
    · have halnum : c.isAlphanum = true := Bool.or_eq_true_iff.2 (.inl (Bool.or_eq_true_iff.2 (.inr hlower)))
      simp [isLabelChar, halnum]
    · have halnum : c.isAlphanum = true := Bool.or_eq_true_iff.2 (.inr hdigit)
      simp [isLabelChar, halnum]
    · decide

theorem LabelKey.parts (k : LabelKey) : ∃ name, isLabelName name = true ∧ (splitChar '/' k.text = [name] ∨
    ∃ subdomain, isSubdomain subdomain = true ∧ splitChar '/' k.text = [subdomain, name]) := by
  have hvalid := k.valid
  unfold isLabelKey at hvalid
  split at hvalid
  · rename_i name hsplit
    exact ⟨name, hvalid, .inl hsplit⟩
  · rename_i subdomain name hsplit
    rw [Bool.and_eq_true] at hvalid
    exact ⟨name, hvalid.2, .inr ⟨subdomain, hvalid.1, hsplit⟩⟩
  · exact absurd hvalid (by decide)

theorem LabelKey.isLabelChar (k : LabelKey) (hc : c ∈ k.text.toList) : isLabelChar c = true := by
  rw [← joinChar_splitChar '/' k.text] at hc
  rcases mem_joinChar hc with rfl | ⟨part, hpart, hc⟩
  · decide
  obtain ⟨name, hname, hsplit | ⟨subdomain, hsubdomain, hsplit⟩⟩ := k.parts
  · rw [hsplit, mem_singleton] at hpart
    exact isLabelChar_of_isLabelName hname (hpart ▸ hc)
  · rw [hsplit, mem_cons, mem_singleton] at hpart
    rcases hpart with rfl | rfl
    · exact isLabelChar_of_isSubdomain hsubdomain hc
    · exact isLabelChar_of_isLabelName hname hc

theorem LabelKey.ne_empty (k : LabelKey) : k.text ≠ "" := by
  intro hempty
  have hvalid := k.valid
  rw [hempty] at hvalid
  exact absurd hvalid (by decide)

theorem LabelValue.isLabelChar (v : LabelValue) (hc : c ∈ v.text.toList) : isLabelChar c = true := by
  have hvalid := v.valid
  rw [isLabelValue, Bool.or_eq_true, beq_iff_eq] at hvalid
  rcases hvalid with hempty | hname
  · rw [hempty] at hc
    cases hc
  · exact isLabelChar_of_isLabelName hname hc

/-! ### Texts of requirements -/

def isTextChar (c : Char) : Bool := ['=', '!', '(', ')', ',', ' '].contains c || isLabelChar c

theorem isTextChar_ascii (h : isTextChar c = true) : c.toNat < 128 := by
  rw [isTextChar, Bool.or_eq_true, contains_iff_mem] at h
  rcases h with hpunct | hlabel
  · have hall : (['=', '!', '(', ')', ',', ' '].all fun c => c.toNat < 128) = true := by decide
    exact of_decide_eq_true (all_eq_true.1 hall c hpunct)
  · exact isLabelChar_ascii hlabel

theorem LabelKey.all_isTextChar (k : LabelKey) : k.text.toList.all isTextChar = true :=
  all_eq_true.2 fun _ hc => Bool.or_eq_true_iff.2 (.inr (k.isLabelChar hc))

theorem LabelValue.all_isTextChar (v : LabelValue) : v.text.toList.all isTextChar = true :=
  all_eq_true.2 fun _ hc => Bool.or_eq_true_iff.2 (.inr (v.isLabelChar hc))

namespace Requirement

variable {v : LabelValue} {vs : List LabelValue}

theorem mem_valuesText (hc : c ∈ (valuesText v vs).toList) : c = ',' ∨ Labels.isLabelChar c = true := by
  rcases mem_joinChar hc with rfl | ⟨p, hp, hc⟩
  · exact .inl rfl
  · obtain ⟨w, -, rfl⟩ := mem_map.1 hp
    exact .inr (w.isLabelChar hc)

theorem all_isTextChar_valuesText : (valuesText v vs).toList.all isTextChar = true := by
  rw [all_eq_true]
  intro c hc
  rcases mem_valuesText hc with rfl | hlabel
  · decide
  · exact Bool.or_eq_true_iff.2 (.inr hlabel)

theorem all_isTextChar (r : Requirement) : r.text.toList.all isTextChar = true := by
  have hliteral : ∀ s ∈ ["=", "==", "!=", "!", " in (", " notin (", ")"], s.toList.all isTextChar = true := by decide
  cases r with
  | equals k double v =>
    have hsign : (if double then "==" else "=").toList.all isTextChar = true := by cases double <;> decide
    simp only [text, String.toList_append, all_append, k.all_isTextChar, v.all_isTextChar, hsign, Bool.and_true]
  | notEquals k v =>
    simp only [text, String.toList_append, all_append, k.all_isTextChar, v.all_isTextChar, hliteral "!=" (by simp),
      Bool.and_true]
  | present k => exact k.all_isTextChar
  | absent k =>
    simp only [text, String.toList_append, all_append, k.all_isTextChar, hliteral "!" (by simp), Bool.and_true]
  | isIn k v vs =>
    simp only [text, String.toList_append, all_append, k.all_isTextChar, all_isTextChar_valuesText,
      hliteral " in (" (by simp), hliteral ")" (by simp), Bool.and_true]
  | notIn k v vs =>
    simp only [text, String.toList_append, all_append, k.all_isTextChar, all_isTextChar_valuesText,
      hliteral " notin (" (by simp), hliteral ")" (by simp), Bool.and_true]

end Requirement

theorem isTextChar_selectorText {reqs : List Requirement} (hc : c ∈ (selectorText reqs).toList) :
    isTextChar c = true := by
  rcases mem_joinChar hc with rfl | ⟨p, hp, hc⟩
  · decide
  · obtain ⟨r, -, rfl⟩ := mem_map.1 hp
    exact all_eq_true.1 r.all_isTextChar c hc

end Z8s.Labels
