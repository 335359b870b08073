import Z8s.Api.Bounds
import Z8s.Program.Proofs.QueryProofs

/-!
# Proofs: what an arbitrary body can do to the decoder

`read_varint` and `next_field` only move forward and stay within the data, so every loop of the
decoder ends (`sound_decodeBody`).
-/

namespace Z8s.Api

open Wire Program Api.Parser
open Query (sound_bind sound_pure)

variable {p p' : Parser}
variable {n : Nat} {prof : Profile}
variable (msg : List UInt8) (field : Nat)

namespace Parser

/-! ### Reading forward -/

theorem readVarintLoop_bounds {data : List UInt8} {rounds pos shift result : Nat}
    (h : readVarintLoop data rounds pos shift result = some (n, p)) (hresult : result < 2 ^ 64) :
    p.data = data ∧ pos < p.pos ∧ p.pos ≤ data.length ∧ n < 2 ^ 64 := by
  induction rounds generalizing pos shift result with
  | zero => simp [readVarintLoop] at h
  | succ rounds ih =>
    rw [readVarintLoop] at h
    cases hb : data[pos]? with
    | none => simp [hb] at h
    | some b =>
      obtain ⟨hlt, -⟩ := List.getElem?_eq_some_iff.1 hb
      have hor : result ||| ((b.toNat &&& 0x7f) <<< shift) % 2 ^ 64 < 2 ^ 64 :=
        Nat.or_lt_two_pow hresult (Nat.mod_lt _ (by omega))
      simp only [hb] at h
      split_ifs at h with hlast hshift
      · cases h
        exact ⟨rfl, Nat.lt_succ_self pos, hlt, hor⟩
      · obtain ⟨hdata, hpos, hle, hn⟩ := ih h hor
        exact ⟨hdata, by omega, hle, hn⟩

theorem readVarint_bounds (h : p.readVarint = some (n, p')) :
    p'.data = p.data ∧ p.pos < p'.pos ∧ p'.pos ≤ p.data.length ∧ n < 2 ^ 64 :=
  readVarintLoop_bounds h (by omega)

/-- The next `len` bytes when positions are not bounded. -/
def takeExact (p : Parser) (len : Nat) : Option (List UInt8 × Parser) :=
  if p.pos + len ≤ p.data.length then
    some ((p.data.take (p.pos + len)).drop p.pos, { p with pos := p.pos + len })
  else none

theorem takeBytes_eq (prof : Profile) {len : Nat} (hpos : p.pos ≤ p.data.length) (hlen : len < 2 ^ 64) :
    p.takeBytes prof len =
      if p.pos + len < 2 ^ 64 then .ok (p.takeExact len)
      else .error (if prof.overflowChecks then .overflow else .slice) := by
  unfold takeBytes usizeAdd
  by_cases hfits : p.pos + len < 2 ^ 64
  · rw [if_pos hfits, if_pos hfits]
    show (if p.pos + len > p.data.length then pure none else _) = _
    unfold takeExact slice
    by_cases hle : p.pos + len ≤ p.data.length
    · rw [if_neg (by omega), if_pos hle, if_pos ⟨by omega, hle⟩]
      rfl
    · rw [if_pos (by omega), if_neg hle]
      rfl
  · rw [if_neg hfits, if_neg hfits]
    cases hchecks : prof.overflowChecks with
    | true => rfl
    | false =>
      -- the end has wrapped to a position before the start
      have hwrap : (p.pos + len) % 2 ^ 64 < p.pos := by omega
      show (if (p.pos + len) % 2 ^ 64 > p.data.length then pure none else _) = _
      unfold slice
      rw [if_neg (by omega), if_neg (by omega)]
      rfl

theorem takeExact_bounds {len : Nat} {b : List UInt8} (h : p.takeExact len = some (b, p')) :
    p'.data = p.data ∧ p'.pos = p.pos + len ∧ p'.pos ≤ p.data.length := by
  unfold takeExact at h
  split_ifs at h with hle
  obtain ⟨-, rfl⟩ := Prod.mk.inj (Option.some.inj h)
  exact ⟨rfl, rfl, hle⟩

/-- The position `p'` is after `p`, in the same data. -/
structure Before (p p' : Parser) : Prop where
  data : p'.data = p.data
  lt : p.pos < p'.pos
  le : p'.pos ≤ p.data.length

theorem before_of_readVarint (h : p.readVarint = some (n, p')) : Before p p' :=
  have ⟨hdata, hlt, hle, _⟩ := readVarint_bounds h
  ⟨hdata, hlt, hle⟩

theorem Before.trans {p'' : Parser} (h : Before p p') (h' : Before p' p'') : Before p p'' where
  data := h'.data.trans h.data
  lt := h.lt.trans h'.lt
  le := h.data ▸ h'.le

/-- A call of `next_field` takes no slice, or it takes `len` bytes after the tag and the length. -/
theorem nextField_cases (prof : Profile) (p : Parser) :
    (p.valueEnd = none ∧ ∃ r, p.nextField prof = .ok r ∧ ∀ f p', r = some (f, p') → Before p p') ∨
    ∃ (p₁ : Parser) (len : Nat) (mk : List UInt8 → Field), Before p p₁ ∧ len < 2 ^ 64 ∧
      p.valueEnd = some (p₁.pos + len) ∧
      p.nextField prof = (p₁.takeBytes prof len).map (·.map fun (b, p') => (mk b, p')) := by
  unfold nextField valueEnd
  cases htag : p.readVarint with
  | none => exact .inl ⟨rfl, none, rfl, by simp⟩
  | some r =>
    obtain ⟨tag, p₁⟩ := r
    have hp₁ := before_of_readVarint htag
    dsimp only
    generalize hfield : (tag >>> 3) % 2 ^ 32 = field
    generalize hwire : tag &&& 0x7 = wire
    -- the wire types, in the order of `next_field`
    match wire with
    | 0 =>
      refine .inl ⟨rfl, _, rfl, fun f p' hr => ?_⟩
      obtain ⟨⟨n, p₂⟩, hn, heq⟩ := Option.map_eq_some_iff.1 hr
      obtain ⟨-, rfl⟩ := Prod.mk.inj heq
      exact hp₁.trans (before_of_readVarint hn)
    | 1 => exact .inr ⟨p₁, 8, fun b => ⟨field, .fixed64 (fromLeBytes b)⟩, hp₁, by omega, rfl, rfl⟩
    | 2 =>
      cases hlen : p₁.readVarint with
      | none => exact .inl ⟨rfl, none, rfl, by simp⟩
      | some r =>
        obtain ⟨len, p₂⟩ := r
        exact .inr ⟨p₂, len, fun b => ⟨field, .bytes b⟩, hp₁.trans (before_of_readVarint hlen),
          (readVarint_bounds hlen).2.2.2, rfl, rfl⟩
    | 5 => exact .inr ⟨p₁, 4, fun b => ⟨field, .fixed32 (fromLeBytes b)⟩, hp₁, by omega, rfl, rfl⟩
    | 3 | 4 | _ + 6 => exact .inl ⟨rfl, none, rfl, by simp⟩

theorem nextField_ok_iff (prof : Profile) (p : Parser) :
    (∃ r, p.nextField prof = .ok r) ↔ p.EndFits := by
  unfold EndFits
  rcases nextField_cases prof p with ⟨hend, r, hr, -⟩ | ⟨p₁, len, mk, hp₁, hlen, hend, hnext⟩
  · rw [hend]
    exact iff_of_true ⟨r, hr⟩ (by simp)
  · have hle : p₁.pos ≤ p₁.data.length := hp₁.data ▸ hp₁.le
    rw [hend, hnext, takeBytes_eq prof hle hlen]
    by_cases hfits : p₁.pos + len < 2 ^ 64
    · rw [if_pos hfits]
      exact iff_of_true ⟨_, rfl⟩ (by simpa using hfits)
    · rw [if_neg hfits]
      exact iff_of_false (fun ⟨r, hr⟩ => by cases hr) (by simpa using hfits)

theorem nextField_before {f : Field} (h : p.nextField prof = .ok (some (f, p'))) : Before p p' := by
  rcases nextField_cases prof p with ⟨-, r, hr, hbefore⟩ | ⟨p₁, len, mk, hp₁, hlen, -, hnext⟩
  · exact hbefore f p' (Except.ok.inj (hr.symm.trans h))
  · have hle : p₁.pos ≤ p₁.data.length := hp₁.data ▸ hp₁.le
    rw [hnext, takeBytes_eq prof hle hlen] at h
    by_cases hfits : p₁.pos + len < 2 ^ 64
    · rw [if_pos hfits] at h
      obtain ⟨⟨b, p₂⟩, htake, heq⟩ := Option.map_eq_some_iff.1 (Except.ok.inj h)
      obtain ⟨-, rfl⟩ := Prod.mk.inj heq
      obtain ⟨hdata, hpos, hle₂⟩ := takeExact_bounds htake
      exact ⟨hdata.trans hp₁.data, by have := hp₁.lt; omega, hp₁.data ▸ hle₂⟩
    · rw [if_neg hfits] at h
      cases h

theorem advances_of_ok (h : ∃ r, p.nextField prof = .ok r) : p.Advances prof := by
  obtain ⟨r, hr⟩ := h
  cases r with
  | none => exact .inl hr
  | some fp =>
    have hbefore := nextField_before hr
    exact .inr ⟨fp.1, fp.2, hr, hbefore.lt, hbefore.le⟩

end Parser

/-! ### Every loop ends -/

section Sound

variable {prof : Profile} {α : Type}

theorem sound_whileFields {body : α → Field → Decode (ForInStep α)}
    (hbody : ∀ acc f, (body acc f).Sound (nextField prof)) {fuel : Nat}
    (hfuel : p.data.length < fuel + p.pos) (acc : α) (hpos : p.pos ≤ p.data.length) :
    (whileFields body fuel p acc).Sound (nextField prof) := by
  induction fuel generalizing p acc with
  | zero => omega
  | succ fuel ih =>
    intro r hr
    cases r with
    | none => exact sound_pure acc
    | some fp =>
      obtain ⟨f, p'⟩ := fp
      have hbefore := nextField_before hr
      refine sound_bind (hbody acc f) fun s => ?_
      cases s with
      | done acc' => exact sound_pure acc'
      | yield acc' =>
        have hlt := hbefore.lt
        have hle := hbefore.le
        exact ih (by rw [hbefore.data]; omega) acc' (by rw [hbefore.data]; omega)

theorem sound_forFields (acc : α) {body : α → Field → Decode (ForInStep α)}
    (hbody : ∀ acc f, (body acc f).Sound (nextField prof)) :
    (forFields msg acc body).Sound (nextField prof) :=
  sound_whileFields hbody (by simp [new]) acc (Nat.zero_le _)

theorem sound_forEachField (acc : α) {visit : α → Field → Decode α}
    (hvisit : ∀ acc f, (visit acc f).Sound (nextField prof)) :
    (forEachField msg acc visit).Sound (nextField prof) :=
  sound_forFields msg acc fun acc f =>
    sound_bind (hvisit acc f) fun _ => sound_pure _

theorem sound_forBytes (acc : α) {body : α → Nat → List UInt8 → Decode (ForInStep α)}
    (hbody : ∀ acc f b, (body acc f b).Sound (nextField prof)) :
    (forBytes msg acc body).Sound (nextField prof) := by
  refine sound_forFields msg acc fun acc f => ?_
  split
  · exact hbody acc f.num _
  · exact sound_pure _

theorem sound_forBytesOf (acc : α) {visit : α → List UInt8 → Decode α}
    (hvisit : ∀ acc b, (visit acc b).Sound (nextField prof)) :
    (forBytesOf msg field acc visit).Sound (nextField prof) := by
  refine sound_forBytes msg acc fun acc f b => ?_
  split_ifs
  · exact sound_bind (hvisit acc b) fun acc' => sound_pure _
  · exact sound_pure _

theorem sound_getBytesField (target : Nat) : (getBytesField msg target).Sound (nextField prof) :=
  sound_forBytes msg none fun _ _ _ => sound_pure _

theorem sound_getStringField (target : Nat) : (getStringField msg target).Sound (nextField prof) :=
  sound_bind (sound_getBytesField msg target) fun _ => sound_pure _

theorem sound_getVarintField (target : Nat) :
    (getVarintField msg target).Sound (nextField prof) := by
  refine sound_forFields msg none fun acc f => ?_
  split <;> exact sound_pure _

theorem sound_parseLabels : (parseLabels msg field).Sound (nextField prof) := by
  refine sound_forBytesOf msg field [] fun labels b => ?_
  refine sound_bind (sound_getStringField b 1) fun k => ?_
  refine sound_bind (sound_getStringField b 2) fun v => ?_
  split <;> exact sound_pure _

theorem sound_of_getBytesField {msg : List UInt8} {target : Nat} {missing : α}
    {k : List UInt8 → Decode α} (hk : ∀ inner, (k inner).Sound (nextField prof)) :
    (do
      match ← getBytesField msg target with
      | none => return missing
      | some inner => k inner : Decode α).Sound (nextField prof) := by
  refine sound_bind (sound_getBytesField msg target) fun inner => ?_
  cases inner with
  | none => exact sound_pure _
  | some inner => exact hk inner

theorem sound_parseObjectMeta : (parseObjectMeta msg field).Sound (nextField prof) := by
  refine sound_of_getBytesField fun inner => ?_
  refine sound_bind (sound_getStringField inner 1) fun name => ?_
  refine sound_bind (sound_getStringField inner 2) fun generateName => ?_
  refine sound_bind (sound_getStringField inner 3) fun nspace => ?_
  refine sound_bind (sound_getStringField inner 5) fun uid => ?_
  exact sound_bind (sound_parseLabels inner 11) fun labels => sound_pure _

theorem sound_parseEnvVar (b : List UInt8) : (parseEnvVar b).Sound (nextField prof) := by
  refine sound_bind (sound_getStringField b 1) fun k => ?_
  cases k with
  | none => exact sound_pure _
  | some k => exact sound_bind (sound_getStringField b 2) fun v => sound_pure _

theorem sound_parseContainerPort (b : List UInt8) :
    (parseContainerPort b).Sound (nextField prof) := by
  refine sound_bind (sound_getVarintField b 1) fun port => ?_
  exact sound_bind (sound_getStringField b 4) fun protocol => sound_pure _

theorem sound_containerField (acc : ContainerLists) (f : Field) :
    (containerField acc f).Sound (nextField prof) := by
  unfold containerField
  split
  · exact sound_pure _
  · exact sound_pure _
  · exact sound_bind (sound_parseEnvVar _) fun env => sound_pure _
  · exact sound_bind (sound_parseContainerPort _) fun port => sound_pure _
  · exact sound_pure _

theorem sound_parseContainer : (parseContainer msg).Sound (nextField prof) := by
  refine sound_bind (sound_getStringField msg 1) fun name => ?_
  refine sound_bind (sound_getStringField msg 2) fun image => ?_
  exact sound_bind (sound_forEachField msg {} sound_containerField) fun lists =>
    sound_pure _

theorem sound_parseContainers : (parseContainers msg field).Sound (nextField prof) :=
  sound_forBytesOf msg field [] fun _ b =>
    sound_bind (sound_parseContainer b) fun _ => sound_pure _

theorem sound_parsePodSpec : (parsePodSpec msg field).Sound (nextField prof) := by
  refine sound_of_getBytesField fun inner => ?_
  refine sound_bind (sound_parseContainers inner 2) fun containers => ?_
  refine sound_bind (sound_parseContainers inner 20) fun initContainers => ?_
  refine sound_bind (sound_getStringField inner 6) fun dns => ?_
  refine sound_bind (sound_getStringField inner 8) fun svc => ?_
  exact sound_bind (sound_getStringField inner 3) fun restart => sound_pure _

theorem sound_parseSelector (inner : List UInt8) :
    (parseSelector inner).Sound (nextField prof) :=
  sound_of_getBytesField fun sel =>
    sound_bind (sound_parseLabels sel 1) fun _ => sound_pure _

theorem sound_parseTemplate (inner : List UInt8) :
    (parseTemplate inner).Sound (nextField prof) := by
  refine sound_of_getBytesField fun tmpl => ?_
  refine sound_bind (sound_parseObjectMeta tmpl 1) fun tmplMeta => ?_
  exact sound_bind (sound_parsePodSpec tmpl 2) fun tmplSpec => sound_pure _

theorem sound_parseDeploySpec : (parseDeploySpec msg field).Sound (nextField prof) := by
  refine sound_of_getBytesField fun inner => ?_
  refine sound_bind (sound_getVarintField inner 1) fun replicas => ?_
  refine sound_bind (sound_parseSelector inner) fun selector => ?_
  exact sound_bind (sound_parseTemplate inner) fun template => sound_pure _

theorem sound_typeMetaField (acc : Unknown) (f : Field) :
    (typeMetaField acc f).Sound (nextField prof) := by
  unfold typeMetaField
  split <;> exact sound_pure _

theorem sound_unknownField (acc : Unknown) (f : Field) :
    (unknownField acc f).Sound (nextField prof) := by
  unfold unknownField
  split
  · exact sound_forEachField _ acc sound_typeMetaField
  · exact sound_pure _
  · exact sound_pure _

theorem sound_decodeObject (u : Unknown) : (decodeObject u).Sound (nextField prof) := by
  have hmeta : (parseObjectMeta u.raw 1).Sound (nextField prof) :=
    sound_parseObjectMeta u.raw 1
  unfold decodeObject
  split_ifs
  · refine sound_bind (sound_bind hmeta fun m => sound_pure _) fun j => ?_
    exact sound_pure _
  · refine sound_bind (sound_bind hmeta fun m => ?_) fun j => sound_pure _
    exact sound_bind (sound_parsePodSpec u.raw 2) fun spec => sound_pure _
  · refine sound_bind (sound_bind hmeta fun m => ?_) fun j => sound_pure _
    exact sound_bind (sound_parseDeploySpec u.raw 2) fun spec => sound_pure _
  · exact sound_pure _

theorem sound_decodeBody (bytes : List UInt8) :
    (decodeBody bytes).Sound (nextField prof) := by
  unfold decodeBody
  split_ifs
  · exact sound_pure _
  · exact sound_bind (sound_forEachField _ {} sound_unknownField) sound_decodeObject

end Sound

/-- A body of any content is decoded safely exactly when no call of `next_field` meets a value whose
end is not a `usize`. -/
theorem decodedSafely_iff (prof : Profile) (bytes : List UInt8) :
    DecodedSafely prof bytes ↔ ∀ p ∈ calls prof bytes, p.EndFits := by
  have hrun : (∃ r, tryProtoToJson prof bytes = .ok r) ↔ ∀ p ∈ calls prof bytes, p.EndFits := by
    rw [tryProtoToJson, Query.run_ok_iff (sound_decodeBody bytes), calls]
    simp only [nextField_ok_iff]
  constructor
  · intro h
    exact hrun.1 h.returns
  · intro h
    exact ⟨hrun.2 h, fun p hp => advances_of_ok ((nextField_ok_iff prof p).2 (h p hp))⟩

/-- Fifteen bytes abort the process: the magic, and a `TypeMeta` that says it is `2 ^ 64 - 1` bytes
long. -/
theorem abort_on_long_length :
    tryProtoToJson ⟨false⟩ (magic ++ 0x0a :: List.replicate 9 0xff ++ [0x01]) = .error .slice ∧
    tryProtoToJson ⟨true⟩ (magic ++ 0x0a :: List.replicate 9 0xff ++ [0x01]) = .error .overflow ∧
    ¬ DecodedSafely ⟨false⟩ (magic ++ 0x0a :: List.replicate 9 0xff ++ [0x01]) := by
  have hslice : tryProtoToJson ⟨false⟩ (magic ++ 0x0a :: List.replicate 9 0xff ++ [0x01]) =
      .error .slice := by rfl
  refine ⟨hslice, by rfl, fun h => ?_⟩
  obtain ⟨r, hr⟩ := h.returns
  rw [hslice] at hr
  cases hr

end Z8s.Api
