import Z8s.Network.NetworkPolicy
import Z8s.Transition.Proofs.RunProofs

/-!
# Proofs: network policies

A controller that has just been made tracks no set, so neither `update_pod` nor `remove_pod` changes
one, and a policy creates its sets without elements.
-/

namespace Z8s.Network

open Rust Collections Z8s.Types Netmux Nftables Transition
open Netmux.NetworkPolicyController HashMap PolicyState

/-! ### The sets stay empty -/

theorem elements_createSet (k : NftState) (name : String) (ips : List Ipv4Addr) (o : Outcome)
    (other : String) : (k.createSet name ips o).1.elements other =
      if o.executes = true ∧ other = name then k.elements name ∪ ips else k.elements other := by
  unfold NftState.createSet
  cases o.executes with
  | false => simp [NftState.elements]
  | true =>
    simp only [if_true, true_and]
    unfold NftState.elements
    rw [get_insert]
    split_ifs <;> rfl

def EmptySets (k : NftState) : Prop := ∀ name, k.elements name = []

section Apply

variable (parse : String → Except Error IpNetwork) {s : NetworkPolicyController × NftState}

theorem emptySets_exec (h : EmptySets s.2) (o : Outcome) (step : PolicyStep) :
    EmptySets (step.exec parse s o).1.2 := by
  cases step with
  | createSet name =>
    intro other
    have hempty : s.2.elements name ∪ [] = [] := by rw [h name]; rfl
    exact (elements_createSet s.2 name [] o other).trans (by rw [hempty, h other, ite_self])
  | addForwardAllowSetSrc name | track name set | addForwardAllow cidr | addForwardDeny cidr => exact h

theorem emptySets_runSteps (h : EmptySets s.2) (out : Nat → Outcome) (steps : List PolicyStep) :
    EmptySets (runSteps parse s out steps).1.2 := by
  induction steps generalizing s out with
  | nil => exact h
  | cons step rest ih =>
    have hstep := emptySets_exec parse h (out 0) step
    unfold runSteps andThen
    split
    · exact hstep
    · exact ih hstep _

end Apply

/-! ### Events -/

variable {parse : String → Except Error IpNetwork} {s s' : PolicyState} {e : PolicyEvent}

/-- What an event can do: store a policy, report a pod, take one out of the reports, or nothing. The sets
are empty afterwards if they were before. -/
inductive PolicyMove (s s' : PolicyState) : PolicyEvent → Prop
  | applied {np out} (happlied : s'.applied = s.applied.insert (policyNamespace np, policyName np) np)
      (hreported : s'.reported = s.reported) : PolicyMove s s' (.applyPolicy np out)
  | reported {tracker ready podIp out ip labels} (hreport : podReport tracker ready podIp = some (ip, labels))
      (happlied : s'.applied = s.applied) (hreported : s'.reported = s.reported.insert ip labels) :
      PolicyMove s s' (.reconcilePod tracker ready podIp out)
  | unreported {tracker ready podIp out} (hreport : podReport tracker ready podIp = none) (hs : s' = s) :
      PolicyMove s s' (.reconcilePod tracker ready podIp out)
  | removed {resource podIp out} (happlied : s'.applied = s.applied)
      (hreported : ∀ ip labels, s'.reported.get ip = some labels → s.reported.get ip = some labels) :
      PolicyMove s s' (.deletePod resource podIp out)

theorem policyMove_of_step (hempty : EmptySets s.kernel) (h : s.step parse e = some s') :
    EmptySets s'.kernel ∧ PolicyMove s s' e := by
  cases e with
  | applyPolicy np out =>
    cases h
    exact ⟨emptySets_runSteps parse hempty out _, .applied rfl rfl⟩
  | reconcilePod tracker ready podIp out =>
    simp only [step] at h
    cases hreport : podReport tracker ready podIp with
    | none =>
      rw [hreport] at h
      cases h
      exact ⟨hempty, .unreported hreport rfl⟩
    | some report =>
      rw [hreport] at h
      cases h
      exact ⟨hempty, .reported hreport rfl rfl⟩
  | deletePod resource podIp out =>
    simp only [step] at h
    cases hremoval : podRemoval resource podIp with
    | none =>
      rw [hremoval] at h
      cases h
      exact ⟨hempty, .removed rfl fun _ _ hget => hget⟩
    | some ip =>
      rw [hremoval] at h
      cases h
      refine ⟨hempty, .removed rfl fun other labels hget => ?_⟩
      rw [PolicyState.remove, get_remove] at hget
      split_ifs at hget
      exact hget

def NoneSelected (s : PolicyState) : Prop :=
  ∀ key, ∀ np ∈ s.applied.get key, ∀ sel ∈ podSelectors np, ∀ ip, ∀ labels ∈ s.reported.get ip,
    labelsMatchSelector labels sel.2 = false

theorem setsHoldSelected_iff (hempty : EmptySets s.kernel) : SetsHoldSelected s ↔ NoneSelected s := by
  unfold SetsHoldSelected NoneSelected
  simp only [hempty _, List.not_mem_nil, false_iff, not_exists, not_and, Bool.not_eq_true]

theorem noneSelected_step_iff (hs : NoneSelected s) (hmove : PolicyMove s s' e) :
    NoneSelected s' ↔ SelectsNone s e := by
  cases hmove with
  | @applied np out happlied hreported =>
    constructor
    · intro hs' sel hsel labels hlabels
      obtain ⟨ip, hget⟩ := mem_values.1 hlabels
      refine hs' (policyNamespace np, policyName np) np ?_ sel hsel ip labels ?_
      · rw [happlied]
        exact get_insert_self _ _ _
      · rw [hreported]
        exact hget
    · intro hnone key np' hnp' sel hsel ip labels hget
      rw [hreported] at hget
      rw [happlied, get_insert] at hnp'
      split_ifs at hnp'
      · cases hnp'
        exact hnone sel hsel labels (mem_values.2 ⟨ip, hget⟩)
      · exact hs key np' hnp' sel hsel ip labels hget
  | @reported tracker ready podIp out ip labels hreport happlied hreported =>
    constructor
    · intro hs' report hmem np hnp sel hsel
      obtain rfl := Option.some.inj (hreport.symm.trans hmem)
      obtain ⟨key, hkey⟩ := mem_values.1 hnp
      refine hs' key np ?_ sel hsel ip labels ?_
      · rw [happlied]
        exact hkey
      · rw [hreported]
        exact get_insert_self _ _ _
    · intro hnone key np hnp sel hsel ip' labels' hget
      rw [happlied] at hnp
      rw [hreported, get_insert] at hget
      split_ifs at hget
      · cases hget
        exact hnone (ip, labels) hreport np (mem_values.2 ⟨key, hnp⟩) sel hsel
      · exact hs key np hnp sel hsel ip' labels' hget
  | unreported hreport hs' =>
    subst hs'
    refine iff_of_true hs fun report hmem => ?_
    rw [hreport] at hmem
    cases hmem
  | removed happlied hreported =>
    refine iff_of_true (fun key np hnp sel hsel ip labels hget => ?_) trivial
    rw [happlied] at hnp
    exact hs key np hnp sel hsel ip labels (hreported ip labels hget)

/-- No event is refused. -/
theorem isSome_run (s : PolicyState) (es : List PolicyEvent) :
    (run (step parse) s es).isSome := by
  induction es generalizing s with
  | nil => rfl
  | cons e es ih =>
    have hstep : ∃ s', s.step parse e = some s' := by
      cases e with
      | applyPolicy np out => exact ⟨_, rfl⟩
      | reconcilePod tracker ready podIp out =>
        simp only [step]
        cases podReport tracker ready podIp <;> exact ⟨_, rfl⟩
      | deletePod resource podIp out =>
        simp only [step]
        cases podRemoval resource podIp <;> exact ⟨_, rfl⟩
    obtain ⟨s', hs'⟩ := hstep
    rw [run, hs']
    exact ih s'

/-- The sets hold the selected pods, in every state of a run, exactly if the run never reports a pod that
a selector matches. -/
theorem setsHoldSelected_along (parse : String → Except Error IpNetwork) (nft : NftEngine)
    (es : List PolicyEvent) :
    Always (PolicyState.step parse) SetsHoldSelected (.new nft) es ↔
      Along (PolicyState.step parse) SelectsNone (.new nft) es := by
  have hstart : EmptySets (new nft).kernel ∧ NoneSelected (.new nft) :=
    ⟨fun name => rfl, fun key np hnp => by cases hnp⟩
  refine always_iff_along (I := fun s => EmptySets s.kernel ∧ NoneSelected s) ?_
    (fun s hs => (setsHoldSelected_iff hs.1).2 hs.2) ?_ hstart (isSome_run _ es)
  · intro s e s' hs hok hstep
    obtain ⟨hempty, hmove⟩ := policyMove_of_step hs.1 hstep
    exact ⟨hempty, (noneSelected_step_iff hs.2 hmove).2 hok⟩
  · intro s e s' hs hstep hs'
    obtain ⟨hempty, hmove⟩ := policyMove_of_step hs.1 hstep
    exact (noneSelected_step_iff hs.2 hmove).1 ((setsHoldSelected_iff hempty).1 hs')

private def policyLabels : Labels := .ofList [("app", "web")]

/-- The policy lets in the pods with the label `app=web`. -/
private def fromWeb : NetworkPolicy where
  metadata := { name := some "allow-web", inNamespace := some "default" }
  spec := some { ingress := some [some [{ podSelector := some { matchLabels := some policyLabels } }]] }

private def reportedPod : ResourceTracker where
  resource := .pod { metadata := { name := some "web", labels := some policyLabels } }
  state := .running

/-- The policy is applied, then the pod is ready with an address; the set has no elements, though the
address is one of a selected pod. -/
theorem set_without_selected_pod :
    ∃ s ∈ run (PolicyState.step IpNetwork.parseV4) (.new (initialised .new))
      [.applyPolicy fromWeb fun _ => .answered,
        .reconcilePod reportedPod true (some (Ipv4Addr.new 10 42 0 2)) fun _ => .answered],
      podSelectors fromWeb = [("np:default:allow-web:0", { matchLabels := some policyLabels })] ∧
      s.applied.get ("default", "allow-web") = some fromWeb ∧
      s.reported.get (Ipv4Addr.new 10 42 0 2) = some policyLabels ∧
      labelsMatchSelector policyLabels { matchLabels := some policyLabels } = true ∧
      s.kernel.sets.get "np:default:allow-web:0" = some [] := by
  decide +kernel

end Z8s.Network
