import Fornax.Contract.Model
import Fornax.Lib.Fallible

namespace Fornax

open Fallible List OrdSet
open Relation (ReflTransGen)

/-- `l` lists `c` and its ancestors up to a root. -/
inductive Lineage (r : ContractRegistry) : ClaimClassId → List ClaimClassId → Prop
  | root {c : ClaimClassId} {k : EpistemicContract} (hget : r.contracts.get? c = some k)
      (hparent : k.parent = none) : Lineage r c [c]
  | step {c p : ClaimClassId} {k : EpistemicContract} {l : List ClaimClassId}
      (hget : r.contracts.get? c = some k) (hparent : k.parent = some p) (hl : Lineage r p l) :
      Lineage r c (c :: l)

def HasParent (r : ContractRegistry) (c p : ClaimClassId) : Prop :=
  ∃ k, r.contracts.get? c = some k ∧ k.parent = some p

variable {r : ContractRegistry} {l : List ClaimClassId} {child anc cc : ClaimClassId}
  {m n : OrdMap String EvidenceRequirement}

theorem walkParents_ok {start : ClaimClassId} {fuel : ℕ} {current : ClaimClassId}
    {chain full : List ClaimClassId} (hnd : (chain ++ [current]).Nodup)
    (h : r.walkParents start fuel current chain = .ok full) :
    ∃ l, Lineage r current l ∧ full = chain ++ l ∧ full.Nodup ∧ full.length ≤ r.contracts.size := by
  induction fuel generalizing current chain with
  | zero => cases h
  | succ fuel ih =>
    unfold ContractRegistry.walkParents at h
    cases hget : r.contracts.get? current with
    | none => simp [hget] at h
    | some k =>
      simp only [hget] at h
      split at h
      · cases h
      · next hlen =>
        cases hp : k.parent with
        | none =>
          simp only [hp] at h
          have hfull := Except.ok.inj h
          subst hfull
          exact ⟨[current], .root hget hp, rfl, hnd, by omega⟩
        | some p =>
          simp only [hp] at h
          split at h
          · cases h
          · next hmem =>
            have hnd' : ((chain ++ [current]) ++ [p]).Nodup :=
              nodup_append'.mpr ⟨hnd, nodup_singleton p, by simpa using hmem⟩
            obtain ⟨l, hl, hfull, hfnd, hflen⟩ := ih hnd' h
            refine ⟨current :: l, .step hget hp hl, ?_, hfnd, hflen⟩
            rw [hfull, append_assoc]
            rfl

theorem walkParents_of_lineage (start : ClaimClassId) {current : ClaimClassId}
    (hl : Lineage r current l) {fuel : ℕ} {chain : List ClaimClassId} (hnd : (chain ++ l).Nodup)
    (hlen : (chain ++ l).length ≤ r.contracts.size) (hfuel : l.length ≤ fuel) :
    r.walkParents start fuel current chain = .ok (chain ++ l) := by
  induction hl generalizing fuel chain with
  | root hget hparent =>
    rename_i c k
    obtain ⟨fuel, rfl⟩ : ∃ m, fuel = m + 1 := ⟨fuel - 1, by simp at hfuel; omega⟩
    simp only [ContractRegistry.walkParents, hget, hparent]
    rw [if_neg (by omega)]
  | step hget hparent hl ih =>
    rename_i c p k l
    obtain ⟨fuel, rfl⟩ : ∃ m, fuel = m + 1 := ⟨fuel - 1, by simp at hfuel; omega⟩
    have hassoc : chain ++ c :: l = (chain ++ [c]) ++ l := by simp
    have hp : p ∈ l := by cases hl <;> exact mem_cons_self
    rw [hassoc] at hnd hlen ⊢
    have hnotin : p ∉ chain ++ [c] := fun hmem => (disjoint_of_nodup_append hnd) hmem hp
    simp only [ContractRegistry.walkParents, hget, hparent]
    rw [if_neg (by simp only [length_append] at hlen ⊢; omega), if_neg hnotin]
    exact ih hnd hlen (by simp at hfuel; omega)

theorem Lineage.suffix_of_ancestor (h : ReflTransGen (HasParent r) child anc)
    (hl : Lineage r child l) : ∃ pre l', l = pre ++ l' ∧ Lineage r anc l' := by
  induction h using ReflTransGen.head_induction_on generalizing l with
  | refl => exact ⟨[], l, rfl, hl⟩
  | head hp _ ih =>
    obtain ⟨k, hget, hparent⟩ := hp
    cases hl with
    | root hget' hparent' =>
      obtain rfl := Option.some.inj (hget.symm.trans hget')
      cases hparent.symm.trans hparent'
    | step hget' hparent' hl =>
      obtain rfl := Option.some.inj (hget.symm.trans hget')
      obtain rfl := Option.some.inj (hparent.symm.trans hparent')
      obtain ⟨pre, l', rfl, hl'⟩ := ih hl
      exact ⟨_ :: pre, l', rfl, hl'⟩

theorem parentChain_ancestor (h : ReflTransGen (HasParent r) child anc)
    {full : List ClaimClassId} (hc : r.parentChain child = .ok full) :
    ∃ pre l, full = pre ++ l ∧ r.parentChain anc = .ok l := by
  obtain ⟨l, hl, hfull, hnd, hlen⟩ := walkParents_ok (nodup_singleton child) hc
  rw [nil_append] at hfull
  subst hfull
  obtain ⟨pre, l', rfl, hl'⟩ := hl.suffix_of_ancestor h
  have hlen' : l'.length ≤ r.contracts.size := by
    rw [length_append] at hlen
    omega
  refine ⟨pre, l', rfl, ?_⟩
  exact walkParents_of_lineage anc hl' (nodup_append'.mp hnd).2.1 hlen' (by omega)

def KeyedById (m : OrdMap String EvidenceRequirement) : Prop :=
  ∀ id a, m.get? id = some a → a.id = id

/-- What `checkOverride` guarantees about a later version `b` of `a`. -/
def AtLeast (a b : EvidenceRequirement) : Prop :=
  a.minItems.toNat ≤ b.minItems.toNat ∧ (a.level = .required → b.level = .required)

def Covers (m n : OrdMap String EvidenceRequirement) : Prop :=
  ∀ id a, m.get? id = some a → ∃ b, n.get? id = some b ∧ AtLeast a b

theorem Covers.refl (m : OrdMap String EvidenceRequirement) : Covers m m :=
  fun _ a ha => ⟨a, ha, le_refl _, fun h => h⟩

theorem Covers.trans {k : OrdMap String EvidenceRequirement} (h : Covers m n) (h' : Covers n k) :
    Covers m k := by
  intro id a ha
  obtain ⟨b, hb, hmin, hlevel⟩ := h id a ha
  obtain ⟨c, hc, hmin', hlevel'⟩ := h' id b hb
  exact ⟨c, hc, hmin.trans hmin', fun hr => hlevel' (hlevel hr)⟩

theorem checkOverride_ok {a b : EvidenceRequirement} (h : checkOverride cc a b = .ok ()) :
    AtLeast a b := by
  unfold checkOverride at h
  split at h
  · cases h
  · next hrank =>
    split at h
    · cases h
    · next hmin =>
      refine ⟨UInt32.le_iff_toNat_le.mp (UInt32.not_lt.mp hmin), ?_⟩
      intro hreq
      rw [hreq] at hrank
      cases hb : b.level with
      | required => rfl
      | recommended => simp [hb, RequirementLevel.strictnessRank] at hrank
      | conditional c => simp [hb, RequirementLevel.strictnessRank] at hrank

theorem mergeRequirement_ok {parent : OrdMap String EvidenceRequirement} {req : EvidenceRequirement}
    (h : mergeRequirement cc parent m req = .ok n) :
    n = m.insert req.id req ∧ ∀ a, parent.get? req.id = some a → AtLeast a req := by
  unfold mergeRequirement at h
  cases hp : parent.get? req.id with
  | none =>
    simp only [hp] at h
    exact ⟨(Except.ok.inj h).symm, fun a ha => by cases ha⟩
  | some a =>
    simp only [hp] at h
    obtain ⟨⟨⟩, hcheck, hn⟩ := bind_eq_ok.mp h
    refine ⟨(Except.ok.inj hn).symm, ?_⟩
    intro b hb
    rw [← Option.some.inj hb]
    exact checkOverride_ok hcheck

theorem compose_ok {parent merged : OrdMap String EvidenceRequirement}
    {own : List EvidenceRequirement} (hkey : KeyedById parent)
    (h : compose cc parent own = .ok merged) : KeyedById merged ∧ Covers parent merged := by
  refine foldlM_invariant (P := fun m => KeyedById m ∧ Covers parent m) ?_
    ⟨hkey, Covers.refl parent⟩ h
  rintro m req n - ⟨hm, hcov⟩ hstep
  obtain ⟨rfl, hatleast⟩ := mergeRequirement_ok hstep
  constructor
  · intro id a ha
    rw [OrdMap.get?_insert] at ha
    split at ha
    · next hid => rw [← Option.some.inj ha, hid]
    · exact hm id a ha
  · intro id a ha
    rw [OrdMap.get?_insert]
    split
    · next hid => exact ⟨req, rfl, hatleast a (hid ▸ ha)⟩
    · exact hcov id a ha

theorem foldlM_composeClass_ok (hkey : KeyedById m) (h : l.foldlM r.composeClass m = .ok n) :
    KeyedById n ∧ Covers m n := by
  refine foldlM_invariant (P := fun k => KeyedById k ∧ Covers m k) ?_ ⟨hkey, Covers.refl m⟩ h
  rintro k cc k' - ⟨hk, hcov⟩ hstep
  unfold ContractRegistry.composeClass at hstep
  split at hstep
  · obtain ⟨hk', hcov'⟩ := compose_ok hk hstep
    exact ⟨hk', hcov.trans hcov'⟩
  · rw [← Except.ok.inj hstep]
    exact ⟨hk, hcov⟩

theorem effectiveRequirements_ok {reqs : List EvidenceRequirement} :
    r.effectiveRequirements cc = .ok reqs ↔
      ∃ chain m, r.parentChain cc = .ok chain ∧ r.composeChain chain = .ok m ∧ m.values = reqs := by
  unfold ContractRegistry.effectiveRequirements
  simp only [bind_eq_ok, pure, Except.pure, Except.ok.injEq]
  constructor
  · rintro ⟨chain, hchain, m, hm, hv⟩
    exact ⟨chain, m, hchain, hm, hv⟩
  · rintro ⟨chain, m, hchain, hm, hv⟩
    exact ⟨chain, hchain, m, hm, hv⟩

theorem effectiveRequirements_ancestor (h : ReflTransGen (HasParent r) child anc)
    {reqsC : List EvidenceRequirement} (hc : r.effectiveRequirements child = .ok reqsC) :
    ∃ mA mC, r.effectiveRequirements anc = .ok mA.values ∧ reqsC = mC.values ∧
      KeyedById mA ∧ KeyedById mC ∧ Covers mA mC := by
  obtain ⟨full, mC, hfull, hmC, hv⟩ := effectiveRequirements_ok.mp hc
  obtain ⟨pre, l, rfl, hl⟩ := parentChain_ancestor h hfull
  rw [ContractRegistry.composeChain, reverse_append, foldlM_append] at hmC
  obtain ⟨mA, hmA, hrest⟩ := bind_eq_ok.mp hmC
  have hkeyA : KeyedById mA := (foldlM_composeClass_ok (fun id a ha => by simp at ha) hmA).1
  obtain ⟨hkeyC, hcov⟩ := foldlM_composeClass_ok hkeyA hrest
  exact ⟨mA, mC, effectiveRequirements_ok.mpr ⟨l, mA, hl, hmA, rfl⟩, hv.symm, hkeyA, hkeyC, hcov⟩

theorem KeyedById.mem_values (h : KeyedById m) {a : EvidenceRequirement} :
    a ∈ m.values ↔ m.get? a.id = some a := by
  rw [OrdMap.mem_values]
  refine ⟨?_, fun ha => ⟨a.id, ha⟩⟩
  rintro ⟨k, hk⟩
  rw [h k a hk]
  exact hk

theorem KeyedById.map_ids (h : KeyedById m) : m.values.map EvidenceRequirement.id = m.keys := by
  rw [OrdMap.values, OrdMap.keys, map_map]
  refine map_congr_left ?_
  rintro ⟨k, a⟩ hmem
  exact h k a (OrdMap.mem_entries.mp hmem)

theorem KeyedById.nodup_ids (h : KeyedById m) : (m.values.map EvidenceRequirement.id).Nodup := by
  rw [h.map_ids]
  exact m.nodup_keys

theorem mem_of_foldl_choice {α : Type} {f : Option α → α → Option α}
    (hf : ∀ o x s, f o x = some s → s = x ∨ o = some s) {l : List α} {init : Option α} {s : α}
    (h : l.foldl f init = some s) : s ∈ l ∨ init = some s := by
  induction l generalizing init with
  | nil => exact .inr h
  | cons x l ih =>
    rw [foldl_cons] at h
    rcases ih h with hl | hx
    · exact .inl (mem_cons_of_mem _ hl)
    · rcases hf init x s hx with rfl | hinit
      · exact .inl mem_cons_self
      · exact .inr hinit

theorem higherRank_choice (o : Option SatisfactionState) (x s : SatisfactionState)
    (h : higherRank o x = some s) : s = x ∨ o = some s := by
  unfold higherRank at h
  split at h
  · exact .inl (Option.some.inj h).symm
  · split at h
    · exact .inl (Option.some.inj h).symm
    · exact .inr h

theorem maxByRank_mem {l : List SatisfactionState} {s : SatisfactionState}
    (h : maxByRank l = some s) : s ∈ l :=
  (mem_of_foldl_choice higherRank_choice h).resolve_right fun hn => nomatch hn

theorem overallState_satisfied {conditions : List String} {per : List RequirementAssessment} :
    overallState conditions per = .satisfied ↔
      ∀ ra ∈ per, ra.level.blocking conditions → ra.state = .satisfied := by
  unfold overallState
  split
  · next hany =>
    obtain ⟨ra, hra, hblock⟩ := any_eq_true.mp hany
    simp only [Bool.and_eq_true, bne_iff_ne, ne_eq] at hblock
    refine ⟨?_, fun h => absurd (h ra hra hblock.1) hblock.2⟩
    intro h
    cases hm : maxByRank ((per.filter RequirementAssessment.reportable).map (·.state)) with
    | none => simp [hm] at h
    | some s =>
      rw [hm, Option.getD_some] at h
      obtain ⟨rb, hrb, hs⟩ := mem_map.mp (maxByRank_mem hm)
      have hrep := (mem_filter.mp hrb).2
      simp [RequirementAssessment.reportable, hs, h] at hrep
  · next hany =>
    refine ⟨fun _ ra hra hblock => ?_, fun _ => rfl⟩
    by_contra hne
    exact hany (any_eq_true.mpr ⟨ra, hra, by simp [hblock, hne]⟩)

section

variable (rfc3339 : String → Option Instant)

def EvidenceRequirement.accepts (req : EvidenceRequirement) (claim : Claim)
    (trustClassOf : Evidence → Option TrustClass) (ev : Evidence) : Bool :=
  classifyItem rfc3339 claim trustClassOf req empty ev == some .qualifies

variable {claim : Claim} {trustClassOf : Evidence → Option TrustClass}
  {req a b : EvidenceRequirement} {ev : Evidence} {evidence : List Evidence} {i : Uuid}
  {reqs : List EvidenceRequirement} {conditions : List String} {r : ContractRegistry}
  {cc child anc : ClaimClassId}
  {excluded : OrdSet Uuid}

theorem classifyItem_qualifies :
    classifyItem rfc3339 claim trustClassOf req excluded ev = some .qualifies ↔
      req.accepts rfc3339 claim trustClassOf ev ∧ excluded.contains ev.id = false := by
  rw [EvidenceRequirement.accepts, beq_iff_eq]
  cases hx : excluded.contains ev.id with
  | false =>
    simp only [and_true]
    unfold classifyItem
    rw [hx, contains_empty]
  | true =>
    unfold classifyItem
    rw [hx]
    simp only [Bool.true_eq_false, and_false, iff_false, if_true]
    split <;> simp

theorem qualifyingItems_empty (claim : Claim) (trustClassOf : Evidence → Option TrustClass)
    (req : EvidenceRequirement) (evidence : List Evidence) :
    qualifyingItems rfc3339 claim trustClassOf req evidence empty =
      evidence.filter (req.accepts rfc3339 claim trustClassOf) := by
  unfold qualifyingItems
  congr 1
  funext ev
  rw [EvidenceRequirement.accepts, Bool.beq_eq_decide_eq]

theorem evaluateRequirement_satisfied_iff :
    (evaluateRequirement rfc3339 claim trustClassOf req evidence excluded).state = .satisfied ↔
      req.minItems.toNat ≤
        (qualifyingItems rfc3339 claim trustClassOf req evidence excluded).length % 2 ^ 32 := by
  rw [← UInt32.toNat_ofNat', ← UInt32.le_iff_toNat_le]
  unfold evaluateRequirement
  simp only
  split
  · next h => simp [h]
  · next h =>
    simp only [h, iff_false]
    split
    · simp
    · split
      · simp
      · simp

theorem matched_eq :
    (evaluateRequirement rfc3339 claim trustClassOf req evidence excluded).matched =
      ((qualifyingItems rfc3339 claim trustClassOf req evidence excluded).take
        req.minItems.toNat).map Evidence.id := by
  have htake : ∀ (n : ℕ) (l : List Evidence), l.take (min n l.length) = l.take n := by
    intro n l
    rw [take_eq_take_iff]
    omega
  simp only [evaluateRequirement, htake]

theorem mem_matched :
    i ∈ (evaluateRequirement rfc3339 claim trustClassOf req evidence empty).matched ↔
      ∃ ev ∈ (evidence.filter (req.accepts rfc3339 claim trustClassOf)).take req.minItems.toNat,
        ev.id = i := by
  rw [matched_eq, qualifyingItems_empty, mem_map]

def IndependenceRule.others : IndependenceRule → List String
  | .none => []
  | .mustBeIndependentOf otherIds => otherIds

theorem contains_excluded {rule : IndependenceRule} {unc : OrdMap String (List Uuid)} :
    (rule.excluded unc).contains i ↔
      ∃ id ∈ rule.others, ∃ ids, unc.get? id = some ids ∧ i ∈ ids := by
  have hget : ∀ id, i ∈ (unc.get? id).getD [] ↔ ∃ ids, unc.get? id = some ids ∧ i ∈ ids := by
    intro id
    cases unc.get? id <;> simp
  cases rule with
  | none => simp [IndependenceRule.excluded, IndependenceRule.others]
  | mustBeIndependentOf otherIds =>
    simp only [IndependenceRule.excluded, IndependenceRule.others, contains_ofList,
      mem_flatMap, hget]

theorem get?_unconstrained (hids : (reqs.map EvidenceRequirement.id).Nodup) {id : String}
    {ids : List Uuid} :
    (unconstrainedQualifying rfc3339 claim trustClassOf reqs evidence conditions).get? id =
        some ids ↔ ∃ x ∈ reqs, x.id = id ∧ x.level.applicable conditions ∧
        (evaluateRequirement rfc3339 claim trustClassOf x evidence empty).matched = ids := by
  have hkeys : ((reqs.filterMap fun req =>
      if req.level.applicable conditions then
        some (req.id, (evaluateRequirement rfc3339 claim trustClassOf req evidence
          empty).matched)
      else none).map Prod.fst).Nodup := by
    refine hids.sublist ?_
    clear hids
    induction reqs with
    | nil => simp
    | cons x reqs ih =>
      rw [filterMap_cons]
      cases x.level.applicable conditions with
      | false => exact ih.trans (sublist_cons_self _ _)
      | true => exact ih.cons_cons _
  rw [unconstrainedQualifying, OrdMap.get?_ofList hkeys, mem_filterMap]
  refine exists_congr fun x => and_congr_right fun _ => ?_
  cases x.level.applicable conditions <;> simp

/-- `y` claims at least the items that `x` claims: it applies whenever `x` does
and accepts the same items. -/
structure ClaimsAtLeast (x y : EvidenceRequirement) : Prop where
  applicable : ∀ conditions, x.level.applicable conditions = true →
    y.level.applicable conditions = true
  accepts : ∀ claim trustClassOf ev,
    x.accepts rfc3339 claim trustClassOf ev = y.accepts rfc3339 claim trustClassOf ev

/-- The version `b` of `a` keeps what composition does not compare. -/
structure Carries (reqsA reqsC : List EvidenceRequirement) (a b : EvidenceRequirement) : Prop where
  blocking : ∀ conditions, a.level.blocking conditions = true → b.level.blocking conditions = true
  accepts : ∀ claim trustClassOf ev, b.accepts rfc3339 claim trustClassOf ev = true →
    a.accepts rfc3339 claim trustClassOf ev = true
  independent : ∀ x ∈ reqsA, x.id ∈ a.independence.others → x.id ∈ b.independence.others ∧
    ∀ y ∈ reqsC, y.id = x.id → ClaimsAtLeast rfc3339 x y

/-- Every binding requirement of the ancestor is carried by the child's version
of it. -/
def NoHiddenWeakening (reqsA reqsC : List EvidenceRequirement) : Prop :=
  ∀ a ∈ reqsA, a.level ≠ .recommended → ∀ b ∈ reqsC, b.id = a.id → Carries rfc3339 reqsA reqsC a b

theorem matched_mono {x y : EvidenceRequirement} (h : ClaimsAtLeast rfc3339 x y)
    (hmin : x.minItems.toNat ≤ y.minItems.toNat)
    (hi : i ∈ (evaluateRequirement rfc3339 claim trustClassOf x evidence empty).matched) :
    i ∈ (evaluateRequirement rfc3339 claim trustClassOf y evidence empty).matched := by
  obtain ⟨ev, hev, hid⟩ := (mem_matched rfc3339).mp hi
  have hsame : y.accepts rfc3339 claim trustClassOf = x.accepts rfc3339 claim trustClassOf :=
    funext fun ev => (h.accepts claim trustClassOf ev).symm
  refine (mem_matched rfc3339).mpr ⟨ev, ?_, hid⟩
  rw [hsame]
  exact (take_sublist_take_left hmin).subset hev

theorem excluded_mono {mA mC : OrdMap String EvidenceRequirement} (hA : KeyedById mA)
    (hC : KeyedById mC) (hcov : Covers mA mC) (h : Carries rfc3339 mA.values mC.values a b)
    (hi : (a.independence.excluded (unconstrainedQualifying rfc3339 claim trustClassOf mA.values
      evidence conditions)).contains i) :
    (b.independence.excluded (unconstrainedQualifying rfc3339 claim trustClassOf mC.values
      evidence conditions)).contains i := by
  obtain ⟨id, hid, ids, hget, hmem⟩ := contains_excluded.mp hi
  obtain ⟨x, hx, rfl, happ, rfl⟩ := (get?_unconstrained rfc3339 hA.nodup_ids).mp hget
  obtain ⟨hind, hclaims⟩ := h.independent x hx hid
  obtain ⟨y, hy, hmin, -⟩ := hcov x.id x (hA.mem_values.mp hx)
  have hyid : y.id = x.id := hC x.id y hy
  have hymem : y ∈ mC.values := hC.mem_values.mpr (hyid ▸ hy)
  have hxy := hclaims y hymem hyid
  refine contains_excluded.mpr ⟨x.id, hind, _, (get?_unconstrained rfc3339 hC.nodup_ids).mpr
    ⟨y, hymem, hyid, hxy.applicable conditions happ, rfl⟩, ?_⟩
  exact matched_mono rfc3339 hxy hmin hmem

theorem applicable_of_blocking {level : RequirementLevel} (h : level.blocking conditions) :
    level.applicable conditions := by
  cases level with
  | required => rfl
  | recommended => rfl
  | conditional c => exact h

theorem assessRequirements_satisfied_iff : overallState conditions
        (assessRequirements rfc3339 claim trustClassOf reqs evidence conditions) = .satisfied ↔
      ∀ a ∈ reqs, a.level.blocking conditions → a.minItems.toNat ≤
        (qualifyingItems rfc3339 claim trustClassOf a evidence (a.independence.excluded
          (unconstrainedQualifying rfc3339 claim trustClassOf reqs evidence
            conditions))).length % 2 ^ 32 := by
  rw [overallState_satisfied, assessRequirements]
  simp only [mem_map, forall_exists_index, and_imp, forall_apply_eq_imp_iff₂]
  refine forall₂_congr fun a _ => forall_congr' fun hblock => ?_
  have hblock' : a.level.blocking conditions = true := hblock
  have happ := applicable_of_blocking hblock'
  rw [← evaluateRequirement_satisfied_iff]
  simp only [assessRequirement, happ, if_true]

theorem assessRequirements_satisfied (hlen : evidence.length < 2 ^ 32) : overallState conditions
        (assessRequirements rfc3339 claim trustClassOf reqs evidence conditions) = .satisfied ↔
      ∀ a ∈ reqs, a.level.blocking conditions → a.minItems.toNat ≤
        (qualifyingItems rfc3339 claim trustClassOf a evidence (a.independence.excluded
          (unconstrainedQualifying rfc3339 claim trustClassOf reqs evidence
            conditions))).length := by
  rw [assessRequirements_satisfied_iff]
  refine forall₃_congr fun a _ _ => ?_
  have hle : (qualifyingItems rfc3339 claim trustClassOf a evidence (a.independence.excluded
      (unconstrainedQualifying rfc3339 claim trustClassOf reqs evidence conditions))).length ≤
      evidence.length := length_filter_le _ _
  rw [Nat.mod_eq_of_lt (lt_of_le_of_lt hle hlen)]

theorem satisfied_of_noHiddenWeakening {mA mC : OrdMap String EvidenceRequirement}
    (hA : KeyedById mA) (hC : KeyedById mC) (hcov : Covers mA mC)
    (hkeep : NoHiddenWeakening rfc3339 mA.values mC.values) (hlen : evidence.length < 2 ^ 32)
    (hsat : overallState conditions
      (assessRequirements rfc3339 claim trustClassOf mC.values evidence conditions) = .satisfied) :
    overallState conditions
      (assessRequirements rfc3339 claim trustClassOf mA.values evidence conditions) =
        .satisfied := by
  rw [assessRequirements_satisfied rfc3339 hlen] at hsat ⊢
  intro a ha hblock
  obtain ⟨b, hb, hmin, -⟩ := hcov a.id a (hA.mem_values.mp ha)
  have hbid : b.id = a.id := hC a.id b hb
  have hbmem : b ∈ mC.values := hC.mem_values.mpr (hbid ▸ hb)
  have hlevel : a.level ≠ .recommended := by
    intro hr
    rw [hr] at hblock
    cases hblock
  have hcar := hkeep a ha hlevel b hbmem hbid
  have hcount := hsat b hbmem (hcar.blocking conditions hblock)
  -- an item that counts for the child's version counts for the ancestor's
  refine hmin.trans (hcount.trans (List.Sublist.length_le ?_))
  refine monotone_filter_right evidence ?_
  intro ev hev
  rw [decide_eq_true_eq, classifyItem_qualifies] at hev ⊢
  refine ⟨hcar.accepts claim trustClassOf ev hev.1, ?_⟩
  rw [Bool.eq_false_iff]
  intro hex
  rw [excluded_mono rfc3339 hA hC hcov hcar hex] at hev
  cases hev.2

theorem registered_of_effective (h : r.effectiveRequirements cc = .ok reqs) :
    ∃ k, r.contracts.get? cc = some k := by
  obtain ⟨chain, m, hchain, -, -⟩ := effectiveRequirements_ok.mp h
  obtain ⟨l, hl, -, -, -⟩ := walkParents_ok (nodup_singleton cc) hchain
  cases hl with
  | root hget _ => exact ⟨_, hget⟩
  | step hget _ _ => exact ⟨_, hget⟩

def AssessedSatisfied (r : ContractRegistry) (cc : ClaimClassId) (claim : Claim)
    (trustClassOf : Evidence → Option TrustClass) (evidence : List Evidence)
    (conditions : List String) : Prop :=
  ∃ res, assessClaim rfc3339 claim trustClassOf r cc evidence conditions = .ok res ∧
    res.overall = .satisfied

theorem assessedSatisfied_iff :
    AssessedSatisfied rfc3339 r cc claim trustClassOf evidence conditions ↔
      ∃ reqs, r.effectiveRequirements cc = .ok reqs ∧ overallState conditions
        (assessRequirements rfc3339 claim trustClassOf reqs evidence conditions) = .satisfied := by
  unfold AssessedSatisfied assessClaim
  cases hget : r.contracts.get? cc with
  | none =>
    refine iff_of_false (fun ⟨res, hres, hsat⟩ => ?_) fun ⟨reqs, hreqs, _⟩ => ?_
    · cases hres
      cases hsat
    · obtain ⟨k, hk⟩ := registered_of_effective hreqs
      rw [hget] at hk
      cases hk
  | some k =>
    simp only [bind_eq_ok]
    constructor
    · rintro ⟨_, ⟨reqs, hreqs, ⟨⟩⟩, hsat⟩
      exact ⟨reqs, hreqs, hsat⟩
    · rintro ⟨reqs, hreqs, hsat⟩
      exact ⟨_, ⟨reqs, hreqs, rfl⟩, hsat⟩

/-- Whatever the claim, the evidence (fewer than 2^32 items, so that counts fit
their `u32`), the conditions and the trust function: a satisfied child has a
satisfied ancestor. -/
def Inherits (r : ContractRegistry) (child anc : ClaimClassId) : Prop :=
  ∀ (claim : Claim) (trustClassOf : Evidence → Option TrustClass) (evidence : List Evidence)
    (conditions : List String), evidence.length < 2 ^ 32 →
    AssessedSatisfied rfc3339 r child claim trustClassOf evidence conditions →
    AssessedSatisfied rfc3339 r anc claim trustClassOf evidence conditions

def KeepsObligations (r : ContractRegistry) (child anc : ClaimClassId) : Prop :=
  ∀ reqsA reqsC, r.effectiveRequirements anc = .ok reqsA →
    r.effectiveRequirements child = .ok reqsC → NoHiddenWeakening rfc3339 reqsA reqsC

theorem inherits_of_keepsObligations (hanc : ReflTransGen (HasParent r) child anc)
    (hkeep : KeepsObligations rfc3339 r child anc) : Inherits rfc3339 r child anc := by
  intro claim trustClassOf evidence conditions hlen hchild
  obtain ⟨reqsC, hC, hsat⟩ := (assessedSatisfied_iff rfc3339).mp hchild
  obtain ⟨mA, mC, hA, rfl, hkA, hkC, hcov⟩ := effectiveRequirements_ancestor hanc hC
  refine (assessedSatisfied_iff rfc3339).mpr ⟨mA.values, hA, ?_⟩
  exact satisfied_of_noHiddenWeakening rfc3339 hkA hkC hcov (hkeep _ _ hA hC) hlen hsat

theorem minItems_pos (h : r.effectiveRequirements cc = .ok reqs) :
    ∀ a ∈ reqs, 0 < a.minItems.toNat := by
  obtain ⟨chain, m, -, hm, rfl⟩ := effectiveRequirements_ok.mp h
  have hvalid : ∀ id a, m.get? id = some a → 0 < a.minItems.toNat := by
    refine foldlM_invariant (P := fun m : OrdMap String EvidenceRequirement =>
      ∀ id a, m.get? id = some a → 0 < a.minItems.toNat) ?_ (fun id a ha => by simp at ha) hm
    intro m cc m' _ hpos hstep
    unfold ContractRegistry.composeClass at hstep
    split at hstep
    · next k hk =>
      refine foldlM_invariant (P := fun m : OrdMap String EvidenceRequirement =>
        ∀ id a, m.get? id = some a → 0 < a.minItems.toNat) ?_ hpos hstep
      intro n req n' hreq hn hmerge
      obtain ⟨rfl, -⟩ := mergeRequirement_ok hmerge
      intro id a ha
      rw [OrdMap.get?_insert] at ha
      split at ha
      · have hcheck := forM_ok (r.valid cc k hk) req hreq
        rw [← Option.some.inj ha]
        unfold validateRequirement at hcheck
        split at hcheck
        · cases hcheck
        · split at hcheck
          · cases hcheck
          · next hne =>
            rw [← UInt32.toNat_inj] at hne
            exact Nat.pos_of_ne_zero hne
      · exact hn id a ha
    · rw [← Except.ok.inj hstep]
      exact hpos
  intro a ha
  obtain ⟨k, hk⟩ := OrdMap.mem_values.mp ha
  exact hvalid k a hk

theorem single_satisfied (hind : a.independence.others = []) (hlen : evidence.length < 2 ^ 32) :
    overallState conditions
        (assessRequirements rfc3339 claim trustClassOf [a] evidence conditions) = .satisfied ↔
      (a.level.blocking conditions →
        a.minItems.toNat ≤ (evidence.filter (a.accepts rfc3339 claim trustClassOf)).length) := by
  rw [assessRequirements_satisfied rfc3339 hlen]
  have hnone : ∀ unc, a.independence.excluded unc = empty := by
    intro unc
    refine ext_contains fun i => ?_
    rw [contains_excluded, hind]
    simp
  simp only [mem_singleton, forall_eq, hnone, qualifyingItems_empty]

section Single

variable (hA : r.effectiveRequirements anc = .ok [a])
  (hC : r.effectiveRequirements child = .ok [b]) (ha : a.independence.others = [])
  (hb : b.independence.others = []) (h : Inherits rfc3339 r child anc)

include hA hC ha hb h

theorem single_inherits_semantics (claim : Claim)
    (trustClassOf : Evidence → Option TrustClass) (evidence : List Evidence)
    (conditions : List String) (hlen : evidence.length < 2 ^ 32)
    (hsat : b.level.blocking conditions →
      b.minItems.toNat ≤ (evidence.filter (b.accepts rfc3339 claim trustClassOf)).length)
    (hblock : a.level.blocking conditions) :
    a.minItems.toNat ≤ (evidence.filter (a.accepts rfc3339 claim trustClassOf)).length := by
  have hchild : AssessedSatisfied rfc3339 r child claim trustClassOf evidence conditions :=
    (assessedSatisfied_iff rfc3339).mpr ⟨[b], hC, (single_satisfied rfc3339 hb hlen).mpr hsat⟩
  obtain ⟨reqs, hreqs, hs⟩ := (assessedSatisfied_iff rfc3339).mp
    (h claim trustClassOf evidence conditions hlen hchild)
  rw [hA] at hreqs
  rw [← Except.ok.inj hreqs] at hs
  exact (single_satisfied rfc3339 ha hlen).mp hs hblock

theorem keeps_of_single_inherits : NoHiddenWeakening rfc3339 [a] [b] := by
  have hsem := single_inherits_semantics rfc3339 hA hC ha hb h
  have hpos : 0 < a.minItems.toNat := minItems_pos hA a mem_cons_self
  intro x hx hlevel y hy _
  rw [mem_singleton.mp hx] at hlevel ⊢
  rw [mem_singleton.mp hy]
  refine ⟨?_, ?_, ?_⟩
  · -- with no evidence at all nothing is met, so `b` has to block as well
    intro conditions hblock
    by_contra hnot
    have hzero := hsem ⟨0, ""⟩ (fun _ => none) [] conditions (by simp)
      (fun hbl => absurd hbl hnot) hblock
    rw [filter_nil, length_nil] at hzero
    omega
  · -- enough copies of an item only `b` accepts satisfy the child alone
    intro claim trustClassOf ev hev
    by_contra hnot
    have hblock : ∃ conditions, a.level.blocking conditions := by
      cases hl : a.level with
      | required => exact ⟨[], rfl⟩
      | recommended => exact absurd hl hlevel
      | conditional c => exact ⟨[c], by simp [RequirementLevel.blocking]⟩
    obtain ⟨conditions, hblock⟩ := hblock
    have hlen : (replicate b.minItems.toNat ev).length < 2 ^ 32 := by
      rw [length_replicate]
      exact b.minItems.toNat_lt
    have hcount := hsem claim trustClassOf _ conditions hlen (fun _ => by simp [hev]) hblock
    have hzero : (replicate b.minItems.toNat ev).filter
        (a.accepts rfc3339 claim trustClassOf) = [] := by
      simp [hnot]
    rw [hzero, length_nil] at hcount
    omega
  · intro x _ hx
    rw [ha] at hx
    cases hx

end Single

def FreshnessWindow.within : FreshnessWindow → FreshnessWindow → Bool
  | _, .durable => true
  | .durable, .perishable _ => false
  | .perishable m, .perishable n => decide (m ≤ n)

def StalenessAssessment.current : StalenessAssessment → Bool
  | .notTimeSensitive | .fresh _ => true
  | .stale _ | .indeterminate _ => false

theorem current_of_within {w w' : FreshnessWindow} (hw : w.within w')
    (h : (stalenessOf rfc3339 ev claim w).current) : (stalenessOf rfc3339 ev claim w').current := by
  cases w' with
  | durable => rfl
  | perishable n =>
    cases w with
    | durable => cases hw
    | perishable m =>
      have hmn : m ≤ n := of_decide_eq_true hw
      unfold stalenessOf at h ⊢
      cases ho : rfc3339 ev.observedAt with
      | none => simp [ho, StalenessAssessment.current] at h
      | some o =>
        cases hc : rfc3339 claim.claimedAt with
        | none => simp [ho, hc, StalenessAssessment.current] at h
        | some c =>
          simp only [ho, hc] at h ⊢
          by_cases hneg : numSeconds (c - o) < 0
          · simp [hneg, StalenessAssessment.current] at h
          · by_cases hage : numSeconds (c - o) > m
            · simp [hneg, hage, StalenessAssessment.current] at h
            · rw [if_neg hneg, if_neg (by omega)]
              rfl

theorem accepts_iff : req.accepts rfc3339 claim trustClassOf ev ↔ ev.kind = req.evidenceKind ∧
      (∃ t, trustClassOf ev = some t ∧ t ∈ req.acceptableTrustClasses) ∧
      (stalenessOf rfc3339 ev claim req.freshness).current := by
  rw [EvidenceRequirement.accepts, beq_iff_eq]
  unfold classifyItem
  by_cases hk : ev.kind = req.evidenceKind
  · simp only [ne_eq, hk, not_true_eq_false, if_false, contains_empty, Bool.false_eq_true, true_and]
    cases ht : trustClassOf ev with
    | none => simp
    | some t =>
      by_cases hmem : t ∈ req.acceptableTrustClasses
      · cases stalenessOf rfc3339 ev claim req.freshness <;>
          simp [hmem, StalenessAssessment.current]
      · simp [hmem]
  · simp [hk]

theorem accepts_of_fields (hkind : b.evidenceKind = a.evidenceKind)
    (htrust : ∀ t ∈ b.acceptableTrustClasses, t ∈ a.acceptableTrustClasses)
    (hfresh : b.freshness.within a.freshness) (claim : Claim)
    (trustClassOf : Evidence → Option TrustClass) (ev : Evidence)
    (h : b.accepts rfc3339 claim trustClassOf ev) : a.accepts rfc3339 claim trustClassOf ev := by
  obtain ⟨hk, ⟨t, ht, hmem⟩, hcur⟩ := (accepts_iff rfc3339).mp h
  exact (accepts_iff rfc3339).mpr
    ⟨hk.trans hkind, ⟨t, ht, htrust t hmem⟩, current_of_within rfc3339 hfresh hcur⟩

end

def exitCodeRequirement : EvidenceRequirement where
  id := "tests_ran"
  level := .required
  evidenceKind := .exitCode
  acceptableTrustClasses := [.hostObserved]
  freshness := .perishable 3600
  independence := .none
  minItems := 1

def baseClass : ClaimClassId := ⟨"tests_pass", 1⟩

def derivedClass : ClaimClassId := ⟨"tests_pass_release", 1⟩

def baseContract : EpistemicContract := ⟨baseClass, none, [exitCodeRequirement]⟩

def looseContract : EpistemicContract where
  claimClass := derivedClass
  parent := some baseClass
  requirements :=
    [{ exitCodeRequirement with
        evidenceKind := .transcriptExcerpt
        acceptableTrustClasses := [.hostObserved, .agentAdjacent]
        freshness := .durable }]

def strictContract : EpistemicContract where
  claimClass := derivedClass
  parent := some baseClass
  requirements := [{ exitCodeRequirement with minItems := 2, freshness := .perishable 60 }]

def transcriptOnly : List Evidence :=
  [{ id := 1, sourceEventId := 2, kind := .transcriptExcerpt, observedAt := ""
     source := some ⟨.agentAdjacent, none, []⟩ }]

def recordedTrust (e : Evidence) : Option TrustClass := e.source.map (·.trustClass)

def overallOf (cs : List EpistemicContract) (cc : ClaimClassId) :
    Except ContractError SatisfactionState := do
  let r ← ContractRegistry.empty.registerAll cs
  let res ← assessClaim (fun _ => none) ⟨0, ""⟩ recordedTrust r cc transcriptOnly []
  return res.overall

def strictRegistry : ContractRegistry :=
  match ContractRegistry.empty.registerAll [baseContract, strictContract] with
  | .ok r => r
  | .error _ => ContractRegistry.empty

def noonRfc3339 (text : String) : Option Instant :=
  if text = "2026-09-20T12:00:00Z" then some 1789905600000000000 else none

def noonExitCode (id : Uuid) : Evidence where
  id := id
  sourceEventId := 2
  kind := .exitCode
  observedAt := "2026-09-20T12:00:00Z"
  source := some ⟨.hostObserved, none, []⟩

theorem strictRegistry_keeps (rfc3339 : String → Option Instant) :
    KeepsObligations rfc3339 strictRegistry derivedClass baseClass := by
  have hA : strictRegistry.effectiveRequirements baseClass = .ok [exitCodeRequirement] := by decide
  have hC : strictRegistry.effectiveRequirements derivedClass =
      .ok [{ exitCodeRequirement with minItems := 2, freshness := .perishable 60 }] := by decide
  intro reqsA reqsC hreqsA hreqsC
  rw [hA] at hreqsA
  rw [hC] at hreqsC
  rw [← Except.ok.inj hreqsA, ← Except.ok.inj hreqsC]
  intro a ha _ b hb _
  rw [mem_singleton.mp ha, mem_singleton.mp hb]
  refine ⟨fun _ h => h, ?_, fun x _ hx => by cases hx⟩
  exact accepts_of_fields rfc3339 rfl (fun t ht => ht) (by decide)

end Fornax
