import Fornax.Evidence.Bases
import Fornax.Receipt.Delegation

namespace Fornax.Receipt

open List OrdMap SourceFamilyMap Relation

inductive SharedFailureReason
  | unknownLineage
  deriving DecidableEq, Repr

inductive CoordinationPattern
  | identicalOutcomeAcrossUnrelatedSiblings
  deriving DecidableEq, Repr

inductive MultiAgentSignal
  | sharedFailureRisk (agentIds : List String) (reason : SharedFailureReason)
  | commonSource (agentIds : List String) (bases : List FamilyBasis)
  | coordinationSignal (agentIds : List String) (pattern : CoordinationPattern)
  | collusionHypothesis (agentIds supportingEvidence : List String)
  deriving DecidableEq, Repr

structure DependencyGroup where
  agentIds : List String
  bases : List FamilyBasis
  deriving DecidableEq, Repr

structure MultiAgentPolicy where
  treatUnknownLineageAsIndependent : Bool
  deriving DecidableEq, Repr

def MultiAgentPolicy.conservative : MultiAgentPolicy := ⟨false⟩

structure MultiAgentDependencyReport where
  totalAgents : ℕ
  effectiveIndependentSources : ℕ
  dependentGroups : List DependencyGroup
  signals : List MultiAgentSignal
  deriving DecidableEq, Repr

section Analysis

variable {R : Type} (envelopes : List (DelegationEnvelopeBody R))

def agentsAt (members : List ℕ) : List String :=
  (OrdSet.ofList (members.filterMap fun i => envelopes[i]?.map fun e => e.child.agentId)).toList

def agentIdsOf : List String :=
  (OrdSet.ofList (envelopes.map fun e => e.child.agentId)).toList.filter fun s => !s.isEmpty

def byBasis : OrdMap FamilyBasis (List ℕ) :=
  groupBy (fun p => some p.1) Prod.snd
    (envelopes.zipIdx.flatMap fun p => p.1.aggregateSourceFamilyBases.map fun b => (b, p.2))

def dependencyForest : Forest ℕ :=
  (Forest.singletons (range envelopes.length)).unionAll
    ((byBasis envelopes).entries.flatMap fun bucket => windows2 bucket.2)

def pairKey (a b : ℕ) : ℕ ×ₗ ℕ := if a < b then toLex (a, b) else toLex (b, a)

def basisOfPair : OrdMap (ℕ ×ₗ ℕ) (OrdSet FamilyBasis) :=
  (byBasis envelopes).entries.foldl (fun acc bucket =>
    bucket.2.tail.foldl (fun acc i =>
      acc.alter (pairKey (bucket.2.headD 0) i) fun old =>
        (old.getD OrdSet.empty).add bucket.1) acc) empty

def membersByRoot : OrdMap ℕ (List ℕ) :=
  (dependencyForest envelopes).groupByRoot (range envelopes.length)

def isUnknownLineageSingleton : List ℕ → Bool
  | [i] => envelopes[i]?.any fun e => e.receipts.isEmpty
  | _ => false

def orderedPairs : List ℕ → List (ℕ × ℕ)
  | [] => []
  | a :: rest => rest.map (fun b => (a, b)) ++ orderedPairs rest

def basesWithin (members : List ℕ) : List FamilyBasis :=
  (OrdSet.ofList ((orderedPairs members).flatMap fun p =>
    (((basisOfPair envelopes).get? (toLex (min p.1 p.2, max p.1 p.2))).getD
      OrdSet.empty).toList)).toList

def countsAsSource (policy : MultiAgentPolicy) (members : List ℕ) : Bool :=
  !isUnknownLineageSingleton envelopes members || policy.treatUnknownLineageAsIndependent

def dependentGroup (members : List ℕ) : Option DependencyGroup :=
  if isUnknownLineageSingleton envelopes members then none
  else if members.length > 1 then some ⟨agentsAt envelopes members, basesWithin envelopes members⟩
  else none

def groupSignals (members : List ℕ) : List MultiAgentSignal :=
  if isUnknownLineageSingleton envelopes members then
    [.sharedFailureRisk (members.filterMap fun i => envelopes[i]?.map fun e => e.child.agentId)
      .unknownLineage]
  else if members.length > 1 then
    [.commonSource (agentsAt envelopes members) (basesWithin envelopes members)]
  else []

def outcomeKey : DelegationOutcome → String
  | .fulfilled => "\"fulfilled\""
  | .partiallyFulfilled => "\"partially_fulfilled\""
  | .insufficient => "\"insufficient\""
  | .unavailable => "\"unavailable\""

def byParentTask : OrdMap Uuid (List ℕ) :=
  groupBy (fun p => some p.1) Prod.snd
    (envelopes.zipIdx.flatMap fun p => p.1.lineage.map fun entry => (entry.parentTaskId, p.2))

def signatureOf (e : DelegationEnvelopeBody R) : String ×ₗ List String :=
  toLex (outcomeKey e.outcome, SortDedup.sortBy id e.unresolvedRequirementIds)

def bySignature (ids : List ℕ) : OrdMap (String ×ₗ List String) (List ℕ) :=
  groupBy (fun i => envelopes[i]?.map signatureOf) id ids

def sharesNoBasis (group : List ℕ) : Bool :=
  (orderedPairs group).all fun p => !(basisOfPair envelopes).contains (pairKey p.1 p.2)

def siblingSignals (ids : List ℕ) : List MultiAgentSignal :=
  if ids.length < 2 then []
  else
    ((bySignature envelopes ids).values.filter fun group =>
      decide (2 ≤ group.length) && sharesNoBasis envelopes group).map fun group =>
        .coordinationSignal (agentsAt envelopes group) .identicalOutcomeAcrossUnrelatedSiblings

def detectCoordinationSignals : List MultiAgentSignal :=
  (byParentTask envelopes).values.flatMap (siblingSignals envelopes)

def analyzeDependency (policy : MultiAgentPolicy) : MultiAgentDependencyReport :=
  let groups := (membersByRoot envelopes).values
  { totalAgents := (agentIdsOf envelopes).length
    effectiveIndependentSources := (groups.filter (countsAsSource envelopes policy)).length
    dependentGroups := SortDedup.sortBy DependencyGroup.agentIds
      (groups.filterMap (dependentGroup envelopes))
    signals := groups.flatMap (groupSignals envelopes) ++ detectCoordinationSignals envelopes }

def SameGroup (i j : ℕ) : Prop :=
  ∃ members ∈ (membersByRoot envelopes).values, i ∈ members ∧ j ∈ members

def ShareBasis (i j : ℕ) : Prop :=
  ∃ e f basis, envelopes[i]? = some e ∧ envelopes[j]? = some f ∧
    basis ∈ e.aggregateSourceFamilyBases ∧ basis ∈ f.aggregateSourceFamilyBases

variable {envelopes}

theorem mem_basisEntries {basis : FamilyBasis} {i : ℕ} :
    (basis, i) ∈ (envelopes.zipIdx.flatMap fun p =>
      p.1.aggregateSourceFamilyBases.map fun b => (b, p.2)) ↔
      ∃ e, envelopes[i]? = some e ∧ basis ∈ e.aggregateSourceFamilyBases := by
  simp only [mem_flatMap, mem_map, Prod.mk.injEq, Prod.exists, mem_zipIdx_iff_getElem?]
  constructor
  · rintro ⟨e, k, he, b, hb, rfl, rfl⟩
    exact ⟨e, he, hb⟩
  · rintro ⟨e, he, hb⟩
    exact ⟨e, i, he, basis, hb, rfl, rfl⟩

theorem mem_byBasis {basis : FamilyBasis} {ids : List ℕ}
    (h : (byBasis envelopes).get? basis = some ids) {i : ℕ} :
    i ∈ ids ↔ ∃ e, envelopes[i]? = some e ∧ basis ∈ e.aggregateSourceFamilyBases := by
  rw [mem_bucket h, ← mem_basisEntries]
  constructor
  · rintro ⟨⟨b, k⟩, hmem, hkey, rfl⟩
    obtain rfl : b = basis := Option.some.inj hkey
    exact hmem
  · intro hmem
    exact ⟨(basis, i), hmem, rfl, rfl⟩

theorem eqvGen_unions_iff (i j : ℕ) :
    EqvGen (fun x y => (x, y) ∈ (byBasis envelopes).entries.flatMap fun bucket =>
      windows2 bucket.2) i j ↔ EqvGen (ShareBasis envelopes) i j := by
  constructor
  · intro h
    refine h.mono ?_
    intro x y hxy
    obtain ⟨⟨basis, ids⟩, hbucket, hw⟩ := mem_flatMap.mp hxy
    have hget := mem_entries.mp hbucket
    obtain ⟨hx, hy⟩ := mem_of_mem_windows2 hw
    obtain ⟨e, he, hbe⟩ := (mem_byBasis hget).mp hx
    obtain ⟨f, hf, hbf⟩ := (mem_byBasis hget).mp hy
    exact ⟨e, f, basis, he, hf, hbe, hbf⟩
  · refine eqvGen_of_forall_rel ?_
    rintro x y ⟨e, f, basis, he, hf, hbe, hbf⟩
    have hbucket : ∃ ids, (byBasis envelopes).get? basis = some ids ∧ x ∈ ids :=
      exists_bucket (mem_basisEntries.mpr ⟨e, he, hbe⟩) rfl
    obtain ⟨ids, hget, hx⟩ := hbucket
    have hy : y ∈ ids := (mem_byBasis hget).mpr ⟨f, hf, hbf⟩
    refine (eqvGen_windows2 ids x hx y hy).mono ?_
    intro u v huv
    exact mem_flatMap.mpr ⟨(basis, ids), mem_entries.mpr hget, huv⟩

section

variable {i : ℕ} (hi : i < envelopes.length)

include hi

theorem exists_rootBucket :
    ∃ members, (groupBy (fun x => some ((dependencyForest envelopes).rootOf x)) id
      (range envelopes.length)).get? ((dependencyForest envelopes).rootOf i) = some members ∧
      i ∈ members :=
  exists_bucket (mem_range.mpr hi) rfl

theorem sameGroup_iff_root {j : ℕ} (hj : j < envelopes.length) : SameGroup envelopes i j ↔
      (dependencyForest envelopes).rootOf i = (dependencyForest envelopes).rootOf j := by
  unfold SameGroup membersByRoot
  rw [Forest.groupByRoot_eq]
  constructor
  · rintro ⟨members, hmembers, himem, hjmem⟩
    obtain ⟨k, hget⟩ := mem_values.mp hmembers
    obtain ⟨x, -, hx, rfl⟩ := (mem_bucket hget).mp himem
    obtain ⟨y, -, hy, rfl⟩ := (mem_bucket hget).mp hjmem
    exact Option.some.inj (hx.trans hy.symm)
  · intro hroot
    obtain ⟨members, hget, himem⟩ := exists_rootBucket hi
    refine ⟨members, mem_values.mpr ⟨_, hget⟩, himem, ?_⟩
    exact (mem_bucket hget).mpr ⟨j, mem_range.mpr hj, by rw [hroot], rfl⟩

theorem existsUnique_group :
    ∃! members, members ∈ (membersByRoot envelopes).values ∧ i ∈ members := by
  unfold membersByRoot
  rw [Forest.groupByRoot_eq]
  obtain ⟨members, hget, himem⟩ := exists_rootBucket hi
  refine ⟨members, ⟨mem_values.mpr ⟨_, hget⟩, himem⟩, ?_⟩
  rintro other ⟨hother, hiother⟩
  obtain ⟨k, hget'⟩ := mem_values.mp hother
  obtain ⟨x, -, hx, rfl⟩ := (mem_bucket hget').mp hiother
  obtain rfl : (dependencyForest envelopes).rootOf x = k := Option.some.inj hx
  exact Option.some.inj (hget'.symm.trans hget)

theorem sameGroup_iff {j : ℕ} (hj : j < envelopes.length) :
    SameGroup envelopes i j ↔ EqvGen (ShareBasis envelopes) i j := by
  rw [sameGroup_iff_root hi hj, dependencyForest, Forest.unionAll_root, eqvGen_unions_iff]

end

end Analysis

structure BackedEnvelope (c : DelegationCrates) where
  envelope : DelegationEnvelope c
  citations : List ReceiptInputs
  issued : ∃ (inputs : DelegationInputs c) (issuedAt : String) (ttlSeconds : Option ℤ),
    envelope = issueDelegationEnvelope c inputs issuedAt ttlSeconds ∧
      List.Forall₂ (fun source receipt => ∃ issuedAt ttlSeconds,
        issueReceipt c.toReceiptCrates source issuedAt ttlSeconds = .ok receipt)
        citations inputs.receipts

variable {c : DelegationCrates}

def citedIds (c : ReceiptCrates) (source : ReceiptInputs) : List Uuid :=
  (referencedIds (referencedEvidence c source.links source.evidence)).toList

/-- A family of evidence that the envelope cites lists the basis. -/
def BackedEnvelope.Carries (b : BackedEnvelope c) (basis : FamilyBasis) : Prop :=
  ∃ source ∈ b.citations, ∃ x ∈ citedIds c.toReceiptCrates source, ∃ fam,
    source.families.familyOf x = some fam ∧ basis ∈ fam.bases

theorem mem_familiesAmong {m : SourceFamilyMap} {ids : List Uuid} {fam : SourceFamily} :
    fam ∈ m.familiesAmong ids ↔ ∃ x ∈ ids, m.familyOf x = some fam := by
  simp only [familiesAmong, mem_filterMap, OrdSet.mem_toList,
    OrdSet.contains_ofList, familyOf, Option.bind_eq_some_iff]
  constructor
  · rintro ⟨i, ⟨x, hx, hi⟩, hfam⟩
    exact ⟨x, hx, i, hi, hfam⟩
  · rintro ⟨x, hx, i, hi, hfam⟩
    exact ⟨i, ⟨x, hx, hi⟩, hfam⟩

section

variable {c : ReceiptCrates} {source : ReceiptInputs} {issuedAt : String} {ttlSeconds : Option ℤ}
  {receipt : IntegrityReceipt c} (h : issueReceipt c source issuedAt ttlSeconds = .ok receipt)

include h

theorem issued_sourceFamilyBases : receipt.body.coverage.sourceFamilyBases =
      familyBases source.families (referencedEvidence c source.links source.evidence) := by
  unfold issueReceipt at h
  split at h
  · cases h
  split at h
  · cases h
  rw [← Except.ok.inj h, IntegrityReceipt.body_newTrusted, ReceiptBody.numbered_coverage,
    unnumberedBody]

theorem mem_receipt_bases {basis : FamilyBasis} : basis ∈ receipt.body.coverage.sourceFamilyBases ↔
      ∃ x ∈ citedIds c source, ∃ fam, source.families.familyOf x = some fam ∧
        basis ∈ fam.bases := by
  rw [issued_sourceFamilyBases h]
  simp only [familyBases, sortedDedupedBases, SortDedup.mem_sortDedup, mem_flatMap,
    mem_familiesAmong, citedIds]
  constructor
  · rintro ⟨fam, ⟨x, hx, hfam⟩, hbasis⟩
    exact ⟨x, hx, fam, hfam, hbasis⟩
  · rintro ⟨x, hx, fam, hfam, hbasis⟩
    exact ⟨fam, ⟨x, hx, hfam⟩, hbasis⟩

end

theorem BackedEnvelope.mem_bases (b : BackedEnvelope c) (basis : FamilyBasis) :
    basis ∈ b.envelope.body.aggregateSourceFamilyBases ↔ b.Carries basis := by
  obtain ⟨inputs, issuedAt, ttl, henvelope, hreceipts⟩ := b.issued
  have hmerged : b.envelope.body.aggregateSourceFamilyBases =
      mergedSourceFamilyBases inputs.receipts := by
    rw [henvelope]
    exact congrArg (fun judgement => judgement.2.2.2) (issued_judgement inputs issuedAt ttl)
  rw [hmerged, mergedSourceFamilyBases, SortDedup.mem_sortDedup, mem_flatMap]
  exact Fallible.forall₂_exists_iff hreceipts fun source receipt ⟨_, _, h⟩ => mem_receipt_bases h

/-- A record of the turn is cited, and the pool of its receipt holds another one. -/
def BackedEnvelope.SeesTurnTwice (b : BackedEnvelope c) (turn : Uuid) : Prop :=
  ∃ source ∈ b.citations, ∃ pool : List Evidence,
    source.families = build pool ∧ (pool.map Evidence.id).Nodup ∧
      ∃ e ∈ pool, e.id ∈ citedIds c.toReceiptCrates source ∧ e.agentTurn = some turn ∧
        ∃ other ∈ pool, other.id ≠ e.id ∧ other.agentTurn = some turn

theorem BackedEnvelope.SeesTurnTwice.carries {b : BackedEnvelope c} {turn : Uuid}
    (h : b.SeesTurnTwice turn) : b.Carries (.sameAgentTurn turn) := by
  obtain ⟨source, hsource, pool, hfamilies, hids, e, he, hcited, hturn, hother⟩ := h
  obtain ⟨fam, hfam⟩ := exists_familyOf he
  refine ⟨source, hsource, e.id, hcited, fam, hfamilies ▸ hfam, ?_⟩
  exact (sameAgentTurn_mem_bases_iff hids he hturn hfam).mpr hother

def CiteCommonBasis (backed : List (BackedEnvelope c)) (i j : ℕ) : Prop :=
  ∃ a b basis, backed[i]? = some a ∧ backed[j]? = some b ∧ a.Carries basis ∧ b.Carries basis

theorem shareBasis_backed (backed : List (BackedEnvelope c)) :
    ShareBasis (backed.map fun b => b.envelope.body) = CiteCommonBasis backed := by
  funext i j
  simp only [ShareBasis, CiteCommonBasis, getElem?_map, Option.map_eq_some_iff, eq_iff_iff]
  constructor
  · rintro ⟨e, f, basis, ⟨a, ha, rfl⟩, ⟨b, hb, rfl⟩, hbe, hbf⟩
    exact ⟨a, b, basis, ha, hb, (a.mem_bases basis).mp hbe, (b.mem_bases basis).mp hbf⟩
  · rintro ⟨a, b, basis, ha, hb, hca, hcb⟩
    exact ⟨_, _, basis, ⟨a, ha, rfl⟩, ⟨b, hb, rfl⟩, (a.mem_bases basis).mpr hca,
      (b.mem_bases basis).mpr hcb⟩

/-- Every envelope is in one group. Two envelopes are in the same exactly if a chain of envelopes
leads from one to the other in which neighbours cite evidence with a common basis. Evidence of one
turn makes such a step when the pool of each side holds the turn twice. -/
theorem same_source_iff (c : DelegationCrates) (backed : List (BackedEnvelope c)) (i j : ℕ)
    (hi : i < backed.length) (hj : j < backed.length) :
    (∃! members, members ∈ (membersByRoot (backed.map fun b => b.envelope.body)).values ∧
      i ∈ members) ∧
    (SameGroup (backed.map fun b => b.envelope.body) i j ↔
      EqvGen (CiteCommonBasis backed) i j) ∧
    ∀ turn a b, backed[i]? = some a → backed[j]? = some b → a.SeesTurnTwice turn →
      b.SeesTurnTwice turn → SameGroup (backed.map fun b => b.envelope.body) i j := by
  have hgroup : SameGroup (backed.map fun b => b.envelope.body) i j ↔
      EqvGen (CiteCommonBasis backed) i j := by
    rw [← shareBasis_backed]
    exact sameGroup_iff (by rwa [length_map]) (by rwa [length_map])
  refine ⟨existsUnique_group (by rwa [length_map]), hgroup, ?_⟩
  intro turn a b ha hb hsa hsb
  exact hgroup.mpr (.rel i j ⟨a, b, .sameAgentTurn turn, ha, hb, hsa.carries, hsb.carries⟩)

/-! Two agents cite the one record of a turn. With a pool that holds nothing else, neither receipt
has a basis. -/

def labPool (size : ℕ) : List Evidence :=
  [labEvidence.toEvidence, { labEvidence.toEvidence with id := 2 }].take size

def labSource (size : ℕ) : ReceiptInputs :=
  { labInputs with
    links := [labLink 3 .supports]
    families := build (labPool size) }

def labReceipt (size : ℕ) : IntegrityReceipt labDelegation.toReceiptCrates :=
  .newTrusted _ ((unnumberedBody labDelegation.toReceiptCrates (labSource size) "t0" none).numbered
    labDelegation.toReceiptCrates)

def labDelegated (agent : String) (size : ℕ) : DelegationInputs labDelegation :=
  ⟨⟨"planner", 1⟩, ⟨agent, 2⟩, ⟨"deploy", 1⟩, "", "", ⟨⟨"deploy", 1⟩, [], .satisfied⟩,
    [labReceipt size], [], false⟩

def labBacked (agent : String) (size : ℕ) : BackedEnvelope labDelegation where
  envelope := issueDelegationEnvelope labDelegation (labDelegated agent size) "t0" none
  citations := [labSource size]
  issued := ⟨labDelegated agent size, "t0", none, rfl,
    .cons ⟨"t0", none, issueReceipt_of_claimsAgree ⟨rfl, rfl⟩ "t0" none⟩ .nil⟩

def labEnvelopes (size : ℕ) :
    List (DelegationEnvelopeBody (IntegrityReceipt labDelegation.toReceiptCrates)) :=
  [labBacked "a" size, labBacked "b" size].map fun b => b.envelope.body

theorem labBacked_seesTurnTwice (agent : String) : (labBacked agent 2).SeesTurnTwice 9 := by
  refine ⟨labSource 2, mem_singleton.mpr rfl, labPool 2, rfl, by decide,
    labEvidence.toEvidence, by decide, ?_, by decide, ?_⟩
  · decide +kernel
  · exact ⟨{ labEvidence.toEvidence with id := 2 }, by decide, by decide, by decide⟩

theorem same_source_iff_labBacked : SameGroup (labEnvelopes 2) 0 1 :=
  (same_source_iff labDelegation [labBacked "a" 2, labBacked "b" 2] 0 1 (by decide)
    (by decide)).2.2 9 _ _ rfl rfl (labBacked_seesTurnTwice "a") (labBacked_seesTurnTwice "b")

/-- Both agents cite record 1 of turn 9, and they count as two sources. -/
theorem one_observation_two_sources :
    citedIds labDelegation.toReceiptCrates (labSource 1) = [labEvidence.id] ∧
    labEvidence.toEvidence.agentTurn = some 9 ∧
    ¬ SameGroup (labEnvelopes 1) 0 1 ∧
    (analyzeDependency (labEnvelopes 1) .conservative).effectiveIndependentSources = 2 := by
  refine ⟨?_, by decide, ?_, ?_⟩
  · decide +kernel
  · unfold SameGroup
    decide +kernel
  · decide +kernel

end Fornax.Receipt
