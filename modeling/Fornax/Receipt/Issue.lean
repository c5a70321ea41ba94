import Fornax.Receipt.Schema

namespace Fornax.Receipt

open List SortDedup

structure ReceiptInputs where
  claim : StoredClaim
  links : List StoredLink
  missing : List StoredMissing
  evidence : List SensedEvidence
  fused : FusedFinding
  recommendation : Recommendation
  gaps : List EvidenceGap
  families : SourceFamilyMap
  provenance : CalibrationProvenance
  calibration : CalibrationAssessment
  issuer : String
  homeIdentity : String

inductive IssueError
  | claimIdMismatch (claimId recommendationClaimId : Uuid)
  | fusedClaimIdMismatch (claimId fusedClaimId : Uuid)
  deriving DecidableEq, Repr

variable (c : ReceiptCrates)

def isExportable (e : SensedEvidence) : Except WithheldReason Unit :=
  if e.evidencePurged then .error .alreadyPurged
  else if !exportableEvidenceKinds.contains e.kind then .error .kindNotExportable
  else if (c.payloadJson e.payload).length > maxFingerprintedPayloadBytes then
    .error (.oversizedPayload (c.payloadJson e.payload).length)
  else .ok ()

def evidenceById (evidence : List SensedEvidence) : OrdMap Uuid SensedEvidence :=
  OrdMap.ofList (evidence.map fun e => (e.id, e))

def evidenceRef (e : SensedEvidence) (relation : EvidenceRelation) : EvidenceRef where
  evidenceId := e.id
  kind := e.kind
  relation := relation
  observedAt := e.observedAt
  trustClass := e.source.map EvidenceSource.trustClass
  sensorName := e.source.map fun _ => e.sensorName
  collectionMethod := e.source.map fun _ => e.collectionMethod
  payloadFingerprint := shortFingerprint c (c.payloadJson e.payload)
  evidencePurged := e.evidencePurged

def referencedRef (byId : OrdMap Uuid SensedEvidence) (link : StoredLink) : Option EvidenceRef :=
  (byId.get? link.evidenceId).bind fun e =>
    match isExportable c e with
    | .ok () => some (evidenceRef c e link.relation)
    | .error _ => none

def withheldRef (byId : OrdMap Uuid SensedEvidence) (link : StoredLink) : Option WithheldRef :=
  (byId.get? link.evidenceId).bind fun e =>
    match isExportable c e with
    | .ok () => none
    | .error reason => some ⟨e.id, e.kind, reason⟩

def sortedLinks (links : List StoredLink) : List StoredLink :=
  sortBy (fun l => l.evidenceId) links

def referencedEvidence (links : List StoredLink) (evidence : List SensedEvidence) :
    List EvidenceRef :=
  sortBy EvidenceRef.evidenceId
    ((sortedLinks links).filterMap (referencedRef c (evidenceById evidence)))

def withheldEvidence (links : List StoredLink) (evidence : List SensedEvidence) :
    List WithheldRef :=
  sortBy WithheldRef.evidenceId
    ((sortedLinks links).filterMap (withheldRef c (evidenceById evidence)))

def missingRef (m : StoredMissing) : MissingEvidenceRef :=
  ⟨m.signalClass, m.availability, m.notedAt⟩

def missingEvidence (missing : List StoredMissing) : List MissingEvidenceRef :=
  sortBy MissingEvidenceRef.notedAt (missing.map missingRef)

def familyBases (families : SourceFamilyMap) (refs : List EvidenceRef) : List FamilyBasis :=
  sortedDedupedBases ((families.familiesAmong (referencedIds refs).toList).flatMap
    SourceFamily.bases)

def notAfterOf (issuedAt : String) (ttlSeconds : Option ℤ) : Option String :=
  ttlSeconds.bind fun ttl => (c.parseDateTime issuedAt).map fun issued =>
    c.toRfc3339 (issued + ttl * 1000000000)

def unnumberedBody (inputs : ReceiptInputs) (issuedAt : String) (ttlSeconds : Option ℤ) :
    ReceiptBody :=
  let referenced := referencedEvidence c inputs.links inputs.evidence
  { receiptSchemaVersion := receiptPayloadSchemaVersion
    receiptId := 0
    issuer := inputs.issuer
    homeIdentity := inputs.homeIdentity
    issuedAt := issuedAt
    notAfter := notAfterOf c issuedAt ttlSeconds
    embedPolicy := .referenceOnly
    claim := {
      claimId := inputs.claim.id
      sessionId := inputs.claim.sessionId
      subject := inputs.claim.subject
      claimTextFingerprint := shortFingerprint c
        (utf8Bytes (String.ofList (redactText c.upper inputs.claim.text.toList)))
      claimedAt := inputs.claim.claimedAt }
    finding := {
      verdict := inputs.fused.verdict
      uncertainty := inputs.fused.uncertainty
      unresolvedConflict := inputs.fused.unresolvedConflict
      countedLinkCount := inputs.fused.countedLinkIds.length
      discountedLinkCount := inputs.fused.discountedLinkIds.length
      firedRules := sortedDedupedRules (inputs.fused.rationale.map RationaleEntry.rule)
      fusionPolicyName := inputs.fused.policyName
      fusionPolicyVersion := inputs.fused.policyVersion
      computedAt := inputs.fused.computedAt }
    recommendation := {
      action := inputs.recommendation.action
      riskClass := inputs.recommendation.riskClass
      decisionPolicyName := inputs.recommendation.policyName
      decisionPolicyVersion := inputs.recommendation.policyVersion }
    coverage := {
      evidenceRoot := evidenceRootOf c referenced
      referencedEvidence := referenced
      missingEvidence := missingEvidence inputs.missing
      gaps := inputs.gaps.map fun g => ⟨g.kind, g.detail⟩
      sourceFamilyBases := familyBases inputs.families referenced
      withheld := withheldEvidence c inputs.links inputs.evidence }
    provenance := inputs.provenance
    calibration := inputs.calibration }

def ReceiptBody.numbered (body : ReceiptBody) : ReceiptBody :=
  { body with receiptId := body.deriveId c }

@[simp] theorem ReceiptBody.numbered_coverage (body : ReceiptBody) :
    (body.numbered c).coverage = body.coverage := rfl

def issueReceipt (inputs : ReceiptInputs) (issuedAt : String) (ttlSeconds : Option ℤ) :
    Except IssueError (IntegrityReceipt c) :=
  if inputs.recommendation.claimId ≠ inputs.claim.id then
    .error (.claimIdMismatch inputs.claim.id inputs.recommendation.claimId)
  else if inputs.fused.claimId ≠ inputs.claim.id then
    .error (.fusedClaimIdMismatch inputs.claim.id inputs.fused.claimId)
  else
    .ok (.newTrusted c ((unnumberedBody c inputs issuedAt ttlSeconds).numbered c))

variable {c}
  {evidence : List SensedEvidence} {inputs : ReceiptInputs}

theorem id_of_evidenceById {id : Uuid} {e : SensedEvidence}
    (h : (evidenceById evidence).get? id = some e) : e ∈ evidence ∧ e.id = id :=
  OrdMap.mem_of_get?_indexed h

theorem get?_evidenceById (hids : (evidence.map fun e => e.id).Nodup) {id : Uuid}
    {e : SensedEvidence} : (evidenceById evidence).get? id = some e ↔ e ∈ evidence ∧ e.id = id :=
  OrdMap.get?_indexed hids

theorem evidenceById_perm {other : List SensedEvidence} (hids : (evidence.map fun e => e.id).Nodup)
    (hperm : other.Perm evidence) : evidenceById other = evidenceById evidence := by
  apply OrdMap.ext_get?
  intro id
  apply Option.ext
  intro e
  rw [get?_evidenceById hids,
    get?_evidenceById ((hperm.map fun e : SensedEvidence => e.id).nodup_iff.mpr hids),
    hperm.mem_iff]

theorem referencedRef_eq_some {byId : OrdMap Uuid SensedEvidence} {link : StoredLink}
    {r : EvidenceRef} : referencedRef c byId link = some r ↔
      ∃ e, byId.get? link.evidenceId = some e ∧ isExportable c e = .ok () ∧
        r = evidenceRef c e link.relation := by
  unfold referencedRef
  cases byId.get? link.evidenceId with
  | none => simp
  | some e =>
    cases hexp : isExportable c e with
    | error reason => simp [hexp]
    | ok u => simp [hexp, eq_comm]

theorem evidenceId_of_withheldRef {link : StoredLink} {w : WithheldRef}
    (h : withheldRef c (evidenceById evidence) link = some w) :
    w.evidenceId = link.evidenceId := by
  obtain ⟨e, he, hw⟩ := Option.bind_eq_some_iff.mp h
  split at hw
  · cases hw
  · cases hw
    exact (id_of_evidenceById he).2

section

variable (links : List StoredLink) (evidence : List SensedEvidence)

theorem referencedEvidence_eq : referencedEvidence c links evidence = sortBy EvidenceRef.evidenceId
      (links.filterMap (referencedRef c (evidenceById evidence))) := by
  refine sortBy_filterMap_sortBy (fun link r h => ?_) links
  obtain ⟨e, he, -, rfl⟩ := referencedRef_eq_some.mp h
  exact (id_of_evidenceById he).2

theorem withheldEvidence_eq : withheldEvidence c links evidence = sortBy WithheldRef.evidenceId
      (links.filterMap (withheldRef c (evidenceById evidence))) := by
  exact sortBy_filterMap_sortBy (fun _ _ => evidenceId_of_withheldRef) links

end

theorem withheldEvidence_perm {links other : List StoredLink} (evidence : List SensedEvidence)
    (hperm : other.Perm links) :
    withheldEvidence c other evidence = withheldEvidence c links evidence := by
  rw [withheldEvidence_eq, withheldEvidence_eq]
  refine forall_perm_sortBy_filterMap_iff.mpr ?_ other hperm
  intro v hv w hw hid
  obtain ⟨link, -, hlink⟩ := mem_filterMap.mp hv
  obtain ⟨link', -, hlink'⟩ := mem_filterMap.mp hw
  have hsame : link.evidenceId = link'.evidenceId :=
    (evidenceId_of_withheldRef hlink).symm.trans (hid.trans (evidenceId_of_withheldRef hlink'))
  rw [withheldRef, hsame] at hlink
  exact Option.some.inj (hlink.symm.trans hlink')

def ReceiptInputs.reordered (inputs : ReceiptInputs) (links : List StoredLink)
    (missing : List StoredMissing) (evidence : List SensedEvidence) : ReceiptInputs :=
  { inputs with links := links, missing := missing, evidence := evidence }

def ReceiptInputs.ClaimsAgree (inputs : ReceiptInputs) : Prop :=
  inputs.recommendation.claimId = inputs.claim.id ∧ inputs.fused.claimId = inputs.claim.id

theorem ReceiptInputs.ClaimsAgree.reordered (h : inputs.ClaimsAgree) (links : List StoredLink)
    (missing : List StoredMissing) (evidence : List SensedEvidence) :
    (inputs.reordered links missing evidence).ClaimsAgree := h

/-- Rows that the sorts leave in input order are printed alike: links to one record have one
relation, notes of one timestamp the same signal and availability. -/
structure Untied (c : ReceiptCrates) (inputs : ReceiptInputs) : Prop where
  links : ∀ l ∈ inputs.links, ∀ l' ∈ inputs.links, l.evidenceId = l'.evidenceId →
    (∃ e ∈ inputs.evidence, e.id = l.evidenceId ∧ isExportable c e = .ok ()) →
    l.relation = l'.relation
  missing : ∀ m ∈ inputs.missing, ∀ m' ∈ inputs.missing, m.notedAt = m'.notedAt →
    m.signalClass = m'.signalClass ∧ m.availability = m'.availability

theorem referenced_untied_iff (hids : (inputs.evidence.map fun e => e.id).Nodup) :
    (∀ links : List StoredLink, links.Perm inputs.links →
      referencedEvidence c links inputs.evidence =
        referencedEvidence c inputs.links inputs.evidence) ↔
    ∀ l ∈ inputs.links, ∀ l' ∈ inputs.links, l.evidenceId = l'.evidenceId →
      (∃ e ∈ inputs.evidence, e.id = l.evidenceId ∧ isExportable c e = .ok ()) →
      l.relation = l'.relation := by
  simp only [referencedEvidence_eq]
  rw [forall_perm_sortBy_filterMap_iff]
  constructor
  · rintro h l hl l' hl' hsame ⟨e, he, hid, hexp⟩
    have hget := (get?_evidenceById hids).mpr ⟨he, hid⟩
    have href := referencedRef_eq_some.mpr ⟨e, hget, hexp, rfl⟩
    have href' := referencedRef_eq_some.mpr ⟨e, hsame ▸ hget, hexp, rfl⟩
    exact congrArg EvidenceRef.relation (h _ (mem_filterMap.mpr ⟨l, hl, href⟩) _
      (mem_filterMap.mpr ⟨l', hl', href'⟩) rfl)
  · intro h r hr r' hr' hid
    obtain ⟨l, hl, hlink⟩ := mem_filterMap.mp hr
    obtain ⟨l', hl', hlink'⟩ := mem_filterMap.mp hr'
    obtain ⟨e, he, hexp, rfl⟩ := referencedRef_eq_some.mp hlink
    obtain ⟨e', he', -, rfl⟩ := referencedRef_eq_some.mp hlink'
    obtain ⟨hmem, hkey⟩ := id_of_evidenceById he
    have hsame : l.evidenceId = l'.evidenceId :=
      hkey.symm.trans (hid.trans (id_of_evidenceById he').2)
    obtain rfl : e = e' := Option.some.inj ((hsame ▸ he).symm.trans he')
    rw [h l hl l' hl' hsame ⟨e, hmem, hkey, hexp⟩]

theorem missing_untied_iff : (∀ missing : List StoredMissing, missing.Perm inputs.missing →
      missingEvidence missing = missingEvidence inputs.missing) ↔
    ∀ m ∈ inputs.missing, ∀ m' ∈ inputs.missing, m.notedAt = m'.notedAt →
      m.signalClass = m'.signalClass ∧ m.availability = m'.availability := by
  simp only [missingEvidence, ← filterMap_eq_map]
  rw [forall_perm_sortBy_filterMap_iff]
  simp only [filterMap_eq_map, forall_mem_map, missingRef, MissingEvidenceRef.mk.injEq]
  exact ⟨fun h m hm m' hm' hat => ⟨(h m hm m' hm' hat).1, (h m hm m' hm' hat).2.1⟩,
    fun h m hm m' hm' hat => ⟨(h m hm m' hm' hat).1, (h m hm m' hm' hat).2, hat⟩⟩

theorem issueReceipt_of_claimsAgree (h : inputs.ClaimsAgree) (issuedAt : String)
    (ttlSeconds : Option ℤ) : issueReceipt c inputs issuedAt ttlSeconds =
      .ok (.newTrusted c ((unnumberedBody c inputs issuedAt ttlSeconds).numbered c)) := by
  unfold issueReceipt
  rw [if_neg (not_not.mpr h.1), if_neg (not_not.mpr h.2)]

theorem coverage_of_issueReceipt_eq {other : ReceiptInputs} (h : inputs.ClaimsAgree)
    (h' : other.ClaimsAgree) {issuedAt : String} {ttlSeconds : Option ℤ}
    (heq : issueReceipt c other issuedAt ttlSeconds = issueReceipt c inputs issuedAt ttlSeconds) :
    referencedEvidence c other.links other.evidence =
        referencedEvidence c inputs.links inputs.evidence ∧
      missingEvidence other.missing = missingEvidence inputs.missing := by
  rw [issueReceipt_of_claimsAgree h, issueReceipt_of_claimsAgree h'] at heq
  have hcoverage := congrArg (fun r : IntegrityReceipt c => r.body.coverage) (Except.ok.inj heq)
  exact ⟨congrArg CoverageSummary.referencedEvidence hcoverage,
    congrArg CoverageSummary.missingEvidence hcoverage⟩

theorem issueReceipt_of_reordered {links : List StoredLink} {missing : List StoredMissing}
    (hreferenced : referencedEvidence c links evidence =
      referencedEvidence c inputs.links inputs.evidence)
    (hwithheld : withheldEvidence c links evidence =
      withheldEvidence c inputs.links inputs.evidence)
    (hmissing : missingEvidence missing = missingEvidence inputs.missing) (issuedAt : String)
    (ttlSeconds : Option ℤ) :
    issueReceipt c (inputs.reordered links missing evidence) issuedAt ttlSeconds =
      issueReceipt c inputs issuedAt ttlSeconds := by
  have hbody : unnumberedBody c (inputs.reordered links missing evidence) issuedAt ttlSeconds =
      unnumberedBody c inputs issuedAt ttlSeconds := by
    simp only [unnumberedBody, ReceiptInputs.reordered, hreferenced, hwithheld, hmissing]
  unfold issueReceipt
  rw [hbody]
  rfl

theorem issueReceipt_order_free_iff (c : ReceiptCrates) (inputs : ReceiptInputs)
    (hids : (inputs.evidence.map fun e => e.id).Nodup) (issuedAt : String)
    (ttlSeconds : Option ℤ) :
    (∀ links missing evidence, links.Perm inputs.links → missing.Perm inputs.missing →
      evidence.Perm inputs.evidence →
      issueReceipt c (inputs.reordered links missing evidence) issuedAt ttlSeconds =
        issueReceipt c inputs issuedAt ttlSeconds) ↔
    (inputs.ClaimsAgree → Untied c inputs) := by
  constructor
  · intro h hagree
    refine ⟨(referenced_untied_iff hids).mp fun links hperm => ?_,
      missing_untied_iff.mp fun missing hperm => ?_⟩
    · exact (coverage_of_issueReceipt_eq hagree (hagree.reordered _ _ _)
        (h links inputs.missing inputs.evidence hperm (.refl _) (.refl _))).1
    · exact (coverage_of_issueReceipt_eq hagree (hagree.reordered _ _ _)
        (h inputs.links missing inputs.evidence (.refl _) hperm (.refl _))).2
  · intro huntied links missing evidence hlinks hmissing hevidence
    by_cases hagree : inputs.ClaimsAgree
    · have hbyId := evidenceById_perm hids hevidence
      refine issueReceipt_of_reordered ?_ ?_ ?_ issuedAt ttlSeconds
      · rw [referencedEvidence, hbyId]
        exact (referenced_untied_iff hids).mpr (huntied hagree).links links hlinks
      · rw [withheldEvidence, hbyId]
        exact withheldEvidence_perm inputs.evidence hlinks
      · exact missing_untied_iff.mpr (huntied hagree).missing missing hmissing
    · -- Nothing is issued, and the refusal does not look at the rows.
      unfold issueReceipt
      by_cases hrec : inputs.recommendation.claimId = inputs.claim.id
      · have hfused : inputs.fused.claimId ≠ inputs.claim.id := fun h => hagree ⟨hrec, h⟩
        simp only [ReceiptInputs.reordered, hrec, hfused, ne_eq, not_true_eq_false, if_false,
          not_false_eq_true, if_true]
      · simp only [ReceiptInputs.reordered, hrec, ne_eq, not_false_eq_true, if_true]

/-- A printer that shows the relations only, under a digest that shows what it is given. -/
def labCrates : ReceiptCrates :=
  { ReceiptCrates.stub with
    sha256Hex := fun bytes => String.ofList (bytes.flatMap fun b => hexDigits 2 b.toNat)
    bodyJson := fun body =>
      body.coverage.referencedEvidence.map fun r => UInt8.ofNat r.relation.key
    receiptIdOf := fun bytes =>
      bytes.foldl (fun id b => if b = 0 then id + id else id + id + 1) 0 }

def labEvidence : SensedEvidence where
  id := 1
  sourceEventId := 9
  kind := .exitCode
  observedAt := "t0"
  source := some ⟨.agentAdjacent, none, []⟩
  sessionId := "s1"
  payload := .null
  provenance := "hook"
  extension := none
  evidencePurged := false
  sensorName := "exit_code_probe"
  collectionMethod := .hookCallback

def labLink (id : Uuid) (relation : EvidenceRelation) : StoredLink where
  id := id
  evidenceId := 1
  relation := relation
  sessionId := "s1"
  claimId := 2
  linkedAt := "t0"

def labProvenance : CalibrationProvenance :=
  ⟨1, "claude_code", none, 1, [], "baseline", 2, "default", 1, 1, [], none, none, none⟩

def labInputs : ReceiptInputs where
  claim := ⟨⟨2, "t0"⟩, "s1", 9, "it works", "command_succeeded"⟩
  links := [labLink 3 .supports, labLink 4 .contradicts]
  missing := []
  evidence := [labEvidence]
  fused := ⟨2, .review, .conflicted, [], [3, 4], [], [], true, "baseline", 2, "t0"⟩
  recommendation := ⟨2, .review, .balanced, "default", 1, ""⟩
  gaps := []
  families := ⟨[], OrdMap.empty⟩
  provenance := labProvenance
  calibration := ⟨.noActiveCalibration, 1⟩
  issuer := "lab"
  homeIdentity := "home"

def receiptIdentity (c : ReceiptCrates) (inputs : ReceiptInputs) (issuedAt : String)
    (ttlSeconds : Option ℤ) : Except IssueError (Uuid × ReceiptDigest) :=
  (issueReceipt c inputs issuedAt ttlSeconds).map fun r => (r.body.receiptId, r.digest)

theorem issueReceipt_order_free_iff_labEvidence :
    (labInputs.evidence.map fun e => e.id).Nodup ∧
    ((∀ links missing evidence, links.Perm labInputs.links → missing.Perm labInputs.missing →
      evidence.Perm labInputs.evidence →
      issueReceipt labCrates (labInputs.reordered links missing evidence) "t0" none =
        issueReceipt labCrates labInputs "t0" none) ↔
    (labInputs.ClaimsAgree → Untied labCrates labInputs)) :=
  ⟨by decide, issueReceipt_order_free_iff labCrates labInputs (by decide) "t0" none⟩

/-- The links in the other order give another id and another digest. -/
theorem receipt_identity_follows_links :
    ([labLink 4 .contradicts, labLink 3 .supports] : List StoredLink).Perm labInputs.links ∧
    (labInputs.links.map fun l => l.id).Nodup ∧
    receiptIdentity labCrates
        (labInputs.reordered [labLink 4 .contradicts, labLink 3 .supports] [] [labEvidence]) "t0"
        none = .ok (2, "sha256:0100") ∧
    receiptIdentity labCrates labInputs "t0" none = .ok (1, "sha256:0001") := by
  refine ⟨List.Perm.swap _ _ [], by decide, ?_, ?_⟩
  · decide +kernel
  · decide +kernel

end Fornax.Receipt
