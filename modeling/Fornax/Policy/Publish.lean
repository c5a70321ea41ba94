import Fornax.Policy.Bundle
import Fornax.Policy.Order

namespace Fornax

open List

def policySchemaVersion : ℕ := 1

def ActionClass.debug (c : Crates) : ActionClass → String
  | .codeEdit => "CodeEdit"
  | .shellCommand => "ShellCommand"
  | .versionControlWrite => "VersionControlWrite"
  | .networkFetch => "NetworkFetch"
  | .packageInstall => "PackageInstall"
  | .credentialAccess => "CredentialAccess"
  | .infrastructureMutation => "InfrastructureMutation"
  | .dataEgress => "DataEgress"
  | .unrecognized tag => "Unrecognized(" ++ c.debugStr tag ++ ")"

def PolicyFieldId.isUnrecognized : PolicyFieldId → Bool
  | .unrecognized _ => true
  | _ => false

structure PolicyDraft where
  policyId : Uuid
  revision : ℕ
  supersedes : Option RevisionDigest
  displayName : String
  content : PolicyContent
  pinnedFields : OrdSet PolicyFieldId
  deriving DecidableEq

namespace PolicyDraft

def emptyDisplayName : PolicyDiagnostic :=
  PolicyDiagnostic.new .emptyDisplayName .error "display_name must not be empty"
    "set a non-empty, human-readable display_name"

def duplicateActionClassRule (c : Crates) (k : ActionClass) : PolicyDiagnostic :=
  (PolicyDiagnostic.new .duplicateActionClassRule .error
    ("action_class " ++ k.debug c ++ " appears more than once in enforcement.rules")
    ("remove the duplicate rule, or merge its outcomes into one rule per " ++
      "action_class")).withField .enforcementRules

def unsortedEnforcementRules : PolicyDiagnostic :=
  (PolicyDiagnostic.new .unsortedEnforcementRules .error
    "enforcement.rules must be sorted by action_class"
    "sort the rules list by action_class before publishing").withField .enforcementRules

def pinNamesUnsetField (f : PolicyFieldId) : PolicyDiagnostic :=
  (PolicyDiagnostic.new .pinNamesUnsetField .error
    (f.debug ++ " is pinned but not set by this revision's content")
    "either set the field's value in content, or remove it from pinned_fields").withField f

def supersedesSelf : PolicyDiagnostic :=
  PolicyDiagnostic.new .supersedesSelf .error
    "supersedes must not name this revision's own digest"
    ("point supersedes at the actual prior revision, or leave it unset for the first " ++
      "revision")

/-- The loop over the rules, `seen` the classes so far. -/
def duplicateRules (c : Crates) (seen : OrdSet ActionClass) :
    List EnforcementRule → List PolicyDiagnostic
  | [] => []
  | r :: rest =>
    (if seen.contains r.actionClass then [duplicateActionClassRule c r.actionClass] else []) ++
      duplicateRules c (seen.add r.actionClass) rest

def rulesInOrder (rules : List EnforcementRule) : Bool :=
  decide ((rules.map (·.actionClass)).insertionSort (· ≤ ·) = rules.map (·.actionClass))

def ruleDiagnostics (c : Crates) (rules : List EnforcementRule) : List PolicyDiagnostic :=
  duplicateRules c OrdSet.empty rules ++
    if rulesInOrder rules then [] else [unsortedEnforcementRules]

def pinDiagnostics (content : PolicyContent) (f : PolicyFieldId) : List PolicyDiagnostic :=
  if f.isUnrecognized then []
  else if (getField content f).isNone then [pinNamesUnsetField f]
  else []

def diagnostics (c : Crates) (d : PolicyDraft) : List PolicyDiagnostic :=
  (if isBlank d.displayName then [emptyDisplayName] else []) ++
    (match d.content.enforcementRules with
      | some rules => ruleDiagnostics c rules
      | none => []) ++
    d.pinnedFields.toList.flatMap (pinDiagnostics d.content)

def canonicalContent (content : PolicyContent) : PolicyContent :=
  { content with
    requiredSignals := content.requiredSignals.map normalizeSignalClasses
    enforcementRules := content.enforcementRules.map sortRules }

def body (d : PolicyDraft) (publishedAt : String) : PolicyRevisionBody where
  schemaVersion := policySchemaVersion
  policyId := d.policyId
  revision := d.revision
  supersedes := d.supersedes
  publishedAt := publishedAt
  displayName := d.displayName
  content := canonicalContent d.content
  pinnedFields := d.pinnedFields

def publish (c : Crates) (d : PolicyDraft) (publishedAt : String) :
    Except (List PolicyDiagnostic) PublishedPolicyRevision :=
  if (d.diagnostics c).any fun x => decide (x.severity = .error) then .error (d.diagnostics c)
  else if d.supersedes = some (digestOf c (d.body publishedAt)) then .error [supersedesSelf]
  else .ok ⟨d.body publishedAt, digestOf c (d.body publishedAt)⟩

end PolicyDraft

structure PublishInvariants (body : PolicyRevisionBody) : Prop where
  rules_sorted : ∀ rules, body.content.enforcementRules = some rules →
    rules.Pairwise fun r s => r.actionClass ≤ s.actionClass
  rules_once : ∀ rules, body.content.enforcementRules = some rules → RulesOnce rules
  pins_set : ∀ f, body.pinnedFields.contains f = true → f.isUnrecognized = false →
    (getField body.content f).isSome = true
  named : isBlank body.displayName = false

namespace PolicyDraft

variable {c : Crates}
  {rules : List EnforcementRule} {d : PolicyDraft} {publishedAt : String}
  {r : PublishedPolicyRevision}

theorem duplicateRules_eq_nil {seen : OrdSet ActionClass} : duplicateRules c seen rules = [] ↔
      (∀ r ∈ rules, seen.contains r.actionClass = false) ∧ RulesOnce rules := by
  induction rules generalizing seen with
  | nil => simp [duplicateRules, RulesOnce]
  | cons r rest ih =>
    rw [duplicateRules, append_eq_nil_iff, ih]
    have hadd : ∀ s : EnforcementRule, (seen.add r.actionClass).contains s.actionClass = false ↔
        s.actionClass ≠ r.actionClass ∧ seen.contains s.actionClass = false := by
      intro s
      rw [← Bool.not_eq_true, OrdSet.contains_add, not_or, Bool.not_eq_true]
    have honce : RulesOnce (r :: rest) ↔
        (∀ s ∈ rest, s.actionClass ≠ r.actionClass) ∧ RulesOnce rest := by
      simp only [RulesOnce, map_cons, nodup_cons, mem_map, not_exists, not_and]
    cases hseen : seen.contains r.actionClass with
    | true => simp [hseen]
    | false =>
      simp only [hadd, honce, hseen, Bool.false_eq_true, if_false, true_and, mem_cons,
        forall_eq_or_imp]
      constructor
      · rintro ⟨hrest, hrest_once⟩
        exact ⟨fun s hs => (hrest s hs).2, fun s hs => (hrest s hs).1, hrest_once⟩
      · rintro ⟨hnew, hne, hrest_once⟩
        exact ⟨fun s hs => ⟨hne s hs, hnew s hs⟩, hrest_once⟩

theorem rulesInOrder_iff :
    rulesInOrder rules ↔ rules.Pairwise fun r s => r.actionClass ≤ s.actionClass := by
  rw [rulesInOrder, decide_eq_true_eq, ← pairwise_map]
  constructor
  · intro h
    rw [← h]
    exact pairwise_insertionSort (· ≤ ·) _
  · exact List.Pairwise.insertionSort_eq

theorem ruleDiagnostics_eq_nil : ruleDiagnostics c rules = [] ↔
      RulesOnce rules ∧ rules.Pairwise fun r s => r.actionClass ≤ s.actionClass := by
  rw [ruleDiagnostics, append_eq_nil_iff, duplicateRules_eq_nil, ← rulesInOrder_iff]
  cases rulesInOrder rules <;> simp

theorem pinDiagnostics_eq_nil {content : PolicyContent} {f : PolicyFieldId} :
    pinDiagnostics content f = [] ↔ (f.isUnrecognized = false → (getField content f).isSome) := by
  unfold pinDiagnostics
  cases f.isUnrecognized <;> cases getField content f <;> simp

theorem diagnostics_eq_nil {body : PolicyRevisionBody} (hname : d.displayName = body.displayName)
    (hcontent : d.content = body.content) (hpins : d.pinnedFields = body.pinnedFields) :
    d.diagnostics c = [] ↔ PublishInvariants body := by
  rw [diagnostics, hname, hcontent, hpins, append_eq_nil_iff, append_eq_nil_iff, flatMap_eq_nil_iff]
  simp only [pinDiagnostics_eq_nil, OrdSet.mem_toList]
  constructor
  · rintro ⟨⟨hblank, hrules⟩, hset⟩
    have hchecked : ∀ rules, body.content.enforcementRules = some rules →
        RulesOnce rules ∧ rules.Pairwise fun r s => r.actionClass ≤ s.actionClass := by
      intro rules hr
      rw [hr] at hrules
      exact ruleDiagnostics_eq_nil.mp hrules
    exact
      { rules_sorted := fun rules hr => (hchecked rules hr).2
        rules_once := fun rules hr => (hchecked rules hr).1
        pins_set := hset
        named := by simpa using hblank }
  · intro h
    refine ⟨⟨by simp [h.named], ?_⟩, h.pins_set⟩
    cases hr : body.content.enforcementRules with
    | none => rfl
    | some rules =>
      exact ruleDiagnostics_eq_nil.mpr ⟨h.rules_once rules hr, h.rules_sorted rules hr⟩

theorem duplicateRules_severity {seen : OrdSet ActionClass} :
    ∀ x ∈ duplicateRules c seen rules, x.severity = .error := by
  induction rules generalizing seen with
  | nil => exact forall_mem_nil _
  | cons r rest ih =>
    refine forall_mem_append.mpr ⟨?_, ih⟩
    split
    · exact forall_mem_singleton.mpr rfl
    · exact forall_mem_nil _

theorem ruleDiagnostics_severity : ∀ x ∈ ruleDiagnostics c rules, x.severity = .error := by
  refine forall_mem_append.mpr ⟨duplicateRules_severity, ?_⟩
  split
  · exact forall_mem_nil _
  · exact forall_mem_singleton.mpr rfl

theorem pinDiagnostics_severity {content : PolicyContent} {f : PolicyFieldId} :
    ∀ x ∈ pinDiagnostics content f, x.severity = .error := by
  unfold pinDiagnostics
  split
  · exact forall_mem_nil _
  · split
    · exact forall_mem_singleton.mpr rfl
    · exact forall_mem_nil _

theorem diagnostics_severity : ∀ x ∈ d.diagnostics c, x.severity = .error := by
  refine forall_mem_append.mpr ⟨forall_mem_append.mpr ⟨?_, ?_⟩, ?_⟩
  · split
    · exact forall_mem_singleton.mpr rfl
    · exact forall_mem_nil _
  · split
    · exact ruleDiagnostics_severity
    · exact forall_mem_nil _
  · intro x hx
    obtain ⟨f, _, hf⟩ := mem_flatMap.mp hx
    exact pinDiagnostics_severity x hf

theorem publish_eq_ok : d.publish c publishedAt = .ok r ↔
      d.diagnostics c = [] ∧ d.supersedes ≠ some (digestOf c (d.body publishedAt)) ∧
        r = ⟨d.body publishedAt, digestOf c (d.body publishedAt)⟩ := by
  have herror : ((d.diagnostics c).any fun x => decide (x.severity = .error)) = true ↔
      d.diagnostics c ≠ [] := by
    rw [any_eq_true]
    constructor
    · rintro ⟨x, hx, _⟩
      exact ne_nil_of_mem hx
    · intro hne
      obtain ⟨x, hx⟩ := exists_mem_of_ne_nil _ hne
      exact ⟨x, hx, decide_eq_true (diagnostics_severity x hx)⟩
  unfold publish
  by_cases hdiag : d.diagnostics c = []
  · rw [if_neg (fun h => herror.mp h hdiag)]
    by_cases hself : d.supersedes = some (digestOf c (d.body publishedAt))
    · simp [hself]
    · simp [hself, hdiag, eq_comm]
  · rw [if_pos (herror.mpr hdiag)]
    simp [hdiag]

theorem isSome_getField_canonicalContent (content : PolicyContent) (f : PolicyFieldId) :
    (getField (canonicalContent content) f).isSome = (getField content f).isSome := by
  cases f <;> simp [getField, canonicalContent]

theorem publish_invariants (h : d.publish c publishedAt = .ok r) : PublishInvariants r.body := by
  obtain ⟨hdiag, -, rfl⟩ := publish_eq_ok.mp h
  -- The draft as it stands has the invariants; sorting then changes nothing.
  have hdraft : PublishInvariants { d.body publishedAt with content := d.content } :=
    (diagnostics_eq_nil rfl rfl rfl).mp hdiag
  have hsame : ∀ rules, (d.body publishedAt).content.enforcementRules = some rules →
      d.content.enforcementRules = some rules := by
    intro rules hr
    obtain ⟨rules', hr', hsort⟩ := Option.map_eq_some_iff.mp hr
    have hsorted := hdraft.rules_sorted rules' hr'
    rw [← hsort, sortRules, List.Pairwise.insertionSort_eq hsorted]
    exact hr'
  exact
    { rules_sorted := fun rules hr => hdraft.rules_sorted rules (hsame rules hr)
      rules_once := fun rules hr => hdraft.rules_once rules (hsame rules hr)
      pins_set := fun f hpin hf =>
        (isSome_getField_canonicalContent d.content f).trans (hdraft.pins_set f hpin hf)
      named := hdraft.named }

theorem tryFrom_publish (h : d.publish c publishedAt = .ok r) :
    PublishedPolicyRevision.tryFrom c ⟨r.body, r.digest⟩ = .ok r := by
  obtain ⟨-, -, rfl⟩ := publish_eq_ok.mp h
  simp [PublishedPolicyRevision.tryFrom, body, policySchemaVersion, supportedPolicySchemaVersions]

end PolicyDraft

/-- A draft with the fields of a revision, its `supersedes` link apart. -/
def PolicyDraft.ofBody (body : PolicyRevisionBody) : PolicyDraft :=
  ⟨body.policyId, body.revision, none, body.displayName, body.content, body.pinnedFields⟩

def republish (c : Crates) (body : PolicyRevisionBody) :
    Except (List PolicyDiagnostic) PublishedPolicyRevision :=
  (PolicyDraft.ofBody body).publish c body.publishedAt

theorem republish_eq_ok {c : Crates} {body : PolicyRevisionBody} :
    (∃ r, republish c body = .ok r) ↔ PublishInvariants body := by
  have hdiag : (PolicyDraft.ofBody body).diagnostics c = [] ↔ PublishInvariants body :=
    PolicyDraft.diagnostics_eq_nil rfl rfl rfl
  simp only [republish, PolicyDraft.publish_eq_ok, hdiag]
  simp [PolicyDraft.ofBody]

section Wire

variable {c : Crates} {r : PublishedPolicyRevision}

theorem tryFrom_ok {wire : PolicyRevisionWire}
    (h : PublishedPolicyRevision.tryFrom c wire = .ok r) :
    r.body.schemaVersion = policySchemaVersion ∧ r.digest = digestOf c r.body := by
  unfold PublishedPolicyRevision.tryFrom at h
  split_ifs at h with hversion hdigest
  rw [← Except.ok.inj h]
  exact ⟨mem_singleton.mp hversion, (not_not.mp hdigest).symm⟩

/-- The required signals stand in the order of their JSON text, once each. -/
def SignalsNormal (body : PolicyRevisionBody) : Prop :=
  ∀ signals, body.content.requiredSignals = some signals → normalizeSignalClasses signals = signals

theorem normalizeSignalClasses_idem (l : List SignalClass) :
    normalizeSignalClasses (normalizeSignalClasses l) = normalizeSignalClasses l :=
  SortDedup.sortDedup_append_right signalClassSortKey [] l

theorem PolicyDraft.body_signalsNormal (d : PolicyDraft) (publishedAt : String) :
    SignalsNormal (d.body publishedAt) := by
  intro signals hs
  obtain ⟨signals', -, hnormal⟩ := Option.map_eq_some_iff.mp hs
  rw [← hnormal, normalizeSignalClasses_idem]

theorem PolicyDraft.canonicalContent_eq {body : PolicyRevisionBody} (h : PublishInvariants body)
    (hsignals : SignalsNormal body) : canonicalContent body.content = body.content := by
  have hs : body.content.requiredSignals.map normalizeSignalClasses =
      body.content.requiredSignals := by
    cases hr : body.content.requiredSignals with
    | none => rfl
    | some signals => rw [Option.map_some, hsignals signals hr]
  have hr : body.content.enforcementRules.map sortRules = body.content.enforcementRules := by
    cases he : body.content.enforcementRules with
    | none => rfl
    | some rules =>
      rw [Option.map_some, sortRules, List.Pairwise.insertionSort_eq (h.rules_sorted rules he)]
  rw [canonicalContent, hs, hr]

theorem exists_publish_iff {wire : PolicyRevisionWire}
    (hwire : PublishedPolicyRevision.tryFrom c wire = .ok r) :
    (∃ d publishedAt, PolicyDraft.publish c d publishedAt = .ok r) ↔
      PublishInvariants r.body ∧ SignalsNormal r.body ∧ r.body.supersedes ≠ some r.digest := by
  obtain ⟨hversion, hdigest⟩ := tryFrom_ok hwire
  constructor
  · rintro ⟨d, publishedAt, hd⟩
    have hinv := PolicyDraft.publish_invariants hd
    obtain ⟨-, hself, rfl⟩ := PolicyDraft.publish_eq_ok.mp hd
    exact ⟨hinv, d.body_signalsNormal publishedAt, hself⟩
  · rintro ⟨hinv, hsignals, hself⟩
    let d : PolicyDraft := { PolicyDraft.ofBody r.body with supersedes := r.body.supersedes }
    have hbody : d.body r.body.publishedAt = r.body := by
      have hcontent : PolicyDraft.canonicalContent d.content = r.body.content :=
        PolicyDraft.canonicalContent_eq hinv hsignals
      rw [PolicyDraft.body, hcontent, ← hversion]
      rfl
    refine ⟨d, r.body.publishedAt, PolicyDraft.publish_eq_ok.mpr ⟨?_, ?_, ?_⟩⟩
    · exact (PolicyDraft.diagnostics_eq_nil rfl rfl rfl).mpr hinv
    · rw [hbody, ← hdigest]
      exact hself
    · rw [hbody, ← hdigest]

end Wire

section Resolved

variable {bound : List BoundRevision} {ctx : DeviceContext}

def ruleBindings (bound : List BoundRevision) (ctx : DeviceContext) (level : TargetLevel) :
    List BoundRevision :=
  (levelBindings bound ctx level).filter fun b => (b.field .enforcementRules).isSome

/-- The most specific level that sets rules, unless its list is looser than a pinned one in charge
before it. -/
def rulesLevel (bound : List BoundRevision) (ctx : DeviceContext) : Option TargetLevel :=
  (Layers.winner (isAtLeastAsStrict .enforcementRules) (ruleLayers bound ctx)).bind
    fun l => l.origin.level

/-- Lists of several bindings are combined by action class; the list of one binding alone is taken
as it is. -/
def LoneRulesOnce (bound : List BoundRevision) (ctx : DeviceContext) : Prop :=
  ∀ level, rulesLevel bound ctx = some level →
    ∀ b, ruleBindings bound ctx level = [b] → b.NamesRulesOnce

theorem length_fieldCandidates (bs : List BoundRevision) (f : PolicyFieldId) :
    (fieldCandidates bs f).length = (bs.filter fun b => (b.field f).isSome).length := by
  simp [fieldCandidates, length_filterMap_eq_countP, countP_eq_length_filter]

theorem selfStrict_fieldLayer {level : TargetLevel} {l : Layers.Layer FieldValue FieldProvenance}
    (h : fieldLayer (levelBindings bound ctx level) .enforcementRules level = some l) :
    SelfStrict l.value ↔ ∀ b, ruleBindings bound ctx level = [b] → b.NamesRulesOnce := by
  obtain ⟨first, rest, hcands, hvalue, -, -⟩ := fieldLayer_cons h
  have hlength : (first :: rest).length = (ruleBindings bound ctx level).length :=
    hcands ▸ length_fieldCandidates _ _
  rcases eq_nil_or_concat rest with rfl | ⟨init, d, rfl⟩
  · -- One candidate: the level's list is the list of its binding.
    obtain ⟨b, hone⟩ := length_eq_one_iff.mp hlength.symm
    obtain ⟨hb, hset⟩ := mem_filter.mp (hone ▸ mem_singleton_self b)
    obtain ⟨v, hv⟩ := Option.isSome_iff_exists.mp hset
    have hmem := fieldCandidates_mem_of_field hb hv
    rw [hcands, mem_singleton] at hmem
    have hlone : l.value = v := hvalue.trans (congrArg FieldCandidate.value hmem).symm
    simp only [hlone, hone, cons.injEq, and_true, forall_eq']
    exact namesRulesOnce_iff hv
  · -- Several candidates: the last combination leaves one rule for each class.
    have hfits : ∀ e ∈ (first :: init) ++ [d], Fits .enforcementRules e.value := by
      intro e he
      rw [cons_append, ← concat_eq_append, ← hcands] at he
      exact fieldCandidate_fits he
    have hself : SelfStrict l.value := by
      rw [hvalue, mergedValue, concat_eq_append, foldl_concat]
      exact selfStrict_meetField (mergedValue_fits (forall_mem_append.mp hfits).1)
        (hfits d (by simp))
    refine iff_of_true hself fun b hb => ?_
    simp [hb] at hlength

theorem resolved_rules_once_iff : RulesOnce (resolve bound ctx).1.values.enforcementRules ↔
    LoneRulesOnce bound ctx := by
  have hfield := resolve_field bound ctx (by decide : PolicyFieldId.enforcementRules ∈ _)
  have hvalue := Layers.run_current_value (isAtLeastAsStrict .enforcementRules)
    (ruleLayers bound ctx)
  rw [ruleLayers, ← fieldRun_rules, ← ruleLayers] at hvalue
  cases hw : Layers.winner (isAtLeastAsStrict .enforcementRules) (ruleLayers bound ctx) with
  | none =>
    rw [hw] at hvalue
    rw [Option.map_eq_none_iff.mp hvalue] at hfield
    have hbase : (resolve bound ctx).1.values.enforcementRules = [] := by
      injection hfield with hfield
      injection hfield
    refine iff_of_true ?_ fun level hl => ?_
    · rw [hbase]
      exact nodup_nil
    · simp [rulesLevel, hw] at hl
  | some l =>
    rw [hw] at hvalue
    obtain ⟨e, hcurrent, he⟩ := Option.map_eq_some_iff.mp hvalue
    obtain ⟨level, hl, horigin⟩ := fieldLayers_mem (Layers.winner_mem _ hw)
    rw [hcurrent] at hfield
    have hrules : l.value = .enforcementRules (resolve bound ctx).1.values.enforcementRules := by
      rw [← he]
      exact (Option.some.inj hfield).symm
    have hlevel : rulesLevel bound ctx = some level := by rw [rulesLevel, hw]; exact horigin
    have hself : RulesOnce (resolve bound ctx).1.values.enforcementRules ↔ SelfStrict l.value := by
      rw [hrules]
      rfl
    simp only [hself, selfStrict_fieldLayer hl, LoneRulesOnce, hlevel, Option.some.injEq,
      forall_eq']

theorem resolved_rules_once_of_publishable {c : Crates}
    (h : ∀ b ∈ applicable bound ctx, ∃ r, republish c b.revision.body = .ok r) :
    RulesOnce (resolve bound ctx).1.values.enforcementRules := by
  refine resolved_rules_once_iff.mpr fun level _ b hb rules hrules => ?_
  have hmem : b ∈ ruleBindings bound ctx level := by
    rw [hb]
    exact mem_cons_self
  have happlies := (mem_filter.mp (mem_filter.mp hmem).1).1
  exact (republish_eq_ok.mp (h b happlies)).rules_once rules hrules

end Resolved

/-- A body that `publish` refuses on four counts: a blank name, one action class
twice, classes out of order, and a pin on a field it does not set. -/
def unpublishableBody : PolicyRevisionBody where
  schemaVersion := 1
  policyId := 1
  revision := 1
  supersedes := none
  publishedAt := "2026-01-01T00:00:00Z"
  displayName := " "
  content :=
    { PolicyContent.unset with
      enforcementRules := some [⟨.shellCommand, .low, .uniform .allow⟩,
        ⟨.codeEdit, .low, .uniform .allow⟩, ⟨.codeEdit, .critical, .uniform .block⟩] }
  pinnedFields := OrdSet.ofList [.egressCloudSyncAllowed]

def unpublishablePayload : BundlePayloadWire where
  bundleSchemaVersion := 1
  bundleId := 11
  sequence := 1
  issuedAt := "2026-01-01T00:00:00Z"
  notBefore := "2026-01-01T00:00:00Z"
  expiresAt := "2026-01-01T00:00:00Z"
  provenance := ⟨"acme", none, none⟩
  revision := ⟨unpublishableBody, "sha256:00"⟩
  bindings := [⟨11, .org "org", TargetSelector.any, ⟨1, 1, "sha256:00"⟩⟩]

def oneBundleCrates : Crates where
  parseRfc3339 := fun _ => .ok 0
  parseDateTime := fun _ => some 0
  toRfc3339 := fun _ => "2026-01-01T00:00:00Z"
  displayInstant := fun _ => "2026-01-01 00:00:00 UTC"
  debugStr := fun s => s
  decodeBase64 := fun text => .ok (asciiBytes text)
  isVerifyingKey := fun _ => true
  verifyStrict := fun _ _ _ => true
  sha256Hex := fun _ => "00"
  revisionJson := fun _ => []
  readBundle := fun _ => .ok ⟨1, "", [⟨"k1", .ed25519, String.ofList (replicate 64 's')⟩]⟩
  readPayload := fun _ => .ok unpublishablePayload
  readRevocationList := fun _ => .error ""
  readRevocationPayload := fun _ => .error ""
  conversionError := fun _ text => text

def oneBundleKeys : TrustedVerificationKeys :=
  ⟨1, [⟨"k1", .ed25519, String.ofList (replicate 32 'k'), none, none, none⟩]⟩

def unpublishableBundle : VerifiedPolicyBundle where
  payload := ⟨1, 11, 1, "2026-01-01T00:00:00Z", "2026-01-01T00:00:00Z", "2026-01-01T00:00:00Z",
    ⟨"acme", none, none⟩, ⟨unpublishableBody, "sha256:00"⟩, unpublishablePayload.bindings⟩
  verifiedBy := "k1"
  payloadDigest := "sha256:00"
  bindings_match := by decide

end Fornax
