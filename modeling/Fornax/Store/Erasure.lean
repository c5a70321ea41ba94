import Fornax.Lib.References
import Fornax.Store.Records

namespace Fornax

open References List OrdMap Fallible

namespace RecordTables

variable (db : RecordTables)

def parents : RecordKey → List RecordKey
  | (.claims, id) => (db.claims.get? id).toList.map fun r => (.agentEvents, r.sourceEventId.text)
  | (.evidence, id) =>
    (db.evidence.get? id).toList.map fun r => (.agentEvents, r.sourceEventId.text)
  | (.findings, id) => (db.findings.get? id).toList.map fun r => (.claims, r.claimId.text)
  | (.claimEvidenceLinks, id) =>
    (db.claimEvidenceLinks.get? id).toList.flatMap fun r =>
      [(.claims, r.claimId.text), (.evidence, r.evidenceId.text)]
  | (.claimMissingEvidence, id) =>
    (db.claimMissingEvidence.get? id).toList.map fun r => (.claims, r.claimId.text)
  | _ => []

def Refers (j k : RecordKey) : Prop := k ∈ db.parents j

def tenantOf : RecordKey → Option String
  | (.agentEvents, id) => (db.agentEvents.get? id).map fun r => r.sessionId
  | (.claims, id) => (db.claims.get? id).map fun r => r.sessionId
  | (.evidence, id) => (db.evidence.get? id).map fun r => r.sessionId
  | (.findings, id) =>
    (db.findings.get? id).bind fun f => (db.claims.get? f.claimId.text).map fun r => r.sessionId
  | _ => none

def tagLog : List (RecordKey × String) := db.lineageTags.map fun tag => (tag.key, tag.tenantRef)

/-- Every row has its tag, and references lead to rows tagged earlier. -/
abbrev Tagged : Prop := Sound db.Refers db.tenantOf db.tagLog

def holds : RecordKey → Bool
  | (.agentEvents, id) => db.agentEvents.contains id
  | (.claims, id) => db.claims.contains id
  | (.evidence, id) => db.evidence.contains id
  | (.findings, id) => db.findings.contains id
  | key => db.plainRows.contains key

def referenced : RecordKey → Bool
  | (.agentEvents, id) =>
    (db.claims.values.any fun r => r.sourceEventId.text == id) ||
      db.evidence.values.any fun r => r.sourceEventId.text == id
  | (.claims, id) =>
    (db.findings.values.any fun r => r.claimId.text == id) ||
      (db.claimEvidenceLinks.values.any fun r => r.claimId.text == id) ||
      db.claimMissingEvidence.values.any fun r => r.claimId.text == id
  | (.evidence, id) => db.claimEvidenceLinks.values.any fun r => r.evidenceId.text == id
  | _ => false

/-- The tables without the row; an attribution goes with its event (`ON DELETE CASCADE`). -/
def remove : RecordKey → RecordTables
  | (.agentEvents, id) =>
    { db with agentEvents := db.agentEvents.erase id
              eventAttribution := db.eventAttribution.erase id }
  | (.claims, id) => { db with claims := db.claims.erase id }
  | (.evidence, id) => { db with evidence := db.evidence.erase id }
  | (.findings, id) => { db with findings := db.findings.erase id }
  | key => { db with plainRows := db.plainRows.filter fun row => row != key }

/-- `DELETE FROM .. WHERE id = ..`; a statement that deletes no row violates nothing. -/
def deleteRow (key : RecordKey) : Except RecordError RecordTables :=
  if db.holds key && db.referenced key then .error .foreignKey else .ok (db.remove key)

end RecordTables

def RecordTable.known : RecordTable → Bool
  | .claimEvidenceLinks | .claimMissingEvidence | .other _ => false
  | _ => true

structure DeletionReport where
  deletedRecords : List RecordKey
  unknownTableRecords : List RecordKey
  deriving DecidableEq, Repr

def deleteTagged (db : RecordTables) (report : DeletionReport) :
    List LineageTagRow → Except RecordError (DeletionReport × RecordTables)
  | [] => .ok (report, db)
  | tag :: tags =>
    if tag.recordTable.known then
      match db.deleteRow tag.key with
      | .error e => .error e
      | .ok db => deleteTagged db
          { report with deletedRecords := report.deletedRecords ++ [tag.key] } tags
    else deleteTagged db
      { report with unknownTableRecords := report.unknownTableRecords ++ [tag.key] } tags

def lineageTagsForTenant (db : RecordTables) (tenant : String) : List LineageTagRow :=
  db.lineageTags.filter fun tag => tag.tenantRef = tenant

def RecordTables.deleteTagsOf (db : RecordTables) (tenant : String) : RecordTables :=
  { db with lineageTags := db.lineageTags.filter fun tag => tag.tenantRef ≠ tenant }

def deleteRecordsForTenant (db : RecordTables) (tenant : String) :
    Except RecordError (DeletionReport × RecordTables) :=
  (deleteTagged db ⟨[], []⟩ (lineageTagsForTenant db tenant)).map fun (report, db) =>
    (report, db.deleteTagsOf tenant)

namespace RecordTables

variable {db : RecordTables}

theorem referenced_iff (key : RecordKey) : db.referenced key ↔ ∃ j, db.Refers j key := by
  obtain ⟨table, id⟩ := key
  constructor
  · intro h
    cases table <;>
      simp only [referenced, Bool.or_eq_true, any_eq_true, mem_values, beq_iff_eq,
        Bool.false_eq_true] at h
    case agentEvents =>
      rcases h with ⟨r, ⟨k, hk⟩, rfl⟩ | ⟨r, ⟨k, hk⟩, rfl⟩
      · exact ⟨(.claims, k), by simp [Refers, parents, hk]⟩
      · exact ⟨(.evidence, k), by simp [Refers, parents, hk]⟩
    case claims =>
      rcases h with (⟨r, ⟨k, hk⟩, rfl⟩ | ⟨r, ⟨k, hk⟩, rfl⟩) | ⟨r, ⟨k, hk⟩, rfl⟩
      · exact ⟨(.findings, k), by simp [Refers, parents, hk]⟩
      · exact ⟨(.claimEvidenceLinks, k), by simp [Refers, parents, hk]⟩
      · exact ⟨(.claimMissingEvidence, k), by simp [Refers, parents, hk]⟩
    case evidence =>
      obtain ⟨r, ⟨k, hk⟩, rfl⟩ := h
      exact ⟨(.claimEvidenceLinks, k), by simp [Refers, parents, hk]⟩
  · rintro ⟨⟨child, k⟩, h⟩
    cases child <;>
      simp only [Refers, parents, mem_map, mem_flatMap, Option.mem_toList,
        not_mem_nil, mem_cons, or_false, Prod.mk.injEq] at h
    case claimEvidenceLinks =>
      obtain ⟨r, hr, ⟨rfl, rfl⟩ | ⟨rfl, rfl⟩⟩ := h <;>
        simp only [referenced, Bool.or_eq_true, any_eq_true, mem_values, beq_iff_eq]
      · exact .inl (.inr ⟨r, ⟨k, hr⟩, rfl⟩)
      · exact ⟨r, ⟨k, hr⟩, rfl⟩
    all_goals
      obtain ⟨r, hr, rfl, rfl⟩ := h
      simp only [referenced, Bool.or_eq_true, any_eq_true, mem_values, beq_iff_eq]
    case claims => exact .inl ⟨r, ⟨k, hr⟩, rfl⟩
    case findings => exact .inl (.inl ⟨r, ⟨k, hr⟩, rfl⟩)
    all_goals exact .inr ⟨r, ⟨k, hr⟩, rfl⟩

variable {key : RecordKey}

theorem parents_remove (hknown : key.1.known) (j : RecordKey) :
    (db.remove key).parents j = if j = key then [] else db.parents j := by
  by_cases hj : j = key
  · obtain ⟨table, id⟩ := key
    rw [if_pos hj, hj]
    cases table <;> simp_all [RecordTable.known, remove, parents, get?_erase]
  · rw [if_neg hj]
    obtain ⟨table, id⟩ := key
    obtain ⟨child, k⟩ := j
    -- only the three tables with foreign keys of their own are read
    cases table
    case claims => cases child <;> simp_all [remove, parents, get?_erase]
    case evidence => cases child <;> simp_all [remove, parents, get?_erase]
    case findings => cases child <;> simp_all [remove, parents, get?_erase]
    all_goals rfl

theorem refers_remove (hknown : key.1.known) : (db.remove key).Refers = without db.Refers key := by
  funext j i
  rw [Refers, parents_remove hknown j, without]
  by_cases hj : j = key
  · simp [hj]
  · simp [hj, Refers]

theorem holds_of_tenantOf (h : (db.tenantOf key).isSome) : db.holds key := by
  obtain ⟨table, id⟩ := key
  cases table
  case findings =>
    cases hf : db.findings.get? id with
    | none =>
      rw [tenantOf, hf] at h
      cases h
    | some f => simp [holds, OrdMap.contains, hf]
  all_goals simp_all [tenantOf, holds, OrdMap.contains]

theorem known_of_tenantOf (h : (db.tenantOf key).isSome) : key.1.known := by
  obtain ⟨table, id⟩ := key
  cases table <;> simp_all [tenantOf, RecordTable.known]

theorem holds_remove_of_ne {i : RecordKey} (hne : i ≠ key) :
    (db.remove key).holds i = db.holds i := by
  obtain ⟨table, id⟩ := key
  obtain ⟨table', id'⟩ := i
  cases table <;> cases table' <;>
    simp_all [remove, holds, OrdMap.contains, OrdMap.get?_erase]

def removeAll (db : RecordTables) (keys : List RecordKey) : RecordTables := keys.foldl remove db

/-- From these rows a removal takes the row named in `table` and no other. -/
def RemovedBy {V : Type} (table : RecordTable) (rows : RecordTables → OrdMap String V) : Prop :=
  ∀ (db : RecordTables) (key : RecordKey),
    rows (db.remove key) = if key.1 = table then (rows db).erase key.2 else rows db

theorem removedBy : RemovedBy .agentEvents RecordTables.agentEvents ∧
    RemovedBy .agentEvents RecordTables.eventAttribution ∧ RemovedBy .claims RecordTables.claims ∧
    RemovedBy .evidence RecordTables.evidence ∧ RemovedBy .findings RecordTables.findings := by
  refine ⟨?_, ?_, ?_, ?_, ?_⟩
  all_goals
    rintro db ⟨table, id⟩
    cases table <;> rfl

theorem get?_removeAll {V : Type} {table : RecordTable} {rows : RecordTables → OrdMap String V}
    (hrows : RemovedBy table rows) (db : RecordTables) (keys : List RecordKey) (id : String) :
    (rows (db.removeAll keys)).get? id =
      if (table, id) ∈ keys then none else (rows db).get? id := by
  induction keys generalizing db with
  | nil => simp [removeAll]
  | cons key keys ih =>
    obtain ⟨t, k⟩ := key
    change (rows ((db.remove (t, k)).removeAll keys)).get? id = _
    rw [ih, hrows db (t, k)]
    by_cases ht : t = table
    · by_cases hk : id = k
      · simp [ht, hk, get?_erase]
      · simp [ht, hk, get?_erase]
    · have htable : ¬ table = t := fun h => ht h.symm
      simp [ht, htable]

theorem removeAll_unchanged {V : Type} (part : RecordTables → V)
    (hpart : ∀ (db : RecordTables) (key : RecordKey), part (db.remove key) = part db)
    (db : RecordTables) (keys : List RecordKey) : part (db.removeAll keys) = part db := by
  induction keys generalizing db with
  | nil => rfl
  | cons key keys ih => exact (ih (db.remove key)).trans (hpart db key)

theorem remove_unchanged (db : RecordTables) (key : RecordKey) :
    ((db.remove key).claimEvidenceLinks, (db.remove key).claimMissingEvidence,
      (db.remove key).lineageTags) =
      (db.claimEvidenceLinks, db.claimMissingEvidence, db.lineageTags) := by
  obtain ⟨table, id⟩ := key
  cases table <;> rfl

end RecordTables

open RecordTables

variable {db : RecordTables} {tags : List LineageTagRow} {report : DeletionReport}

theorem deleteTagged_ok_iff (hresolves : ∀ j i, db.Refers j i → db.holds i)
    (hknown : ∀ tag ∈ tags, tag.recordTable.known) :
    (∃ out, deleteTagged db report tags = .ok out) ↔
      Removable db.Refers (tags.map LineageTagRow.key) := by
  induction tags generalizing db report with
  | nil => simp [deleteTagged, Removable]
  | cons tag tags ih =>
    have htag : tag.recordTable.known := hknown tag mem_cons_self
    have hrest : ∀ tag ∈ tags, tag.recordTable.known :=
      fun t ht => hknown t (mem_cons_of_mem _ ht)
    rw [deleteTagged, if_pos htag, map_cons, Removable, deleteRow]
    by_cases hreferred : ∃ j, db.Refers j tag.key
    · have hcond : (db.holds tag.key && db.referenced tag.key) := by
        obtain ⟨j, hj⟩ := hreferred
        rw [hresolves j _ hj, (referenced_iff tag.key).mpr ⟨j, hj⟩]
        rfl
      rw [if_pos hcond]
      constructor
      · rintro ⟨out, hout⟩
        cases hout
      · exact fun h => absurd hreferred (not_exists.mpr h.1)
    · have hcond : ¬ (db.holds tag.key && db.referenced tag.key) := by
        rw [Bool.and_eq_true, referenced_iff]
        exact fun h => hreferred h.2
      have hnone : ∀ j, ¬ db.Refers j tag.key := not_exists.mp hreferred
      rw [if_neg hcond]
      simp only [hnone, not_false_eq_true, implies_true, true_and]
      rw [← refers_remove htag]
      refine ih (fun j i hji => ?_) hrest
      rw [refers_remove htag] at hji
      have hi : i ≠ tag.key := fun h => hnone j (h ▸ hji.1)
      rw [holds_remove_of_ne hi]
      exact hresolves j i hji.1

theorem deleteTagged_eq {out : DeletionReport × RecordTables}
    (hknown : ∀ tag ∈ tags, tag.recordTable.known) (h : deleteTagged db report tags = .ok out) :
    out.2 = db.removeAll (tags.map LineageTagRow.key) := by
  induction tags generalizing db report with
  | nil =>
    cases h
    rfl
  | cons tag tags ih =>
    rw [deleteTagged, if_pos (hknown tag mem_cons_self), deleteRow] at h
    by_cases hcond : (db.holds tag.key && db.referenced tag.key) = true
    · rw [if_pos hcond] at h
      cases h
    · rw [if_neg hcond] at h
      exact ih (fun t ht => hknown t (mem_cons_of_mem _ ht)) h

variable {db' : RecordTables} {tenant now : String} {c : RecordCrates}
  {out : InsertOutcome × RecordTables}

theorem RecordTables.Tagged.insertRow {table : RecordTable} {id : String} (htagged : db.Tagged)
    (parents : List RecordKey) (now : String) (hfresh : db.tenantOf (table, id) = none)
    (hparents : ∀ i ∈ parents, (db.tenantOf i).isSome)
    (hrefers : ∀ j i, db'.Refers j i → db.Refers j i ∨ j = (table, id) ∧ i ∈ parents)
    (howner : ∀ i, db'.tenantOf i = if i = (table, id) then some tenant else db.tenantOf i)
    (htags : db'.lineageTags = db.lineageTags) :
    (db'.insertLineageTagRow table id tenant now).Tagged := by
  have hlog : (db'.insertLineageTagRow table id tenant now).tagLog =
      db.tagLog ++ [((table, id), tenant)] := by
    simp [tagLog, insertLineageTagRow, LineageTagRow.key, htags]
  rw [RecordTables.Tagged, hlog]
  exact htagged.enter parents hfresh hparents hrefers howner

theorem tagged_insertEventAttribution {id : String} {attribution : Option EventAttribution} :
    (db.insertEventAttribution id attribution).Tagged ↔ db.Tagged := by
  cases attribution <;> rfl

section Tagged

variable (htagged : db.Tagged)

include htagged

theorem insertEvent_tagged {e : AgentEvent} (h : insertEvent c db e now = .ok out)
    : out.2.Tagged := by
  unfold insertEvent at h
  split at h
  · cases h
  split at h
  · split at h
    · cases h
      exact htagged
    · cases h
  · rename_i hfresh
    cases h
    let db' : RecordTables := { db with agentEvents := db.agentEvents.insert e.id.text e }
    have hrow : (db'.insertLineageTagRow .agentEvents e.id.text e.sessionId now).Tagged := by
      refine Tagged.insertRow htagged [] now ?_ ?_ ?_ ?_ rfl
      · simp [tenantOf, hfresh]
      · simp
      · exact fun j i hji => .inl hji
      · rintro ⟨table, id⟩
        by_cases hid : id = e.id.text
        · cases table <;> simp [tenantOf, db', hid]
        · cases table <;> simp [tenantOf, db', get?_insert, hid]
    have hcomm : (db'.insertEventAttribution e.id.text (nativeAttribution c e)).insertLineageTagRow
        .agentEvents e.id.text e.sessionId now =
        (db'.insertLineageTagRow .agentEvents e.id.text e.sessionId now).insertEventAttribution
          e.id.text (nativeAttribution c e) := by
      cases nativeAttribution c e <;> rfl
    change ((db'.insertEventAttribution e.id.text (nativeAttribution c e)).insertLineageTagRow
        .agentEvents e.id.text e.sessionId now).Tagged
    rw [hcomm]
    exact tagged_insertEventAttribution.mpr hrow

theorem insertBoundHostEvent_tagged {e : AgentEvent} {identity : HostEventIdentity}
    (h : insertBoundHostEvent c db e identity now = .ok out) :
    out.2.Tagged := by
  unfold insertBoundHostEvent at h
  split at h
  · cases h
  split at h
  · cases h
  obtain ⟨⟨outcome, db'⟩, hevent, h⟩ := bind_eq_ok.mp h
  have htagged' : db'.Tagged := insertEvent_tagged htagged hevent
  simp only at h
  split at h
  · cases h
    exact htagged'
  · cases h
    exact tagged_insertEventAttribution.mpr htagged'

theorem insertClaim_tagged {claim : StoredClaim} {check : Option (AgentEvent → Bool)}
    {out : Bool × RecordTables} (h : insertClaim db claim check now = .ok out)
    : out.2.Tagged := by
  unfold insertClaim at h
  split at h
  · cases h
  split at h
  · cases h
  split at h
  · split at h
    · cases h
      exact htagged
    · cases h
  · rename_i hfresh
    split at h
    · cases h
    · rename_i hsource
      cases h
      have hnew : db.tenantOf (.claims, claim.id.text) = none := by simp [tenantOf, hfresh]
      refine Tagged.insertRow htagged [(.agentEvents, claim.sourceEventId.text)] now hnew
        ?_ ?_ ?_ rfl
      · simp_all [tenantOf, Option.isSome_iff_ne_none]
      · rintro ⟨table, id⟩ i hji
        by_cases hid : id = claim.id.text
        · cases table <;> simp_all [Refers, parents]
        · cases table <;> simp_all [Refers, parents, get?_insert]
      · rintro ⟨table, id⟩
        cases table
        case findings =>
          -- no finding is there that names the new claim
          cases hf : db.findings.get? id with
          | none => simp [tenantOf, hf]
          | some f =>
            have hne : f.claimId.text ≠ claim.id.text := by
              intro heq
              have hrefers : db.Refers (.findings, id) (.claims, claim.id.text) := by
                simp [Refers, parents, hf, heq]
              have howned := htagged.resolves _ _ hrefers
              rw [hnew] at howned
              cases howned
            simp [tenantOf, hf, get?_insert, hne]
        all_goals
          by_cases hid : id = claim.id.text
          · simp [tenantOf, hid]
          · simp [tenantOf, get?_insert, hid]

theorem insertEvidence_tagged {ev : ObservedEvidence} {origin : Option String}
    (h : insertEvidence c db ev origin now = .ok out) : out.2.Tagged := by
  unfold insertEvidence at h
  split at h
  · cases h
  split at h
  · split at h
    · cases h
      exact htagged
    · cases h
  · rename_i hfresh
    split at h
    · cases h
    · rename_i hsource
      cases h
      refine Tagged.insertRow htagged [(.agentEvents, ev.sourceEventId.text)] now
        ?_ ?_ ?_ ?_ rfl
      · simp [tenantOf, hfresh]
      · simp_all [tenantOf, Option.isSome_iff_ne_none]
      · rintro ⟨table, id⟩ i hji
        by_cases hid : id = ev.id.text
        · cases table <;> simp_all [Refers, parents]
        · cases table <;> simp_all [Refers, parents, get?_insert]
      · rintro ⟨table, id⟩
        by_cases hid : id = ev.id.text
        · cases table <;> simp [tenantOf, hid]
        · cases table <;> simp [tenantOf, get?_insert, hid]

theorem insertFinding_tagged {f : Finding} (h : insertFinding db f now = .ok db') : db'.Tagged := by
  unfold insertFinding at h
  split at h
  · cases h
  rename_i hfresh
  split at h
  · cases h
  · rename_i claim hclaim
    cases h
    have hnone : db.findings.get? f.id.text = none := by
      simpa [OrdMap.contains] using hfresh
    refine Tagged.insertRow htagged [(.claims, f.claimId.text)] now ?_ ?_ ?_ ?_ rfl
    · simp [tenantOf, hnone]
    · simp [tenantOf, hclaim]
    · rintro ⟨table, id⟩ i hji
      by_cases hid : id = f.id.text
      · cases table <;> simp_all [Refers, parents]
      · cases table <;> simp_all [Refers, parents, OrdMap.get?_insert]
    · rintro ⟨table, id⟩
      by_cases hid : id = f.id.text
      · cases table <;> simp [tenantOf, hid, hclaim]
      · cases table <;> simp [tenantOf, OrdMap.get?_insert, hid]

theorem insertEvidenceLink_tagged {link : StoredLink} (h : insertEvidenceLink db link = .ok db')
    : db'.Tagged := by
  unfold insertEvidenceLink at h
  split at h
  · cases h
  split at h
  · cases h
  · rename_i hparents
    cases h
    refine htagged.attach (k := (.claimEvidenceLinks, link.id.text))
      [(.claims, link.claimId.text), (.evidence, link.evidenceId.text)] rfl ?_ ?_
    · simp_all [tenantOf, Option.isSome_iff_ne_none]
    · rintro ⟨table, id⟩ i hji
      by_cases hid : id = link.id.text
      · cases table <;> simp_all [Refers, parents]
      · cases table <;> simp_all [Refers, parents, get?_insert]

theorem insertMissingEvidence_tagged {missing : StoredMissing}
    (h : insertMissingEvidence db missing = .ok db') : db'.Tagged := by
  unfold insertMissingEvidence at h
  split at h
  · cases h
  split at h
  · cases h
  · rename_i hparents
    cases h
    refine htagged.attach (k := (.claimMissingEvidence, missing.id.text))
      [(.claims, missing.claimId.text)] rfl ?_ ?_
    · simp_all [tenantOf, Option.isSome_iff_ne_none]
    · rintro ⟨table, id⟩ i hji
      by_cases hid : id = missing.id.text
      · cases table <;> simp_all [Refers, parents]
      · cases table <;> simp_all [Refers, parents, get?_insert]

theorem recordAttempt_tagged {op : RecordOp} (h : recordAttempt c db op = .ok db')
    : db'.Tagged := by
  cases op with
  | event e now =>
    obtain ⟨out, hout, rfl⟩ := map_eq_ok.mp h
    exact insertEvent_tagged htagged hout
  | boundHostEvent e identity now =>
    obtain ⟨out, hout, rfl⟩ := map_eq_ok.mp h
    exact insertBoundHostEvent_tagged htagged hout
  | claim claim check now =>
    obtain ⟨out, hout, rfl⟩ := map_eq_ok.mp h
    exact insertClaim_tagged htagged hout
  | evidence ev origin now =>
    obtain ⟨out, hout, rfl⟩ := map_eq_ok.mp h
    exact insertEvidence_tagged htagged hout
  | finding f now => exact insertFinding_tagged htagged h
  | evidenceLink link => exact insertEvidenceLink_tagged htagged h
  | missingEvidence missing => exact insertMissingEvidence_tagged htagged h

end Tagged

theorem fresh_tagged : RecordTables.fresh.Tagged := by
  refine Sound.empty ?_ ?_
  · rintro ⟨table, id⟩ k
    cases table <;> simp [Refers, parents, RecordTables.fresh]
  · rintro ⟨table, id⟩
    cases table <;> simp [tenantOf, RecordTables.fresh]

theorem recordStep_tagged (c : RecordCrates) (db : RecordTables) (op : RecordOp)
    (htagged : db.Tagged) : (recordStep c db op).Tagged := by
  rw [recordStep]
  cases hattempt : recordAttempt c db op with
  | error e => exact htagged
  | ok db' => exact recordAttempt_tagged htagged hattempt

theorem recordRun_tagged (c : RecordCrates) (ops : List RecordOp) : (recordRun c ops).Tagged :=
  Runs.run_always fresh_tagged (recordStep_tagged c) ops

def RecordTables.Unreferenced (db : RecordTables) (tenant : String) : Prop :=
  ∀ key, db.tenantOf key = some tenant → ∀ j, ¬ db.Refers j key

structure ErasedOnly (before after : RecordTables) (tenant : String) : Prop where
  agentEvents : ∀ id, after.agentEvents.get? id =
    (before.agentEvents.get? id).filter fun r => r.sessionId ≠ tenant
  claims : ∀ id, after.claims.get? id = (before.claims.get? id).filter fun r => r.sessionId ≠ tenant
  evidence : ∀ id, after.evidence.get? id =
    (before.evidence.get? id).filter fun r => r.sessionId ≠ tenant
  findings : ∀ id, after.findings.get? id =
    (before.findings.get? id).filter fun _ => before.tenantOf (.findings, id) ≠ some tenant
  eventAttribution : ∀ id, after.eventAttribution.get? id =
    (before.eventAttribution.get? id).filter fun _ =>
      before.tenantOf (.agentEvents, id) ≠ some tenant
  claimEvidenceLinks : after.claimEvidenceLinks = before.claimEvidenceLinks
  claimMissingEvidence : after.claimMissingEvidence = before.claimMissingEvidence
  lineageTags : after.lineageTags = before.lineageTags.filter fun tag => tag.tenantRef ≠ tenant

def tenantKeys (db : RecordTables) (tenant : String) : List RecordKey :=
  (lineageTagsForTenant db tenant).map LineageTagRow.key

theorem tenantKeys_eq (db : RecordTables) (tenant : String) :
    tenantKeys db tenant = (db.tagLog.filter fun e => e.2 = tenant).map Prod.fst := by
  rw [tenantKeys, lineageTagsForTenant, tagLog, filter_map, map_map]
  rfl

section

variable (htagged : db.Tagged)

include htagged

theorem mem_tenantKeys {key : RecordKey} :
    key ∈ tenantKeys db tenant ↔ db.tenantOf key = some tenant := by
  rw [htagged.logged key tenant, tagLog, tenantKeys, lineageTagsForTenant, mem_map, mem_map]
  constructor
  · rintro ⟨tag, htag, rfl⟩
    obtain ⟨htag, htenant⟩ := mem_filter.mp htag
    exact ⟨tag, htag, by rw [of_decide_eq_true htenant]⟩
  · rintro ⟨tag, htag, heq⟩
    obtain ⟨rfl, rfl⟩ := Prod.mk.inj heq
    exact ⟨tag, mem_filter.mpr ⟨htag, decide_eq_true rfl⟩, rfl⟩

theorem tenant_tags_known (tenant : String) :
    ∀ tag ∈ lineageTagsForTenant db tenant, tag.recordTable.known := by
  intro tag htag
  have hkey : db.tenantOf tag.key = some tenant :=
    (mem_tenantKeys htagged).mp (mem_map_of_mem htag)
  exact known_of_tenantOf (Option.isSome_of_eq_some hkey)

theorem deleteRecordsForTenant_ok_iff (tenant : String) :
    (∃ out, deleteRecordsForTenant db tenant = .ok out) ↔ db.Unreferenced tenant := by
  have hloop : (∃ out, deleteTagged db ⟨[], []⟩ (lineageTagsForTenant db tenant) = .ok out) ↔
      Removable db.Refers (tenantKeys db tenant) :=
    deleteTagged_ok_iff (fun j i hji => holds_of_tenantOf (htagged.resolves j i hji))
      (tenant_tags_known htagged tenant)
  rw [tenantKeys_eq, htagged.removable_iff tenant] at hloop
  rw [RecordTables.Unreferenced, ← hloop, deleteRecordsForTenant]
  cases deleteTagged db ⟨[], []⟩ (lineageTagsForTenant db tenant) with
  | error e => simp [Except.map]
  | ok out => simp [Except.map]

theorem get?_erased {V : Type} {table : RecordTable} {rows : RecordTables → OrdMap String V}
    (tenant : String) (hrows : RemovedBy table rows) (id : String) :
    (rows (db.removeAll (tenantKeys db tenant))).get? id =
      ((rows db).get? id).filter fun _ => db.tenantOf (table, id) ≠ some tenant := by
  rw [get?_removeAll hrows]
  by_cases howner : db.tenantOf (table, id) = some tenant
  · rw [if_pos ((mem_tenantKeys htagged).mpr howner)]
    cases (rows db).get? id <;> simp [howner, Option.filter]
  · rw [if_neg fun hkey => howner ((mem_tenantKeys htagged).mp hkey)]
    cases (rows db).get? id <;> simp [howner, Option.filter]

theorem deleteRecordsForTenant_erased {report : DeletionReport}
    {after : RecordTables} (h : deleteRecordsForTenant db tenant = .ok (report, after)) :
    ErasedOnly db after tenant := by
  obtain ⟨out, hloop, hout⟩ := map_eq_ok.mp h
  have hremoved : out.2 = db.removeAll (tenantKeys db tenant) :=
    deleteTagged_eq (tenant_tags_known htagged tenant) hloop
  have hafter : after = (db.removeAll (tenantKeys db tenant)).deleteTagsOf tenant := by
    rw [← hremoved]
    exact (congrArg Prod.snd hout).symm
  subst hafter
  obtain ⟨hevents, hattribution, hclaims, hevidence, hfindings⟩ := removedBy
  have hunchanged := removeAll_unchanged
    (fun db => (db.claimEvidenceLinks, db.claimMissingEvidence, db.lineageTags)) remove_unchanged db
    (tenantKeys db tenant)
  obtain ⟨hlinks, hmissing, htags⟩ : _ ∧ _ ∧ _ := by
    simpa only [Prod.mk.injEq] using hunchanged
  constructor
  case agentEvents =>
    intro id
    refine (get?_erased htagged tenant hevents id).trans ?_
    cases hrow : db.agentEvents.get? id <;> simp [tenantOf, hrow, Option.filter]
  case claims =>
    intro id
    refine (get?_erased htagged tenant hclaims id).trans ?_
    cases hrow : db.claims.get? id <;> simp [tenantOf, hrow, Option.filter]
  case evidence =>
    intro id
    refine (get?_erased htagged tenant hevidence id).trans ?_
    cases hrow : db.evidence.get? id <;> simp [tenantOf, hrow, Option.filter]
  case findings => exact get?_erased htagged tenant hfindings
  case eventAttribution => exact get?_erased htagged tenant hattribution
  case claimEvidenceLinks => exact hlinks
  case claimMissingEvidence => exact hmissing
  case lineageTags => exact congrArg (filter _) htags

end

/-- A tenant is erased exactly when no foreign key names a row of it; then its rows and tags go
and everything else stays. -/
theorem tenant_erasure_iff_unreferenced (c : RecordCrates) (ops : List RecordOp) (tenant : String) :
    ((∃ report after, deleteRecordsForTenant (recordRun c ops) tenant = .ok (report, after)) ↔
      (recordRun c ops).Unreferenced tenant) ∧
    ∀ report after, deleteRecordsForTenant (recordRun c ops) tenant = .ok (report, after) →
      ErasedOnly (recordRun c ops) after tenant := by
  have htagged := recordRun_tagged c ops
  refine ⟨?_, fun report after h => deleteRecordsForTenant_erased htagged h⟩
  rw [← deleteRecordsForTenant_ok_iff htagged tenant, Prod.exists]

def plainPayloads : RecordCrates := ⟨fun _ _ => true, fun _ _ => (none, none), fun _ _ => none⟩

def startOf (id : Uuid) (session : String) : AgentEvent :=
  ⟨id, session, .codex, .sessionStart, "2026-01-01T00:00:00Z", none, none, none, .null⟩

def claimOn (id event : Uuid) (session : String) : StoredClaim :=
  ⟨⟨id, "2026-01-01T00:00:01Z"⟩, session, event, "All tests passed", "test_result"⟩

def twoSessions : List RecordOp :=
  [.event (startOf 1 "s1") "2026-01-01T00:00:00Z", .event (startOf 2 "s2") "2026-01-01T00:00:00Z",
    .claim (claimOn 3 2 "s1") none "2026-01-01T00:00:01Z"]

theorem tenant_erasure_iff_unreferenced_twoSessions :
    ∃ report after, deleteRecordsForTenant (recordRun plainPayloads twoSessions) "s1" =
        .ok (report, after) ∧
      ErasedOnly (recordRun plainPayloads twoSessions) after "s1" := by
  obtain ⟨⟨report, after⟩, hout⟩ : ∃ out,
      deleteRecordsForTenant (recordRun plainPayloads twoSessions) "s1" = .ok out :=
    exists_of_isOk (by decide +kernel)
  exact ⟨report, after, hout,
    (tenant_erasure_iff_unreferenced plainPayloads twoSessions "s1").2 report after hout⟩

/-- A session with one event and one claim on it cannot be erased. -/
theorem claimed_session_not_erased :
    deleteRecordsForTenant (recordRun plainPayloads
      [.event (startOf 1 "s1") "2026-01-01T00:00:00Z",
        .claim (claimOn 2 1 "s1") none "2026-01-01T00:00:01Z"]) "s1" = .error .foreignKey := by
  rfl

theorem ErasedOnly.tagged {after : RecordTables} (h : ErasedOnly db after tenant)
    (htagged : db.Tagged) (hfree : db.Unreferenced tenant) : after.Tagged := by
  have hlog : after.tagLog = db.tagLog.filter fun e => e.2 ≠ tenant := by
    rw [tagLog, h.lineageTags, tagLog, filter_map]
    rfl
  rw [RecordTables.Tagged, hlog]
  refine htagged.erase hfree ?_ ?_
  · rintro ⟨table, id⟩ k hk
    cases table <;> simp_all [Refers, parents, h.claims, h.evidence, h.findings,
      h.claimEvidenceLinks, h.claimMissingEvidence, Option.filter_eq_some_iff] <;> grind
  · rintro ⟨table, id⟩
    cases table
    case findings =>
      -- a finding that stays belongs to a claim that stays
      rw [tenantOf, h.findings]
      cases hf : db.findings.get? id with
      | none => simp [tenantOf, hf]
      | some f =>
        cases hc : db.claims.get? f.claimId.text with
        | none => simp [tenantOf, hf, hc, h.claims]
        | some claim =>
          by_cases hsession : claim.sessionId = tenant
          · simp [tenantOf, hf, hc, hsession, Option.filter]
          · simp [tenantOf, hf, hc, h.claims, hsession, Option.filter]
    case agentEvents | claims | evidence =>
      simp only [tenantOf, h.agentEvents, h.claims, h.evidence, Option.filter_map]
      rfl
    all_goals rfl

inductive StoreOp
  | record (op : RecordOp)
  | erase (tenant : String)

def storeStep (c : RecordCrates) (db : RecordTables) : StoreOp → RecordTables
  | .record op => recordStep c db op
  | .erase tenant => ((deleteRecordsForTenant db tenant).toOption.map Prod.snd).getD db

theorem storeStep_tagged (c : RecordCrates) (db : RecordTables) (op : StoreOp)
    (htagged : db.Tagged) : (storeStep c db op).Tagged := by
  cases op with
  | record op => exact recordStep_tagged c db op htagged
  | erase tenant =>
    rw [storeStep]
    cases hout : deleteRecordsForTenant db tenant with
    | error e => exact htagged
    | ok out =>
      exact (deleteRecordsForTenant_erased htagged hout).tagged htagged
        ((deleteRecordsForTenant_ok_iff htagged tenant).mp ⟨out, hout⟩)

/-- With tenants erased at any time in between, every row keeps its tag and every reference leads
to a row, and so the next erasure again takes a tenant, and only it. -/
theorem store_run_erasure (c : RecordCrates) (ops : List StoreOp) (tenant : String) :
    let db := Runs.run (storeStep c) .fresh ops
    db.Tagged ∧ ((∃ out, deleteRecordsForTenant db tenant = .ok out) ↔ db.Unreferenced tenant) ∧
      ∀ out, deleteRecordsForTenant db tenant = .ok out → ErasedOnly db out.2 tenant := by
  intro db
  have htagged : db.Tagged := Runs.run_always fresh_tagged (storeStep_tagged c) ops
  exact ⟨htagged, deleteRecordsForTenant_ok_iff htagged tenant,
    fun _ => deleteRecordsForTenant_erased htagged⟩

end Fornax
