import Fornax.Evidence.Types
import Fornax.Lib.UnionFind
import Fornax.Lib.Worklist

namespace Fornax

open OrdSet

def parentEdges (byId : OrdMap Uuid Evidence) (start cur : Uuid) : List Uuid :=
  match byId.get? cur with
  | some ev => ev.parents.filter fun p => p ≠ start && byId.contains p
  | none => []

def ancestorsOfIndexed (evidenceId : Uuid) (byId : OrdMap Uuid Evidence) : OrdSet Uuid :=
  Worklist.reached (parentEdges byId evidenceId) byId.keys evidenceId

def saturatingAdd (a b : ℕ) : ℕ := min (a + b) (2 ^ 64 - 1)

def chargeEdges (limit : ℕ) : ℕ → List Uuid → Except ℕ ℕ
  | work, [] => .ok work
  | work, _ :: rest =>
    let work := saturatingAdd work 1
    if work > limit then .error work else chargeEdges limit work rest

/-- `Worklist.explore` with the edges charged against the budget. -/
def exploreCounted (succ : Uuid → List Uuid) (limit : ℕ) :
    ℕ → List Uuid → OrdSet Uuid → OrdSet Uuid → ℕ → Except ℕ (OrdSet Uuid × ℕ)
  | 0, _, _, found, work => .ok (found, work)
  | _ + 1, [], _, found, work => .ok (found, work)
  | fuel + 1, cur :: stack, visited, found, work =>
    if visited.contains cur then exploreCounted succ limit fuel stack visited found work
    else do
      let work ← chargeEdges limit work (succ cur)
      exploreCounted succ limit fuel ((succ cur).reverse ++ stack) (visited.add cur)
        (found.addAll (succ cur)) work

def ancestorsOfIndexedCounted (evidenceId : Uuid) (byId : OrdMap Uuid Evidence)
    (workUnits limit : ℕ) : Except ℕ (OrdSet Uuid × ℕ) :=
  let succ := parentEdges byId evidenceId
  exploreCounted succ limit (Worklist.fuelFor succ byId.keys) [evidenceId] empty
    empty workUnits

inductive FamilyBasis
  | explicitCorrelationGroup (group : Uuid)
  | derivationAncestry (parent child : Uuid)
  | sameAgentTurn (sourceEventId : Uuid)
  | unknownProvenance
  deriving DecidableEq, Repr

inductive FamilyBasisTag
  | explicitCorrelationGroup (group : Uuid)
  | derivationAncestry (parent child : Uuid)
  | sameAgentTurn (sourceEventId : Uuid)
  | unknownProvenance
  deriving DecidableEq, Repr

namespace FamilyBasisTag

def intoBasis : FamilyBasisTag → FamilyBasis
  | .explicitCorrelationGroup g => .explicitCorrelationGroup g
  | .derivationAncestry parent child => .derivationAncestry parent child
  | .sameAgentTurn id => .sameAgentTurn id
  | .unknownProvenance => .unknownProvenance

def sortKey : FamilyBasisTag → ℕ ×ₗ Uuid ×ₗ Uuid
  | .explicitCorrelationGroup g => toLex (0, toLex (g, 0))
  | .derivationAncestry parent child => toLex (1, toLex (parent, child))
  | .sameAgentTurn id => toLex (2, toLex (id, 0))
  | .unknownProvenance => toLex (3, toLex (0, 0))

theorem sortKey_injective : Function.Injective sortKey := by
  intro a b h
  cases a <;> cases b <;> simp_all [sortKey]

instance : LinearOrder FamilyBasisTag := LinearOrder.lift' sortKey sortKey_injective

end FamilyBasisTag

structure SourceFamily where
  evidenceIds : List Uuid
  bases : List FamilyBasis
  deriving DecidableEq, Repr

structure SourceFamilyMap where
  families : List SourceFamily
  index : OrdMap Uuid ℕ

def sortById (evidence : List Evidence) : List Evidence :=
  evidence.insertionSort fun a b => a.id ≤ b.id

def indexById (evidence : List Evidence) : OrdMap Uuid Evidence :=
  OrdMap.ofList (evidence.map fun e => (e.id, e))

def Evidence.onAgentChannel (e : Evidence) : Bool :=
  match e.source with
  | some s => s.trustClass == .agentAdjacent || s.trustClass == .modelInternal
  | none => false

structure FamilyPair where
  fst : Uuid
  snd : Uuid
  tag : FamilyBasisTag
  deriving DecidableEq, Repr

def bucketPairs (key : Evidence → Option Uuid) (tag : Uuid → FamilyBasisTag)
    (sorted : List Evidence) : List FamilyPair :=
  (OrdMap.groupBy key Evidence.id sorted).entries.flatMap fun bucket =>
    (windows2 bucket.2).map fun p => ⟨p.1, p.2, tag bucket.1⟩

def groupPairs (sorted : List Evidence) : List FamilyPair :=
  bucketPairs Evidence.group .explicitCorrelationGroup sorted

def ancestryPairsOf (byId : OrdMap Uuid Evidence) (id : Uuid) (ancestors : OrdSet Uuid) :
    List FamilyPair :=
  (ancestors.toList.filter fun a => byId.contains a).map fun a => ⟨id, a, .derivationAncestry a id⟩

def ancestryPairs (byId : OrdMap Uuid Evidence) (sorted : List Evidence) : List FamilyPair :=
  sorted.flatMap fun e => ancestryPairsOf byId e.id (ancestorsOfIndexed e.id byId)

def Evidence.agentTurn (e : Evidence) : Option Uuid :=
  if e.onAgentChannel then some e.sourceEventId else none

def agentTurnPairs (sorted : List Evidence) : List FamilyPair :=
  bucketPairs Evidence.agentTurn .sameAgentTurn sorted

structure FamilyBuild where
  parent : Forest Uuid
  basesByPair : OrdSet (Uuid ×ₗ Uuid ×ₗ FamilyBasisTag)

def FamilyBuild.record (b : FamilyBuild) (p : FamilyPair) : FamilyBuild where
  parent := b.parent.union p.fst p.snd
  basesByPair := b.basesByPair.add (toLex (min p.fst p.snd, toLex (max p.fst p.snd, p.tag)))

def FamilyBuild.recordAll (b : FamilyBuild) (pairs : List FamilyPair) : FamilyBuild :=
  pairs.foldl FamilyBuild.record b

def FamilyBuild.initial (sorted : List Evidence) : FamilyBuild where
  parent := Forest.singletons (sorted.map Evidence.id)
  basesByPair := empty

structure Assembly where
  parent : Forest Uuid
  membersByRoot : OrdMap Uuid (List Uuid)
  valueToKeys : OrdMap Uuid (OrdSet Uuid)

def Assembly.place (a : Assembly) (e : Evidence) : Assembly :=
  let (key, parent) := if e.source.isNone then (e.id, a.parent) else a.parent.find e.id
  { parent
    membersByRoot := a.membersByRoot.pushAt key e.id
    valueToKeys := a.valueToKeys.alter e.id fun old => (old.getD empty).add key }

def assembleMembers (parent : Forest Uuid) (sorted : List Evidence) : Assembly :=
  sorted.foldl Assembly.place ⟨parent, OrdMap.empty, OrdMap.empty⟩

def basesByFamily (basesByPair : OrdSet (Uuid ×ₗ Uuid ×ₗ FamilyBasisTag))
    (valueToKeys : OrdMap Uuid (OrdSet Uuid)) : OrdMap Uuid (OrdSet FamilyBasisTag) :=
  basesByPair.toList.foldl (fun acc entry =>
    let (a, rest) := ofLex entry
    let (b, tag) := ofLex rest
    match valueToKeys.get? a, valueToKeys.get? b with
    | some keysA, some keysB =>
      (keysA.toList.filter fun k => keysB.contains k).foldl (fun acc key =>
        acc.alter key fun old => (old.getD empty).add tag) acc
    | _, _ => acc) OrdMap.empty

def isNoSource (evidence : List Evidence) : OrdMap Uuid Bool :=
  evidence.foldl (fun m e => m.alter e.id fun old => old.getD e.source.isNone) OrdMap.empty

def familyOfBucket (noSource : OrdMap Uuid Bool) (bases : OrdMap Uuid (OrdSet FamilyBasisTag))
    (bucket : Uuid × List Uuid) : SourceFamily :=
  let ids := (bucket.2.insertionSort (· ≤ ·)).destutter (· ≠ ·)
  let own : OrdSet FamilyBasisTag :=
    if ids.length = 1 ∧ (ids.head?.bind noSource.get?).getD false = true
    then empty.add .unknownProvenance else empty
  let tags := own.addAll ((bases.get? bucket.1).getD empty).toList
  { evidenceIds := ids, bases := tags.toList.map FamilyBasisTag.intoBasis }

def firstIdLe (f g : SourceFamily) : Prop :=
  match f.evidenceIds, g.evidenceIds with
  | [], _ => True
  | _ :: _, [] => False
  | a :: _, b :: _ => a ≤ b

instance : DecidableRel firstIdLe := fun f g => by
  unfold firstIdLe
  split <;> infer_instance

def assembleFamilies (evidence sorted : List Evidence) (b : FamilyBuild) : SourceFamilyMap :=
  let members := assembleMembers b.parent sorted
  let bases := basesByFamily b.basesByPair members.valueToKeys
  let families := (members.membersByRoot.entries.map
    (familyOfBucket (isNoSource evidence) bases)).insertionSort firstIdLe
  { families
    index := OrdMap.ofList
      (families.zipIdx.flatMap fun p => p.1.evidenceIds.map fun id => (id, p.2)) }

def familyBuild (sorted : List Evidence) : FamilyBuild :=
  (FamilyBuild.initial sorted).recordAll
    (groupPairs sorted ++ ancestryPairs (indexById sorted) sorted ++ agentTurnPairs sorted)

namespace SourceFamilyMap

def build (evidence : List Evidence) : SourceFamilyMap :=
  let sorted := sortById evidence
  assembleFamilies evidence sorted (familyBuild sorted)

def familyOf (m : SourceFamilyMap) (evidenceId : Uuid) : Option SourceFamily :=
  (m.index.get? evidenceId).bind fun i => m.families[i]?

end SourceFamilyMap

structure FamilyBudget where
  maxWorkUnits : ℕ
  deriving DecidableEq, Repr

def FamilyBudget.defaultMaxWorkUnits : ℕ := 100000

def FamilyBudget.defaultBudget : FamilyBudget := ⟨FamilyBudget.defaultMaxWorkUnits⟩

structure BudgetExceeded where
  evidenceCount : ℕ
  workUnitsAtAbort : ℕ
  limit : ℕ
  deriving DecidableEq, Repr

/-- Record the ancestor pairs of one record, one unit each (`charge!`). -/
def chargePairs (limit : ℕ) : FamilyBuild × ℕ → List FamilyPair → Except ℕ (FamilyBuild × ℕ)
  | st, [] => .ok st
  | (b, work), p :: rest =>
    let work := saturatingAdd work 1
    if work > limit then .error work else chargePairs limit (b.record p, work) rest

def chargeAncestry (byId : OrdMap Uuid Evidence) (limit : ℕ) :
    FamilyBuild × ℕ → List Evidence → Except ℕ (FamilyBuild × ℕ)
  | st, [] => .ok st
  | (b, work), e :: rest => do
    let (ancestors, work) ← ancestorsOfIndexedCounted e.id byId work limit
    let st ← chargePairs limit (b, work) (ancestryPairsOf byId e.id ancestors)
    chargeAncestry byId limit st rest

def SourceFamilyMap.tryBuild (evidence : List Evidence) (budget : FamilyBudget) :
    Except BudgetExceeded SourceFamilyMap :=
  let sorted := sortById evidence
  let byId := indexById sorted
  let afterGroups := (FamilyBuild.initial sorted).recordAll (groupPairs sorted)
  match chargeAncestry byId budget.maxWorkUnits (afterGroups, 0) sorted with
  | .error work => .error ⟨evidence.length, work, budget.maxWorkUnits⟩
  | .ok (b, _) => .ok (assembleFamilies evidence sorted (b.recordAll (agentTurnPairs sorted)))

end Fornax
