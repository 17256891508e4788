import Policyd.StoreRefinement
import Policyd.RuleSet

namespace Policyd

/-!
# Loading a roster

Loading always returns, keeps the store valid, and gives every subscriber a
plan id that names a plan of the list it was loaded with.
-/

/-- Every record of a store has the number of a listed plan. -/
def PlansListed (planNames : List Str) (store : SubscriberStore) : Prop :=
  ∀ imsi record,
    store.records imsi = some record →
    record.planId.toNat < planNames.length

/-- A field of a row, without the blanks around it. -/
def rosterField (row : Str) (position : Nat) : Str :=
  trimField ((splitFields row 8).getD position [])

/-- What reading a row has checked and stored. -/
structure RowRead
    (planNames : List Str)
    (row : Str)
    (record : SubscriberRecord) : Prop where
  imsi : parseImsi (rosterField row 0) = some record.imsi
  provisioned : record.imsi ≠ 0
  plan :
    ∃ planIndex,
      planNames.findIdx? (· == rosterField row 2) = some planIndex ∧
        record.planId = UInt32.ofNat planIndex
  used :
    parseU64 ((splitFields row 8).getD 4 []) = some record.bytesUsedPeriod
  resetTs :
    parseU64 ((splitFields row 8).getD 5 []) = some record.periodResetTs

variable {planNames : List Str}

theorem rowRead_of_ok {row : Str} {record : SubscriberRecord}
    (read : parseRow planNames row = .ok record) :
    RowRead planNames row record := by
  simp only [parseRow] at read
  split at read
  · cases read
  split at read
  · cases read
  next imsi imsiRead =>
    obtain ⟨imsiParsed, nonzero⟩ := Option.filter_eq_some_iff.mp imsiRead
    split at read
    · cases read
    split at read
    · cases read
    next planIndex found =>
      split at read
      · cases read
      split at read
      · next used resetTs plmn usedRead resetRead plmnRead =>
          cases read
          exact {
            imsi := imsiParsed
            provisioned := by simpa using nonzero
            plan := ⟨planIndex, found, rfl⟩
            used := usedRead
            resetTs := resetRead
          }
      · cases read

section

variable (few : planNames.length ≤ kMaxPlans)

include few

theorem parseRow_planId_lt {row : Str} {record : SubscriberRecord}
    (read : parseRow planNames row = .ok record) :
    record.planId.toNat < planNames.length := by
  obtain ⟨planIndex, found, planShape⟩ := (rowRead_of_ok read).plan
  have inside : planIndex < planNames.length :=
    (List.findIdx?_eq_some_iff_findIdx_eq.mp found).1
  rw [kMaxPlans] at few
  rw [planShape, UInt32.toNat_ofNat_of_lt' (by simp only [UInt32.size]; omega)]
  exact inside

theorem loadLine_spec {path : Str} {state : LoadState}
    (invariant : StoreInvariant state.store)
    (listed : PlansListed planNames state.store) (line : Str) :
    ∃ next,
      loadLine path planNames state line = some next ∧
        StoreInvariant next.store ∧
        PlansListed planNames next.store := by
  simp only [loadLine]
  split
  · exact ⟨_, rfl, invariant, listed⟩
  split
  · exact ⟨_, rfl, invariant, listed⟩
  split
  · exact ⟨_, rfl, invariant, listed⟩
  next record read =>
    obtain ⟨store, upserted, effect⟩ :=
      SubscriberStore.upsert_spec invariant record
    rw [upserted]
    refine ⟨_, rfl, effect.invariant, ?_⟩
    intro imsi found isFound
    rw [effect.records, upsertRecords] at isFound
    split at isFound
    · exact listed imsi found isFound
    · rw [Function.update_apply] at isFound
      split at isFound
      · rcases Option.some.inj isFound with rfl
        exact parseRow_planId_lt few read
      · exact listed imsi found isFound

/-- All lines of a roster. -/
theorem foldlM_loadLine_spec {path : Str} (lines : List Str) {state : LoadState}
    (invariant : StoreInvariant state.store)
    (listed : PlansListed planNames state.store) :
    ∃ next,
      lines.foldlM (loadLine path planNames) state = some next ∧
        StoreInvariant next.store ∧
        PlansListed planNames next.store := by
  induction lines generalizing state with
  | nil => exact ⟨state, rfl, invariant, listed⟩
  | cons line later inductionHypothesis =>
    obtain ⟨middle, loaded, middleInvariant, middleListed⟩ :=
      loadLine_spec few invariant listed line
    obtain ⟨next, rest, nextInvariant, nextListed⟩ :=
      inductionHypothesis middleInvariant middleListed
    refine ⟨next, ?_, nextInvariant, nextListed⟩
    rw [List.foldlM_cons, loaded]
    exact rest

/-- Loading a roster into a new store. -/
theorem loadCsv_create_spec
    (expectedSubscribers : Nat) (maxLoadFactor : Rat) (path : Str)
    (contents : Option Str) :
    ∃ store result,
      (SubscriberStore.create expectedSubscribers maxLoadFactor).loadCsv
          path contents planNames =
        some (store, result) ∧
        StoreInvariant store ∧
        PlansListed planNames store := by
  obtain ⟨invariant, empty⟩ :=
    SubscriberStore.create_invariant expectedSubscribers maxLoadFactor
  have listed :
      PlansListed planNames
        (SubscriberStore.create expectedSubscribers maxLoadFactor) := by
    intro imsi record found
    rw [empty] at found
    cases found
  cases contents with
  | none => exact ⟨_, _, rfl, invariant, listed⟩
  | some text =>
    let start : LoadState :=
      { store := SubscriberStore.create expectedSubscribers maxLoadFactor }
    have startInvariant : StoreInvariant start.store := invariant
    obtain ⟨next, loaded, nextInvariant, nextListed⟩ :=
      foldlM_loadLine_spec few (getlines text) startInvariant listed
    refine ⟨next.store, next.result, ?_, nextInvariant, nextListed⟩
    rw [SubscriberStore.loadCsv, loaded]
    rfl

end

end Policyd
