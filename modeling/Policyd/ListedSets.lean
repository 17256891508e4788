import Policyd.CompiledTable

namespace Policyd

/-!
# The listed networks and devices

A document lists roaming partners as a sequence of PLMNs, and blocked devices
as a sequence of IMEIs or as the path of a file with one IMEI a line.  The
compiled sets are built from exactly these lists.  The sets cannot hold the key
zero, so a listed PLMN `000-00` is lost.
-/

/-- The networks a document lists as roaming partners. -/
def listedPartners (root : Node) : List UInt32 :=
  match root.find "roaming_partners".toList with
  | some (.seq _ items) => items.filterMap fun item => parsePlmn item.text
  | _ => []

/-- The devices a document lists as blocked; a file may have other lines. -/
def listedImeis (files : Str → Option Str) (root : Node) : List UInt64 :=
  match root.find "imei_blocklist".toList with
  | some (.scalar _ path) =>
    (imeiRows ((files path).getD [])).filterMap fun row =>
      (parseImei row).filter (· != 0)
  | some (.seq _ items) => items.filterMap fun item => parseImei item.text
  | _ => []

/-- The listed networks are read in order. -/
theorem loadPartnerItems_result {items : List Node} {keys final : List UInt64}
    (loaded : (loadPartnerItems items keys).result = some final) :
    final =
      keys ++
        (items.filterMap fun item => parsePlmn item.text).map
          (·.toUInt64) := by
  induction items generalizing keys with
  | nil =>
    cases loaded
    exact (List.append_nil keys).symm
  | cons item later inductionHypothesis =>
    rw [loadPartnerItems] at loaded
    split_ifs at loaded with notScalar
    · simp at loaded
    · cases parsed : parsePlmn item.text with
      | none =>
        rw [parsed] at loaded
        simp at loaded
      | some plmn =>
        rw [parsed] at loaded
        rw [inductionHypothesis loaded, List.filterMap_cons, parsed,
          List.map_cons, List.append_assoc, List.singleton_append]

/-- The listed devices are read in order; none of them is zero. -/
theorem loadImeiItems_result {items : List Node} {keys final : List UInt64}
    (loaded : (loadImeiItems items keys).result = some final) :
    final = (keys ++ items.filterMap fun item => parseImei item.text) ∧
      0 ∉ items.filterMap fun item => parseImei item.text := by
  induction items generalizing keys with
  | nil =>
    cases loaded
    exact ⟨(List.append_nil keys).symm, List.not_mem_nil⟩
  | cons item later inductionHypothesis =>
    rw [loadImeiItems] at loaded
    split_ifs at loaded with notScalar
    · simp at loaded
    · cases parsed : (parseImei item.text).filter (· != 0) with
      | none =>
        rw [parsed] at loaded
        simp at loaded
      | some imei =>
        obtain ⟨read, nonzero⟩ := Option.filter_eq_some_iff.mp parsed
        rw [parsed] at loaded
        obtain ⟨shape, laterNonzero⟩ := inductionHypothesis loaded
        rw [List.filterMap_cons, read]
        refine ⟨?_, ?_⟩
        · rw [shape, List.append_assoc, List.singleton_append]
        · rw [List.mem_cons, not_or]
          exact ⟨(bne_iff_ne.mp nonzero).symm, laterNonzero⟩

section Accepted

variable {files : Str → Option Str}
variable {root : Node}
variable {version : UInt32}
variable {ruleSet : RuleSet}

/-- The compiled partners are those the document lists. -/
theorem roamingPartners_eq
    (accepted : (compileRoot files root version).ruleSet = some ruleSet) :
    ruleSet.roamingPartners =
      .rebuild ((listedPartners root).map (·.toUInt64)) := by
  obtain ⟨_, unsorted, sections, rfl⟩ := compileRoot_ruleSet_iff.mp accepted
  obtain ⟨_, _, _, partners, _, _, _, _, _, _, partnersRead, _, _, _, rfl⟩ :=
    compileSections_result_iff.mp sections
  show partners = _
  unfold loadRoamingPartners at partnersRead
  unfold listedPartners
  split at partnersRead
  next missing =>
    cases partnersRead
    rw [missing]
    rfl
  next items found =>
    rw [Report.result_bind, Option.bind_eq_some_iff] at partnersRead
    obtain ⟨keys, keysRead, rebuilt⟩ := partnersRead
    cases rebuilt
    rw [found, loadPartnerItems_result keysRead]
    rfl
  · simp at partnersRead

/-- The compiled blocklist holds the devices the document lists. -/
theorem imeiBlocklist_eq
    (accepted : (compileRoot files root version).ruleSet = some ruleSet) :
    ruleSet.imeiBlocklist = .rebuild (listedImeis files root) ∧
      0 ∉ listedImeis files root := by
  obtain ⟨_, unsorted, sections, rfl⟩ := compileRoot_ruleSet_iff.mp accepted
  obtain ⟨_, _, _, _, blocklist, _, _, _, _, _, _, blocklistRead, _, _, rfl⟩ :=
    compileSections_result_iff.mp sections
  show blocklist = _ ∧ _
  unfold loadImeiBlocklist at blocklistRead
  unfold listedImeis
  split at blocklistRead
  next missing =>
    cases blocklistRead
    rw [missing]
    exact ⟨rfl, List.not_mem_nil⟩
  next line path found =>
    rw [Report.result_bind, Option.bind_eq_some_iff] at blocklistRead
    obtain ⟨keys, keysRead, rebuilt⟩ := blocklistRead
    cases rebuilt
    rw [found]
    unfold loadImeiFile at keysRead
    split at keysRead
    · simp at keysRead
    next contents opened =>
      have keysShape :
          keys =
            (imeiRows contents).filterMap fun row =>
              (parseImei row).filter (· != 0) := by
        dsimp only at keysRead
        split at keysRead <;> simpa using keysRead.symm
      show FlatSet64.rebuild keys =
          .rebuild
            ((imeiRows ((files path).getD [])).filterMap fun row =>
              (parseImei row).filter (· != 0)) ∧
        0 ∉ (imeiRows ((files path).getD [])).filterMap fun row =>
          (parseImei row).filter (· != 0)
      rw [keysShape, opened, Option.getD_some]
      refine ⟨rfl, ?_⟩
      intro listed
      obtain ⟨row, _, isZero⟩ := List.mem_filterMap.mp listed
      exact absurd (Option.filter_eq_some_iff.mp isZero).2 (by decide)
  next items found =>
    rw [Report.result_bind, Option.bind_eq_some_iff] at blocklistRead
    obtain ⟨keys, keysRead, rebuilt⟩ := blocklistRead
    cases rebuilt
    obtain ⟨keysShape, nonzero⟩ := loadImeiItems_result keysRead
    rw [found, keysShape]
    exact ⟨rfl, nonzero⟩
  · simp at blocklistRead

end Accepted

end Policyd
