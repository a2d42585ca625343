import AfterAction.Startup

/-!
Which settings can be started. The checks that come first bound the number of workers at both ends,
the slots of the tagging client only from below; both numbers are then asked of a pool, and a pool
that cannot count its slots takes the program down. So the checks decide about every part of the
service but one.
-/

namespace AfterAction
namespace Settings

/-- What the checks have seen to. -/
structure Validated (s : Settings) : Prop where
  engineUrl : Url.hasScheme s.engineUrl = true
  storeUrl : Url.hasScheme s.storeUrl = true
  storeIndex : s.storeIndex ≠ ""
  breakerThreshold : s.breakerThreshold ≠ 0
  tagConcurrency : s.tagConcurrency ≠ 0
  reportWorkers : 1 ≤ s.reportWorkers ∧ s.reportWorkers ≤ 10
  reportTimeout : 5 ≤ s.reportTimeout ∧ s.reportTimeout ≤ 300
  storeTimeout : s.storeTimeout ≠ 0
  maxTechniques : s.maxTechniques ≠ 0

theorem urlFault?_eq_none_iff (name url : String) :
    urlFault? name url = none ↔ Url.hasScheme url = true := by
  unfold urlFault?
  by_cases hempty : url = ""
  · subst hempty
    simp [show Url.hasScheme "" = false from rfl]
  · rw [if_neg hempty]
    cases Url.hasScheme url <;> simp

/-- The checks find no fault exactly if each of them passes: none of them hides another. -/
theorem fault?_eq_none_iff (s : Settings) : s.fault? = none ↔ s.Validated := by
  have hall : s.fault? = none ↔ Url.hasScheme s.engineUrl = true ∧ Url.hasScheme s.storeUrl = true ∧
      s.storeIndex ≠ "" ∧ s.breakerThreshold ≠ 0 ∧ s.tagConcurrency ≠ 0 ∧
      (1 ≤ s.reportWorkers ∧ s.reportWorkers ≤ 10) ∧
      (5 ≤ s.reportTimeout ∧ s.reportTimeout ≤ 300) ∧ s.storeTimeout ≠ 0 ∧
      s.maxTechniques ≠ 0 := by
    simp only [fault?, Option.orElse_eq_orElse, Option.orElse_eq_or, Option.or_eq_none_iff,
      urlFault?_eq_none_iff, ite_eq_right_iff, ite_eq_left_iff, reduceCtorEq, imp_false,
      Decidable.not_not, ne_eq]
  rw [hall]
  constructor
  · rintro ⟨engine, store, index, threshold, concurrency, workers, timeout, ceiling, techniques⟩
    exact ⟨engine, store, index, threshold, concurrency, workers, timeout, ceiling, techniques⟩
  · intro h
    exact ⟨h.engineUrl, h.storeUrl, h.storeIndex, h.breakerThreshold, h.tagConcurrency,
      h.reportWorkers, h.reportTimeout, h.storeTimeout, h.maxTechniques⟩

end Settings

namespace Startup

variable {α σ : Type}

/-- That there is at least one slot never matters for whether they can be counted. -/
theorem pooled_eq (wanted : Nat) (part : α) :
    pooled wanted part = if wanted ≤ slotLimit then .ok part else .error .tooManySlots := by
  have hone : 1 ≤ slotLimit := by decide
  unfold pooled
  simp only [Nat.max_le, hone, and_true]

theorem tagging_eq (s : Settings) :
    tagging s = if s.tagConcurrency.toNat ≤ slotLimit then .ok (.new s.tagging s.breaker)
      else .error .tooManySlots :=
  pooled_eq ..

/-- The checks bound the workers, so their pool can be counted. -/
theorem registry_of_validated {s : Settings} (h : s.Validated) :
    registry s = .ok (.new s.reports) := by
  have hten : s.reportWorkers.toNat ≤ 10 := UInt64.le_iff_toNat_le.mp h.reportWorkers.2
  have hroom : s.reportWorkers.toNat ≤ slotLimit := Nat.le_trans hten (by decide)
  rw [registry, pooled_eq, if_pos hroom]

/-- Every part is made but for the tagging client, if its slots cannot be counted. -/
theorem service_of_validated {s : Settings} (h : s.Validated) (files : σ) :
    service s files =
      if s.tagConcurrency.toNat ≤ slotLimit then
        .ok (.new (.new s.tagging s.breaker) s.correlation (.new s.reports) files)
      else .error .tooManySlots := by
  rw [service, tagging_eq, registry_of_validated h]
  by_cases hroom : s.tagConcurrency.toNat ≤ slotLimit
  · rw [if_pos hroom, if_pos hroom]
    rfl
  · rw [if_neg hroom, if_neg hroom]
    rfl

/-- What the store answers to the probe has no part in it. -/
theorem start_of_validated {s : Settings} (h : s.Validated) (answer : Option Answer) :
    (start s answer).2 =
      if s.tagConcurrency.toNat ≤ slotLimit then
        (addressFault? s.listenAddress).map (.address s.listenAddress)
      else some .tooManySlots := by
  unfold start
  rw [(Settings.fault?_eq_none_iff s).mpr h, tagging_eq, registry_of_validated h]
  by_cases hroom : s.tagConcurrency.toNat ≤ slotLimit
  · rw [if_pos hroom, if_pos hroom]
  · rw [if_neg hroom, if_neg hroom]

/-- **Starting a validated configuration.** All parts of its service are made if the slots of the
tagging client can be counted, and the program goes on to listen; if they cannot, it crashes while
it makes the parts, although the checks have found no fault. -/
theorem validated_startable (s : Settings) (h : s.fault? = none) (answer : Option Answer)
    (files : σ) :
    (service s files =
      if s.tagConcurrency.toNat ≤ slotLimit then
        .ok (.new (.new s.tagging s.breaker) s.correlation (.new s.reports) files)
      else .error .tooManySlots) ∧
    ((start s answer).2 = some .tooManySlots ↔ slotLimit < s.tagConcurrency.toNat) := by
  have hvalid := (Settings.fault?_eq_none_iff s).mp h
  refine ⟨service_of_validated hvalid files, ?_⟩
  rw [start_of_validated hvalid answer]
  by_cases hroom : s.tagConcurrency.toNat ≤ slotLimit
  · rw [if_pos hroom]
    have hnone : (addressFault? s.listenAddress).map (Fault.address s.listenAddress) ≠
        some .tooManySlots := by
      cases addressFault? s.listenAddress <;> simp
    exact iff_of_false hnone (Nat.not_lt.mpr hroom)
  · rw [if_neg hroom]
    exact iff_of_true rfl (Nat.lt_of_not_le hroom)

/-- The standard settings pass the checks, and their service is made. -/
theorem standard_startable : Settings.standard.fault? = none ∧
    service Settings.standard () =
      .ok (.new (.new Settings.standard.tagging Settings.standard.breaker)
        Settings.standard.correlation (.new Settings.standard.reports) ()) :=
  have hvalid : Settings.standard.fault? = none := by decide +kernel
  have hmade := validated_startable Settings.standard hvalid none ()
  ⟨hvalid, hmade.1.trans (if_pos (by decide))⟩

/-- The settings of an operator who asks for one slot more than can be counted, and else for
nothing. -/
def crowded : Settings :=
  Settings.read fun name =>
    if name = "PURPLE_TAG_CONCURRENCY" then some "2305843009213693952" else none

/-- The checks pass these settings, and making the service from them crashes. -/
theorem crowded_crashes : crowded.fault? = none ∧
    service crowded () = .error .tooManySlots ∧
    (start crowded none).2 = some .tooManySlots ∧ Fault.tooManySlots.code = 101 := by
  have hvalid : crowded.fault? = none := by decide +kernel
  have hwanted : ¬ crowded.tagConcurrency.toNat ≤ slotLimit := by decide +kernel
  have hchecked := (Settings.fault?_eq_none_iff crowded).mp hvalid
  refine ⟨hvalid, ?_, ?_, rfl⟩
  · rw [service_of_validated hchecked, if_neg hwanted]
  · rw [start_of_validated hchecked, if_neg hwanted]

end Startup
end AfterAction
