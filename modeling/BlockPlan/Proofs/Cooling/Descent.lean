import BlockPlan.Proofs.Cooling.Schedule
import BlockPlan.Proofs.Search.Best

/-!
# How the temperature falls

The temperature stays at its start up to level zero, falls with the reciprocal of the level on the
fast levels, and with the reciprocal of its square from then on.  No formula gives more than the
start, and where one formula takes over from the other it gives less, so the temperature never
rises.  The floor is reached at last, since the squares of the levels grow beyond all bounds.

* `coolingAt_antitone`, `coolingAt_eventually_le` — it never rises, and falls below every bound.
* `Cools` — what it means that temperatures go down from a start to a floor.
* `Annealing.run_temperatures` — a search passes through the temperatures of its schedule.
* **`temperature_cools`** — the temperatures of a schedule go down to its floor, and every search
  with this schedule passes through them.
-/

namespace BlockPlan

/-- Temperatures that go down from a start, held above a floor, and reach the floor at last. -/
structure Cools (initial floor : Rat) (t : Int → Rat) : Prop where
  start : ∀ level ≤ 0, t level = max initial floor
  antitone : Antitone t
  floor_le : ∀ level, floor ≤ t level
  le_start : ∀ level, t level ≤ max initial floor
  settles : ∃ last, ∀ level, last ≤ level → t level = floor

section Formulas

variable {initial rate : Rat} {fastLevels level : Int}

lemma coolingAt_le_initial : coolingAt initial fastLevels rate level ≤ initial := by
  rw [coolingAt]
  split_ifs
  · exact le_rfl
  · exact min_le_right _ _
  · exact min_le_right _ _

variable (hfast : 1 ≤ fastLevels) (hrate : 0 < rate)

include hfast hrate

/-- **The temperature falls below every bound.** -/
theorem coolingAt_eventually_le {bound : Rat} (hbound : 0 < bound) :
    ∃ last, ∀ level, last ≤ level → coolingAt initial fastLevels rate level ≤ bound := by
  obtain ⟨n, hn⟩ := exists_nat_gt (initial * fastLevels / (rate * bound))
  refine ⟨max fastLevels n, fun level hlevel => ?_⟩
  have hslow : fastLevels ≤ level := (le_max_left _ _).trans hlevel
  have hpos : 0 < level := by omega
  have hlarge : (n : Rat) ≤ level := by exact_mod_cast (le_max_right fastLevels n).trans hlevel
  have hm : (1 : Rat) ≤ level + 1 := by exact_mod_cast (by omega : 1 ≤ level + 1)
  rw [coolingAt_slow hpos hslow]
  refine (min_le_left _ _).trans ((div_le_iff₀ ?_).mpr ?_)
  · exact mul_pos hrate (mul_pos (by linarith) (by linarith))
  · have hproduct : initial * fastLevels < n * (rate * bound) :=
      (div_lt_iff₀ (mul_pos hrate hbound)).mp hn
    have hgrow : (n : Rat) ≤ (level + 1) * (level + 1) := by nlinarith
    calc initial * fastLevels ≤ n * (rate * bound) := hproduct.le
      _ ≤ (level + 1) * (level + 1) * (rate * bound) :=
          mul_le_mul_of_nonneg_right hgrow (mul_pos hrate hbound).le
      _ = bound * (rate * ((level + 1) * (level + 1))) := by ring

variable (hinitial : 0 ≤ initial)

include hinitial

/-- One level more never raises the temperature, whichever formulas the two levels have. -/
lemma coolingAt_succ_le (n : Int) :
    coolingAt initial fastLevels rate (n + 1) ≤ coolingAt initial fastLevels rate n := by
  rcases le_or_gt n 0 with hstart | hpos
  · rw [coolingAt_start hstart]
    exact coolingAt_le_initial
  have hm : (0 : Rat) < n + 1 := by exact_mod_cast (by omega : 0 < n + 1)
  have hnext : (n : Rat) + 1 ≤ ((n + 1 : Int) : Rat) + 1 := by push_cast; linarith
  have hsquare : ((n : Rat) + 1) * (n + 1)
      ≤ (((n + 1 : Int) : Rat) + 1) * (((n + 1 : Int) : Rat) + 1) :=
    mul_self_le_mul_self hm.le hnext
  have hk : (0 : Rat) ≤ fastLevels := by exact_mod_cast (by omega : 0 ≤ fastLevels)
  have hslower : initial * fastLevels
      / (rate * ((((n + 1 : Int) : Rat) + 1) * (((n + 1 : Int) : Rat) + 1)))
      ≤ initial * fastLevels / (rate * (((n : Rat) + 1) * (n + 1))) :=
    div_le_div_of_nonneg_left (mul_nonneg hinitial hk) (mul_pos hrate (mul_pos hm hm))
      (mul_le_mul_of_nonneg_left hsquare hrate.le)
  rcases lt_trichotomy (n + 1) fastLevels with hlt | heq | hgt
  · rw [coolingAt_fast (by omega) hlt, coolingAt_fast hpos (by omega)]
    refine min_le_min ?_ le_rfl
    exact div_le_div_of_nonneg_left hinitial (mul_pos hrate hm)
      (mul_le_mul_of_nonneg_left hnext hrate.le)
  · -- the square formula takes over: `(n + 1) / (n + 2)²` is less than `1 / (n + 1)`
    rw [coolingAt_slow (by omega) heq.ge, coolingAt_fast hpos (by omega)]
    have hsame : initial / (rate * (n + 1))
        = initial * fastLevels / (rate * ((n + 1) * (n + 1))) := by
      rw [← heq, Int.cast_add, Int.cast_one]
      field_simp
    rw [hsame]
    exact min_le_min hslower le_rfl
  · rw [coolingAt_slow (by omega) (by omega), coolingAt_slow hpos (by omega)]
    exact min_le_min hslower le_rfl

/-- **The temperature never rises.** -/
theorem coolingAt_antitone : Antitone (coolingAt initial fastLevels rate) :=
  antitone_int_of_succ_le (coolingAt_succ_le hfast hrate hinitial)

end Formulas

/-- The temperatures of the formulas, held above a floor, go down to the floor. -/
lemma coolingAt_cools {initial rate floor : Rat} {fastLevels : Int} (hinitial : 0 ≤ initial)
    (hfast : 1 ≤ fastLevels) (hrate : 0 < rate) (hfloor : 0 < floor) :
    Cools initial floor fun level => max (coolingAt initial fastLevels rate level) floor where
  start := fun level h => by rw [coolingAt_start h]
  antitone := fun _ _ h => max_le_max (coolingAt_antitone hfast hrate hinitial h) le_rfl
  floor_le := fun _ => le_max_right _ _
  le_start := fun _ => max_le_max coolingAt_le_initial le_rfl
  settles := by
    obtain ⟨last, hlast⟩ := coolingAt_eventually_le hfast hrate hfloor
    exact ⟨last, fun level h => max_eq_right (hlast level h)⟩

/-! ## Along a search -/

namespace Annealing

variable {σ ρ κ : Type} [DrawSource ρ Rat] [Transcendental Rat] {schedule : Schedule Rat}
    {initial : Rat} {t : Int → Rat}

section Levels

variable (space : SearchSpace Rat σ ρ κ)
  (ht : ∀ index : Nat, schedule.temperatureAt index initial = .ok (t index))

include ht

/-- The record of a level has the temperature of the level. -/
lemma level_temperature (index : Nat) (s : Standing Rat κ) :
    Edit.Leads (fun _ => True) (level space schedule initial index s)
      (fun v _ => True ∧ v.2.temperature = t index) fun _ => True := by
  simp only [level, ht, Edit.ofExcept, pure_bind]
  refine Edit.Leads.bind (Edit.Leads.anywhere _) fun v => ?_
  exact Edit.Leads.bind (Edit.Leads.anywhere _) fun _ => Edit.Leads.pure fun _ _ => ⟨trivial, rfl⟩

lemma levels_temperatures (count : Nat) : ∀ (index : Nat) (s : Standing Rat κ),
    Edit.Leads (fun _ => True) (levels space schedule initial count index s)
      (fun v _ => True ∧ v.2.map (·.temperature) = (List.range' index count).map fun i : Nat => t i)
      fun _ => True := by
  induction count with
  | zero => exact fun _ _ => Edit.Leads.pure fun _ _ => ⟨trivial, rfl⟩
  | succ count ih =>
      intro index s
      refine Edit.Leads.bind (level_temperature space ht index s) fun v =>
        Edit.Leads.fact fun hv => ?_
      refine Edit.Leads.bind (ih (index + 1) v.1) fun w => Edit.Leads.fact fun hw => ?_
      refine Edit.Leads.pure fun _ _ => ⟨trivial, ?_⟩
      rw [List.map_cons, hv, hw, List.range'_succ, List.map_cons]

/-- **A search passes through the temperatures of its schedule**, whatever it searches. -/
theorem run_temperatures (r r' : Run Rat σ ρ) (trace : Trace Rat)
    (hrun : (run space schedule initial).run r = .ok trace r') :
    trace.temperatures = (List.range schedule.levels.toNat).map fun index : Nat => t index := by
  have hleads : Edit.Leads (fun _ => True) (run space schedule initial)
      (fun trace _ => trace.temperatures
        = (List.range schedule.levels.toNat).map fun index : Nat => t index) fun _ => True := by
    refine Edit.Leads.bind (Edit.Leads.anywhere _) fun start => ?_
    refine Edit.Leads.bind (Edit.Leads.anywhere _) fun cost => ?_
    refine Edit.Leads.bind (Edit.Leads.anywhere _) fun _ => ?_
    refine Edit.Leads.bind (levels_temperatures space ht _ 0 _) fun v =>
      Edit.Leads.fact fun hv => ?_
    -- what follows leaves the records alone
    refine Edit.Leads.bind (Edit.Leads.anywhere _) fun _ => ?_
    refine Edit.Leads.bind (Edit.Leads.anywhere _) fun last => ?_
    refine Edit.Leads.bind (Edit.Leads.anywhere _) fun final => ?_
    refine Edit.Leads.bind (Edit.Leads.anywhere _) fun _ => ?_
    exact Edit.Leads.pure fun _ _ => hv.trans (by rw [List.range_eq_range'])
  have hend := hleads r trivial
  rw [hrun] at hend
  exact hend

end Levels

end Annealing

/-- **The temperatures of a schedule go down from the start to the floor**, level by level and over
all integers, and a search with this schedule passes through them, whatever it searches. -/
theorem temperature_cools {initial rate floor : Rat} {fastLevels : Int} (hinitial : 0 ≤ initial)
    (hfast : 1 ≤ fastLevels) (hrate : 0 < rate) (hfloor : 0 < floor) :
    ∃ t : Int → Rat, (∀ level, temperature level initial fastLevels rate floor = .ok (t level)) ∧
      Cools initial floor t ∧
      ∀ {σ ρ κ : Type} [DrawSource ρ Rat] [Transcendental Rat] (space : SearchSpace Rat σ ρ κ)
        (schedule : Schedule Rat) (r r' : Run Rat σ ρ) (trace : Trace Rat),
        schedule.validate = .ok () → schedule.fastLevels = fastLevels →
        schedule.descentRate = rate →
        schedule.floor = floor → (Annealing.run space schedule initial).run r = .ok trace r' →
          trace.temperatures = (List.range schedule.levels.toNat).map (fun index : Nat => t index) ∧
            trace.temperatures.Pairwise (· ≥ ·) ∧
            trace.temperatures.head? = some (max initial floor) := by
  have hcools := coolingAt_cools hinitial hfast hrate hfloor
  refine ⟨_, fun level => temperature_eq_ok hrate.ne' floor, hcools, ?_⟩
  rintro σ ρ κ _ _ space schedule r r' trace hvalid rfl rfl rfl hrun
  have hlevel : ∀ index : Nat, schedule.temperatureAt index initial = .ok
      (max (coolingAt initial schedule.fastLevels schedule.descentRate index) schedule.floor) := by
    intro _
    exact temperature_eq_ok hrate.ne' schedule.floor
  have htemperatures := Annealing.run_temperatures
    (t := fun level =>
      max (coolingAt initial schedule.fastLevels schedule.descentRate level) schedule.floor)
    space hlevel r r' trace hrun
  refine ⟨htemperatures, ?_, ?_⟩
  · rw [htemperatures, List.pairwise_map]
    exact List.pairwise_lt_range.imp fun h => hcools.antitone (by exact_mod_cast h.le)
  · -- there is a first level
    have hlevels : schedule.levels.toNat ≠ 0 := by
      have hmany := (Schedule.validate_ok_iff.mp hvalid).levels
      omega
    rw [htemperatures, List.head?_map, List.head?_range, if_neg hlevels]
    exact congrArg some (hcools.start 0 le_rfl)

/-- A walk towards four passes through three levels. -/
theorem temperature_cools_walking :
    let _ := Transcendental.tangent
    ((0 : Rat) ≤ 1 ∧ (1 : Int) ≤ Walk.short.fastLevels ∧ 0 < Walk.short.descentRate ∧
      0 < Walk.short.floor) ∧
      ∃ t : Int → Rat, Cools 1 Walk.short.floor t ∧ ∃ trace r',
        (Annealing.run (Walk.towards 4) Walk.short 1).run
          (⟨⟨Walker.start 0, Stream.steady (1 / 4) (by norm_num) 0⟩, []⟩ : Run Rat Walker Stream)
          = .ok trace r' ∧
        trace.temperatures = [t 0, t 1, t 2] ∧ trace.temperatures.Pairwise (· ≥ ·) ∧
        trace.temperatures.head? = some 1 := by
  let _ := Transcendental.tangent
  have hshort : Walk.short.validate = .ok () := by with_unfolding_all rfl
  have hsensible := Schedule.validate_ok_iff.mp hshort
  have hrate : 0 < Walk.short.descentRate := (by norm_num : (0 : Rat) < 1 / 2).trans hsensible.rate
  have hmax : max 1 Walk.short.floor = 1 := by decide +kernel
  obtain ⟨t, -, hcools, hruns⟩ :=
    temperature_cools (zero_le_one' Rat) hsensible.fastLevels hrate hsensible.floor
  obtain ⟨trace, r', hrun, -⟩ := (Annealing.run_course (B := False) (Walk.towards_lawful 4).lawfulOn
    (fun t _ => Or.inr ⟨_, _, rfl, rfl⟩) hsensible (fun w _ => Or.inr ⟨_, rfl⟩) 1
    (⟨⟨Walker.start 0, Stream.steady (1 / 4) (by norm_num) 0⟩, []⟩ : Run Rat Walker Stream)
    trivial).ok rfl
  obtain ⟨htemperatures, hdown, hfirst⟩ :=
    hruns (Walk.towards 4) Walk.short _ r' trace hshort rfl rfl rfl hrun
  rw [hmax] at hfirst
  exact ⟨⟨zero_le_one, hsensible.fastLevels, hrate, hsensible.floor⟩, t, hcools, trace, r', hrun,
    htemperatures, hdown, hfirst⟩

end BlockPlan
