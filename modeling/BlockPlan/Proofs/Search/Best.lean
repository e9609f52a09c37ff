import BlockPlan.Proofs.Draws.Stream
import BlockPlan.Proofs.Search.Course
import BlockPlan.Search.Walk

/-!
# A search ends with the best state of its course

All levels of a search make one course, of which every level records its share.  When the levels are
done, the best state of the course is loaded, so that what the search reports is the state it leaves
behind.

* `Recorded` — what a level records of its trials.
* `Found` — what a search reports of its course.
* `run_course` — a search that succeeds has run through a whole course and reports what it has
  found; it fails only if a change or a cost does.
* **`run_found`** — hence so it is for every lawful space and every schedule that makes sense.
-/

namespace BlockPlan

namespace Annealing

variable {σ ρ κ : Type} {space : SearchSpace Rat σ ρ κ} {I : σ → Prop} {same : σ → σ → Prop}
  {schedule : Schedule Rat}

/-- What is recorded of a level whose trials have led to `visits`. -/
structure Recorded (schedule : Schedule Rat) (visits : List (Visit σ ρ κ))
    (record : LevelRecord Rat) : Prop where
  trials : visits.length = schedule.trials.toNat
  cost : ∃ v, visits.getLast? = some v ∧ record.cost = v.standing.cost
  accepted : record.accepted = visits.countP fun v => v.accepted
  acceptance : record.acceptance = (record.accepted : Rat) / (schedule.trials.toNat : Rat)

/-- What a search reports that has passed through `rounds`, one for each level, from `start` on and
ended with the state `final`. -/
structure Found [DrawSource ρ Rat] [Transcendental Rat] (space : SearchSpace Rat σ ρ κ)
    (schedule : Schedule Rat) (initial : Rat) (same : σ → σ → Prop) (start : Drawn σ ρ)
    (rounds : List (List (Visit σ ρ κ))) (final : σ) (trace : Trace Rat) : Prop where
  /-- The rounds are the trials of the search, one after the other. -/
  course : ∃ cost s t, space.cost start.state = .ok cost ∧
    Course space schedule initial ⟨cost, cost, space.keep start.state, 0, 0⟩ start
      rounds.flatten s t
  /-- After every trial the running cost is the cost of the state. -/
  running : ∀ v ∈ rounds.flatten, space.cost v.current.state = .ok v.standing.cost
  /-- The best cost is the least one of the first cost and all costs that were accepted. -/
  best : IsLeast {c | space.cost start.state = .ok c ∨
    ∃ v ∈ rounds.flatten, v.accepted = true ∧ v.standing.cost = c} trace.bestCost
  /-- The search ends with the state after the best trial, which has the best cost. -/
  loaded : ∃ b, (states start.state rounds.flatten)[trace.bestIteration]? = some b ∧ same final b ∧
    space.cost b = .ok trace.bestCost
  /-- No state before has a cost as low. -/
  earliest : ∀ j < trace.bestIteration, ∀ u, (states start.state rounds.flatten)[j]? = some u →
    ∃ c, space.cost u = .ok c ∧ trace.bestCost < c
  final : trace.finalCost = trace.bestCost ∧ space.cost final = .ok trace.finalCost
  levels : (rounds.length : Int) = schedule.levels ∧
    ∀ visits ∈ rounds, (visits.length : Int) = schedule.trials
  iterations : (trace.iterations : Int) = schedule.levels * schedule.trials
  lengths : (trace.costs.length : Int) = schedule.levels ∧
    (trace.temperatures.length : Int) = schedule.levels ∧
    (trace.acceptances.length : Int) = schedule.levels
  /-- The cost that is recorded of a level is the one of the state after its last trial. -/
  costs : ∀ (i : Nat) (c : Rat), trace.costs[i]? = some c → trace.bestCost ≤ c ∧
    ∃ (visits : List (Visit σ ρ κ)) (v : Visit σ ρ κ), rounds[i]? = some visits ∧
      visits.getLast? = some v ∧ space.cost v.current.state = .ok c
  accepted : trace.accepted = rounds.flatten.countP fun v => v.accepted
  acceptances : (trace.acceptances.map fun a => a * (schedule.trials : Rat)).sum = trace.accepted

/-! ## What the course says of the best state -/

namespace Standing.Tracks

variable {first current : σ} {visits : List (Visit σ ρ κ)} {s : Standing Rat κ}

lemma bestCost_le_visit (h : Tracks space I first visits s current) {v : Visit σ ρ κ}
    (hv : v ∈ visits) : s.bestCost ≤ v.standing.cost :=
  h.bestCost_le_of_mem
    (List.mem_cons_of_mem _ (List.mem_map_of_mem (f := fun v => v.current.state) hv))
    (h.running v hv)

/-- The best cost is the least one of the first cost and all costs that were accepted. -/
lemma isLeast (h : Tracks space I first visits s current) :
    IsLeast {c | space.cost first = .ok c ∨
      ∃ v ∈ visits, v.accepted = true ∧ v.standing.cost = c} s.bestCost := by
  constructor
  · obtain ⟨b, hb, -, -, hcost⟩ := h.best
    rcases h.taken with hzero | ⟨k, v, hk, hv, haccepted⟩
    · rw [hzero, states, List.getElem?_cons_zero, Option.some.injEq] at hb
      exact Or.inl (hb ▸ hcost)
    · rw [hk, states, List.getElem?_cons_succ, List.getElem?_map, hv, Option.map_some,
        Option.some.injEq] at hb
      have hrunning := h.running v (List.mem_of_getElem? hv)
      rw [hb, hcost, Except.ok.injEq] at hrunning
      exact Or.inr ⟨v, List.mem_of_getElem? hv, haccepted, hrunning.symm⟩
  · rintro c (hc | ⟨v, hv, -, rfl⟩)
    · exact h.bestCost_le_of_mem (by simp [states]) hc
    · exact h.bestCost_le_visit hv

end Standing.Tracks

section Records

variable {rounds : List (List (Visit σ ρ κ))} {records : List (LevelRecord Rat)}

lemma recorded_of_getElem? (h : List.Forall₂ (Recorded schedule) rounds records) {i : Nat}
    {record : LevelRecord Rat} (hi : records[i]? = some record) :
    ∃ visits, rounds[i]? = some visits ∧ Recorded schedule visits record := by
  obtain ⟨hlt, rfl⟩ := List.getElem?_eq_some_iff.mp hi
  have hlt' : i < rounds.length := h.length_eq ▸ hlt
  exact ⟨rounds[i], List.getElem?_eq_getElem hlt', h.get hlt' hlt⟩

lemma length_of_recorded (h : List.Forall₂ (Recorded schedule) rounds records) :
    ∀ visits ∈ rounds, visits.length = schedule.trials.toNat := by
  induction h with
  | nil => simp
  | cons hvisits _ ih => exact List.forall_mem_cons.mpr ⟨hvisits.trials, ih⟩

lemma length_flatten_of_recorded (h : List.Forall₂ (Recorded schedule) rounds records) :
    rounds.flatten.length = rounds.length * schedule.trials.toNat := by
  induction h with
  | nil => simp
  | cons hvisits _ ih =>
      rw [List.flatten_cons, List.length_append, ih, hvisits.trials, List.length_cons]
      ring

lemma accepted_of_recorded (h : List.Forall₂ (Recorded schedule) rounds records) :
    (records.map fun r => r.accepted).sum = rounds.flatten.countP fun v => v.accepted := by
  induction h with
  | nil => simp
  | cons hvisits _ ih =>
      rw [List.flatten_cons, List.countP_append, List.map_cons, List.sum_cons, ih, hvisits.accepted]

lemma acceptances_of_recorded (hschedule : schedule.Sensible)
    (h : List.Forall₂ (Recorded schedule) rounds records) :
    (records.map fun r => r.acceptance * (schedule.trials : Rat)).sum
      = ((records.map fun r => r.accepted).sum : Nat) := by
  have htrials : ((schedule.trials.toNat : Int) : Rat) = schedule.trials := by
    rw [Int.toNat_of_nonneg (by have := hschedule.trials; omega)]
  have hne : (schedule.trials : Rat) ≠ 0 := by
    have := hschedule.trials
    exact_mod_cast (by omega : schedule.trials ≠ 0)
  rw [Int.cast_natCast] at htrials
  induction h with
  | nil => simp
  | cons hvisits _ ih =>
      rw [List.map_cons, List.sum_cons, ih, hvisits.acceptance, htrials, div_mul_cancel₀ _ hne,
        List.map_cons, List.sum_cons, Nat.cast_add]

end Records

/-! ## What a search reports -/

/-- What a search reports that has loaded the best state. -/
def summary (initial : Rat) (s : Standing Rat κ) (records : List (LevelRecord Rat)) :
    Trace Rat where
  initialTemperature := initial
  bestCost := s.bestCost
  finalCost := s.bestCost
  iterations := s.iterations
  accepted := (records.map fun r => r.accepted).foldl (· + ·) 0
  bestIteration := s.bestIteration
  costs := records.map fun r => r.cost
  temperatures := records.map fun r => r.temperature
  acceptances := records.map fun r => r.acceptance

/-- A course, with what the levels have recorded of it, is what a search reports that loads the best
state. -/
lemma Course.found [DrawSource ρ Rat] [Transcendental Rat] (hspace : space.LawfulOn I same)
    (hschedule : schedule.Sensible) {initial cost : Rat} {start t : Drawn σ ρ} (hI : I start.state)
    (hcost : space.cost start.state = .ok cost) {rounds : List (List (Visit σ ρ κ))}
    {s : Standing Rat κ} (h : Course space schedule initial
      ⟨cost, cost, space.keep start.state, 0, 0⟩ start rounds.flatten s t)
    {records : List (LevelRecord Rat)} (hrecords : List.Forall₂ (Recorded schedule) rounds records)
    (hlevels : rounds.length = schedule.levels.toNat) {b final : σ}
    (hb : (states start.state rounds.flatten)[s.bestIteration]? = some b)
    (hbest : space.cost b = .ok s.bestCost) (hfinal : same final b) :
    Found space schedule initial same start rounds final (summary initial s records) := by
  have hlevelsInt : ((schedule.levels.toNat : Nat) : Int) = schedule.levels :=
    Int.toNat_of_nonneg (by have := hschedule.levels; omega)
  have htrialsInt : ((schedule.trials.toNat : Nat) : Int) = schedule.trials :=
    Int.toNat_of_nonneg (by have := hschedule.trials; omega)
  have hmap : ∀ f : LevelRecord Rat → Rat, ((records.map f).length : Int) = schedule.levels := by
    intro f
    rw [List.length_map, ← hrecords.length_eq, hlevels, hlevelsInt]
  have htracks := h.tracks hspace hschedule (Standing.Tracks.nil hI hcost)
  have hiterations : (s.iterations : Int) = schedule.levels * schedule.trials := by
    rw [htracks.iterations, length_flatten_of_recorded hrecords, hlevels, Nat.cast_mul, hlevelsInt,
      htrialsInt]
  have haccepted : (records.map fun r => r.accepted).foldl (· + ·) 0
      = (records.map fun r => r.accepted).sum := List.sum_eq_foldl.symm
  refine ⟨⟨cost, s, t, hcost, h⟩, htracks.running, htracks.isLeast, ⟨b, hb, hfinal, hbest⟩,
    htracks.earliest, ⟨rfl, (hspace.cost_congr _ _ hfinal).trans hbest⟩, ⟨?_, ?_⟩, hiterations,
    ⟨hmap _, hmap _, hmap _⟩, ?_, ?_, ?_⟩
  · rw [hlevels, hlevelsInt]
  · intro visits hvisits
    rw [length_of_recorded hrecords visits hvisits, htrialsInt]
  · intro i c hc
    rw [summary, List.getElem?_map, Option.map_eq_some_iff] at hc
    obtain ⟨record, hrecord, rfl⟩ := hc
    obtain ⟨visits, hvisits, hrecorded⟩ := recorded_of_getElem? hrecords hrecord
    obtain ⟨v, hlast, hcost⟩ := hrecorded.cost
    have hv : v ∈ rounds.flatten :=
      List.mem_flatten.mpr ⟨visits, List.mem_of_getElem? hvisits, List.mem_of_getLast? hlast⟩
    rw [hcost]
    exact ⟨htracks.bestCost_le_visit hv, visits, v, hvisits, hlast, htracks.running v hv⟩
  · exact haccepted.trans (accepted_of_recorded hrecords)
  · rw [summary, haccepted, List.map_map]
    exact acceptances_of_recorded hschedule hrecords

/-! ## Running through a course

In a lawful space a search fails only if `B`, whatever it is that makes a change or a cost fail.
-/

section Course

variable [DrawSource ρ Rat] [Transcendental Rat] {initial : Rat} {s₀ : Standing Rat κ}
  {t₀ : Drawn σ ρ} {B : Prop} (hspace : space.LawfulOn I same)
  (hfree : ∀ t : Drawn σ ρ, I t.state → B ∨
    ∃ u cost, space.perturb.run t = .ok () u ∧ space.cost u.state = .ok cost)
  (hschedule : schedule.Sensible)
  (hstart : Standing.Tracks space I t₀.state ([] : List (Visit σ ρ κ)) s₀ t₀.state)

include hspace hfree hschedule hstart

/-- A trial is the next one of the course. -/
lemma trial_course {visits : List (Visit σ ρ κ)} {s : Standing Rat κ} {temperature : Rat}
    (htemperature : schedule.temperatureAt (visits.length / schedule.trials.toNat : Nat) initial
      = .ok temperature) :
    Edit.Leads (Course space schedule initial s₀ t₀ visits s) (trial space temperature s)
      (fun v t => ∃ w : Visit σ ρ κ, w.accepted = v.2 ∧
        Course space schedule initial s₀ t₀ (visits ++ [w]) v.1 t)
      (fun _ => B) := by
  intro t ht
  cases hrun : (trial space temperature s).run t with
  | ok v u => exact ⟨⟨v.1, v.2, u⟩, rfl, ht.trial htemperature hrun⟩
  | error e u =>
      have hinv := (ht.tracks hspace hschedule hstart).inv
      obtain ⟨_, hok, hfloor⟩ := Schedule.temperatureAt_eq_ok hschedule
        (visits.length / schedule.trials.toNat) initial
      rw [htemperature] at hok
      cases hok
      rcases hfree t hinv with hB | ⟨w, cost, hperturb, hcost⟩
      · exact hB
      · obtain ⟨v, t', hok⟩ := trial_eq_ok hspace (hschedule.floor.trans_le hfloor).ne' s hinv
          hperturb hcost
        rw [hrun] at hok
        cases hok

/-- The trials of a level are the next ones of the course. -/
lemma trials_course {index : Nat} {temperature : Rat}
    (htemperature : schedule.temperatureAt index initial = .ok temperature) (count : Nat) :
    ∀ (accepted : Nat) (visits : List (Visit σ ρ κ)) (s : Standing Rat κ),
      index * schedule.trials.toNat ≤ visits.length →
      visits.length + count ≤ (index + 1) * schedule.trials.toNat →
      Edit.Leads (Course space schedule initial s₀ t₀ visits s)
        (trials space temperature count accepted s)
        (fun v t => ∃ new : List (Visit σ ρ κ), new.length = count ∧
          v.2 = accepted + new.countP (fun v => v.accepted) ∧
          Course space schedule initial s₀ t₀ (visits ++ new) v.1 t)
        (fun _ => B) := by
  induction count with
  | zero =>
      intro accepted visits s _ _
      exact Edit.Leads.pure fun t ht => ⟨[], rfl, rfl, by rwa [List.append_nil]⟩
  | succ count ih =>
      intro accepted visits s hlow hhigh
      have hlevel : visits.length / schedule.trials.toNat = index :=
        Nat.div_eq_of_lt_le hlow (by omega)
      refine Edit.Leads.bind (trial_course hspace hfree hschedule hstart (hlevel ▸ htemperature))
        fun v => Edit.Leads.exists fun w => ?_
      intro t ⟨hw, ht⟩
      have hrest := ih (if v.2 then accepted + 1 else accepted) (visits ++ [w]) v.1
        (by rw [List.length_append]; omega)
        (by rw [List.length_append, List.length_singleton]; omega)
      refine hrest.mono (fun _ h => h) (fun out u => ?_) (fun _ h => h) t ht
      rintro ⟨new, hlength, haccepted, hcourse⟩
      refine ⟨w :: new, ?_, ?_, ?_⟩
      · rw [List.length_cons, hlength]
      · rw [haccepted, List.countP_cons, hw]
        split_ifs <;> omega
      · rwa [List.append_cons]

/-- The trials of a level are recorded. -/
lemma level_course {index : Nat} {visits : List (Visit σ ρ κ)} {s : Standing Rat κ}
    (hvisits : visits.length = index * schedule.trials.toNat) :
    Edit.Leads (fun r : Run Rat σ ρ => Course space schedule initial s₀ t₀ visits s r.current)
      (level space schedule initial index s)
      (fun v r => ∃ new : List (Visit σ ρ κ), Recorded schedule new v.2 ∧
        Course space schedule initial s₀ t₀ (visits ++ new) v.1 r.current)
      (fun _ => B) := by
  have htrials := hschedule.trials
  obtain ⟨temperature, htemperature, -⟩ := Schedule.temperatureAt_eq_ok hschedule index initial
  refine Edit.Leads.bind (Edit.Leads.ofExcept (Q := fun t r => Course space schedule initial s₀ t₀
    visits s r.current ∧ schedule.temperatureAt index initial = .ok t)
    (fun t ht r hr => ⟨hr, ht⟩) fun e he => ?_) fun t => Edit.Leads.fact fun ht => ?_
  · rw [htemperature] at he
    cases he
  refine Edit.Leads.bind (onCurrent_leads (trials_course hspace hfree hschedule hstart ht _ 0
    visits s hvisits.ge (by rw [hvisits, Nat.succ_mul]))) fun v => Edit.Leads.exists fun new => ?_
  refine Edit.Leads.bind (Q := fun _ r => Recorded schedule new ⟨v.1.cost, t, _, v.2⟩ ∧
    Course space schedule initial s₀ t₀ (visits ++ new) v.1 r.current) (Edit.Leads.modify ?_)
    fun _ => Edit.Leads.pure fun r hr => ⟨new, hr⟩
  rintro r ⟨hlength, haccepted, hcourse⟩
  refine ⟨⟨hlength, ?_, by rw [haccepted, Nat.zero_add], rfl⟩, hcourse⟩
  -- a level has a last trial, which is where the search stands
  have hne : new ≠ [] := List.ne_nil_of_length_pos (by omega)
  refine ⟨_, List.getLast?_eq_some_getLast hne, ?_⟩
  rw [hcourse.getLast?_eq (v := new.getLast hne) ?_]
  rw [List.getLast?_append, List.getLast?_eq_some_getLast hne, Option.some_or]

/-- The levels of a search go through a course of trials and record it. -/
lemma levels_course (count : Nat) :
    ∀ (index : Nat) {visits : List (Visit σ ρ κ)} {s : Standing Rat κ},
      visits.length = index * schedule.trials.toNat →
      Edit.Leads (fun r : Run Rat σ ρ => Course space schedule initial s₀ t₀ visits s r.current)
        (levels space schedule initial count index s)
        (fun v r => ∃ rounds : List (List (Visit σ ρ κ)), rounds.length = count ∧
          List.Forall₂ (Recorded schedule) rounds v.2 ∧
          Course space schedule initial s₀ t₀ (visits ++ rounds.flatten) v.1 r.current)
        (fun _ => B) := by
  induction count with
  | zero =>
      intro index visits s _
      exact Edit.Leads.pure fun r hr => ⟨[], rfl, .nil, by rwa [List.flatten_nil, List.append_nil]⟩
  | succ count ih =>
      intro index visits s hvisits
      refine Edit.Leads.bind (level_course hspace hfree hschedule hstart hvisits)
        fun v => Edit.Leads.exists fun new => ?_
      intro r ⟨hnew, hr⟩
      have hlength : (visits ++ new).length = (index + 1) * schedule.trials.toNat := by
        rw [List.length_append, hvisits, hnew.trials, Nat.succ_mul]
      refine Edit.Leads.bind (ih (index + 1) hlength)
        (fun w => Edit.Leads.exists fun rounds => ?_) r hr
      apply Edit.Leads.pure
      rintro u ⟨hcount, hrecorded, hcourse⟩
      refine ⟨new :: rounds, ?_, .cons hnew hrecorded, ?_⟩
      · rw [List.length_cons, hcount]
      · rw [List.flatten_cons, ← List.append_assoc]
        exact hcourse

omit hstart in
/-- **A search that succeeds reports what it has found**, and ends with the
state that it reports. -/
theorem run_course (hcost : ∀ s, I s → B ∨ ∃ c, space.cost s = .ok c) (initial : Rat)
    (start : Run Rat σ ρ) (hinv : I start.current.state) :
    Edit.Leads (fun r => r = start) (run space schedule initial)
      (fun trace r => I r.current.state ∧
        ∃ rounds, Found space schedule initial same start.current rounds r.current.state trace)
      (fun _ => B) := by
  refine Edit.Leads.bind Edit.Leads.get fun start => Edit.Leads.fact ?_
  rintro rfl
  refine Edit.Leads.bind (Edit.Leads.ofExcept (Q := fun c r => r = start ∧
    space.cost start.current.state = .ok c) (fun c hc r hr => ⟨hr, hc⟩) fun e he r _ => ?_)
    fun cost => Edit.Leads.fact fun hfirst => ?_
  · rcases hcost _ hinv with hB | ⟨c, hc⟩
    · exact hB
    · rw [hc] at he
      cases he
  have hstart := Standing.Tracks.nil (ρ := ρ) hinv hfirst
  refine Edit.Leads.bind (Q := fun _ r => Course space schedule initial
    ⟨cost, cost, space.keep start.current.state, 0, 0⟩ start.current [] ⟨cost, cost,
      space.keep start.current.state, 0, 0⟩ r.current) (Edit.Leads.modify ?_) fun _ => ?_
  · rintro r rfl
    exact Course.start
  refine Edit.Leads.bind (levels_course hspace hfree hschedule hstart _ 0 (by simp)) fun v =>
    Edit.Leads.exists fun rounds => ?_
  -- the best state of the course is loaded
  refine Edit.Leads.bind (Q := fun _ r => space.cost r.current.state = .ok v.1.bestCost ∧
    I r.current.state ∧ ∃ rounds, Found space schedule initial same start.current rounds
      r.current.state (summary initial v.1 v.2)) (Edit.Leads.of_ok ?_) fun _ => ?_
  · rintro r ⟨hlength, hrecords, hcourse⟩
    rw [List.nil_append] at hcourse
    obtain ⟨b, hb, hIb, hkeep, hbest⟩ := (hcourse.tracks hspace hschedule hstart).best
    obtain ⟨u, hload, hu, hsame⟩ := hspace.load_keep b r.current.state hIb
      (hcourse.tracks hspace hschedule hstart).inv
    refine ⟨(), { r with current := { r.current with state := u } }, ?_,
      (hspace.cost_congr _ _ hsame).trans hbest, hu, rounds,
      hcourse.found hspace hschedule hinv hfirst hrecords hlength hb hbest hsame⟩
    simp only [onCurrent, Edit.run_within, Edit.run_onState, hkeep, hload]
  · rintro r ⟨hfinal, hfound⟩
    simp only [EStateM.run_bind, EStateM.run_get, hfinal, Edit.run_ofExcept_ok, note,
      EStateM.run_modify, EStateM.run_pure]
    exact hfound

end Course

/-- **A search of a lawful space ends with the best state of its course.**  It succeeds if no change
and no cost fails. -/
theorem run_found {σ ρ κ : Type} [DrawSource ρ Rat] [Transcendental Rat]
    {space : SearchSpace Rat σ ρ κ} {same : σ → σ → Prop} (hspace : space.Lawful same)
    {schedule : Schedule Rat} (hschedule : schedule.validate = .ok ()) (initial : Rat)
    (r : Run Rat σ ρ) :
    (∀ trace r', (run space schedule initial).run r = .ok trace r' →
      ∃ rounds, Found space schedule initial same r.current rounds r'.current.state trace) ∧
    ((∀ t, ∃ u, space.perturb.run t = .ok () u) → (∀ s, ∃ cost, space.cost s = .ok cost) →
      ∃ trace r', (run space schedule initial).run r = .ok trace r') := by
  have hsensible := Schedule.validate_ok_iff.mp hschedule
  have hon := hspace.lawfulOn
  constructor
  · intro trace r' hrun
    have hfound := run_course (B := True) hon (fun _ _ => Or.inl trivial) hsensible
      (fun _ _ => Or.inl trivial) initial r trivial r rfl
    rw [hrun] at hfound
    exact hfound.2
  · intro hperturb hcost
    have hfree : ∀ t, ∃ u cost, space.perturb.run t = .ok () u ∧ space.cost u.state = .ok cost := by
      intro t
      obtain ⟨u, hu⟩ := hperturb t
      obtain ⟨cost, hc⟩ := hcost u.state
      exact ⟨u, cost, hu, hc⟩
    obtain ⟨trace, r', hrun, -⟩ :=
      (run_course (B := False) hon (fun t _ => Or.inr (hfree t)) hsensible
      (fun s _ => Or.inr (hcost s)) initial r trivial).ok rfl
    exact ⟨trace, r', hrun⟩

end Annealing

namespace Walk

/-- A walker who remembers the last step can be searched with, whatever the number of steps. -/
lemma towards_lawful {ρ : Type} [DrawSource ρ Rat] (target : Int) :
    (towards target : SearchSpace Rat Walker ρ Int).Lawful fun p q => p.place = q.place where
  cost_congr := by
    intro p q h
    simp only [towards, h]
  restore_perturb := by
    intro w r t h
    simp only [towards, EStateM.run_bind, Edit.run_drawUnit, Edit.run_onState,
      EStateM.run_modify] at h
    cases h
    exact ⟨_, rfl, rfl⟩
  load_keep := fun p q => ⟨_, rfl, rfl⟩

/-- Three levels of two trials each. -/
def short : Schedule Rat := { Schedule.standard with levels := 3, trials := 2 }

/-- A walk towards four, which starts at zero. -/
theorem run_found_towards :
    let _ := Transcendental.tangent
    short.validate = .ok () ∧
      ∃ trace r' rounds,
        (Annealing.run (towards 4) short 1).run
          (⟨⟨Walker.start 0, Stream.steady (1 / 4) (by norm_num) 0⟩, []⟩ : Run Rat Walker Stream)
          = .ok trace r' ∧
        Annealing.Found (towards 4) short 1 (fun p q => p.place = q.place)
          ⟨Walker.start 0, Stream.steady (1 / 4) (by norm_num) 0⟩ rounds
            r'.current.state trace := by
  let _ := Transcendental.tangent
  have hshort : short.validate = .ok () := by with_unfolding_all rfl
  obtain ⟨hfound, hok⟩ := Annealing.run_found (towards_lawful 4) hshort 1
    (⟨⟨Walker.start 0, Stream.steady (1 / 4) (by norm_num) 0⟩, []⟩ : Run Rat Walker Stream)
  obtain ⟨trace, r', hrun⟩ := hok (fun t => ⟨_, rfl⟩) fun w => ⟨_, rfl⟩
  obtain ⟨rounds, hrounds⟩ := hfound trace r' hrun
  exact ⟨hshort, trace, r', rounds, hrun, hrounds⟩

end Walk

end BlockPlan
