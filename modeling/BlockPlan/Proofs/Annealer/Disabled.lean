import BlockPlan.Proofs.Annealer.Mirror

/-!
# Terms without a weight

Terms without a weight are measured on the walk that finds the norms, are kept with every layout and
are restored with every move, and yet they decide over nothing: two problems that differ only in
what such terms look at have the same runs.

* `Weights.Counts` — whether a term has a weight.
* `Design.AgreesOn`, `Settings.AgreesOn` — problems that differ only in what terms without a weight
  look at.
* **`Setup.Made.alike`** — the setups of such problems are alike.
* `Outcome.AgreesOn` — what the runs of such problems report.
* **`Annealer.runs_disabled`** — so it is for every run of a row of runs.
-/

namespace BlockPlan

open Edit (Mirrored)

/-- Whether a term has a weight. -/
def Weights.Counts (w : Weights Rat) (t : Term) : Prop := w.get t ≠ 0

/-- Two designs with the same blocks on the same outline, which differ at most in what only terms
without a weight look at. -/
structure Design.AgreesOn (w : Weights Rat) (d d' : Design Rat) : Prop where
  width : d'.outlineWidth = d.outlineWidth
  height : d'.outlineHeight = d.outlineHeight
  blocks : d'.blocks.map Block.plain = d.blocks.map Block.plain
  preferences : w.Counts .boundary → d'.blocks = d.blocks
  nets : w.Counts .wirelength → d'.nets = d.nets ∧ d'.terminals = d.terminals
  guides : w.Counts .guidance → d'.guides = d.guides
  fences : w.Counts .fence → d'.fences = d.fences
  blockages : w.Counts .blockage ∨ w.Counts .notch → d'.blockages = d.blockages

/-- Two choices of settings that differ at most in the thresholds of notches, and only if these have
no weight. -/
structure Settings.AgreesOn (s s' : Settings Rat) : Prop where
  weights : s'.weights = s.weights
  shares : s'.shares = s.shares
  schedule : s'.schedule = s.schedule
  initial : s'.initial = s.initial
  thresholds : s.weights.Counts .notch → s'.notchWidth = s.notchWidth ∧
    s'.notchHeight = s.notchHeight

/-! ## Setups -/

lemma Objective.resolve_plain (blocks : List (Block Rat)) (regions : List (String × Rect Rat)) :
    resolve (blocks.map Block.plain) regions = resolve blocks regions :=
  resolve_map (f := Block.plain) (fun _ => rfl) blocks regions

lemma Layout.opening_plain (blocks : List (Block Rat)) (initial : Option (List Int × List Int)) :
    opening (blocks.map Block.plain) initial = (opening blocks initial).map Layout.plain := by
  have hblocks : ofBlocks (blocks.map Block.plain) = (ofBlocks blocks).plain := by
    simp only [ofBlocks, plain, List.length_map]
  cases initial with
  | none => exact congrArg Except.ok hblocks
  | some sequences =>
      simp only [opening, hblocks, plain_size]
      cases (SequencePair.ofPermutations (ofBlocks blocks).size sequences.1 sequences.2
        : Except (Fault Rat) SequencePair) <;> rfl

/-- The layouts to begin with differ at most in preferences. -/
lemma Layout.opening_alike {blocks blocks' : List (Block Rat)}
    {initial : Option (List Int × List Int)}
    {counts : Prop} (hplain : blocks'.map Block.plain = blocks.map Block.plain)
    (hsame : counts → blocks' = blocks) {l l' : Layout Rat} (h : opening blocks initial = .ok l)
    (h' : opening blocks' initial = .ok l') : l.Alike counts l' := by
  constructor
  · have hopening := opening_plain blocks initial
    rw [← hplain, opening_plain, h, h'] at hopening
    exact (Except.ok.inj hopening).symm
  · intro hcounts
    rw [hsame hcounts, h] at h'
    exact Except.ok.inj h'

section Setups

variable {d d' : Design Rat} {s s' : Settings Rat} {setup setup' : Setup Rat}
    {plan plan' : Plan Rat} (hd : d.AgreesOn s.weights d') (hs : s.AgreesOn s')
    (h : Setup.Made d s setup plan) (h' : Setup.Made d' s' setup' plan')

include hd hs h h'

/-- The objectives have the same part for every term with a weight. -/
lemma Objective.sameFor_of_agreesOn {t : Term} (ht : s.weights.Counts t) :
    setup.objective.SameFor setup'.objective t := by
  obtain ⟨-, -, hguides, hfences, ho⟩ := Objective.ofDesign_iff.mp h.objective
  obtain ⟨-, -, hguides', hfences', ho'⟩ := Objective.ofDesign_iff.mp h'.objective
  rw [← Objective.resolve_plain, hd.blocks, Objective.resolve_plain] at hguides' hfences'
  cases t with
  | area | outline | boundary => trivial
  | wirelength =>
      rw [ho, ho']
      exact hd.nets ht
  | guidance =>
      rw [hd.guides ht, hguides] at hguides'
      exact (Except.ok.inj hguides').symm
  | fence =>
      rw [hd.fences ht, hfences] at hfences'
      exact (Except.ok.inj hfences').symm
  | blockage =>
      rw [ho, ho']
      exact congrArg (List.map Rect.box) (hd.blockages (Or.inl ht))
  | notch =>
      rw [ho, ho']
      exact ⟨congrArg (List.map Rect.box) (hd.blockages (Or.inr ht)), hs.thresholds ht⟩

omit hs in
/-- The objectives have the same outline. -/
lemma Objective.outline_of_agreesOn :
    setup'.objective.outlineWidth = setup.objective.outlineWidth ∧
      setup'.objective.outlineHeight = setup.objective.outlineHeight := by
  obtain ⟨-, -, -, -, ho⟩ := Objective.ofDesign_iff.mp h.objective
  obtain ⟨-, -, -, -, ho'⟩ := Objective.ofDesign_iff.mp h'.objective
  rw [ho, ho']
  exact ⟨hd.width, hd.height⟩

/-- Layouts that are alike have the same value for every term with a weight. -/
lemma Objective.value_of_agreesOn {l l' : Layout Rat} (hl : l.Alike (s.weights.Counts .boundary) l')
    {t : Term} (ht : s.weights.Counts t) :
    setup'.objective.value l' t = setup.objective.value l t := by
  obtain ⟨hwidth, hheight⟩ := Objective.outline_of_agreesOn hd h h'
  rw [value, value, Objective.measure_congr hwidth hheight l'
    (Objective.sameFor_of_agreesOn hd hs h h' ht)]
  by_cases hboundary : t = .boundary
  · rw [hl.2 (hboundary ▸ ht)]
  · rw [← Objective.measure_plain _ l' hboundary, ← hl.1, Objective.measure_plain _ l hboundary]

/-- **The setups of problems that differ only in what terms without a weight look at are alike.** -/
theorem Setup.Made.alike : setup.Alike 1 s.weights.Counts setup' where
  fair := Setup.ofDesign_fair (Setup.ofDesign_iff.mpr h)
  fair' := Setup.ofDesign_fair (Setup.ofDesign_iff.mpr h')
  table := by
    have htable := h'.table
    rw [hs.shares, h.table] at htable
    exact (Except.ok.inj htable).symm
  schedule := by
    rw [h.setup_eq, h'.setup_eq, Schedule.scaled, mul_one]
    exact hs.schedule
  initial := by
    rw [h.setup_eq, h'.setup_eq]
    exact hs.initial
  width := by
    rw [h.setup_eq, h'.setup_eq]
    exact hd.width
  outline := Objective.outline_of_agreesOn hd h h'
  weights := by
    obtain ⟨-, -, -, -, ho⟩ := Objective.ofDesign_iff.mp h.objective
    obtain ⟨-, -, -, -, ho'⟩ := Objective.ofDesign_iff.mp h'.objective
    rw [ho, ho', hs.weights]
    exact ⟨fun t => (mul_one _).symm, fun t ht => not_not.mp ht⟩
  value := fun _ _ hl _ ht => Objective.value_of_agreesOn hd hs h h' hl ht

end Setups

/-! ## Runs -/

/-- Two outcomes that report the same, but for the values of terms without a weight. -/
structure Outcome.AgreesOn (w : Weights Rat) (o o' : Outcome Rat) : Prop where
  seed : o'.seed = o.seed
  placements : o'.placements = o.placements
  initialTemperature : o'.initialTemperature = o.initialTemperature
  costs : o'.costs = o.costs
  temperatures : o'.temperatures = o.temperatures
  acceptances : o'.acceptances = o.acceptances
  iterations : o'.iterations = o.iterations
  bestIteration : o'.bestIteration = o.bestIteration
  bestCost : o'.bestCost = o.bestCost
  finalCost : o'.finalCost = o.finalCost
  penalties : Listed w.Counts o.penalties o'.penalties
  rawPenalties : Listed w.Counts o.rawPenalties o'.rawPenalties

lemma Outcome.Alike.agreesOn {w : Weights Rat} {o o' : Outcome Rat} (h : o.Alike 1 w.Counts o') :
    o.AgreesOn w o' := by
  have hmap : ∀ xs : List Rat, xs.map (· * 1) = xs := by simp
  exact ⟨h.seed, h.placements, h.initialTemperature.trans (mul_one _), h.costs.trans (hmap _),
    h.temperatures.trans (hmap _), h.acceptances, h.iterations, h.bestIteration,
    h.bestCost.trans (mul_one _), h.finalCost.trans (mul_one _), h.penalties, h.rawPenalties⟩

namespace Annealer

section Runs

variable {ρ : Type} [DrawSource ρ Rat] [Transcendental Rat]

/-- **Terms without a weight do not influence a run.**  Two problems that differ only in what such
terms look at have the same outcomes from the same draws, but for the values of these terms, and
leave the same draws behind.  So it is after any number of runs, and when a run fails, both do with
the same fault; none fails if every block lists every orientation once. -/
theorem runs_disabled {d d' : Design Rat} {s s' : Settings Rat} {setup setup' : Setup Rat}
    {plan plan' : Plan Rat} (hd : d.AgreesOn s.weights d') (hs : s.AgreesOn s')
    (hmade : Setup.ofDesign d s = .ok (setup, plan))
    (hmade' : Setup.ofDesign d' s' = .ok (setup', plan')) (draws : ρ) (count : Nat) :
    Mirrored (fun b b' => b'.run.current.draws = b.run.current.draws) (Outcome.AgreesOn s.weights)
      ((anneal setup).run ((start plan draws).afterRuns setup count))
      ((anneal setup').run ((start plan' draws).afterRuns setup' count)) ∧
    (LawfulDraws ρ Rat → (∀ b ∈ d.blocks, b.WellFormed ∧ b.Varied) →
      (∀ q : Rat, 0 < q → q < 1 → Transcendental.log q ≠ 0) →
      ∃ o b, (anneal setup).run ((start plan draws).afterRuns setup count) = .ok o b) := by
  have h := Setup.ofDesign_iff.mp hmade
  have h' := Setup.ofDesign_iff.mp hmade'
  have halike := h.alike hd hs h'
  have hopening : Layout.opening d'.blocks s.initial = .ok plan'.layout := by
    rw [← hs.initial]
    exact h'.layout
  have hstart := start_alike (f := 1) h h'
    (Layout.opening_alike hd.blocks hd.preferences h.layout hopening) draws
  have hrun := anneal_mirrors halike one_pos _ _ (afterRuns_alike halike one_pos count hstart)
  constructor
  · exact hrun.imp (fun _ _ hb => hb.run.2.symm) fun _ _ ho => ho.agreesOn
  · intro _ hblocks hlog
    have hwellFormed : ∀ b ∈ d.blocks, b.WellFormed := fun b hb => (hblocks b hb).1
    have hvaried : ∀ b ∈ d.blocks, b.Varied := fun b hb => (hblocks b hb).2
    exact anneal_succeeds hmade hwellFormed hvaried hlog draws count

end Runs

end Annealer

namespace Session

/-- The settings of `mixed` where wires have no weight. -/
def wireless : Settings Rat := { mixed with weights := { Weights.standard with wirelength := 0 } }

/-- The settings of `wireless` with free runs below two as notches. -/
def narrow : Settings Rat := { wireless with notchWidth := 2, notchHeight := 2 }

/-- The design of `turning` with a net to a terminal, a blockage, a guide, a fence, and a block that
prefers the edge. -/
def furnished : Design Rat :=
  { turning with
    blocks := [⟨"a", .hard 2 3 [.r0, .r90] .r0, 0, 0, 2, 3, true⟩,
      ⟨"b", .soft [(4, 1), (2, 2)] 0, 0, 0, 4, 1, false⟩]
    nets := [⟨"n", ["a", "t"], 1⟩]
    terminals := [("t", (10, 5))]
    blockages := [⟨1, 1, 2, 2⟩]
    guides := [("a", ⟨7, 7, 1, 1⟩)]
    fences := [("b", ⟨0, 5, 4, 4⟩)] }

lemma furnished_agrees : turning.AgreesOn wireless.weights furnished where
  width := rfl
  height := rfl
  blocks := rfl
  preferences := fun h => absurd rfl h
  nets := fun h => absurd rfl h
  guides := fun h => absurd rfl h
  fences := fun h => absurd rfl h
  blockages := by
    rintro (h | h)
    · exact absurd rfl h
    · exact absurd rfl h

lemma narrow_agrees : wireless.AgreesOn narrow := ⟨rfl, rfl, rfl, rfl, fun h => absurd rfl h⟩

end Session

/-- A second run of two designs, one of which is furnished for terms without a weight. -/
theorem Annealer.runs_disabled_furnished :
    ∃ setup plan setup' plan', Setup.ofDesign Session.turning Session.wireless = .ok (setup, plan) ∧
      Setup.ofDesign Session.furnished Session.narrow = .ok (setup', plan') ∧
      let _ := Transcendental.tangent
      ∃ o o' : Outcome Rat, ∃ b b' : Annealer Rat Stream,
        (anneal setup).run ((start plan (Stream.steady (1 / 2) (by norm_num) 0)).afterRuns setup 1)
          = .ok o b ∧
        (anneal setup').run
          ((start plan' (Stream.steady (1 / 2) (by norm_num) 0)).afterRuns setup' 1)
          = .ok o' b' ∧
        o.AgreesOn Session.wireless.weights o' := by
  obtain ⟨setup, plan, hmade⟩ :
      ∃ setup plan, Setup.ofDesign Session.turning Session.wireless = .ok (setup, plan) :=
    ⟨_, _, by with_unfolding_all rfl⟩
  obtain ⟨setup', plan', hmade'⟩ :
      ∃ setup' plan', Setup.ofDesign Session.furnished Session.narrow = .ok (setup', plan') :=
    ⟨_, _, by with_unfolding_all rfl⟩
  refine ⟨setup, plan, setup', plan', hmade, hmade', ?_⟩
  let _ := Transcendental.tangent
  obtain ⟨hmirrored, hok⟩ :=
    runs_disabled Session.furnished_agrees Session.narrow_agrees hmade hmade'
    (Stream.steady (1 / 2) (by norm_num) 0) 1
  obtain ⟨o, b, hrun⟩ := hok inferInstance
    (fun b hb => ⟨Session.turning_wellFormed b hb, Session.turning_varied b hb⟩)
    fun q _ hq => sub_ne_zero.mpr hq.ne
  rw [hrun] at hmirrored
  obtain ⟨o', b', hrun', ho, -⟩ := hmirrored.of_ok
  exact ⟨o, o', b, b', hrun, hrun', ho⟩

end BlockPlan
