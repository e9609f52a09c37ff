import BlockPlan.Proofs.Annealer.Coherence
import BlockPlan.Proofs.Annealer.Tasks

/-!
# What calibration leaves behind

Calibration walks through random moves of all kinds and takes none of them back.  It then loads the
layout that the walk began with, and packing has put every block of that layout in its place.  So
what was drawn, and where the blocks stood at first, is seen afterwards in the norms and the
temperature alone.

Calibration breaks off when a move of the walk is stuck, which takes a block that repeats an
orientation.  The plan then stays where the walk has led it.

* `Block.atOrigin`, **`Layout.pack_congr`** — where blocks stand makes no difference to packing
  them.
* `Setup.firstPair`, `Setup.firstPacking` — the initial sequences, and the packing of the blocks in
  them.
* **`Setup.ofDesign_atOrigin`** — where blocks stand makes no difference to what is made of a
  design.
* **`calibrate_firstPacking`** — calibration goes back to the first packing, whatever has been
  drawn.
-/

namespace BlockPlan

variable {ρ : Type}

/-! ## Where blocks stand -/

/-- The block in the corner of the outline. -/
def Block.atOrigin (b : Block Rat) : Block Rat := b.place 0 0

/-- What does not depend on where a block stands is the same for blocks that stand elsewhere. -/
lemma Block.map_congr_atOrigin {β : Type} {f : Block Rat → β}
    (hf : ∀ b : Block Rat, f b.atOrigin = f b) {blocks blocks' : List (Block Rat)}
    (hsame : blocks'.map Block.atOrigin = blocks.map Block.atOrigin) :
    blocks'.map f = blocks.map f := by
  have hcomp : f ∘ Block.atOrigin = f := funext hf
  have hmap := congrArg (List.map f) hsame
  rwa [List.map_map, List.map_map, hcomp] at hmap

/-- Each of them is a block of the others, moved. -/
lemma Block.exists_mem_of_atOrigin {blocks blocks' : List (Block Rat)}
    (hsame : blocks'.map Block.atOrigin = blocks.map Block.atOrigin) {b : Block Rat}
    (hb : b ∈ blocks') : ∃ c ∈ blocks, c.place b.x b.y = b := by
  have hmem : b.atOrigin ∈ blocks'.map Block.atOrigin := List.mem_map_of_mem hb
  rw [hsame] at hmem
  obtain ⟨c, hc, hcb⟩ := List.mem_map.mp hmem
  have hplaced := congrArg (Block.place b.x b.y) hcb
  exact ⟨c, hc, hplaced⟩

namespace Layout

variable {l l' : Layout Rat}

lemma arrange_congr_atOrigin (hpair : l'.pair = l.pair)
    (hsame : l'.blocks.map Block.atOrigin = l.blocks.map Block.atOrigin) (f : Nat → Rat × Rat) :
    l'.arrange f = l.arrange f := by
  have hblocks : (l'.arrange f).blocks = (l.arrange f).blocks := by
    refine List.ext_getElem? fun i => ?_
    have hplaced : ∀ m : Layout Rat, (m.arrange f).blocks[i]?
        = ((m.blocks.map Block.atOrigin)[i]?).map fun b => b.place (f i).1 (f i).2 := fun m => by
      rw [getElem?_arrange, List.getElem?_map, Option.map_map]
      rfl
    rw [hplaced, hplaced, hsame]
  calc l'.arrange f = ⟨(l'.arrange f).blocks, l'.pair⟩ := rfl
    _ = ⟨(l.arrange f).blocks, l.pair⟩ := by rw [hblocks, hpair]

/-- **Blocks in the same sequences are packed alike, wherever they stand.** -/
theorem pack_congr (h : l.Coherent) (hpair : l'.pair = l.pair)
    (hsame : l'.blocks.map Block.atOrigin = l.blocks.map Block.atOrigin) : l'.pack = l.pack := by
  have hlength := congrArg List.length hsame
  rw [List.length_map, List.length_map] at hlength
  have h' : l'.Coherent := by
    rw [Layout.Coherent, hpair, size, hlength]
    exact h
  rw [← pack_arrange h' fun _ => (0, 0), arrange_congr_atOrigin hpair hsame, pack_arrange h]

end Layout

/-! ## What is made of a design -/

namespace Setup

/-- The initial sequences of a setup, or else the shelves. -/
def firstPair (setup : Setup Rat) : SequencePair :=
  match setup.initial with
  | some (positive, negative) =>
    .ofSequences setup.design.blocks.length (positive.map Int.toNat) (negative.map Int.toNat)
  | none =>
    let (positive, negative) := Shelf.sequences setup.design.outlineWidth setup.design.blocks
    .ofSequences setup.design.blocks.length positive negative

/-- The packing of the blocks of a setup in its initial sequences. -/
def firstPacking (setup : Setup Rat) : Layout Rat :=
  (⟨setup.design.blocks, setup.firstPair⟩ : Layout Rat).pack

variable {d : Design Rat} {settings : Settings Rat} {setup : Setup Rat} {plan : Plan Rat}
  {blocks' : List (Block Rat)} (hsame : blocks'.map Block.atOrigin = d.blocks.map Block.atOrigin)

lemma firstPair_coherent (hsetup : setup.Fair) :
    setup.firstPair.Coherent setup.design.blocks.length := by
  rw [firstPair]
  split
  · rename_i positive negative hinitial
    obtain ⟨q, hq⟩ := hsetup.initial _ hinitial
    obtain ⟨⟨hpositive, hnegative⟩, -⟩ := SequencePair.ofPermutations_ok_iff.mp hq
    exact SequencePair.coherent_ofSequences (SequencePair.toNat_perm hpositive)
      (SequencePair.toNat_perm hnegative)
  · obtain ⟨hpositive, hnegative⟩ :=
      Shelf.sequences_perm setup.design.outlineWidth setup.design.blocks
    exact SequencePair.coherent_ofSequences hpositive hnegative

include hsame

lemma validate_atOrigin : Design.validate { d with blocks := blocks' } = d.validate := by
  have hnames : Design.blockNames { d with blocks := blocks' } = d.blockNames :=
    Block.map_congr_atOrigin (fun _ => rfl) hsame
  simp only [Design.validate, Design.unknownMember?, Design.isKnown, hnames]

lemma resolve_atOrigin (regions : List (String × Rect Rat)) :
    Objective.resolve blocks' regions = Objective.resolve d.blocks regions := by
  have hresolve := Objective.resolve_map (f := Block.atOrigin) (fun _ => rfl)
  rw [← hresolve blocks', hsame, hresolve]

/-- **Where the blocks of a design stand makes no difference to the setup**, apart from the blocks
themselves. -/
theorem ofDesign_atOrigin (h : ofDesign d settings = .ok (setup, plan)) :
    ∃ plan', ofDesign { d with blocks := blocks' } settings
      = .ok ({ setup with design := { d with blocks := blocks' } }, plan') := by
  obtain ⟨hschedule, hweights, htable, hdesign, hseed, hobjective, hlayout, hsetup, hplan⟩ :=
    ofDesign_iff.mp h
  have hlength := congrArg List.length hsame
  rw [List.length_map, List.length_map] at hlength
  obtain ⟨l, hl⟩ : ∃ l, Layout.opening blocks' settings.initial = .ok l := by
    cases hinitial : settings.initial with
    | none => exact ⟨_, rfl⟩
    | some sequences =>
        obtain ⟨-, -, haccepted⟩ := Layout.opening_eq_ok hlayout
        obtain ⟨q, hq⟩ := haccepted _ hinitial
        rw [← hlength] at hq
        exact ⟨_, bind_eq_ok.mpr ⟨q, hq, rfl⟩⟩
  refine ⟨⟨l, Tally.initial, none⟩, ofDesign_iff.mpr ⟨hschedule, hweights, htable,
    (validate_atOrigin hsame).trans hdesign, hseed, ?_, hl, ?_, rfl⟩⟩
  · rw [← hobjective]
    simp only [Objective.ofDesign, resolve_atOrigin hsame]
  · rw [hsetup]

/-- Where the blocks of a design stand makes no difference to their first packing. -/
lemma firstPacking_atOrigin (h : ofDesign d settings = .ok (setup, plan)) :
    firstPacking { setup with design := { d with blocks := blocks' } } = setup.firstPacking := by
  have hdesign := ofDesign_design h
  have hlength := congrArg List.length hsame
  rw [List.length_map, List.length_map] at hlength
  have hshelves : Shelf.sequences d.outlineWidth blocks'
      = Shelf.sequences d.outlineWidth d.blocks := by
    have hmap :=
      Shelf.sequences_map d.outlineWidth (f := Block.atOrigin) (fun _ => rfl) fun _ => rfl
    rw [← hmap blocks', hsame, hmap]
  refine Layout.pack_congr ?_ ?_ ?_
  · exact firstPair_coherent (ofDesign_fair h)
  · show firstPair _ = setup.firstPair
    rw [firstPair, firstPair, hdesign, hlength, hshelves]
  · show blocks'.map Block.atOrigin = setup.design.blocks.map Block.atOrigin
    rw [hsame, hdesign]

end Setup

/-! ## Calibrating -/

namespace Annealer

variable {setup : Setup Rat}

/-- The blocks of a setup are put into its initial sequences, whatever the sequences were before. -/
lemma installInitial_firstPair (hsetup : setup.Fair) :
    Edit.Leads (fun l : Layout Rat => l.blocks = setup.design.blocks) (installInitial setup)
      (fun _ l => l = ⟨setup.design.blocks, setup.firstPair⟩) (fun _ => False) := by
  refine Edit.Leads.of_ok fun l hl => ⟨(), ⟨setup.design.blocks, setup.firstPair⟩, ?_, rfl⟩
  have hsize : l.size = setup.design.blocks.length := congrArg List.length hl
  rw [installInitial, Setup.firstPair]
  cases hinitial : setup.initial with
  | some sequences =>
      obtain ⟨q, hq⟩ := hsetup.initial _ hinitial
      obtain ⟨haccepted, -⟩ := SequencePair.ofPermutations_ok_iff.mp hq
      refine Layout.run_setSequences_ok_iff.mpr ⟨?_, hl.symm⟩
      rw [hsize]
      exact SequencePair.ofPermutations_ok_iff.mpr ⟨haccepted, rfl⟩
  | none =>
      have hshelves := Shelf.sequences_perm setup.design.outlineWidth setup.design.blocks
      rw [EStateM.run_bind, EStateM.run_get]
      dsimp only
      rw [hl]
      refine Layout.run_setSequences_ok_iff.mpr ⟨?_, hl.symm⟩
      rw [hsize]
      exact SequencePair.ofPermutations_natCast hshelves.1 hshelves.2

/-- An edit of a run leaves the course of the last search as it is. -/
lemma onRun_trace {β : Type} (edit : Edit Rat (Run Rat (Plan Rat) ρ) β) (x : Option (Trace Rat)) :
    Edit.Leads (fun a : Annealer Rat ρ => a.trace = x) (onRun edit) (fun _ a => a.trace = x)
      (fun a => a.trace = x) := by
  intro a ha
  simp only [onRun, Edit.run_within]
  cases edit.run a.run <;> exact ha

section Draws

variable [DrawSource ρ Rat] [Transcendental Rat]

/-- Calibration is no search. -/
lemma calibrate_trace (setup : Setup Rat) (x : Option (Trace Rat)) :
    Edit.Leads (fun a : Annealer Rat ρ => a.trace = x) (calibrate setup) (fun _ a => a.trace = x)
      (fun a => a.trace = x) := by
  have hget : Edit.Leads (fun a : Annealer Rat ρ => a.trace = x) (get : Edit Rat (Annealer Rat ρ) _)
      (fun _ a => a.trace = x) (fun a => a.trace = x) := fun _ ha => ha
  have hexcept : ∀ {β : Type} (r : Except (Fault Rat) β),
      Edit.Leads (fun a : Annealer Rat ρ => a.trace = x) (Edit.ofExcept r) (fun _ a => a.trace = x)
        (fun a => a.trace = x) := fun _ => Edit.Leads.ofExcept (fun _ _ _ h => h) fun _ _ _ h => h
  have honPlan : ∀ {β : Type} (edit : Edit Rat (Plan Rat) β),
      Edit.Leads (fun a : Annealer Rat ρ => a.trace = x) (onPlan edit) (fun _ a => a.trace = x)
        (fun a => a.trace = x) := fun _ => onRun_trace _ x
  -- opening, walking, norms and temperature
  refine Edit.Leads.bind (honPlan _) fun _ => ?_
  refine Edit.Leads.bind (honPlan _) fun _ => ?_
  refine Edit.Leads.bind hget fun _ => ?_
  refine Edit.Leads.bind (honPlan _) fun _ => ?_
  refine Edit.Leads.bind (onRun_trace _ x) fun _ => ?_
  refine Edit.Leads.bind (honPlan _) fun _ => ?_
  refine Edit.Leads.bind hget fun _ => ?_
  refine Edit.Leads.bind (hexcept _) fun _ => ?_
  refine Edit.Leads.bind (hexcept _) fun _ => ?_
  refine Edit.Leads.bind (Edit.Leads.modify (Q := fun _ a => a.trace = x) fun _ h => h) fun _ => ?_
  -- going back, and the journal
  refine Edit.Leads.bind (honPlan _) fun _ => ?_
  refine Edit.Leads.bind (honPlan _) fun _ => ?_
  refine Edit.Leads.bind (honPlan _) fun _ => ?_
  refine Edit.Leads.bind (Edit.Leads.forM fun _ _ => onRun_trace _ x) fun _ => ?_
  refine Edit.Leads.bind hget fun _ => ?_
  exact Edit.Leads.bind (hexcept _) fun _ => onRun_trace _ x

variable [LawfulDraws ρ Rat]

/-- Calibrating the plan that was made with a setup goes back to the first packing. -/
lemma calibrate_opens_firstPacking {d : Design Rat} {settings : Settings Rat} {plan : Plan Rat}
    (hmade : Setup.ofDesign d settings = .ok (setup, plan)) (hblocks : ∀ b ∈ d.blocks, b.ShowsShape)
    (hlog : ∀ q : Rat, 0 < q → q < 1 → Transcendental.log q ≠ 0) (draws : ρ) :
    match (calibrate setup).run (start plan draws) with
    | .ok () a => a.plan.layout = setup.firstPacking ∧
        (∀ t, setup.objective.measure setup.firstPacking t = .ok (a.plan.tally.raw.get t)) ∧
        a.plan.lastMove = none ∧ a.temperature.isSome
    | .error e _ => e = .emptyDrawRange ∧ ∃ b ∈ d.blocks, b.Repeats := by
  have hsetup := Setup.ofDesign_fair hmade
  have hdesign := Setup.ofDesign_design hmade
  have hsound := Setup.ofDesign_sound hmade hblocks
  have hsize := Setup.ofDesign_size hmade
  have hstart := fun costs =>
    startTemperature_eq_ok hlog hsetup.acceptance_pos costs setup.schedule.floor
  have hkind := calibrates_sound (ρ := ρ) (B := True) hsetup hsize fun _ _ _ _ => trivial
  have hopens : Edit.Leads
      (fun p => p.Sound (d.blocks.map Block.makeup) ∧ p.layout.blocks = setup.design.blocks)
      (Plan.onLayout (installInitial setup))
      (fun _ p => p.Sound (d.blocks.map Block.makeup) ∧ p.layout.pack = setup.firstPacking)
      (fun _ => False) := by
    have hpair : Edit.Leads (fun p : Plan Rat => p.layout.blocks = setup.design.blocks)
        (Plan.onLayout (installInitial setup))
        (fun _ p => p.layout = ⟨setup.design.blocks, setup.firstPair⟩) (fun _ => False) :=
      (installInitial_firstPair hsetup).within fun _ _ => rfl
    refine ((hkind.install.weaken fun p hp => hp.1).and (hpair.weaken fun p hp => hp.2)).mono
      (fun _ hp => hp) (fun _ p hp => ⟨hp.1, ?_⟩) fun _ hp => hp.1
    rw [hp.2, Setup.firstPacking]
  obtain ⟨-, -, -, -, -, -, -, hgiven, -, -, hlast⟩ := Setup.ofDesign_eq_ok hmade
  have hleads := calibrate_opens hsetup hkind (fun _ _ _ => trivial) (fun _ => True)
    (S := fun p => p.layout.blocks = setup.design.blocks)
    (O := fun l => l = setup.firstPacking) hopens
    (start plan draws) ⟨⟨hsound, hgiven.trans (congrArg Design.blocks hdesign.symm)⟩, trivial⟩
  have hfails := calibrate_keyed_failsOnly (ρ := ρ) hsetup hsize
    (fun p r hp => hp.repeats_of_stuck) hstart (start plan draws) (hsound.keyed hlast)
  cases hrun : (calibrate setup).run (start plan draws) with
  | ok u a =>
      rw [hrun] at hleads
      obtain ⟨⟨o, hkept, -, ho, hopened⟩, hsome⟩ := hleads
      -- the blocks of a sound layout are in shape
      have hlayout : a.plan.layout = setup.firstPacking := by
        rw [hopened.layout, hkept.layout.inShape, ho]
      refine ⟨hlayout, fun t => ?_, hopened.lastMove, hsome⟩
      rw [hopened.measured t, hlayout, Objective.measure_eq_ok hsetup.area_ne]
  | error e a => exact hfails e a hrun

/-- **Calibration goes back to the first packing, whatever has been drawn and wherever the blocks of
the design stood.**  The layout is the packing of the initial sequences, every raw value is that of
this layout, and there is neither a last move nor the course of a search; the walk is seen in the
norms, the temperature and the journal alone.  Calibration fails in one way: a move of the walk
would turn a block that lists one orientation several times and no other. -/
theorem calibrate_firstPacking {d : Design Rat} {settings : Settings Rat} {plan : Plan Rat}
    (hmade : Setup.ofDesign d settings = .ok (setup, plan)) (hblocks : ∀ b ∈ d.blocks, b.WellFormed)
    (hlog : ∀ q : Rat, 0 < q → q < 1 → Transcendental.log q ≠ 0) {blocks' : List (Block Rat)}
    (hsame : blocks'.map Block.atOrigin = d.blocks.map Block.atOrigin) (draws : ρ) :
    ∃ setup' plan', Setup.ofDesign { d with blocks := blocks' } settings = .ok (setup', plan') ∧
      (∀ a : Annealer Rat ρ, (calibrate setup').run (start plan' draws) = .ok () a →
        a.plan.layout = setup.firstPacking ∧
        (∀ t, setup.objective.measure setup.firstPacking t = .ok (a.plan.tally.raw.get t)) ∧
        a.plan.lastMove = none ∧ a.trace = none ∧ a.temperature.isSome) ∧
      ∀ e (a : Annealer Rat ρ), (calibrate setup').run (start plan' draws) = .error e a →
        e = .emptyDrawRange ∧ ∃ b ∈ d.blocks, b.Repeats := by
  obtain ⟨plan', hmade'⟩ := Setup.ofDesign_atOrigin hsame hmade
  have hfirst := Setup.firstPacking_atOrigin hsame hmade
  have hshows : ∀ b ∈ blocks', b.ShowsShape := by
    intro b hb
    obtain ⟨c, hc, hcb⟩ := Block.exists_mem_of_atOrigin hsame hb
    rw [← hcb]
    exact Block.showsShape_place.mpr (hblocks c hc).showsShape
  have hcalibrate := calibrate_opens_firstPacking hmade' hshows hlog draws
  have htrace := calibrate_trace { setup with design := { d with blocks := blocks' } } none
    (start plan' draws) rfl
  rw [hfirst] at hcalibrate
  refine ⟨_, plan', hmade', ?_, ?_⟩
  · intro a ha
    rw [ha] at hcalibrate htrace
    obtain ⟨hlayout, hmeasured, hlast, hsome⟩ := hcalibrate
    exact ⟨hlayout, hmeasured, hlast, htrace, hsome⟩
  · intro e a ha
    rw [ha] at hcalibrate
    obtain ⟨he, b, hb, hrepeats⟩ := hcalibrate
    obtain ⟨c, hc, hcb⟩ := Block.exists_mem_of_atOrigin hsame hb
    rw [← hcb] at hrepeats
    exact ⟨he, c, hc, hrepeats⟩

end Draws

/-- A block that can be turned and one with two candidates, both of them away from the corner. -/
theorem calibrate_firstPacking_turning :
    ∃ setup plan, Setup.ofDesign Session.turning Session.mixed = .ok (setup, plan) ∧
      let _ := Transcendental.tangent
      let blocks' := Session.turning.blocks.map (Block.place 7 1)
      ∃ setup' plan', Setup.ofDesign { Session.turning with blocks := blocks' } Session.mixed
          = .ok (setup', plan') ∧
        ∃ a : Annealer Rat Stream, (calibrate setup').run
            (start plan' (Stream.steady (1 / 2) (by norm_num) 0)) = .ok () a ∧
          a.plan.layout = setup.firstPacking := by
  obtain ⟨setup, plan, hmade⟩ :
      ∃ setup plan, Setup.ofDesign Session.turning Session.mixed = .ok (setup, plan) :=
    ⟨_, _, by with_unfolding_all rfl⟩
  refine ⟨setup, plan, hmade, ?_⟩
  let _ := Transcendental.tangent
  obtain ⟨setup', plan', hmade', hok, herror⟩ :=
    calibrate_firstPacking hmade Session.turning_wellFormed
    (fun q _ hq => sub_ne_zero.mpr hq.ne)
    (show (Session.turning.blocks.map (Block.place 7 1)).map Block.atOrigin = _ from rfl)
    (Stream.steady (1 / 2) (by norm_num) 0)
  refine ⟨setup', plan', hmade', ?_⟩
  cases hrun : (calibrate setup').run (start plan' (Stream.steady (1 / 2) (by norm_num) 0)) with
  | ok u a => exact ⟨a, rfl, (hok a hrun).1⟩
  | error e a =>
      -- none of the blocks repeats an orientation
      obtain ⟨-, b, hb, hrepeats⟩ := herror e a hrun
      rw [Session.turning, List.mem_cons, List.mem_singleton] at hb
      rcases hb with rfl | rfl
      · exact absurd (hrepeats.2 .r0 (by decide) .r90 (by decide)) (by decide)
      · exact hrepeats.elim

end Annealer

end BlockPlan
