import BlockPlan.Proofs.Annealer.Perturb
import BlockPlan.Proofs.Annealer.Plain
import BlockPlan.Proofs.Cost.Alike
import BlockPlan.Proofs.Cost.Plain
import BlockPlan.Proofs.Search.Mirror

/-!
# Plans that a search cannot tell apart

Two plans are alike when they agree on the terms of the cost that have a weight, whatever they hold
for the other ones, and when their layouts differ at most in preferences for the edge that no weight
asks for.  A search does the same with both, also if the weights have another unit.

* `Layout.Alike`, `Plan.Alike`, `Setup.Alike` — layouts, plans and setups that are alike.
* `enabled_mul`, `outlineDominates_mul` — what does not depend on the unit of the costs.
* **`perturb_mirrors`** — random moves of plans that are alike.
* `restore_mirrors`, `load_mirrors` — taking back and loading.
* **`space_mirrors`** — the plans of setups that are alike are search spaces that mirror each other.
-/

namespace BlockPlan

open Edit (Mirrors)

/-- Layouts that differ at most in which blocks prefer the edge, and in nothing if this counts. -/
def Layout.Alike (counts : Prop) (l l' : Layout Rat) : Prop :=
    l.plain = l'.plain ∧ (counts → l = l')

namespace Layout.Alike

variable {counts : Prop} {l l' : Layout Rat}

lemma snapshot_eq (h : Alike counts l l') : l'.snapshot = l.snapshot := by
  rw [← plain_snapshot l', ← h.1, plain_snapshot]

/-- A change that does not look at preferences. -/
lemma map (h : Alike counts l l') {g : Layout Rat → Layout Rat}
    (hg : ∀ k, (g k).plain = g k.plain) :
    Alike counts (g l) (g l') :=
  ⟨by rw [hg, hg, h.1], fun hc => congrArg g (h.2 hc)⟩

end Layout.Alike

/-! ## Plans -/

/-- The records of two moves that changed the same and keep values that agree
on the terms of `T`. -/
structure Move.Alike (T : Term → Prop) (m m' : Move Rat) : Prop where
  kind : m'.kind = m.kind
  changes : m'.changes = m.changes
  moved : m'.moved = m.moved
  raw : ∃ v v' : PerTerm Rat, m.raw = v.toList ∧ m'.raw = v'.toList ∧ v.AgreesOn T v'

/-- Two plans that agree on the terms of `T`. -/
structure Plan.Alike (T : Term → Prop) (p p' : Plan Rat) : Prop where
  layout : p.layout.Alike (T .boundary) p'.layout
  tally : p.tally.Alike T p'.tally
  lastMove : Option.Rel (Move.Alike T) p.lastMove p'.lastMove

/-- What is kept of two plans that agree on the terms of `T`. -/
structure Kept.Alike (T : Term → Prop) (k k' : Kept Rat) : Prop where
  layout : k'.layout = k.layout
  raw : k.raw.AgreesOn T k'.raw

/-- Two setups for blocks on the same outline, one of which has weights in another unit.  All terms
with a weight are among those of `T`, and layouts that are alike have the same values for these. -/
structure Setup.Alike (f : Rat) (T : Term → Prop) (setup setup' : Setup Rat) : Prop where
  fair : setup.Fair
  fair' : setup'.Fair
  table : setup'.table = setup.table
  schedule : setup'.schedule = setup.schedule.scaled f
  initial : setup'.initial = setup.initial
  width : setup'.design.outlineWidth = setup.design.outlineWidth
  outline : setup'.objective.outlineWidth = setup.objective.outlineWidth ∧
    setup'.objective.outlineHeight = setup.objective.outlineHeight
  weights : setup.objective.weights.Scaled f T setup'.objective.weights
  value : ∀ l l', Layout.Alike (T .boundary) l l' → ∀ t, T t →
    setup'.objective.value l' t = setup.objective.value l t

namespace Plan

variable {f : Rat} {T : Term → Prop} {setup setup' : Setup Rat} {ρ : Type}

/-- Plans that agree on all terms are the same. -/
lemma Alike.eq {p p' : Plan Rat} (h : Alike (fun _ => True) p p') : p' = p := by
  obtain ⟨⟨-, hlayout⟩, ⟨hraw, hnorm, -, -⟩, hlast⟩ := h
  obtain ⟨l, ⟨raw, norm⟩, lastMove⟩ := p
  obtain ⟨l', ⟨raw', norm'⟩, lastMove'⟩ := p'
  obtain rfl : l = l' := hlayout trivial
  obtain rfl : raw' = raw := PerTerm.ext_get fun t => hraw t trivial
  obtain rfl : norm' = norm := PerTerm.ext_get fun t => hnorm t trivial
  cases hlast with
  | none => rfl
  | @some m m' hm =>
      obtain ⟨kind, changes, moved, raw⟩ := m
      obtain ⟨kind', changes', moved', raw'⟩ := m'
      obtain ⟨⟨⟩, ⟨⟩, ⟨⟩, v, v', ⟨⟩, ⟨⟩, hv⟩ := hm
      rw [PerTerm.ext_get fun t => hv t trivial]

/-! ## Editing layouts and tallies -/

lemma onLayout_mirrors {β β' : Type} {S : β → β' → Prop} {x : Edit Rat (Layout Rat) β}
    {x' : Edit Rat (Layout Rat) β'} (h : Mirrors (Layout.Alike (T .boundary)) S x x') :
    Mirrors (Plan.Alike T) S (onLayout x) (onLayout x') :=
  h.within (fun _ _ hp => hp.layout) fun _ _ _ _ hl hp => ⟨hl, hp.tally, hp.lastMove⟩

lemma modifyTally_mirrors {g g' : Tally Rat → Tally Rat}
    (h : ∀ a a', Tally.Alike T a a' → Tally.Alike T (g a) (g' a')) :
    Mirrors (Plan.Alike T) Eq (modify fun p =>
      { p with tally := g p.tally } : Edit Rat (Plan Rat) PUnit)
      (modify fun p => { p with tally := g' p.tally } : Edit Rat (Plan Rat) PUnit) :=
  Mirrors.modify fun _ _ hp => ⟨hp.layout, h _ _ hp.tally, hp.lastMove⟩

lemma forget_mirrors : Mirrors (Plan.Alike T) Eq forget forget :=
  Mirrors.modify fun _ _ hp => ⟨hp.layout, hp.tally, .none⟩

/-! ## Costs in another unit -/

/-- Which terms have a weight does not depend on the unit. -/
lemma enabled_mul (hf : 0 < f) {t : Term}
    (h : setup'.objective.weights.get t = setup.objective.weights.get t * f) :
    setup'.objective.enabled t = setup.objective.enabled t := by
  rw [Objective.enabled, Objective.enabled, h, decide_eq_decide, mul_pos_iff_of_pos_right hf]

/-- Whether blocks that stick out make up most of the cost does not depend on the unit. -/
lemma outlineDominates_mul (hf : 0 < f) {p p' : Plan Rat}
    (henabled : setup'.objective.enabled .outline = setup.objective.enabled .outline)
    (h : setup.objective.enabled .outline = true → p'.tally.raw.outline = p.tally.raw.outline ∧
      p'.tally.costOfTerm setup'.objective.weights .outline
        = (p.tally.costOfTerm setup.objective.weights .outline).map (· * f) ∧
      p'.cost setup' = (p.cost setup).map (· * f)) :
    p'.outlineDominates setup' = p.outlineDominates setup := by
  rw [outlineDominates, outlineDominates, henabled]
  cases houtline : setup.objective.enabled .outline with
  | false => simp only [Bool.false_and, Bool.false_eq_true, if_false]
  | true =>
      obtain ⟨hraw, hterm, hcost⟩ := h houtline
      rw [hraw, hterm, hcost]
      cases p.tally.costOfTerm setup.objective.weights .outline with
      | error e => rfl
      | ok outline =>
          cases p.cost setup with
          | error e => rfl
          | ok total =>
              simp only [Except.map, bind, Except.bind, ← mul_assoc, mul_lt_mul_iff_left₀ hf]

section Setups

variable (h : setup.Alike f T setup') (hf : 0 < f)

include h

lemma cost_alike {p p' : Plan Rat} (hp : p.Alike T p') :
    p'.cost setup' = (p.cost setup).map (· * f) :=
  hp.tally.total h.weights

include hf

lemma enabled_alike (t : Term) : setup'.objective.enabled t = setup.objective.enabled t :=
  enabled_mul hf (h.weights.get t)

lemma evaluate_mirrors (everything : Bool) :
    Mirrors (Plan.Alike T) Eq (evaluate setup everything) (evaluate setup' everything) := by
  intro p p' hp
  rw [run_evaluate h.fair, run_evaluate h.fair']
  refine .ok rfl ⟨hp.layout,
    ⟨fun t ht => ?_, hp.tally.norm, hp.tally.norms, hp.tally.norms'⟩, hp.lastMove⟩
  simp only [Tally.measured, PerTerm.get_ofFn, enabled_alike h hf, h.value _ _ hp.layout t ht,
    hp.tally.raw t ht]

lemma outlineDominates_alike {p p' : Plan Rat} (hp : p.Alike T p') :
    p'.outlineDominates setup' = p.outlineDominates setup := by
  refine outlineDominates_mul hf (enabled_alike h hf _) fun henabled => ?_
  have hterm : T .outline := by
    by_contra hnot
    simp [Objective.enabled, h.weights.idle .outline hnot] at henabled
  exact ⟨hp.tally.raw .outline hterm, hp.tally.costOfTerm h.weights _, cost_alike h hp⟩

/-! ## Moves -/

variable [DrawSource ρ Rat]

/-- What is left of a random move when its kind is known and the raw values are kept. -/
def commit (setup : Setup Rat) (everything : Bool) (kept : PerTerm Rat) (kind : MoveKind) :
    Edit Rat (Drawn (Plan Rat) ρ) Unit := do
  let step ← Edit.within (fun t => ⟨t.state.layout, t.draws⟩)
    (fun c t => { t with state := { t.state with layout := c.state }, draws := c.draws })
    (Layout.makeMove setup.objective.outlineWidth setup.objective.outlineHeight kind)
  Edit.onState do
    let moved ← onLayout (Layout.repackFrom step.touched)
    evaluate setup everything
    modify fun q => { q with lastMove := some ⟨step.kind, step.changes, moved, kept.toList⟩ }

lemma commit_mirrors (everything : Bool) {v v' : PerTerm Rat} (hv : v.AgreesOn T v')
    (kind : MoveKind) :
    Mirrors (Drawn.Like (Plan.Alike T) : Drawn (Plan Rat) ρ → Drawn (Plan Rat) ρ → Prop) Eq
      (commit setup everything v kind) (commit setup' everything v' kind) := by
  rw [commit, commit, h.outline.1, h.outline.2]
  refine Mirrors.bind_eq ?_ fun step => Mirrors.onState ?_
  · refine ((Layout.makeMove_plain _ _ kind).of_image_drawn (T .boundary)).within ?_ ?_
    · exact fun _ _ ht => ⟨ht.1.layout, ht.2⟩
    · exact fun _ _ _ _ hl ht => ⟨⟨hl.1, ht.1.tally, ht.1.lastMove⟩, hl.2⟩
  · refine (onLayout_mirrors ((Layout.repackFrom_plain _).of_image _)).bind_eq fun moved => ?_
    refine (evaluate_mirrors h hf everything).bind_eq fun _ => Mirrors.modify fun q q' hq => ?_
    exact ⟨hq.layout, hq.tally, .some ⟨rfl, rfl, rfl, v, v', rfl, rfl, hv⟩⟩

/-- **A random move is the same for plans that are alike.** -/
theorem perturb_mirrors (everything : Bool) :
    Mirrors (Drawn.Like (Plan.Alike T) : Drawn (Plan Rat) ρ → Drawn (Plan Rat) ρ → Prop) Eq
      (perturb setup everything) (perturb setup' everything) := by
  refine Mirrors.drawUnit.bind_eq fun draw => Mirrors.get.bind fun t t' ht => ?_
  have hcommit : ∀ kind, Mirrors (Drawn.Like (Plan.Alike T)) Eq
      (commit setup everything t.state.tally.raw kind : Edit Rat (Drawn (Plan Rat) ρ) Unit)
      (commit setup' everything t'.state.tally.raw kind) :=
    commit_mirrors h hf everything ht.1.tally.raw
  simp only [h.table, outlineDominates_alike h hf ht.1]
  refine Mirrors.ite Iff.rfl (fun _ => ?_) fun _ => hcommit _
  refine (Mirrors.ofExcept _).bind_eq fun dominates => ?_
  exact Mirrors.ite Iff.rfl (fun _ => hcommit _) fun _ => hcommit _

end Setups

/-! ## Taking back and loading -/

lemma restore_mirrors : Mirrors (Plan.Alike T) Eq restore restore := by
  refine Mirrors.get.bind fun p p' hp => ?_
  have hlast := hp.lastMove
  generalize p.lastMove = last at hlast
  generalize p'.lastMove = last' at hlast
  cases hlast with
  | none => exact Mirrors.pure rfl
  | @some m m' hm =>
      obtain ⟨v, v', hraw, hraw', hv⟩ := hm.raw
      simp only [hm.changes, hm.moved, hraw, hraw']
      refine (onLayout_mirrors ((Layout.revert_plain _).of_image _)).bind_eq fun _ => ?_
      refine (onLayout_mirrors (Mirrors.modify fun l l' hl => ?_)).bind_eq fun _ => ?_
      · exact hl.map fun k => (k.plain_restore _).symm
      · exact (modifyTally_mirrors fun _ _ ha => ha.load hv).bind_eq fun _ => forget_mirrors

lemma load_mirrors {k k' : Kept Rat} (hk : k.Alike T k') :
    Mirrors (Plan.Alike T) Eq (load k) (load k') := by
  rw [load, load, hk.layout]
  refine (onLayout_mirrors ((Layout.load_plain _ _).of_image _)).bind_eq fun _ => ?_
  refine Mirrors.bind_eq (Mirrors.modify fun p p' hp => ?_) fun _ => forget_mirrors
  exact ⟨hp.layout, ⟨hk.raw, hp.tally.norm, hp.tally.norms, hp.tally.norms'⟩, hp.lastMove⟩

/-- **The plans of setups that are alike are search spaces that mirror each other.** -/
theorem space_mirrors [DrawSource ρ Rat] (h : setup.Alike f T setup') (hf : 0 < f) :
    (space setup : SearchSpace Rat (Plan Rat) ρ (Kept Rat)).Mirrors f (Plan.Alike T) (Kept.Alike T)
      (space setup') where
  perturb := perturb_mirrors h hf false
  restore := restore_mirrors
  cost := fun _ _ hp => cost_alike h hp
  keep := fun _ _ hp => ⟨hp.layout.snapshot_eq, hp.tally.raw⟩
  load := fun _ _ hk => load_mirrors hk

end Plan

end BlockPlan
