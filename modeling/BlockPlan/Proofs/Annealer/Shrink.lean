import BlockPlan.Proofs.Annealer.Tasks
import BlockPlan.Proofs.Block.Shrink

/-!
# Moves that shrink a block

When blocks that stick out of the outline make most of the cost, a draw that picks resizing shrinks
a soft block instead, one that sticks out if there is any.  The axis is the one on which the block
sticks out more. If the block has a smaller candidate along that axis, it takes the next smaller
one.  If it has none, it takes the next smaller one along the other axis, and the move is still
recorded as one that shrinks; only if there is none along either axis the block is resized, and
recorded as that.

* `Layout.exists_soft_of_mem_choosable` — a soft block that has a choice has a candidate in force.
* `Plan.Shrunk`, **`Plan.run_perturb_shrunk`** — what such a move makes of a plan.
* **`Annealer.perturb_shrinks`** — the same of every plan that an annealer reaches.
* `Annealer.perturb_widens_tooWide` — a block that is shrunk along the axis on which it does not
  stick out, and becomes wider, where it does.
-/

namespace BlockPlan

open Block (sideAlong)

variable {ρ : Type}

/-- A soft block that has a choice has several candidates, one of which is in force. -/
lemma Layout.exists_soft_of_mem_choosable {l : Layout Rat} {i : Nat} {b : Block Rat}
    (hi : i ∈ l.choosable false) (hb : l.blocks[i]? = some b) (hlists : b.Lists b.shapeKey) :
    ∃ candidates index current, b.form = .soft candidates index ∧ 0 ≤ index ∧
      candidates[index.toNat]? = some current ∧ 2 ≤ candidates.length := by
  obtain ⟨⟨c, k⟩, hmem, rfl⟩ := List.mem_map.mp hi
  obtain ⟨hc, hchoice⟩ := List.mem_filter.mp hmem
  obtain rfl : c = b := Option.some.inj ((List.mem_zipIdx_iff_getElem?.mp hc).symm.trans hb)
  rw [Bool.and_eq_true, beq_iff_eq, decide_eq_true_eq] at hchoice
  cases hform : c.form with
  | hard w h allowed o =>
      rw [Block.isHard, hform] at hchoice
      cases hchoice.1
  | soft candidates index =>
      rw [Block.shapeCount, hform] at hchoice
      obtain ⟨hindex, hlt⟩ := (Block.lists_candidate hform).mp (show c.Lists (.candidate index) by
        rwa [Block.shapeKey, hform] at hlists)
      exact ⟨candidates, index, _, rfl, hindex, List.getElem?_eq_getElem hlt, hchoice.2⟩

namespace Plan

variable {setup : Setup Rat} {known : Layout.Makeups Rat} {p q : Plan Rat}

/-- What a move that shrinks a block has made of a plan: which block was drawn, which candidate it
had and which one it has taken, along which axis, and what is recorded. -/
structure Shrunk (setup : Setup Rat) (p q : Plan Rat) (i : Nat) (b c : Block Rat)
    (candidates : List (Rat × Rat)) (index : Int) (current : Rat × Rat) (horizontal : Bool)
    (m : Move Rat) : Prop where
  drawn : i ∈ p.layout.shrinkPool setup.objective.outlineWidth setup.objective.outlineHeight
  axis : horizontal
    = p.layout.sticksOutRight setup.objective.outlineWidth setup.objective.outlineHeight i
  before : p.layout.blocks[i]? = some b
  form : b.form = .soft candidates index
  inForce : candidates[index.toNat]? = some current
  shrinks : Shrinks horizontal candidates index current b c m.kind
  after : ∃ x y, q.layout.blocks[i]? = some (c.place x y)
  record : q.lastMove = some m
  changes : m.changes = { shapes := [(i, b.shapeKey)] }

/-- A move is recorded as one that shrinks, and makes the block smaller along the axis on which it
sticks out more, exactly if the block has a smaller candidate along that axis. -/
lemma Shrunk.smaller_iff {i : Nat} {b c : Block Rat} {candidates : List (Rat × Rat)} {index : Int}
    {current : Rat × Rat} {horizontal : Bool} {m : Move Rat}
    (h : Shrunk setup p q i b c candidates index current horizontal m) :
    (m.kind = .shrink ∧ sideAlong horizontal (c.width, c.height) < sideAlong horizontal current) ↔
      ∃ e ∈ candidates, sideAlong horizontal e < sideAlong horizontal current :=
  h.shrinks.smaller_iff

/-- **A draw that picks resizing shrinks a block when blocks that stick out make
most of the cost.** -/
theorem run_perturb_shrunk [DrawSource ρ Rat] [LawfulDraws ρ Rat] (hsetup : setup.Fair)
    (h : p.Keyed known) (everything : Bool) {r : ρ}
    (hresize : setup.table.pick (DrawSource.unit r).1 = .resize)
    (hdominates : p.outlineDominates setup = .ok true) (hsoft : p.layout.choosable false ≠ []) :
    ∃ q r' i b c candidates index current horizontal m,
      (perturb setup everything).run ⟨p, r⟩ = .ok () ⟨q, r'⟩ ∧
        Shrunk setup p q i b c candidates index current horizontal m := by
  have hpool : (p.layout.choosable false).isEmpty = false := List.isEmpty_eq_false_iff.mpr hsoft
  obtain ⟨i, b, r₁, hi, hb, hshrink⟩ := Layout.run_shrink hpool setup.objective.outlineWidth
    setup.objective.outlineHeight (DrawSource.unit r).2
  obtain ⟨candidates, index, current, hform, hindex, hcurrent, hlength⟩ :=
    Layout.exists_soft_of_mem_choosable (Layout.shrinkPool_sub _ _ p.layout i hi) hb
      (h.layout.getElem?_lists hb)
  obtain ⟨kind, c, r₂, hrun, hshrinks⟩ :=
    Layout.run_shrinkBlock_shrinks hform hindex hcurrent hlength
    (p.layout.sticksOutRight setup.objective.outlineWidth setup.objective.outlineHeight i) r₁
  have heffect := Layout.Effect.reshape h.layout hb (Or.inr hshrinks.reshaped)
  have hmake :
      (Layout.makeMove setup.objective.outlineWidth setup.objective.outlineHeight .shrink).run
      ⟨p.layout, (DrawSource.unit r).2⟩ = .ok _ ⟨_, r₂⟩ := hshrink hrun
  obtain ⟨moved, points, hmove, -⟩ := run_move_eq hsetup everything hmake h.layout heffect
  refine ⟨_, r₂, i, b, c, candidates, index, current, _, _,
    (run_perturb_shrink hresize hdominates everything).trans hmove,
    ⟨hi, rfl, hb, hform, hcurrent, hshrinks, ⟨(points i).1, (points i).2, ?_⟩, rfl, rfl⟩⟩
  rw [Layout.getElem?_arrange, List.getElem?_set_self (List.getElem?_eq_some_iff.mp hb).1,
    Option.map_some]

end Plan

namespace Annealer

open Plan (Shrunk)

/-- **Whatever an annealer has done, a draw that picks resizing shrinks a soft block when blocks
that stick out make most of the cost.**  The block takes the next smaller candidate along the axis
on which it sticks out more, or along the other axis if there is none, or any other candidate if
there is none either.  So the move is recorded as one that shrinks, and makes the block smaller
along the first axis, exactly if the block has a smaller candidate along that axis. -/
theorem perturb_shrinks [DrawSource ρ Rat] [LawfulDraws ρ Rat] [Transcendental Rat] {d : Design Rat}
    {settings : Settings Rat} {setup : Setup Rat} {plan p : Plan Rat}
    (hmade : Setup.ofDesign d settings = .ok (setup, plan))
    (hblocks : ∀ b ∈ d.blocks, b.Lists b.shapeKey) (draws : ρ) (tasks : List Task)
    (hp : p = ((start plan draws).afterTasks setup tasks).plan) (everything : Bool) (r : ρ)
    (hresize : setup.table.pick (DrawSource.unit r).1 = .resize)
    (hdominates : p.outlineDominates setup = .ok true) (hsoft : p.layout.choosable false ≠ []) :
    ∃ q r' i b c candidates index current horizontal m,
      (Plan.perturb setup everything).run ⟨p, r⟩ = .ok () ⟨q, r'⟩ ∧
        Shrunk setup p q i b c candidates index current horizontal m ∧
        ((m.kind = .shrink ∧ sideAlong horizontal (c.width, c.height)
            < sideAlong horizontal current) ↔
          ∃ e ∈ candidates, sideAlong horizontal e < sideAlong horizontal current) := by
  have hkeyed : p.Keyed (d.blocks.map Block.makeup) := by
    rw [hp]
    exact afterTasks_keyed hmade hblocks draws tasks
  obtain ⟨q, r', i, b, c, candidates, index, current, horizontal, m, hrun, hshrunk⟩ :=
    Plan.run_perturb_shrunk (Setup.ofDesign_fair hmade) hkeyed everything hresize hdominates hsoft
  exact ⟨q, r', i, b, c, candidates, index, current, horizontal, m, hrun, hshrunk,
    hshrunk.smaller_iff⟩

/-! ## A block that becomes wider -/

/-- A block that is too wide for the outline with either of its candidates. -/
def tooWide : Design Rat where
  outlineWidth := 8
  outlineHeight := 100
  blocks := [⟨"s", .soft [(20, 20), (10, 40)] 0, 0, 0, 20, 20, false⟩]

/-- The same block with the narrower one of its candidates. -/
def narrowed : Block Rat := ⟨"s", .soft [(20, 20), (10, 40)] 1, 0, 0, 10, 40, false⟩

/-- What sticks out of the outline makes all of the cost, and every move resizes. -/
def resizing : Settings Rat where
  weights := { PerTerm.const 0 with outline := 1 }
  shares := ⟨0, 0, 0, 0, 1⟩

/-- Draws of no consequence, since there is one block and one other candidate. -/
def still : Stream := Stream.steady 0 (by norm_num) 0

lemma tooWide_lists : ∀ b ∈ tooWide.blocks, b.Lists b.shapeKey := by
  intro b hb
  rw [List.mem_singleton.mp hb]
  exact ⟨by decide, by decide⟩

/-- The first move makes the block as narrow as it can be, and it still sticks out to the right. -/
lemma tooWide_narrowed :
    ∃ setup plan, Setup.ofDesign tooWide resizing = .ok (setup, plan) ∧
      let _ := Transcendental.tangent
      ∃ p : Plan Rat, p = ((start plan still).afterTasks setup [.perturb]).plan ∧
        setup.table.pick (DrawSource.unit still).1 = .resize ∧ p.outlineDominates setup = .ok true ∧
        p.layout.blocks = [narrowed] ∧ setup.objective.outlineWidth = 8 ∧
        setup.objective.outlineHeight = 100 :=
  ⟨_, _, by with_unfolding_all rfl, _, rfl,
    by decide +kernel, by decide +kernel, by decide +kernel, rfl, rfl⟩

/-- A plan of the narrowed block alone has one to draw, which sticks out to the right only. -/
lemma choosable_narrowed {p : Plan Rat} (hblocks : p.layout.blocks = [narrowed]) :
    p.layout.choosable false = [0] ∧ p.layout.overflowOf 8 100 0 = (2, 0) := by
  rw [Layout.choosable, Layout.overflowOf, hblocks]
  exact ⟨by decide +kernel, by decide +kernel⟩

theorem perturb_shrinks_tooWide :
    ∃ setup plan, Setup.ofDesign tooWide resizing = .ok (setup, plan) ∧
      let _ := Transcendental.tangent
      ∃ p q r' i b c candidates index current horizontal m,
        p = ((start plan still).afterTasks setup [.perturb]).plan ∧
        (Plan.perturb setup false).run ⟨p, still⟩ = .ok () ⟨q, r'⟩ ∧
        Shrunk setup p q i b c candidates index current horizontal m := by
  obtain ⟨setup, plan, hmade, p, hp, hresize, hdominates, hblocks, -⟩ := tooWide_narrowed
  let _ := Transcendental.tangent
  obtain ⟨q, r', i, b, c, candidates, index, current, horizontal, m, hrun, hshrunk, -⟩ :=
    perturb_shrinks hmade tooWide_lists still [.perturb] hp false still hresize hdominates
      (by rw [(choosable_narrowed hblocks).1]; exact List.cons_ne_nil _ _)
  exact ⟨setup, plan, hmade, p, q, r', i, b, c, candidates, index, current, horizontal, m, hp,
    hrun, hshrunk⟩

/-- Shrinking the narrowed block takes the wider candidate, which is the lower one. -/
lemma widens_narrowed {c : Block Rat} {kind : MoveKind}
    (h : Shrinks true [(20, 20), (10, 40)] 1 (10, 40) narrowed c kind) :
    kind = .shrink ∧ c.width = 20 := by
  cases h with
  | along next takes =>
      have hlt := next.lt
      have hmem := List.mem_of_getElem? next.getElem?
      simp only [List.mem_cons, List.not_mem_nil, or_false] at hmem
      rcases hmem with rfl | rfl <;> exact absurd hlt (by decide +kernel)
  | across none next takes =>
      have hlt := next.lt
      have hmem := List.mem_of_getElem? next.getElem?
      simp only [List.mem_cons, List.not_mem_nil, or_false] at hmem
      rcases hmem with rfl | rfl
      · exact ⟨rfl, congrArg Prod.fst takes.sides⟩
      · exact absurd hlt (by decide +kernel)
  | neither none noneAcross other takes =>
      exact absurd (noneAcross (20, 20) (by simp)) (by decide +kernel)

/-- **A move that is recorded as one that shrinks may make the block wider where it sticks out.**
The block sticks out by two to the right and not at all to the top; there is no narrower candidate,
so that it takes the lower one, and becomes twice as wide. -/
theorem perturb_widens_tooWide :
    ∃ setup plan, Setup.ofDesign tooWide resizing = .ok (setup, plan) ∧
      let _ := Transcendental.tangent
      ∃ p q r' m, p = ((start plan still).afterTasks setup [.perturb]).plan ∧
        setup.table.pick (DrawSource.unit still).1 = .resize ∧ p.outlineDominates setup = .ok true ∧
        p.layout.choosable false = [0] ∧
        p.layout.overflowOf setup.objective.outlineWidth setup.objective.outlineHeight 0 = (2, 0) ∧
        (Plan.perturb setup false).run ⟨p, still⟩ = .ok () ⟨q, r'⟩ ∧ q.lastMove = some m ∧
        m.kind = .shrink ∧ (p.layout.blocks[0]?).map (·.width) = some 10 ∧
        (q.layout.blocks[0]?).map (·.width) = some 20 := by
  obtain ⟨setup, plan, hmade, p, hp, hresize, hdominates, hblocks, hwidth, hheight⟩ :=
    tooWide_narrowed
  let _ := Transcendental.tangent
  obtain ⟨hchoosable, hover⟩ := choosable_narrowed hblocks
  have hkeyed : p.Keyed (tooWide.blocks.map Block.makeup) := by
    rw [hp]
    exact afterTasks_keyed hmade tooWide_lists still [.perturb]
  obtain ⟨q, r', i, b, c, candidates, index, current, horizontal, m, hrun, h⟩ :=
    Plan.run_perturb_shrunk (Setup.ofDesign_fair hmade) hkeyed false hresize hdominates
      (by rw [hchoosable]; exact List.cons_ne_nil _ _)
  have hi := Layout.shrinkPool_sub _ _ _ i h.drawn
  rw [hchoosable, List.mem_singleton] at hi
  subst hi
  obtain rfl : narrowed = b := by simpa [hblocks] using h.before
  obtain ⟨rfl, rfl⟩ : [(20, 20), (10, 40)] = candidates ∧ 1 = index := by
    simpa [narrowed] using h.form
  obtain rfl : (10, 40) = current := by simpa using h.inForce
  obtain rfl : horizontal = true := by
    rw [h.axis, Layout.sticksOutRight, hwidth, hheight, hover]
    decide +kernel
  obtain ⟨hkind, hwide⟩ := widens_narrowed h.shrinks
  obtain ⟨x, y, hafter⟩ := h.after
  refine ⟨setup, plan, hmade, p, q, r', m, hp, hresize, hdominates, hchoosable, ?_, hrun, h.record,
    hkind, ?_, ?_⟩
  · rw [hwidth, hheight, hover]
  · rw [hblocks]
    rfl
  · rw [hafter, ← hwide]
    rfl

end Annealer

end BlockPlan
