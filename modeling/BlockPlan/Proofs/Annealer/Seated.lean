import BlockPlan.Proofs.Annealer.Sides
import BlockPlan.Proofs.Packing.Tightest

/-!
# Blocks stay where packing may put them

Packing puts blocks at the origin, or to the right of it and above.  Once all blocks stand there
they stay there: what is packed anew goes nowhere else, shapes leave blocks where they stand, and
taking back and loading put them where others have stood before.  It does not matter for this
whether a layout is packed, nor whether its blocks have been stretched.

* `Block.Seated` — a solid block that does not stand to the left of the origin or below.
* `Staircase.Nonneg`, `Layout.sweep_seated` — a sweep leaves blocks seated.
* **`Layout.Solid.pack_seated`**, **`Layout.Seated.repack`** — packing seats solid blocks, packing
  anew leaves them seated.
* `Layout.Seated.restore`, `Layout.load_seated` — so do putting back and loading, from points past
  the origin.
-/

namespace BlockPlan

open Edit (Leads Maintains)

/-! ## One block -/

namespace Block

variable {b : Block Rat}

/-- A solid block that stands at the origin, or to the right of it and above. -/
structure Seated (b : Block Rat) : Prop extends b.Solid where
  x_nonneg : 0 ≤ b.x
  y_nonneg : 0 ≤ b.y

lemma Solid.place_seated (h : b.Solid) {x y : Rat} (hx : 0 ≤ x) (hy : 0 ≤ y) :
    (b.place x y).Seated :=
  ⟨h.place x y, hx, hy⟩

lemma Seated.moveTo (h : b.Seated) (axis : Axis) {v : Rat} (hv : 0 ≤ v) :
    (b.moveTo axis v).Seated := by
  refine ⟨h.toSolid.moveTo axis v, ?_, ?_⟩
  · cases axis
    exacts [hv, h.x_nonneg]
  · cases axis
    exacts [h.y_nonneg, hv]

lemma Seated.farEdge_nonneg (h : b.Seated) (axis : Axis) :
    0 ≤ b.coordinate axis + b.extent axis := by
  cases axis with
  | x => exact add_nonneg h.x_nonneg h.width.le
  | y => exact add_nonneg h.y_nonneg h.height.le

lemma Seated.max_nonneg (h : b.Seated) : 0 ≤ b.xMax ∧ 0 ≤ b.yMax :=
  ⟨h.farEdge_nonneg .x, h.farEdge_nonneg .y⟩

/-- A shape changes sides, and not where a block stands. -/
lemma setShape_seated (key : ShapeKey) : Maintains Seated (setShape (α := Rat) key) := by
  have hstands := (setShape_keeps_rest (P := fun _ p => 0 ≤ p.1 ∧ 0 ≤ p.2) key).weaken
    fun (b : Block Rat) (hb : b.Seated) => ⟨hb.x_nonneg, hb.y_nonneg⟩
  refine (((setShape_solid key).weaken fun b (hb : b.Seated) => hb.toSolid).and hstands).mono
    (fun _ hb => hb) (fun _ b hb => ?_) fun b hb => ?_
  all_goals
    obtain ⟨hsolid, hx, hy⟩ := hb
    exact ⟨hsolid, hx, hy⟩

end Block

/-! ## Staircases -/

namespace Staircase

variable {s : Staircase Rat}

/-- A staircase without a step below zero. -/
def Nonneg (s : Staircase Rat) : Prop := ∀ step ∈ s.steps, 0 ≤ step.2

lemma mem_of_mem_before {key : Int} {step : Int × Rat} (h : step ∈ s.before key) : step ∈ s.steps :=
  (List.takeWhile_sublist _).subset h

lemma Nonneg.query (h : s.Nonneg) (key : Int) : 0 ≤ s.query key := by
  rw [Staircase.query]
  split
  · rename_i hlast
    exact h _ (mem_of_mem_before (List.mem_of_getLast? hlast))
  · exact le_rfl

lemma Nonneg.insert (h : s.Nonneg) (key : Int) {value : Rat} (hvalue : 0 ≤ value) :
    (s.insert key value).Nonneg := by
  have hgrown : Nonneg ⟨s.before key ++ (key, value) :: (s.after key).dropWhile
      fun step => decide (step.2 ≤ value)⟩ := by
    intro step hstep
    rcases List.mem_append.mp hstep with hbefore | hafter
    · exact h _ (mem_of_mem_before hbefore)
    · rcases List.mem_cons.mp hafter with rfl | hkept
      · exact hvalue
      · exact h _ ((List.dropWhile_sublist _).subset ((List.dropWhile_sublist _).subset hkept))
  rw [Staircase.insert]
  split
  · split_ifs
    exacts [h, hgrown]
  · exact hgrown

end Staircase

/-! ## Packing -/

/-- A snapshot with no point to the left of the origin or below. -/
def Snapshot.PastOrigin (s : Snapshot Rat) : Prop := ∀ p ∈ s.points, 0 ≤ p.1 ∧ 0 ≤ p.2

namespace Layout

variable {l : Layout Rat}

/-- A layout all of whose blocks are seated. -/
def Seated (l : Layout Rat) : Prop := l.All Block.Seated

lemma Seated.solid (h : l.Seated) : l.Solid := fun b hb => (h b hb).toSolid

/-- A sweep leaves seated blocks seated, wherever it begins to move them. -/
lemma sweep_seated (axis : Axis) (key : Nat → Int) (start : Int) (slot : Nat) (order : List Nat)
    {stair : Staircase Rat} (hstair : stair.Nonneg) {blocks : List (Block Rat)}
    (h : ∀ b ∈ blocks, b.Seated) :
    ∀ b ∈ sweep axis key start slot order stair blocks, b.Seated := by
  induction order generalizing slot stair blocks with
  | nil => exact h
  | cons i rest ih =>
      rw [sweep]
      split
      · exact ih _ hstair h
      · rename_i b hb
        have hb := h b (List.mem_of_getElem? hb)
        have hmoved : (if start ≤ slot then b.moveTo axis (stair.query (key i)) else b).Seated := by
          split_ifs
          exacts [hb.moveTo axis (hstair.query _), hb]
        exact ih _ (hstair.insert _ (hmoved.farEdge_nonneg axis)) (kind_set h i hmoved)

/-- **Packing anew leaves seated blocks seated**, from whatever slots on. -/
theorem Seated.repack (h : l.Seated) (a b : Int) : (l.repack a b).2.Seated := by
  have hempty : Staircase.Nonneg {} := by simp [Staircase.Nonneg]
  exact sweep_seated _ _ _ _ _ hempty (sweep_seated _ _ _ _ _ hempty h)

/-- **Packing seats solid blocks**, wherever they have stood. -/
theorem Solid.pack_seated (h : l.Solid) (hpair : l.Coherent) : l.pack.Seated := by
  have hrespects := pack_respects hpair fun b hb => ⟨(h b hb).width.le, (h b hb).height.le⟩
  exact fun b hb => ⟨h.pack b hb, hrespects.x_nonneg b hb, hrespects.y_nonneg b hb⟩

/-- Where blocks come from that are packed anew, is where blocks have stood. -/
lemma Seated.mem_repack (h : l.Seated) {a b : Int} {o : Origin Rat} (ho : o ∈ (l.repack a b).1) :
    0 ≤ o.x ∧ 0 ≤ o.y := by
  obtain ⟨i, -, hi⟩ := List.mem_filterMap.mp (List.mem_filter.mp ho).1
  obtain ⟨c, hc, rfl⟩ := Option.map_eq_some_iff.mp hi
  have hseated := h c (List.mem_of_getElem? hc)
  exact ⟨hseated.x_nonneg, hseated.y_nonneg⟩

lemma repackFrom_seated (blocks : List Nat) :
    Leads Seated (repackFrom (α := Rat) blocks) (fun moved l => l.Seated ∧
      ∀ o ∈ moved, 0 ≤ o.x ∧ 0 ≤ o.y)
      Seated := by
  refine Leads.ite (fun _ => Leads.pure fun _ h => ⟨h, by simp⟩) fun _ => ?_
  refine Leads.bind Leads.get fun l => Leads.fact fun hl => ?_
  refine Leads.bind (Maintains.ofExcept _) fun slots => ?_
  refine Leads.bind (Maintains.set (hl.repack _ _)) fun _ => ?_
  exact Leads.pure fun _ h => ⟨h, fun o ho => hl.mem_repack ho⟩

/-! ## Putting back and loading -/

lemma Seated.restore (h : l.Seated) {moved : List (Origin Rat)}
    (hmoved : ∀ o ∈ moved, 0 ≤ o.x ∧ 0 ≤ o.y) : (l.restore moved).Seated := by
  refine List.foldlRecOn (motive := fun blocks : List (Block Rat) =>
      ∀ b ∈ blocks, b.Seated) moved _ h
    fun blocks hblocks o ho b hb => ?_
  obtain ⟨i, hi⟩ := List.mem_iff_getElem?.mp hb
  rw [List.getElem?_modify] at hi
  obtain ⟨c, hc, rfl⟩ := Option.map_eq_some_iff.mp hi
  have hseated := hblocks c (List.mem_of_getElem? hc)
  split_ifs
  exacts [hseated.toSolid.place_seated (hmoved o ho).1 (hmoved o ho).2, hseated]

lemma Seated.snapshot (h : l.Seated) : l.snapshot.PastOrigin := by
  intro p hp
  obtain ⟨b, hb, rfl⟩ := List.mem_map.mp hp
  exact ⟨(h b hb).x_nonneg, (h b hb).y_nonneg⟩

lemma load_seated {s : Snapshot Rat} (hs : s.PastOrigin) : Maintains Seated (load true s) := by
  refine load_leads (fun _ h => h) (setShape_keeps Block.setShape_seated)
    (fun _ l hl b hb => ?_) nofun
  obtain ⟨i, hi, rfl⟩ := List.mem_mapIdx.mp hb
  have hseated := hl _ (List.getElem_mem hi)
  split
  · rename_i x y hpoint
    obtain ⟨hx, hy⟩ := hs _ (List.mem_of_getElem? hpoint)
    exact hseated.toSolid.place_seated hx hy
  · exact hseated

end Layout

end BlockPlan
