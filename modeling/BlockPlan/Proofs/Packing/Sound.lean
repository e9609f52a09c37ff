import BlockPlan.Packing.Snapshot
import BlockPlan.Proofs.Block.Reshape
import BlockPlan.Proofs.Packing.Arrange
import BlockPlan.Proofs.Packing.Install

/-!
# Sound layouts

A layout is *sound* when its pair is coherent and every block shows the shape in force, with the
makeup that the block at its place is known to have.  Packing, exchanging slots and putting listed
shapes in force keep a layout sound.

* `Sound.wellFormed` — a sound layout of well-formed blocks consists of well-formed blocks.
* `Sound.pack`, `Sound.setPair`, `Sound.setBlock` — what keeps a layout sound.
* **`run_load_points`**, **`run_load_packing`** — loading a snapshot into a layout of the same
  makeup gives back the layout that it was taken of, or its packing.
* `run_load_snapshot` — so it does for a sound layout.
* `setShapes_maintains`, `load_leads` — what shapes and snapshots keep of any layout, sound or not.
-/

namespace BlockPlan

open Edit (Leads Maintains)

variable {α : Type}

namespace Layout

/-- What the blocks of a layout are known to be. -/
abbrev Makeups (α : Type) := List (String × Bool × ((α × α × List Orientation) ⊕ List (α × α)))

/-- A layout of blocks of given makeups that show their shapes, with a coherent pair. -/
structure Sound (known : Makeups α) (l : Layout α) : Prop where
  coherent : l.Coherent
  showsShape : ∀ b ∈ l.blocks, b.ShowsShape
  makeups : l.blocks.map Block.makeup = known

section Sound

variable {known : Makeups α} {l : Layout α}

lemma Sound.getElem?_showsShape (h : l.Sound known) {i : Nat} {b : Block α}
    (hb : l.blocks[i]? = some b) : b.ShowsShape :=
  h.showsShape b (List.mem_of_getElem? hb)

/-- Only the shapes of a sound layout have to be known to be positive. -/
lemma Sound.wellFormed [Scalar α] {blocks : List (Block α)} (h : l.Sound (blocks.map Block.makeup))
    (hblocks : ∀ b ∈ blocks, b.WellFormed) : ∀ b ∈ l.blocks, b.WellFormed := by
  intro b hb
  refine ⟨h.showsShape b hb, ?_⟩
  have hmem : b.makeup ∈ blocks.map Block.makeup := h.makeups ▸ List.mem_map_of_mem hb
  obtain ⟨c, hc, hmakeup⟩ := List.mem_map.mp hmem
  exact (hblocks c hc).positive.congr hmakeup.symm

lemma Sound.setPair {q : SequencePair} (h : l.Sound known) (hq : q.Coherent l.size) :
    Sound known { l with pair := q } :=
  ⟨hq, h.showsShape, h.makeups⟩

lemma Sound.arrange (h : l.Sound known) (f : Nat → α × α) : (l.arrange f).Sound known := by
  refine ⟨?_, fun b hb => ?_, ?_⟩
  · rw [Layout.Coherent, arrange_size]
    exact h.coherent
  · obtain ⟨i, hi⟩ := List.mem_iff_getElem?.mp hb
    rw [getElem?_arrange] at hi
    obtain ⟨c, hc, rfl⟩ := Option.map_eq_some_iff.mp hi
    exact Block.showsShape_place.mpr (h.getElem?_showsShape hc)
  · rw [← h.makeups]
    exact map_blocks_arrange (fun _ _ _ => rfl) f l

/-- Replacing a block by one of its makeup changes no makeup. -/
lemma map_makeup_set {blocks : List (Block α)} {i : Nat} {b c : Block α}
    (hb : (blocks.map Block.makeup)[i]? = some b.makeup) (hc : c.makeup = b.makeup) :
    (blocks.set i c).map Block.makeup = blocks.map Block.makeup := by
  obtain ⟨hi, hget⟩ := List.getElem?_eq_some_iff.mp hb
  rw [List.map_set, hc, ← hget, List.set_getElem_self]

lemma Sound.setBlock (h : l.Sound known) {i : Nat} {b c : Block α} (hb : l.blocks[i]? = some b)
    (hc : Block.Reshaped b c) : Sound known { l with blocks := l.blocks.set i c } := by
  refine ⟨?_, fun d hd => ?_, ?_⟩
  · rw [Layout.Coherent, Layout.size, List.length_set]
    exact h.coherent
  · rcases List.mem_or_eq_of_mem_set hd with hd | rfl
    · exact h.showsShape d hd
    · exact hc.showsShape
  · have hmakeup : (l.blocks.map Block.makeup)[i]? = some b.makeup := by
      rw [List.getElem?_map, hb, Option.map_some]
    exact (map_makeup_set hmakeup hc.makeup).trans h.makeups

lemma Sound.pack [Scalar α] (h : l.Sound known) : l.pack.Sound known := by
  rw [pack_eq_arrange h.coherent]
  exact h.arrange _

end Sound

/-! ## Putting shapes in force -/

/-- The block in a slot takes the shape that it takes by itself. -/
lemma run_setShape {l : Layout α} {i : Nat} {b c : Block α} {key : ShapeKey}
    (hb : l.blocks[i]? = some b) (hrun : (Block.setShape key).run b = .ok () c) :
    (setShape (i : Int) key).run l = .ok () { l with blocks := l.blocks.set i c } := by
  have hi : i < l.blocks.length := (List.getElem?_eq_some_iff.mp hb).1
  simp only [setShape, editBlock, Block.editAt, Edit.run_within, EStateM.run_bind, EStateM.run_get,
    Slot.place_natCast hi, Edit.run_ofExcept_ok, hb, hrun]

/-- The shape keys of some blocks give their shapes to as many blocks of the same makeups. -/
lemma run_setShapes (pair : SequencePair) {blocks : List (Block α)}
    (hrecalled : ∀ b ∈ blocks, b.Recalled) :
    ∀ front others : List (Block α), others.map Block.makeup = blocks.map Block.makeup →
      (setShapes front.length (blocks.map Block.shapeKey)).run ⟨front ++ others, pair⟩
        = .ok () ⟨front ++ List.zipWith (fun b c => b.place c.x c.y) blocks others, pair⟩ := by
  induction blocks with
  | nil =>
      intro front others hmakeups
      rw [List.map_nil, List.map_eq_nil_iff] at hmakeups
      rw [hmakeups]
      rfl
  | cons b rest ih =>
      intro front others hmakeups
      obtain ⟨c, others, rfl, hmakeup, hrest⟩ := List.map_eq_cons_iff.mp hmakeups
      have hset := run_setShape (l := ⟨front ++ c :: others, pair⟩) (i := front.length) (b := c)
        (by simp) (hrecalled b (by simp) c hmakeup)
      have hnext := ih (fun b hb => hrecalled b (by simp [hb])) (front ++ [b.place c.x c.y]) _ hrest
      rw [List.length_append, List.length_singleton, List.append_assoc] at hnext
      have hroom : front.length < Layout.size ⟨front ++ c :: others, pair⟩ := by
        simp [Layout.size]
      simp only [List.map_cons, setShapes, EStateM.run_bind, EStateM.run_get, if_pos hroom, hset,
        List.set_append_right _ _ (le_refl _), Nat.sub_self, List.set_cons_zero]
      rw [List.zipWith_cons_cons]
      simpa using hnext

/-- What every single shape that is put in force keeps, a list of them keeps. -/
lemma setShapes_maintains {I : Layout α → Prop} (h : ∀ slot key, Maintains I (setShape slot key))
    (i : Nat) (keys : List ShapeKey) : Maintains I (setShapes i keys) := by
  induction keys generalizing i with
  | nil => exact Leads.pure fun _ hl => hl
  | cons key rest ih =>
      refine Maintains.read fun l _ => Leads.ite (fun _ => ?_) fun _ => Leads.pure fun _ hl => hl
      exact Leads.bind (h _ key) fun _ => ih (i + 1)

/-! ## Loading -/

section Load

variable [Scalar α] {l l' : Layout α}

/-- Loading leads where the sequences lead, if shapes, and points or a packing, lead no further. -/
lemma load_leads {P I : Layout α → Prop} {positions : Bool} {s : Snapshot α}
    (hsequences : ∀ l, P l → I { l with pair := .ofSequences l.size s.positive s.negative })
    (hshape : ∀ slot key, Maintains I (setShape slot key))
    (hpoints : positions = true → ∀ l, I l → I { l with
      blocks := l.blocks.mapIdx fun i b =>
        match s.points[i]? with
        | some (x, y) => b.place x y
        | none => b })
    (hpack : positions = false → ∀ l, I l → I l.pack) :
    Leads P (load positions s) (fun _ => I) I := by
  refine Leads.bind (Leads.modify (Q := fun _ => I) hsequences) fun _ => ?_
  refine Leads.bind (setShapes_maintains hshape 0 s.keys) fun _ =>
    Leads.ite (fun h => ?_) fun h => ?_
  · exact Leads.modify (hpoints h)
  · exact Leads.modify (hpack (Bool.eq_false_of_not_eq_true h))

/-- Blocks in the places of as many others are arranged as these are. -/
lemma zipWith_place_eq_arrange (hlength : l'.blocks.length = l.blocks.length) :
    (⟨List.zipWith (fun b c => b.place c.x c.y) l.blocks l'.blocks, l.pair⟩ : Layout α)
      = l.arrange l'.points := by
  refine congrArg (fun bs => (⟨bs, l.pair⟩ : Layout α)) (List.ext_getElem? fun i => ?_)
  rw [List.getElem?_zipWith, List.getElem?_mapIdx]
  cases hb : l.blocks[i]? with
  | none => rfl
  | some b =>
      have hlt : i < l'.blocks.length := hlength ▸ (List.getElem?_eq_some_iff.mp hb).1
      rw [points_eq (List.getElem?_eq_getElem hlt), List.getElem?_eq_getElem hlt]
      rfl

omit [Scalar α] in
/-- The points of a snapshot are those where the blocks stood. -/
lemma mapIdx_snapshot_points (f : Nat → α × α) :
    (l.arrange f).blocks.mapIdx (fun i b =>
      match l.snapshot.points[i]? with
      | some (x, y) => b.place x y
      | none => b) = l.blocks := by
  refine List.ext_getElem? fun i => ?_
  rw [List.getElem?_mapIdx, getElem?_arrange, snapshot, List.getElem?_map]
  cases l.blocks[i]? <;> rfl

section Recalled

variable (hpair : l.Coherent) (hrecalled : ∀ b ∈ l.blocks, b.Recalled)
  (h' : l'.blocks.map Block.makeup = l.blocks.map Block.makeup)

include hpair hrecalled h'

/-- Sequences and shapes of a snapshot, put in force, leave the blocks where they stand. -/
lemma run_setShapes_snapshot : (setShapes 0 l.snapshot.keys).run
    { l' with pair := .ofSequences l'.size l.snapshot.positive l.snapshot.negative }
      = .ok () (l.arrange l'.points) := by
  have hlength : l'.blocks.length = l.blocks.length := by
    rw [← List.length_map Block.makeup, h', List.length_map]
  have hsequences : SequencePair.ofSequences l'.size l.pair.positive l.pair.negative = l.pair := by
    rw [Layout.size, hlength]
    exact hpair.ofSequences_eq
  have hshapes := run_setShapes l.pair hrecalled [] l'.blocks h'
  simp only [List.length_nil, List.nil_append, zipWith_place_eq_arrange hlength] at hshapes
  simp only [snapshot, hsequences, hshapes]

/-- **Loading a snapshot into blocks of the same makeups gives back the layout that it was taken
of.** -/
theorem run_load_points : (load true l.snapshot).run l' = .ok () l := by
  simp only [load, EStateM.run_bind, EStateM.run_modify,
    run_setShapes_snapshot hpair hrecalled h', if_true]
  exact congrArg (fun bs => EStateM.Result.ok () (⟨bs, l.pair⟩ : Layout α))
    (mapIdx_snapshot_points _)

/-- **Loading a snapshot without its positions packs the layout that it was taken of.** -/
theorem run_load_packing : (load false l.snapshot).run l' = .ok () l.pack := by
  simp only [load, EStateM.run_bind, EStateM.run_modify, run_setShapes_snapshot hpair hrecalled h',
    Bool.false_eq_true, if_false]
  exact congrArg (EStateM.Result.ok ()) (pack_arrange hpair _)

end Recalled

/-- **Loading the snapshot of a sound layout into another one of the same makeup gives the first one
back.** -/
theorem run_load_snapshot {known : Makeups α} (h : l.Sound known)
    (h' : l'.blocks.map Block.makeup = known) : (load true l.snapshot).run l' = .ok () l :=
  run_load_points h.coherent (fun b hb => (h.showsShape b hb).recalled) (h'.trans h.makeups.symm)

end Load

end Layout

end BlockPlan
