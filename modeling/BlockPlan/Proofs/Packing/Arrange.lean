import BlockPlan.Proofs.Packing.Repack
import BlockPlan.Proofs.Scalar.Exact

/-!
# Where the blocks of a layout stand

Packing and taking back move blocks and change nothing else of a layout.  `Layout.arrange` puts
every block at a given point, and `Layout.points` are the points where the blocks stand; each layout
is what it arranges at its own points, and two layouts that differ only in the points arrange alike.

* `swept_eq_arrange`, `repack_eq_arrange`, `pack_eq_arrange` — a sweep arranges the blocks, and so
  does packing.
* **`pack_arrange`** — where the blocks stood makes no difference to where packing puts them.
* `restore_arrange` — putting blocks back changes the points that the origins name.
* **`restore_repack`** — what packing anew answers is enough to put every block back, also when
  shapes and sequences have been changed in between.
-/

namespace BlockPlan.Layout

variable {α : Type}

/-- Puts every block of a layout at a point. -/
def arrange (points : Nat → α × α) (l : Layout α) : Layout α :=
  { l with blocks := l.blocks.mapIdx fun i b => b.place (points i).1 (points i).2 }

@[simp] lemma arrange_size (points : Nat → α × α) (l : Layout α) :
    (l.arrange points).size = l.size :=
  List.length_mapIdx

lemma getElem?_arrange (points : Nat → α × α) (l : Layout α) (i : Nat) :
    (l.arrange points).blocks[i]? = (l.blocks[i]?).map fun b => b.place (points i).1 (points i).2 :=
  List.getElem?_mapIdx

/-- What does not depend on where the blocks stand is the same of all of them. -/
lemma map_blocks_arrange {β : Type} {f : Block α → β} (hf : ∀ b x y, f (b.place x y) = f b)
    (points : Nat → α × α) (l : Layout α) : (l.arrange points).blocks.map f = l.blocks.map f := by
  refine List.ext_getElem? fun i => ?_
  rw [List.getElem?_map, List.getElem?_map, getElem?_arrange, Option.map_map]
  exact congrArg₂ _ (funext fun b => hf b _ _) rfl

lemma arrange_arrange (f g : Nat → α × α) (l : Layout α) :
    (l.arrange f).arrange g = l.arrange g := by
  simp only [arrange, List.mapIdx_mapIdx]
  rfl

lemma arrange_congr {f g : Nat → α × α} {l : Layout α} (h : ∀ i < l.size, f i = g i) :
    l.arrange f = l.arrange g := by
  have hblocks : (l.arrange f).blocks = (l.arrange g).blocks := by
    refine List.ext_getElem? fun i => ?_
    rw [getElem?_arrange, getElem?_arrange]
    by_cases hi : i < l.size
    · rw [h i hi]
    · rw [List.getElem?_eq_none (not_lt.mp hi)]
      rfl
  rw [arrange, arrange] at *
  simpa using hblocks

variable [Scalar α]

/-- Where the blocks of a layout stand. -/
def points (l : Layout α) (i : Nat) : α × α :=
  match l.blocks[i]? with
  | some b => (b.x, b.y)
  | none => (0, 0)

lemma points_eq {l : Layout α} {i : Nat} {b : Block α} (h : l.blocks[i]? = some b) :
    l.points i = (b.x, b.y) := by
  rw [points, h]

/-- A layout that differs from another one only in where the blocks stand is what the other one
arranges. -/
lemma eq_arrange_points {l m : Layout α} (hpair : m.pair = l.pair)
    (hnone : ∀ i : Nat, l.blocks[i]? = none → m.blocks[i]? = none)
    (hplaced : ∀ (i : Nat) (b : Block α), l.blocks[i]? = some b →
      ∃ x y, m.blocks[i]? = some (b.place x y)) :
    m = l.arrange m.points := by
  have hblocks : m.blocks = (l.arrange m.points).blocks := by
    refine List.ext_getElem? fun i => ?_
    rw [getElem?_arrange]
    cases hb : l.blocks[i]? with
    | none => rw [hnone i hb, Option.map_none]
    | some b =>
        obtain ⟨x, y, hm⟩ := hplaced i b hb
        rw [points_eq hm, hm]
        rfl
  obtain ⟨blocks, pair⟩ := m
  simp only at hpair hblocks
  rw [hpair]
  exact congrArg (fun bs => (⟨bs, l.pair⟩ : Layout α)) hblocks

@[simp] lemma arrange_points (l : Layout α) : l.arrange l.points = l :=
  (eq_arrange_points rfl (fun _ h => h) fun _ b hb => ⟨b.x, b.y, hb⟩).symm

/-! ## Packing arranges -/

omit [Scalar α] in
lemma place_of_moveTo (axis : Axis) (v : α) (b : Block α) :
    ∃ x y, b.moveTo axis v = b.place x y := by
  cases axis with
  | x => exact ⟨v, b.y, rfl⟩
  | y => exact ⟨b.x, v, rfl⟩

section Packing

variable {l : Layout α}

/-- A sweep along either axis moves blocks and changes nothing else of a layout. -/
lemma swept_eq_arrange {axis : Axis} {key : Nat → Int} {start : Int} {sequence : List Nat}
    {blocks : List (Block α)} (h : Swept axis key start 0 sequence {} l.blocks blocks) :
    ({ l with blocks := blocks } : Layout α)
      = l.arrange ({ l with blocks := blocks } : Layout α).points := by
  refine eq_arrange_points rfl (fun i hi => h.getElem?_none hi) fun i b hb => ?_
  obtain ⟨v, hv⟩ := h.moved hb
  obtain ⟨x, y, hxy⟩ := place_of_moveTo axis v b
  refine ⟨x, y, ?_⟩
  rw [hv, hxy]

lemma packX_eq_arrange (h : l.Permuted) (start : Int) :
    l.packX start = l.arrange (l.packX start).points :=
  swept_eq_arrange (packX_swept h start)

lemma packY_eq_arrange (h : l.Permuted) (start : Int) :
    l.packY start = l.arrange (l.packY start).points :=
  swept_eq_arrange (packY_swept h start)

lemma repack_eq_arrange (h : l.Permuted) (a b : Int) :
    (l.repack a b).2 = l.arrange (l.repack a b).2.points := by
  show (l.packX a).packY b = l.arrange ((l.packX a).packY b).points
  conv_lhs => rw [packY_eq_arrange (packX_permuted h a) b, packX_eq_arrange h a]
  rw [arrange_arrange, ← packX_eq_arrange h a]

lemma pack_eq_arrange (h : l.Coherent) : l.pack = l.arrange l.pack.points :=
  repack_eq_arrange h.permuted 0 0

omit [Scalar α] in
lemma map_coordinate_of_along {axis : Axis} {o o' : Option (Block α)}
    (h : o.map (Block.along axis) = o'.map (Block.along axis)) :
    o.map (Block.coordinate axis) = o'.map (Block.coordinate axis) := by
  have hfst := congrArg (Option.map Prod.fst) h
  rwa [Option.map_map, Option.map_map] at hfst

omit [Scalar α] in
lemma map_extent_of_along {axis : Axis} {o o' : Option (Block α)}
    (h : o.map (Block.along axis) = o'.map (Block.along axis)) :
    o.map (Block.extent axis) = o'.map (Block.extent axis) := by
  have hsnd := congrArg (Option.map Prod.snd) h
  rwa [Option.map_map, Option.map_map] at hsnd

/-- Two layouts of one pair whose blocks have the same sides are packed alike along both axes. -/
lemma along_pack_congr {m : Layout α} (h : l.Coherent) (hpair : m.pair = l.pair)
    (hsize : m.size = l.size)
    (hextent : ∀ axis, ∀ i : Nat, (m.blocks[i]?).map (Block.extent axis)
      = (l.blocks[i]?).map (Block.extent axis)) {i : Nat} (hi : i < l.size) (axis : Axis) :
    (m.pack.blocks[i]?).map (Block.along axis) = (l.pack.blocks[i]?).map (Block.along axis) := by
  have h' : m.Coherent := by
    rw [Layout.Coherent, hpair, hsize]
    exact h
  have hx := packX_swept h'.permuted 0
  have hy := packY_swept (packX_permuted h'.permuted 0) 0
  have hkeyX : m.keyX = l.keyX := by
    funext i
    rw [keyX, keyX, hpair]
  have hkeyY : (m.packX 0).keyY = (l.packX 0).keyY := by
    rw [keyY_packX h'.permuted, keyY_packX h.permuted]
    funext i
    rw [keyY, keyY, hsize, hpair]
  rw [hpair, hkeyX] at hx
  rw [packX_pair, hpair, hkeyY] at hy
  cases axis with
  | x =>
      -- packing along y leaves x alone
      rw [pack_blocks, pack_blocks, hy.along_ne (by decide),
        (packY_swept (packX_permuted h.permuted 0) 0).along_ne (by decide)]
      exact hx.along_congr (packX_swept h.permuted 0) (fun j _ => hextent .x j) i
        (h.positive.mem_iff.mpr hi)
  | y =>
      refine hy.along_congr (packY_swept (packX_permuted h.permuted 0) 0) (fun j _ => ?_) i
        (h.negative.mem_iff.mpr hi)
      have hne : Axis.y ≠ Axis.x := by decide
      rw [map_extent_of_along (hx.along_ne hne j), hextent .y j,
        map_extent_of_along ((packX_swept h.permuted 0).along_ne hne j)]

/-- **Where the blocks stood makes no difference to where packing puts them.** -/
theorem pack_arrange (h : l.Coherent) (f : Nat → α × α) : (l.arrange f).pack = l.pack := by
  have h' : (l.arrange f).Coherent := by
    rw [Layout.Coherent, arrange_size]
    exact h
  have hextent : ∀ axis, ∀ i : Nat, ((l.arrange f).blocks[i]?).map (Block.extent axis)
      = (l.blocks[i]?).map (Block.extent axis) := by
    intro axis i
    rw [getElem?_arrange, Option.map_map]
    cases axis <;> rfl
  have hpoints : ∀ i < l.size, (l.arrange f).pack.points i = l.pack.points i := by
    intro i hi
    have halong := along_pack_congr h (m := l.arrange f) rfl (arrange_size f l) hextent hi
    have hlt : i < l.pack.blocks.length := hi.trans_eq (pack_size h).symm
    have hlt' : i < (l.arrange f).pack.blocks.length :=
      hi.trans_eq ((pack_size h').trans (arrange_size f l)).symm
    have hcoordinate : ∀ axis,
        (l.arrange f).pack.blocks[i].coordinate axis = l.pack.blocks[i].coordinate axis := by
      intro axis
      have hsame := halong axis
      rw [List.getElem?_eq_getElem hlt, List.getElem?_eq_getElem hlt', Option.map_some,
        Option.map_some, Option.some.injEq] at hsame
      exact congrArg Prod.fst hsame
    rw [points_eq (List.getElem?_eq_getElem hlt), points_eq (List.getElem?_eq_getElem hlt')]
    exact Prod.ext (hcoordinate .x) (hcoordinate .y)
  calc (l.arrange f).pack = (l.arrange f).arrange (l.arrange f).pack.points := pack_eq_arrange h'
    _ = l.arrange (l.arrange f).pack.points := arrange_arrange _ _ _
    _ = l.arrange l.pack.points := arrange_congr hpoints
    _ = l.pack := (pack_eq_arrange h).symm

end Packing

/-! ## Putting blocks back -/

section Restore

/-- The points after some origins have been put back in turn. -/
def putBack (origins : List (Origin α)) (points : Nat → α × α) : Nat → α × α :=
  origins.foldl (fun points o => Function.update points o.block (o.x, o.y)) points

omit [Scalar α] in
lemma restore_arrange (origins : List (Origin α)) (l : Layout α) (f : Nat → α × α) :
    restore origins (l.arrange f) = l.arrange (putBack origins f) := by
  induction origins generalizing f with
  | nil => rfl
  | cons o rest ih =>
      have hstep : ({ l.arrange f with
            blocks := (l.arrange f).blocks.modify o.block (Block.place o.x o.y) } : Layout α)
          = l.arrange (Function.update f o.block (o.x, o.y)) := by
        have hblocks : (l.arrange f).blocks.modify o.block (Block.place o.x o.y)
            = (l.arrange (Function.update f o.block (o.x, o.y))).blocks := by
          refine List.ext_getElem? fun i => ?_
          rw [List.getElem?_modify, getElem?_arrange, getElem?_arrange]
          by_cases hi : o.block = i
          · subst hi
            cases l.blocks[o.block]? <;> simp [Block.place]
          · cases l.blocks[i]? <;> simp [hi, Function.update_of_ne (Ne.symm hi)]
        rw [hblocks]
        rfl
      rw [putBack, List.foldl_cons, ← putBack, ← ih, ← hstep]
      rfl

omit [Scalar α] in
lemma putBack_of_notMem {origins : List (Origin α)} (f : Nat → α × α) {i : Nat}
    (h : ∀ o ∈ origins, o.block ≠ i) : putBack origins f i = f i := by
  induction origins generalizing f with
  | nil => rfl
  | cons o rest ih =>
      rw [putBack, List.foldl_cons, ← putBack, ih _ fun o' ho' => h o' (by simp [ho']),
        Function.update_of_ne (Ne.symm (h o (by simp)))]

omit [Scalar α] in
/-- A block that some origin names is put where the origins say, when they agree. -/
lemma putBack_of_mem {origins : List (Origin α)} (f : Nat → α × α) {i : Nat} {x y : α}
    (hmem : ∃ o ∈ origins, o.block = i) (h : ∀ o ∈ origins, o.block = i → o.x = x ∧ o.y = y) :
    putBack origins f i = (x, y) := by
  induction origins generalizing f with
  | nil => simp at hmem
  | cons o rest ih =>
      rw [putBack, List.foldl_cons, ← putBack]
      by_cases hrest : ∃ o' ∈ rest, o'.block = i
      · exact ih _ hrest fun o' ho' => h o' (by simp [ho'])
      · push Not at hrest
        obtain ⟨o', ho', hi⟩ := hmem
        rcases List.mem_cons.mp ho' with rfl | ho'
        · obtain ⟨hx, hy⟩ := h o' (by simp) hi
          rw [putBack_of_notMem _ hrest, hi, Function.update_self, hx, hy]
        · exact absurd hi (hrest o' ho')

end Restore

/-! ## What packing anew answers -/

section Exact

variable {l : Layout Rat} {a b : Int}

lemma mem_suffix_iff {sequence : List Nat} (ha : 0 ≤ a) {i : Nat} :
    i ∈ Slot.suffix sequence a ↔ ∃ p : Nat, a ≤ p ∧ sequence[p]? = some i := by
  rw [Slot.suffix, List.mem_iff_getElem?]
  have hcut : Slot.cut sequence.length a = min a.toNat sequence.length := if_pos ha
  simp only [List.getElem?_drop, hcut]
  constructor
  · rintro ⟨q, hq⟩
    have hlt := (List.getElem?_eq_some_iff.mp hq).1
    exact ⟨_, by omega, hq⟩
  · rintro ⟨p, hp, hi⟩
    have hlt := (List.getElem?_eq_some_iff.mp hi).1
    exact ⟨p - min a.toNat sequence.length, by rwa [Nat.add_sub_of_le (by omega)]⟩

lemma points_repack_of_notMem (h : l.Permuted) (ha : 0 ≤ a) (hb : 0 ≤ b) {i : Nat} (hi : i < l.size)
    (hout : i ∉ l.touched a b) : (l.repack a b).2.points i = l.points i := by
  rw [touched, List.mem_filter, List.mem_range] at hout
  simp only [hi, true_and, Bool.or_eq_true, List.contains_iff_mem, not_or] at hout
  rw [mem_suffix_iff ha, mem_suffix_iff hb] at hout
  push Not at hout
  obtain ⟨p, hp⟩ := List.mem_iff_getElem?.mp (h.positive.mem_iff.mpr (List.mem_range.mpr hi))
  obtain ⟨q, hq⟩ := List.mem_iff_getElem?.mp (h.negative.mem_iff.mpr (List.mem_range.mpr hi))
  have hfrontX : ((0 + p : Nat) : Int) < a := not_le.mp fun hle => hout.1 p (by simpa using hle) hp
  have hfrontY : ((0 + q : Nat) : Int) < b := not_le.mp fun hle => hout.2 q (by simpa using hle) hq
  have hsame : (l.repack a b).2.blocks[i]? = l.blocks[i]? :=
    ((packY_swept (packX_permuted h a) b).front hfrontY hq).trans
      ((packX_swept h a).front hfrontX hp)
  rw [points, points, hsame]

/-- What packing anew answers: the blocks that stand elsewhere afterwards, each with the point where
it stood. -/
lemma mem_repack_iff (h : l.Permuted) (ha : 0 ≤ a) (hb : 0 ≤ b) {o : Origin Rat} :
    o ∈ (l.repack a b).1 ↔
      o.block < l.size ∧ (o.x, o.y) = l.points o.block ∧
        (l.repack a b).2.points o.block ≠ l.points o.block := by
  have hsize : (l.repack a b).2.size = l.size := by
    rw [repack_eq_arrange h, arrange_size]
  have horigins : o ∈ l.origins (l.touched a b) ↔
      o.block ∈ l.touched a b ∧ o.block < l.size ∧ (o.x, o.y) = l.points o.block := by
    simp only [origins, List.mem_filterMap, Option.map_eq_some_iff]
    constructor
    · rintro ⟨i, hi, c, hc, rfl⟩
      exact ⟨hi, (List.getElem?_eq_some_iff.mp hc).1, (points_eq hc).symm⟩
    · rintro ⟨hi, hlt, hpoint⟩
      have hget : l.blocks[o.block]? = some l.blocks[o.block] := List.getElem?_eq_getElem hlt
      rw [points_eq hget, Prod.mk.injEq] at hpoint
      exact ⟨o.block, hi, _, hget, by rw [← hpoint.1, ← hpoint.2]⟩
  have hleft : o.block < l.size → ((l.repack a b).2.hasLeft o = true ↔
      (l.repack a b).2.points o.block ≠ (o.x, o.y)) := by
    intro hlt
    obtain ⟨c, hc⟩ : ∃ c, (l.repack a b).2.blocks[o.block]? = some c :=
      ⟨_, List.getElem?_eq_getElem (hsize.symm ▸ hlt : o.block < (l.repack a b).2.size)⟩
    rw [points_eq hc, hasLeft, hc]
    simp only [Bool.or_eq_true, bne_iff_ne, ne_eq, Prod.mk.injEq]
    tauto
  have hfilter : o ∈ (l.repack a b).1 ↔
      o ∈ l.origins (l.touched a b) ∧ (l.repack a b).2.hasLeft o = true := List.mem_filter
  rw [hfilter, horigins]
  constructor
  · rintro ⟨⟨_, hlt, hpoint⟩, hmoved⟩
    rw [hleft hlt, hpoint] at hmoved
    exact ⟨hlt, hpoint, hmoved⟩
  · rintro ⟨hlt, hpoint, hmoved⟩
    refine ⟨⟨?_, hlt, hpoint⟩, by rwa [hleft hlt, hpoint]⟩
    by_contra hout
    exact hmoved (points_repack_of_notMem h ha hb hlt hout)

/-- **What packing anew answers is enough to put every block back**, also when shapes and sequences
have been changed in between. -/
theorem restore_repack (h : l.Permuted) (ha : 0 ≤ a) (hb : 0 ≤ b) {m : Layout Rat}
    (hsize : m.size = l.size) :
    restore (l.repack a b).1 (m.arrange (l.repack a b).2.points) = m.arrange l.points := by
  rw [restore_arrange]
  refine arrange_congr fun i hi => ?_
  rw [hsize] at hi
  by_cases hmoved : (l.repack a b).2.points i = l.points i
  · rw [putBack_of_notMem, hmoved]
    rintro o ho rfl
    exact ((mem_repack_iff h ha hb).mp ho).2.2 hmoved
  · refine putBack_of_mem _ ⟨⟨i, (l.points i).1, (l.points i).2⟩, ?_, rfl⟩ ?_
    · exact (mem_repack_iff h ha hb).mpr ⟨hi, rfl, hmoved⟩
    · rintro o ho rfl
      have hpoint := ((mem_repack_iff h ha hb).mp ho).2.1
      exact ⟨congrArg Prod.fst hpoint, congrArg Prod.snd hpoint⟩

end Exact

end BlockPlan.Layout
