import Mathlib
import BlockPlan.Cost.Objective
import BlockPlan.Moves.Table
import BlockPlan.Proofs.Design.Valid
import BlockPlan.Proofs.Edit

/-!
# Names and tables that are looked up

What a design and its settings have passed their checks for is that later on nothing is looked up in
vain: guides and fences belong to blocks that there are, the members of nets have a position, and a
draw always falls on a kind of move.

* `Objective.forall_resolved_iff` — what is asked of resolved regions is asked of the blocks that
  they name.
* **`Objective.ofDesign_iff`** — what an objective is made of.
* **`Objective.ofDesign_resolved`** — the guides and fences of a design belong to its blocks.
* `Design.validate_members` — a design that passes its checks knows the members of its nets.
* **`Objective.endPoints_of_isKnown`** — members that a design knows have a position, wherever its
  blocks stand.
* `MoveTable.ofShares_ne_nil` — a table of shares has an entry.
-/

namespace BlockPlan

variable {α : Type}

/-! ## Regions -/

namespace Objective

/-- The place of a name is that of a block with this name. -/
lemma placeOf?_eq_some {blocks : List (Block α)} {name : String} {i : Nat}
    (h : placeOf? blocks name = some i) : ∃ b, blocks[i]? = some b ∧ b.name = name := by
  obtain ⟨⟨b, k⟩, hfound, rfl⟩ := Option.map_eq_some_iff.mp h
  rw [List.findRev?_eq_find?_reverse] at hfound
  have hmem : (b, k) ∈ blocks.zipIdx := List.mem_reverse.mp (List.mem_of_find?_eq_some hfound)
  exact ⟨b, List.mem_zipIdx_iff_getElem?.mp hmem, by simpa using List.find?_some hfound⟩

lemma placeOf?_lt {blocks : List (Block α)} {name : String} {i : Nat}
    (h : placeOf? blocks name = some i) : i < blocks.length := by
  obtain ⟨b, hb, -⟩ := placeOf?_eq_some h
  exact (List.getElem?_eq_some_iff.mp hb).1

/-- Resolving goes through the regions one by one. -/
lemma resolve_cons_eq_ok {blocks : List (Block α)} {region : String × Rect α}
    {rest : List (String × Rect α)} {resolved : List (Nat × Rect α)} :
    resolve blocks (region :: rest) = .ok resolved ↔
      ∃ i others, placeOf? blocks region.1 = some i ∧ resolve blocks rest = .ok others ∧
        resolved = (i, region.2) :: others := by
  rw [resolve, List.mapM_cons, bind_eq_ok]
  constructor
  · rintro ⟨e, he, h⟩
    obtain ⟨others, hothers, ⟨⟩⟩ := bind_eq_ok.mp h
    cases hplace : placeOf? blocks region.1 with
    | none =>
        simp only [hplace] at he
        cases he
    | some i =>
        simp only [hplace] at he
        cases he
        exact ⟨i, others, rfl, hothers, rfl⟩
  · rintro ⟨i, others, hplace, hothers, rfl⟩
    exact ⟨(i, region.2), by simp only [hplace], bind_eq_ok.mpr ⟨others, hothers, rfl⟩⟩

/-- The regions that are resolved belong to blocks. -/
lemma resolve_lt {blocks : List (Block α)} {regions : List (String × Rect α)} :
    ∀ {resolved : List (Nat × Rect α)}, resolve blocks regions = .ok resolved →
      ∀ e ∈ resolved, e.1 < blocks.length := by
  induction regions with
  | nil =>
      rintro _ ⟨⟩
      simp
  | cons region rest ih =>
      intro resolved h
      obtain ⟨i, others, hplace, hothers, rfl⟩ := resolve_cons_eq_ok.mp h
      exact List.forall_mem_cons.mpr ⟨placeOf?_lt hplace, ih hothers⟩

section Placed

variable {blocks placed : List (Block α)} (hnames : placed.map (·.name) = blocks.map (·.name))
  (hnodup : (blocks.map (·.name)).Nodup)

include hnames hnodup

/-- Wherever the blocks are placed, the one at the place of a name is the one that has the name. -/
lemma getElem?_placeOf?_iff {name : String} {i : Nat} (h : placeOf? blocks name = some i)
    {b : Block α} : placed[i]? = some b ↔ b ∈ placed ∧ b.name = name := by
  obtain ⟨c, hc, rfl⟩ := placeOf?_eq_some h
  have hplace : (placed.map (·.name))[i]? = some c.name := by
    rw [hnames, List.getElem?_map, hc]
    rfl
  constructor
  · intro hb
    rw [List.getElem?_map, hb] at hplace
    exact ⟨List.mem_of_getElem? hb, Option.some.inj hplace⟩
  · rintro ⟨hmem, hname⟩
    obtain ⟨j, hj⟩ := List.mem_iff_getElem?.mp hmem
    have hother : (placed.map (·.name))[j]? = some c.name := by
      rw [List.getElem?_map, hj, Option.map_some, hname]
    rw [← hnames] at hnodup
    obtain rfl : i = j := (List.getElem?_inj (List.getElem?_eq_some_iff.mp hplace).1 hnodup).mp
      (hplace.trans hother.symm)
    exact hj

/-- What is asked of the blocks at the resolved places is asked of the blocks
that have the names. -/
lemma forall_resolved_iff (P : Block α → Rect α → Prop) {regions : List (String × Rect α)} :
    ∀ {resolved : List (Nat × Rect α)}, resolve blocks regions = .ok resolved →
      ((∀ e ∈ resolved, ∀ b, placed[e.1]? = some b → P b e.2) ↔
        ∀ r ∈ regions, ∀ b ∈ placed, b.name = r.1 → P b r.2) := by
  induction regions with
  | nil =>
      rintro _ ⟨⟩
      simp
  | cons region rest ih =>
      intro resolved h
      obtain ⟨i, others, hplace, hothers, rfl⟩ := resolve_cons_eq_ok.mp h
      rw [List.forall_mem_cons, List.forall_mem_cons, ih hothers]
      simp only [getElem?_placeOf?_iff hnames hnodup hplace, and_imp]

end Placed

/-- The place of a name depends on the names of the blocks alone. -/
lemma placeOf?_map {f : Block α → Block α} (hname : ∀ b, (f b).name = b.name)
    (blocks : List (Block α)) (name : String) :
    placeOf? (blocks.map f) name = placeOf? blocks name := by
  simp only [placeOf?, List.zipIdx_map, List.findRev?_eq_find?_reverse, ← List.map_reverse,
    List.find?_map, Option.map_map, Function.comp_def, Prod.map, hname, id]

lemma resolve_map {f : Block α → Block α} (hname : ∀ b, (f b).name = b.name)
    (blocks : List (Block α)) (regions : List (String × Rect α)) :
    resolve (blocks.map f) regions = resolve blocks regions := by
  simp only [resolve, placeOf?_map hname]

/-- **What an objective is made of.** -/
theorem ofDesign_iff {d : Design Rat} {w : Weights Rat} {width height : Rat} {o : Objective Rat} :
    ofDesign d w width height = .ok o ↔
      (0 ≤ width ∧ 0 ≤ height) ∧ w.validate = .ok () ∧ resolve d.blocks d.guides = .ok o.guides ∧
        resolve d.blocks d.fences = .ok o.fences ∧
        o = ⟨d.outlineWidth, d.outlineHeight, d.nets, d.terminals, o.guides, o.fences,
          d.blockages.map Rect.box, w, width, height⟩ := by
  simp only [ofDesign]
  constructor
  · intro h
    split_ifs at h with hthreshold
    · obtain ⟨_, hthrow, -⟩ := bind_eq_ok.mp h
      cases hthrow
    · obtain ⟨_, hweights, h⟩ := bind_eq_ok.mp h
      obtain ⟨guides, hguides, h⟩ := bind_eq_ok.mp h
      obtain ⟨fences, hfences, ⟨⟩⟩ := bind_eq_ok.mp h
      exact ⟨by simpa only [not_or, not_lt] using hthreshold, hweights, hguides, hfences, rfl⟩
  · rintro ⟨hthreshold, hweights, hguides, hfences, ho⟩
    rw [if_neg (by simpa only [not_or, not_lt] using hthreshold), hweights, hguides, hfences]
    exact congrArg Except.ok ho.symm

/-- **The nets and terminals are those of the design, and the guides and fences belong to its
blocks.** -/
theorem ofDesign_resolved {d : Design Rat} {weights : Weights Rat} {width height : Rat}
    {o : Objective Rat} (h : ofDesign d weights width height = .ok o) :
    (o.nets = d.nets ∧ o.terminals = d.terminals) ∧
      (∀ g ∈ o.guides, g.1 < d.blocks.length) ∧ ∀ f ∈ o.fences, f.1 < d.blocks.length := by
  obtain ⟨-, -, hguides, hfences, ho⟩ := ofDesign_iff.mp h
  exact ⟨by rw [ho]; exact ⟨rfl, rfl⟩, resolve_lt hguides, resolve_lt hfences⟩

end Objective

/-! ## Members of nets -/

/-- Whether a table has an entry of a name. -/
def Names {β : Type} (table : List (String × β)) (name : String) : Prop :=
  ∃ v, lookUp name table = some v

lemma names_iff {β : Type} {table : List (String × β)} {name : String} :
    Names table name ↔ name ∈ table.map (·.1) := by
  rw [Names, ← Option.isSome_iff_exists, lookUp, Option.isSome_map, List.find?_isSome]
  simp only [List.mem_map, beq_iff_eq]

/-- Entering a value adds its name to those of a table. -/
lemma mem_enter_iff {β : Type} {name other : String} {value : β} {table : List (String × β)} :
    other ∈ (enter name value table).map (·.1) ↔ other = name ∨ other ∈ table.map (·.1) := by
  induction table with
  | nil => simp [enter]
  | cons e rest ih =>
      rw [enter]
      split_ifs with h
      · rw [beq_iff_eq] at h
        simp [← h]
      · rw [List.map_cons, List.mem_cons, ih, List.map_cons, List.mem_cons]
        tauto

lemma mem_enterAll_iff {β : Type} {entries : List (String × β)} {name : String} :
    ∀ {table : List (String × β)}, name ∈ (enterAll entries table).map (·.1) ↔
      name ∈ entries.map (·.1) ∨ name ∈ table.map (·.1) := by
  induction entries with
  | nil => simp [enterAll]
  | cons e rest ih =>
      intro table
      have hstep : enterAll (e :: rest) table = enterAll rest (enter e.1 e.2 table) := rfl
      rw [hstep, ih, mem_enter_iff, List.map_cons, List.mem_cons]
      tauto

/-- A design that passes its checks knows the members of its nets. -/
lemma Design.validate_members [Scalar α] {d : Design α} (h : d.validate = .ok ()) :
    ∀ n ∈ d.nets, ∀ member ∈ n.members, d.isKnown member = true :=
  (validate_ok_iff.mp h).members_known

/-- **A member that a design knows has a position**, wherever its blocks stand. -/
theorem Objective.endPoints_of_isKnown [Scalar α] {d : Design α} {o : Objective α}
    {blocks : List (Block α)} (hterminals : o.terminals = d.terminals)
    (hnames : blocks.map (·.name) = d.blockNames) {member : String} (h : d.isKnown member = true) :
    Names (o.endPoints blocks) member := by
  rw [names_iff, Objective.endPoints, mem_enterAll_iff, List.map_map, hterminals]
  have hfirst : ((fun e : String × (α × α) => e.1) ∘ fun b : Block α => (b.name, b.center))
      = fun b => b.name := rfl
  rw [hfirst, hnames]
  simpa only [Design.isKnown, Bool.or_eq_true, List.contains_iff_mem] using h

/-! ## The table of moves -/

namespace MoveTable

lemma closeLast_ne_nil {entries : List (MoveKind × α)} [Scalar α] {closed : List (MoveKind × α)}
    (h : closeLast entries = .ok closed) : closed ≠ [] := by
  cases entries with
  | nil => cases h
  | cons e rest =>
      cases rest with
      | nil =>
          cases h
          simp
      | cons e' rest =>
          obtain ⟨others, -, ⟨⟩⟩ := bind_eq_ok.mp h
          simp

/-- A table of shares has an entry. -/
lemma ofShares_ne_nil [Scalar α] {shares : MoveShares α} {table : MoveTable α}
    (h : ofShares shares = .ok table) : table.entries ≠ [] := by
  obtain ⟨_, -, h⟩ := bind_eq_ok.mp h
  obtain ⟨entries, hclosed, ⟨⟩⟩ := bind_eq_ok.mp h
  exact closeLast_ne_nil hclosed

end MoveTable

end BlockPlan
