import Mathlib
import BlockPlan.Design.Basic
import BlockPlan.Proofs.Edit

/-!
# Which designs are valid

A design is checked flaw by flaw, and the first one is reported.  It passes all checks exactly if it
has no flaw, whatever the order of the checks.

* `firstRepeated?_eq_none_iff`, `checkRegions_eq_ok_iff` — what single checks ask for.
* **`Design.validate_ok_iff`** — a design passes its checks exactly if it is valid.
-/

namespace BlockPlan

namespace Design

variable {α : Type}

lemma firstRepeated?_eq_none_iff {seen names : List String} :
    firstRepeated? seen names = none ↔ names.Nodup ∧ ∀ name ∈ names, name ∉ seen := by
  induction names generalizing seen with
  | nil => simp [firstRepeated?]
  | cons name rest ih =>
      rw [firstRepeated?, List.nodup_cons, List.forall_mem_cons]
      split_ifs with hseen
      · exact iff_of_false (by simp) fun h => h.2.1 (List.contains_iff_mem.mp hseen)
      · have hnot : name ∉ seen := fun hmem => hseen (List.contains_iff_mem.mpr hmem)
        rw [ih]
        constructor
        · rintro ⟨hnodup, happart⟩
          have hname : name ∉ rest := fun hmem => happart name hmem (by simp)
          exact ⟨⟨hname, hnodup⟩, hnot, fun other hother hmem =>
              happart other hother (by simp [hmem])⟩
        · rintro ⟨⟨hname, hnodup⟩, -, happart⟩
          refine ⟨hnodup, fun other hother hmem => ?_⟩
          rcases List.mem_cons.mp hmem with rfl | hmem
          · exact hname hother
          · exact happart other hother hmem

variable [Scalar α]

/-- Regions pass their check if each belongs to a block and has sides above zero. -/
lemma checkRegions_eq_ok_iff {names : List String} {kind : RegionKind}
    {regions : List (String × Rect α)} :
    checkRegions names kind regions = .ok () ↔
      ∀ r ∈ regions, r.1 ∈ names ∧ ¬ r.2.width ≤ 0 ∧ ¬ r.2.height ≤ 0 := by
  induction regions with
  | nil => simp [checkRegions]
  | cons region rest ih =>
      rw [checkRegions, List.forall_mem_cons, ← ih]
      split_ifs with hname hsides
      · have hnot : region.1 ∉ names := by simpa using hname
        simp [hnot]
      · exact iff_of_false (by simp) fun h => not_or.mpr h.1.2 hsides
      · have hmem : region.1 ∈ names := by simpa using hname
        rw [not_or] at hsides
        simp only [hmem, hsides, not_false_eq_true, and_self, true_and]

omit [Scalar α] in
lemma unknownMember?_eq_none_iff {d : Design α} :
    d.unknownMember? = none ↔ ∀ n ∈ d.nets, ∀ m ∈ n.members, d.isKnown m = true := by
  simp [unknownMember?, List.findSome?_eq_none_iff]

/-- **A design passes its checks exactly if it is valid.** -/
theorem validate_ok_iff {d : Design α} : d.validate = .ok () ↔ d.Valid := by
  rw [validate]
  constructor
  · intro h
    split_ifs at h with hsides
    split at h
    · cases h
    rename_i hnames
    split at h
    · cases h
    rename_i hterminals
    split at h
    · cases h
    rename_i hmembers
    obtain ⟨_, hguides, hfences⟩ := bind_eq_ok.mp h
    rw [not_or] at hsides
    exact {
      width_pos := hsides.1
      height_pos := hsides.2
      names_nodup := (firstRepeated?_eq_none_iff.mp hnames).1
      terminals_apart := by
        intro t ht hmem
        have hclash := List.find?_eq_none.mp hterminals t.1 (List.mem_map_of_mem ht)
        exact hclash (List.contains_iff_mem.mpr hmem)
      members_known := unknownMember?_eq_none_iff.mp hmembers
      guides_known := checkRegions_eq_ok_iff.mp hguides
      fences_known := checkRegions_eq_ok_iff.mp hfences }
  · intro h
    have hterminals : (d.terminals.map (·.1)).find? d.blockNames.contains = none := by
      refine List.find?_eq_none.mpr fun name hname hclash => ?_
      obtain ⟨t, ht, rfl⟩ := List.mem_map.mp hname
      exact h.terminals_apart t ht (List.contains_iff_mem.mp hclash)
    rw [if_neg (not_or.mpr ⟨h.width_pos, h.height_pos⟩),
      firstRepeated?_eq_none_iff.mpr ⟨h.names_nodup, fun _ _ => List.not_mem_nil⟩]
    simp only [hterminals, unknownMember?_eq_none_iff.mpr h.members_known]
    exact bind_eq_ok.mpr
      ⟨(), checkRegions_eq_ok_iff.mpr h.guides_known, checkRegions_eq_ok_iff.mpr h.fences_known⟩

end Design

end BlockPlan
