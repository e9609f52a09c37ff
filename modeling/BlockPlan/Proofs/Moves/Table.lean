import BlockPlan.Proofs.Moves.Weights
import BlockPlan.Proofs.Sequence.Bisection

/-!
# What a draw picks

A table of moves cuts the unit interval into stretches, one for every kind that has a weight, and a
draw picks the kind in whose stretch it falls.  No kind has two stretches, so the draws that pick a
kind are an interval, and it is as long as the weight of the kind.

* `MoveTable.pick_of_isStretch`, `MoveTable.exists_isStretch` — which kind a draw picks, and that
  there is one.
* `MoveTable.exists_interval` — the draws that pick a kind.
* **`MoveTable.ofShares_distributes`** — shares that pass their checks make a table that draws every
  kind with its chance.
-/

namespace BlockPlan

namespace MoveTable

/-! ## Stretches of the unit interval -/

/-- Entry `i` of a table is a kind, and its stretch reaches from `low` to `high`. -/
def IsStretch (t : MoveTable Rat) (i : Nat) (kind : MoveKind) (low high : Rat) : Prop :=
  (0 :: t.bounds)[i]? = some low ∧ t.entries[i]? = some (kind, high)

section Stretches

variable {t : MoveTable Rat} {i : Nat} {kind : MoveKind} {low high draw : Rat}

lemma IsStretch.bound (h : t.IsStretch i kind low high) : t.bounds[i]? = some high := by
  rw [bounds, List.getElem?_map, h.2]
  rfl

lemma IsStretch.kind_mem (h : t.IsStretch i kind low high) : kind ∈ t.kinds :=
  List.mem_map_of_mem (f := (·.1)) (List.mem_of_getElem? h.2)

/-- Every kind of a table has a stretch. -/
lemma exists_isStretch_of_mem (h : kind ∈ t.kinds) : ∃ i low high, t.IsStretch i kind low high := by
  obtain ⟨⟨k, high⟩, hmem, rfl⟩ := List.mem_map.mp h
  obtain ⟨i, hi, hentry⟩ := List.mem_iff_getElem.mp hmem
  have hlt : i < (0 :: t.bounds).length := by
    rw [List.length_cons, bounds, List.length_map]
    exact hi.trans (Nat.lt_succ_self _)
  exact ⟨i, _, high, List.getElem?_eq_getElem hlt, hentry ▸ List.getElem?_eq_getElem hi⟩

lemma stretchOf_getElem? {entries : List (MoveKind × Rat)} (hnodup : (entries.map (·.1)).Nodup) :
    ∀ {below : Rat} {i : Nat}, (below :: entries.map (·.2))[i]? = some low →
      entries[i]? = some (kind, high) → stretchOf kind below entries = high - low := by
  induction entries with
  | nil => exact fun _ h => absurd h (by simp)
  | cons e rest ih =>
      rw [List.map_cons, List.nodup_cons] at hnodup
      rintro below (_ | i) hlow hentry
      · obtain rfl : below = low := by simpa using hlow
        obtain rfl : e = (kind, high) := by simpa using hentry
        exact if_pos rfl
      · rw [List.getElem?_cons_succ] at hlow hentry
        have hne : e.1 ≠ kind := by
          rintro rfl
          exact hnodup.1 (List.mem_map_of_mem (f := (·.1)) (List.mem_of_getElem? hentry))
        rw [stretchOf, if_neg hne]
        exact ih hnodup.2 hlow hentry

/-- How likely a kind is drawn is how long its stretch is. -/
lemma IsStretch.probability_eq (h : t.IsStretch i kind low high) (hnodup : t.kinds.Nodup) :
    t.probability kind = high - low :=
  stretchOf_getElem? hnodup h.1 h.2

lemma probability_of_not_mem (h : kind ∉ t.kinds) : t.probability kind = 0 := by
  have hstretch : ∀ (below : Rat) (entries : List (MoveKind × Rat)), kind ∉ entries.map (·.1) →
      stretchOf kind below entries = 0 := by
    intro below entries hkind
    induction entries generalizing below with
    | nil => rfl
    | cons e rest ih =>
        rw [List.map_cons, List.mem_cons, not_or] at hkind
        rw [stretchOf, if_neg (Ne.symm hkind.1), ih e.2 hkind.2]
  exact hstretch 0 t.entries h

lemma pick_mem (hsome : t.entries ≠ []) (draw : Rat) : t.pick draw ∈ t.kinds := by
  have hlength := List.length_pos_iff.mpr hsome
  have hlt : min (upperPlace t.bounds draw) (t.entries.length - 1) < t.entries.length := by omega
  rw [pick, List.getElem?_eq_getElem hlt]
  exact List.mem_map_of_mem (f := (·.1)) (List.getElem_mem hlt)

variable (hincreasing : (0 :: t.bounds).Pairwise (· < ·))

include hincreasing

lemma bounds_sorted : t.bounds.Pairwise (· ≤ ·) :=
  (List.pairwise_cons.mp hincreasing).2.imp le_of_lt

lemma IsStretch.lt (h : t.IsStretch i kind low high) : low < high := by
  have hhigh : (0 :: t.bounds)[i + 1]? = some high := h.bound
  obtain ⟨hi, rfl⟩ := List.getElem?_eq_some_iff.mp h.1
  obtain ⟨hi', rfl⟩ := List.getElem?_eq_some_iff.mp hhigh
  exact List.pairwise_iff_getElem.mp hincreasing i (i + 1) hi hi' (Nat.lt_succ_self i)

lemma IsStretch.low_nonneg (h : t.IsStretch i kind low high) : 0 ≤ low := by
  rcases List.mem_cons.mp (List.mem_of_getElem? h.1) with rfl | hmem
  · exact le_rfl
  · exact ((List.pairwise_cons.mp hincreasing).1 low hmem).le

/-- **A draw picks the kind in whose stretch it falls**, the lower end with it. -/
theorem pick_of_isStretch (h : t.IsStretch i kind low high) (hlow : low ≤ draw)
    (hhigh : draw < high) : t.pick draw = kind := by
  have hsorted := bounds_sorted hincreasing
  have hplace : upperPlace t.bounds draw = i := by
    apply le_antisymm
    · exact not_lt.mp ((lt_upperPlace_iff hsorted h.bound).not.mpr (not_le.mpr hhigh))
    · rcases i with _ | j
      · exact Nat.zero_le _
      · exact (lt_upperPlace_iff hsorted h.1).mpr hlow
  have hlt : i < t.entries.length := (List.getElem?_eq_some_iff.mp h.2).1
  rw [pick, hplace, Nat.min_eq_left (Nat.le_sub_one_of_lt hlt), h.2]

variable (hlast : t.bounds.getLast? = some 1)

include hlast

/-- The stretches leave no gap below one. -/
theorem exists_isStretch (hnonneg : 0 ≤ draw) (hone : draw < 1) :
    ∃ i kind low high, t.IsStretch i kind low high ∧ low ≤ draw ∧ draw < high := by
  have hsorted := bounds_sorted hincreasing
  set i := upperPlace t.bounds draw with hi
  have hlt : i < t.bounds.length := by
    rw [List.getLast?_eq_getElem?] at hlast
    have hpast := (lt_upperPlace_iff hsorted hlast).not.mpr (not_le.mpr hone)
    have hbound := (List.getElem?_eq_some_iff.mp hlast).1
    omega
  have hlength : i < t.entries.length := by simpa [bounds] using hlt
  have hbound : t.bounds[i]? = some t.entries[i].2 := by
    rw [bounds, List.getElem?_map, List.getElem?_eq_getElem hlength]
    rfl
  have hlow : i < (0 :: t.bounds).length := hlt.trans (Nat.lt_succ_self _)
  refine ⟨i, t.entries[i].1, (0 :: t.bounds)[i], t.entries[i].2,
    ⟨List.getElem?_eq_getElem hlow, List.getElem?_eq_getElem hlength⟩, ?_, ?_⟩
  · have hat := List.getElem?_eq_getElem hlow
    revert hat
    generalize (0 :: t.bounds)[i] = low
    rcases hcase : i with _ | j
    · intro hat
      exact (Option.some.inj hat) ▸ hnonneg
    · intro hat
      exact (lt_upperPlace_iff hsorted hat).mp (by omega)
  · exact not_le.mp ((lt_upperPlace_iff hsorted hbound).not.mp (lt_irrefl i))

lemma IsStretch.high_le (h : t.IsStretch i kind low high) : high ≤ 1 := by
  have hbound := h.bound
  rw [List.getLast?_eq_getElem?] at hlast
  have hlt := (List.getElem?_eq_some_iff.mp hbound).1
  exact getElem?_mono (bounds_sorted hincreasing) (Nat.le_sub_one_of_lt hlt) hbound hlast

end Stretches

/-! ## The distribution -/

/-- What a table is for: every kind is drawn with its chance.  The bounds of the stretches increase
from zero to one, a draw picks the kind of the stretch that holds it, and the draws that pick a kind
are an interval as long as the kind is likely. -/
structure Distributes (t : MoveTable Rat) (chance : MoveKind → Rat) : Prop where
  increasing : (0 :: t.bounds).Pairwise (· < ·)
  last : t.bounds.getLast? = some 1
  covered : ∀ draw, 0 ≤ draw → draw < 1 →
    ∃ i kind low high, t.IsStretch i kind low high ∧ low ≤ draw ∧ draw < high
  pick : ∀ i kind low high draw, t.IsStretch i kind low high → low ≤ draw → draw < high →
    t.pick draw = kind
  interval : ∀ kind, ∃ low high, 0 ≤ low ∧ low ≤ high ∧ high ≤ 1 ∧ high - low = t.probability kind ∧
    ∀ draw, 0 ≤ draw → draw < 1 → (t.pick draw = kind ↔ low ≤ draw ∧ draw < high)
  never : ∀ kind, t.probability kind = 0 ∨ kind = .shrink → ∀ draw, t.pick draw ≠ kind
  sum : (MoveKind.all.map t.probability).sum = 1
  probability : ∀ kind, t.probability kind = chance kind

/-- The draws below one that pick a kind are its stretch, and there are none without a stretch. -/
lemma exists_interval {t : MoveTable Rat} (hincreasing : (0 :: t.bounds).Pairwise (· < ·))
    (hlast : t.bounds.getLast? = some 1) (hnodup : t.kinds.Nodup) (kind : MoveKind) :
    ∃ low high, 0 ≤ low ∧ low ≤ high ∧ high ≤ 1 ∧ high - low = t.probability kind ∧
      ∀ draw, 0 ≤ draw → draw < 1 → (t.pick draw = kind ↔ low ≤ draw ∧ draw < high) := by
  by_cases hmem : kind ∈ t.kinds
  · obtain ⟨i, low, high, hstretch⟩ := exists_isStretch_of_mem hmem
    refine ⟨low, high, hstretch.low_nonneg hincreasing, (hstretch.lt hincreasing).le,
      hstretch.high_le hincreasing hlast, (hstretch.probability_eq hnodup).symm,
        fun draw hnonneg hone => ?_⟩
    refine ⟨fun hpick => ?_, fun h => pick_of_isStretch hincreasing hstretch h.1 h.2⟩
    obtain ⟨j, kind', low', high', hstretch', hlow, hhigh⟩ :=
      exists_isStretch hincreasing hlast hnonneg hone
    -- no kind has two stretches
    obtain rfl : kind' = kind :=
      (pick_of_isStretch hincreasing hstretch' hlow hhigh).symm.trans hpick
    obtain rfl : j = i := by
      have hkind : ∀ {n l u}, t.IsStretch n kind' l u → t.kinds[n]? = some kind' := by
        intro n l u h
        rw [kinds, List.getElem?_map, h.2]
        rfl
      exact (List.getElem?_inj (List.getElem?_eq_some_iff.mp (hkind hstretch')).1 hnodup).mp
        ((hkind hstretch').trans (hkind hstretch).symm)
    obtain rfl : low' = low := Option.some.inj (hstretch'.1.symm.trans hstretch.1)
    obtain rfl : high' = high := Option.some.inj (hstretch'.bound.symm.trans hstretch.bound)
    exact ⟨hlow, hhigh⟩
  · refine ⟨0, 0, le_rfl, le_rfl, zero_le_one, ?_, fun draw hnonneg hone => ?_⟩
    · rw [sub_zero, probability_of_not_mem hmem]
    · obtain ⟨j, kind', low, high, hstretch, hlow, hhigh⟩ :=
        exists_isStretch hincreasing hlast hnonneg hone
      have hpick := pick_of_isStretch hincreasing hstretch hlow hhigh
      constructor
      · rintro rfl
        rw [hpick] at hmem
        exact absurd hstretch.kind_mem hmem
      · rintro ⟨hzero, hlt⟩
        exact absurd hlt (not_lt.mpr hzero)

/-- A kind with a share is picked by some draw. -/
lemma exists_pick {s : MoveShares Rat} {t : MoveTable Rat} (ht : ofShares s = .ok t)
    {kind : MoveKind} (hshare : 0 < s.share kind) :
    ∃ draw : { q : Rat // 0 ≤ q ∧ q < 1 }, t.pick draw = kind := by
  obtain ⟨_, hvalid, -⟩ := bind_eq_ok.mp ht
  obtain ⟨ws, htable, hpos, -, hsum, hweight⟩ := ofShares_eq_accumulate hvalid
  obtain rfl : (⟨accumulate 0 ws⟩ : MoveTable Rat) = t := Except.ok.inj (htable.symm.trans ht)
  have hmem : kind ∈ ws.map (·.1) := by
    by_contra hnone
    have hzero := (hweight kind).symm.trans (weightOf_eq_zero hnone)
    exact (s.chance_pos hvalid hshare).ne' hzero
  have hkinds : kinds ⟨accumulate 0 ws⟩ = ws.map (·.1) := kinds_accumulate hpos
  have hincreasing : (0 :: bounds ⟨accumulate 0 ws⟩).Pairwise (· < ·) := accumulate_increasing hpos
  have hlast : (bounds ⟨accumulate 0 ws⟩).getLast? = some 1 := by
    rw [← hsum, ← zero_add (ws.map (·.2)).sum]
    exact getLast?_accumulate hpos (by rintro rfl; simp at hmem)
  obtain ⟨i, low, high, hstretch⟩ := exists_isStretch_of_mem (hkinds ▸ hmem)
  have hlt := hstretch.lt hincreasing
  exact ⟨⟨low, hstretch.low_nonneg hincreasing, hlt.trans_le (hstretch.high_le hincreasing hlast)⟩,
    pick_of_isStretch hincreasing hstretch le_rfl hlt⟩

/-- **Shares that pass their checks make a table that draws every kind with its chance.** -/
theorem ofShares_distributes {s : MoveShares Rat} (h : s.validate = .ok ()) :
    ∃ t, ofShares s = .ok t ∧ t.Distributes s.chance := by
  obtain ⟨ws, htable, hpos, hnodup, hsum, hweight⟩ := ofShares_eq_accumulate h
  set t : MoveTable Rat := ⟨accumulate 0 ws⟩
  have hincreasing : (0 :: t.bounds).Pairwise (· < ·) := accumulate_increasing hpos
  have hkinds : t.kinds = ws.map (·.1) := kinds_accumulate hpos
  have hprobability : ∀ kind, t.probability kind = weightOf kind ws := stretchOf_accumulate hpos
  have hsome : ws ≠ [] := by
    rintro rfl
    exact zero_ne_one hsum
  have hlast : t.bounds.getLast? = some 1 := by
    rw [← hsum, ← zero_add (ws.map (·.2)).sum]
    exact getLast?_accumulate hpos hsome
  have hnonempty : t.entries ≠ [] := by
    intro hnil
    have hnone : t.kinds = [] := by rw [kinds, hnil, List.map_nil]
    exact hsome (List.map_eq_nil_iff.mp (hkinds.symm.trans hnone))
  have hnever : ∀ kind, t.probability kind = 0 → ∀ draw, t.pick draw ≠ kind := by
    rintro kind hzero draw rfl
    obtain ⟨i, low, high, hstretch⟩ := exists_isStretch_of_mem (pick_mem hnonempty draw)
    have hlength := hstretch.probability_eq (hkinds ▸ hnodup)
    exact (sub_pos.mpr (hstretch.lt hincreasing)).ne (hzero.symm.trans hlength)
  have hchance : ∀ kind, t.probability kind = s.chance kind := fun kind =>
    (hprobability kind).trans (hweight kind)
  have hkindsNodup : t.kinds.Nodup := by
    rw [hkinds]
    exact hnodup
  refine ⟨t, htable, ?_⟩
  constructor
  case increasing => exact hincreasing
  case last => exact hlast
  case covered =>
    intro draw
    exact exists_isStretch hincreasing hlast
  case pick =>
    intro i kind low high draw
    exact pick_of_isStretch hincreasing
  case interval => exact exists_interval hincreasing hlast hkindsNodup
  case never =>
    rintro kind (hzero | rfl)
    · exact hnever kind hzero
    · apply hnever
      rw [hchance, s.chance_shrink]
  case sum => rw [List.map_congr_left fun kind _ => hprobability kind, sum_weightOf hnodup, hsum]
  case probability => exact hchance

/-- With half of the draws for one kind and a quarter for another, the last
quarter goes to turns. -/
theorem ofShares_distributes_turning :
    (⟨1 / 2, 0, 1 / 4, 0, 0⟩ : MoveShares Rat).validate = .ok () ∧
      MoveShares.chance ⟨1 / 2, 0, 1 / 4, 0, 0⟩ .rotate = 1 / 4 ∧
      ∃ t, ofShares (⟨1 / 2, 0, 1 / 4, 0, 0⟩ : MoveShares Rat) = .ok t ∧
        t.Distributes (MoveShares.chance ⟨1 / 2, 0, 1 / 4, 0, 0⟩) := by
  have hvalid : (⟨1 / 2, 0, 1 / 4, 0, 0⟩ : MoveShares Rat).validate = .ok () := by decide +kernel
  exact ⟨hvalid, by decide +kernel, ofShares_distributes hvalid⟩

end MoveTable

end BlockPlan
