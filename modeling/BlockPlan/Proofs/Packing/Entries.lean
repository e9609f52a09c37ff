import BlockPlan.Proofs.Packing.Staircase

/-!
# Staircases of entries

Values are entered into a staircase one after the other, under keys in any order and any number of
times under the same key.  Whatever has been entered, the steps climb, and the staircase answers as
if it had kept all of it. Under keys that are all different no two steps have the same key either.

* `Staircase.ofEntries` — the staircase into which some values have been entered.
* `ofEntries_standsFor` — it stands for its entries.
* `keys_nodup_insert`, `ofEntries_keys_nodup` — different keys stay different.
* `Staircase.Answers`, **`ofEntries_answers`** — how the steps lie, and what is answered for every
  key.
-/

namespace BlockPlan.Staircase

variable {α : Type} [Scalar α]

/-- The staircase into which values are entered one after the other. -/
def ofEntries (entries : List (Int × α)) : Staircase α :=
  entries.foldl (fun s e => s.insert e.1 e.2) {}

lemma ofEntries_concat (entries : List (Int × α)) (e : Int × α) :
    ofEntries (entries ++ [e]) = (ofEntries entries).insert e.1 e.2 := by
  rw [ofEntries, List.foldl_append]
  rfl

/-- What a staircase is after some entries: keys and values ascend along its steps, the keys
strictly if none was used twice, and the answer for a key is the largest value entered under a
smaller key, or zero. -/
structure Answers (s : Staircase α) (entries : List (Int × α)) : Prop where
  keys : s.steps.Pairwise fun a b => a.1 ≤ b.1
  keys_strict : (entries.map Prod.fst).Nodup → s.steps.Pairwise fun a b => a.1 < b.1
  values : s.steps.Pairwise fun a b => a.2 < b.2
  query : ∀ key, LargestOrZero {v | ∃ e ∈ entries, e.1 < key ∧ e.2 = v} (s.query key)

variable [Std.IsLinearPreorder α] [Std.LawfulOrderLT α]

/-- The staircase stands for its entries: every one of them adds itself to what it has stood for
before. -/
lemma ofEntries_standsFor (entries : List (Int × α)) :
    (ofEntries entries).StandsFor {e | e ∈ entries} := by
  induction entries using List.reverseRecOn with
  | nil =>
      have hnone : {e : Int × α | e ∈ []} = ∅ :=
        Set.eq_empty_of_forall_notMem fun _ => List.not_mem_nil
      rw [hnone]
      exact standsFor_empty
  | append_singleton entries e ih =>
      have hset : Insert.insert e {d | d ∈ entries} = {d | d ∈ entries ++ [e]} := by
        ext d
        simp [or_comm]
      rw [ofEntries_concat, ← hset]
      exact ih.insert e.1 e.2

/-- Under a key that no step has, a value is entered with a step of its own, or not at all. -/
lemma keys_nodup_insert {s : Staircase α} (hkeys : (s.steps.map Prod.fst).Nodup) {key : Int}
    (hnew : key ∉ s.steps.map Prod.fst) (value : α) :
    ((s.insert key value).steps.map Prod.fst).Nodup := by
  rcases insert_cases s key value with ⟨_, _, _, h⟩ | ⟨_, h⟩
  · rw [h]
    exact hkeys
  · have hsub := (s.before_append_kept_sublist key value).map Prod.fst
    rw [List.map_append] at hsub
    rw [h, List.map_append, List.map_cons, List.nodup_middle, List.nodup_cons]
    exact ⟨fun hmem => hnew (hsub.subset hmem), hkeys.sublist hsub⟩

/-- Steps that were entered under different keys have different keys. -/
lemma ofEntries_keys_nodup {entries : List (Int × α)} (h : (entries.map Prod.fst).Nodup) :
    ((ofEntries entries).steps.map Prod.fst).Nodup := by
  induction entries using List.reverseRecOn with
  | nil => exact List.nodup_nil
  | append_singleton entries e ih =>
      rw [List.map_append, List.nodup_append] at h
      obtain ⟨hkeys, -, hnew⟩ := h
      rw [ofEntries_concat]
      refine keys_nodup_insert (ih hkeys) (fun hmem => ?_) e.2
      -- a step with the key would be one of the entries before
      obtain ⟨d, hd, hkey⟩ := List.mem_map.mp hmem
      have hentry : d.1 ∈ entries.map Prod.fst :=
        List.mem_map_of_mem ((ofEntries_standsFor entries).mem d hd)
      exact hnew _ hentry e.1 (by simp) hkey

/-- **Whatever has been entered into a staircase, it answers for every key the largest value under a
smaller one**, and its steps climb. -/
theorem ofEntries_answers (entries : List (Int × α)) : (ofEntries entries).Answers entries := by
  have hstands := ofEntries_standsFor entries
  refine ⟨hstands.climbs.keys, ?_, hstands.climbs.values, hstands.query⟩
  intro hdifferent
  have hkeys := ofEntries_keys_nodup hdifferent
  rw [List.Nodup, List.pairwise_map] at hkeys
  exact (hstands.climbs.keys.and hkeys).imp fun h => lt_of_le_of_ne h.1 h.2

/-- Two values under one key, a step that is removed by a later one, a value that is already
reached, and one below zero. -/
theorem ofEntries_answers_repeated :
    let entries : List (Int × Rat) := [(3, 5), (4, 6), (1, 5), (3, 2), (7, 9), (7, 8), (-2, -1)]
    (ofEntries entries).steps = [(-2, -1), (1, 5), (4, 6), (7, 8), (7, 9)] ∧
      (ofEntries entries).Answers entries :=
  ⟨by decide +kernel, ofEntries_answers _⟩

end BlockPlan.Staircase
