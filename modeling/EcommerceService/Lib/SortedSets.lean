import Mathlib.Data.List.Nodup
import Mathlib.Data.List.Count

namespace EcommerceService.SortedSets

/-- A sorted set: each member once, with its score. -/
structure SortedSet (M K : Type) where
  entries : List (M × K)
  distinct : (entries.map Prod.fst).Nodup

variable {M K : Type}

namespace SortedSet

def empty : SortedSet M K := ⟨[], List.nodup_nil⟩

def Has (set : SortedSet M K) (m : M) (k : K) : Prop := (m, k) ∈ set.entries

def count (range : K → Bool) (set : SortedSet M K) : ℕ := set.entries.countP (fun e => range e.2)

def remove (range : K → Bool) (set : SortedSet M K) : SortedSet M K :=
  ⟨set.entries.filter (fun e => !range e.2), set.distinct.sublist (List.filter_sublist.map _)⟩

def add [DecidableEq M] (k : K) (m : M) (set : SortedSet M K) : SortedSet M K where
  entries := set.entries.filter (fun e => e.1 ≠ m) ++ [(m, k)]
  distinct := by
    rw [List.map_append, List.nodup_append]
    refine ⟨set.distinct.sublist (List.filter_sublist.map _), List.nodup_singleton m, ?_⟩
    intro a ha b hb
    obtain rfl := List.mem_singleton.mp hb
    obtain ⟨e, he, rfl⟩ := List.mem_map.mp ha
    simpa using (List.mem_filter.mp he).2

@[simp] theorem not_has_empty {m : M} {k : K} : ¬ (empty : SortedSet M K).Has m k := by
  simp [Has, empty]

@[simp] theorem count_empty (range : K → Bool) : (empty : SortedSet M K).count range = 0 := rfl

@[simp] theorem has_remove {range : K → Bool} {set : SortedSet M K} {m : M} {k : K} :
    (set.remove range).Has m k ↔ set.Has m k ∧ range k = false := by
  simp [Has, remove]

theorem count_remove (range range' : K → Bool) (set : SortedSet M K) :
    (set.remove range').count range = set.count (fun k => range k && !range' k) := by
  simp [count, remove, List.countP_filter]

theorem count_mono {range range' : K → Bool} (set : SortedSet M K)
    (h : ∀ k, range k = true → range' k = true) : set.count range ≤ set.count range' :=
  List.countP_mono_left (fun e _ => h e.2)

theorem count_congr {range range' : K → Bool} {set : SortedSet M K}
    (h : ∀ m k, set.Has m k → range k = range' k) : set.count range = set.count range' := by
  refine List.countP_congr (fun e he => ?_)
  rw [h e.1 e.2 he]

variable [DecidableEq M]

@[simp] theorem has_add {set : SortedSet M K} {m m' : M} {k k' : K} :
    (set.add k m).Has m' k' ↔ (m' = m ∧ k' = k) ∨ (m' ≠ m ∧ set.Has m' k') := by
  simp only [Has, add, List.mem_append, List.mem_filter, List.mem_singleton, Prod.mk.injEq,
    decide_eq_true_eq]
  tauto

theorem count_add {range : K → Bool} {set : SortedSet M K} {m : M} {k : K}
    (h : ∀ k', ¬ set.Has m k') :
    (set.add k m).count range = set.count range + if range k then 1 else 0 := by
  have hall : set.entries.filter (fun e => e.1 ≠ m) = set.entries := by
    refine List.filter_eq_self.mpr (fun e he => ?_)
    simp only [decide_eq_true_eq]
    rintro rfl
    exact h e.2 he
  simp only [count, add, hall, List.countP_append, List.countP_singleton]

theorem count_add_le (range : K → Bool) (set : SortedSet M K) (m : M) (k : K) :
    (set.add k m).count range ≤ set.count range + 1 := by
  have hfilter := (List.filter_sublist (p := fun e => decide (e.1 ≠ m))
    (l := set.entries)).countP_le (p := fun e => range e.2)
  simp only [count, add, List.countP_append, List.countP_cons, List.countP_nil]
  split <;> omega

end SortedSet

end EcommerceService.SortedSets
