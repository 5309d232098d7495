import Mathlib.Data.List.Count
import Mathlib.Logic.Relation
import Mathlib.Order.Basic

namespace EcommerceService.Monitor

variable {Q A : Type} {next : Q → A → Option Q}

/-- A deterministic partial automaton reads a log. It gets stuck on an event that
the state does not allow. -/
def run (next : Q → A → Option Q) : Q → List A → Option Q
  | q, [] => some q
  | q, a :: w => (next q a).bind (fun q' => run next q' w)

theorem run_append (q : Q) (v w : List A) :
    run next q (v ++ w) = (run next q v).bind (fun q' => run next q' w) := by
  induction v generalizing q with
  | nil => rfl
  | cons a v ih =>
    cases h : next q a with
    | none => simp [run, h]
    | some q' => simpa [run, h] using ih q'

theorem run_append_some {q q'' : Q} {v w : List A} (h : run next q (v ++ w) = some q'') :
    ∃ q', run next q v = some q' ∧ run next q' w = some q'' := by
  rw [run_append] at h
  exact Option.bind_eq_some_iff.mp h

theorem run_cons_some {q q'' : Q} {a : A} {w : List A} (h : run next q (a :: w) = some q'') :
    ∃ q', next q a = some q' ∧ run next q' w = some q'' :=
  Option.bind_eq_some_iff.mp h

/-- Where each step of a system is a run of the automaton, so is a run of the system. -/
theorem follows {C : Type*} {r : C → C → Prop} {R : C → Q → Prop}
    (hstep : ∀ c c' q, r c c' → R c q → ∃ w q', run next q w = some q' ∧ R c' q') {c c' : C}
    (h : Relation.ReflTransGen r c c') {q : Q} (hq : R c q) :
    ∃ w q', run next q w = some q' ∧ R c' q' := by
  induction h with
  | refl => exact ⟨[], q, rfl, hq⟩
  | tail _ hlast ih =>
    obtain ⟨v, q₁, hv, hq₁⟩ := ih
    obtain ⟨w, q', hw, hq'⟩ := hstep _ _ q₁ hlast hq₁
    refine ⟨v ++ w, q', ?_, hq'⟩
    rw [run_append, hv]
    exact hw

section Order

variable [Preorder Q]

def Rises (next : Q → A → Option Q) : Prop := ∀ q a q', next q a = some q' → q ≤ q'

theorem Rises.run (hr : Rises next) {q q' : Q} {w : List A} (h : run next q w = some q') :
    q ≤ q' := by
  induction w generalizing q with
  | nil =>
    cases h
    exact le_refl _
  | cons a w ih =>
    obtain ⟨p, hp, hw⟩ := run_cons_some h
    exact (hr q a p hp).trans (ih hw)

/-- The event `e` happens at `below` only and leads to `above`, and no other event
leads into the states from `above` on. -/
structure Gate (next : Q → A → Option Q) (e : A) (below above : Q) : Prop where
  rises : Rises next
  strict : ¬ above ≤ below
  opens : ∀ q q', next q e = some q' → q = below ∧ q' = above
  only : ∀ q a q', next q a = some q' → above ≤ q' → ¬ above ≤ q → a = e

variable {e : A} {below above : Q}

theorem Gate.not_mem (hg : Gate next e below above) {q q' : Q} {w : List A} (hq : above ≤ q)
    (h : Monitor.run next q w = some q') : e ∉ w := by
  induction w generalizing q with
  | nil => simp
  | cons a w ih =>
    obtain ⟨p, hp, hw⟩ := run_cons_some h
    have ha : e ≠ a := by
      rintro rfl
      exact hg.strict ((hg.opens q p hp).1 ▸ hq)
    simp [ha, ih (hq.trans (hg.rises q a p hp)) hw]

theorem Gate.mem_iff (hg : Gate next e below above) {q q' : Q} {w : List A} (hq : ¬ above ≤ q)
    (h : Monitor.run next q w = some q') : e ∈ w ↔ above ≤ q' := by
  induction w generalizing q with
  | nil =>
    cases h
    simpa using hq
  | cons a w ih =>
    obtain ⟨p, hp, hw⟩ := run_cons_some h
    by_cases hap : above ≤ p
    · obtain rfl := hg.only q a p hp hap hq
      exact ⟨fun _ => hap.trans (hg.rises.run hw), fun _ => List.mem_cons_self⟩
    · have ha : e ≠ a := by
        rintro rfl
        exact hap (hg.opens q p hp).2.ge
      simpa [ha] using ih hap hw

theorem Gate.count_le_one [DecidableEq A] (hg : Gate next e below above) {q q' : Q} {w : List A}
    (h : Monitor.run next q w = some q') : w.count e ≤ 1 := by
  induction w generalizing q with
  | nil => simp
  | cons a w ih =>
    obtain ⟨p, hp, hw⟩ := run_cons_some h
    by_cases ha : a = e
    · subst ha
      have hw' := hg.not_mem (hg.opens q p hp).2.ge hw
      simp [List.count_eq_zero_of_not_mem hw']
    · simpa [ha] using ih hw

theorem Gate.before (hg : Gate next e below above) {q q' : Q} {v w : List A}
    (h : Monitor.run next q (v ++ e :: w) = some q') : Monitor.run next q v = some below := by
  obtain ⟨p, hv, hw⟩ := run_append_some h
  obtain ⟨p', hp, _⟩ := run_cons_some hw
  rw [hv, (hg.opens p p' hp).1]

end Order

end EcommerceService.Monitor
