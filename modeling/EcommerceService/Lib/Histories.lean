import Mathlib.Algebra.BigOperators.Group.Finset.Piecewise
import Mathlib.Data.List.Infix
import EcommerceService.Lib.Pool

namespace EcommerceService.Histories

open EcommerceService.Effects EcommerceService.Pool

universe u

variable {Pid Job : Type} {C : Type u} {R : C → Type} {E E' A B S : Type}

abbrev History (C : Type u) (R : C → Type) : Type u := List (Σ c : C, R c)

/-- After the calls `h`, every call that `p` makes is one that `may` allows after what was
called before it, and `p` ends in `post`, as long as every answer is genuine. -/
def Obeys (genuine : (c : C) → History C R → R c → Prop) (may : C → History C R → Prop)
    (post : Exit E A → History C R → Prop) : Effect C R E A → History C R → Prop
  | .succeed a, h => post (.success a) h
  | .fail e, h => post (.failure e) h
  | .die, h => post .defect h
  | .perform c k, h => may c h ∧
      ∀ r, genuine c h r → Obeys genuine may post (k r) (h ++ [⟨c, r⟩])

section Rules

variable {genuine : (c : C) → History C R → R c → Prop} {may : C → History C R → Prop}
  {h : History C R}

theorem Obeys.mono {post post' : Exit E A → History C R → Prop} {p : Effect C R E A}
    (hp : Obeys genuine may post p h) (hpost : ∀ x h', h <+: h' → post x h' → post' x h') :
    Obeys genuine may post' p h := by
  induction p generalizing h with
  | succeed a => exact hpost _ _ (List.prefix_refl h) hp
  | fail e => exact hpost _ _ (List.prefix_refl h) hp
  | die => exact hpost _ _ (List.prefix_refl h) hp
  | perform c k ih =>
    refine ⟨hp.1, fun r hr => ih r (hp.2 r hr) (fun x h' hh => hpost x h' ?_)⟩
    exact (List.prefix_append h _).trans hh

theorem Obeys.flatMap {post : Exit E B → History C R → Prop} {f : A → Effect C R E B}
    {p : Effect C R E A}
    (hp : Obeys genuine may (fun y h' => Obeys genuine may post (Effect.resume f y) h') p h) :
    Obeys genuine may post (p.flatMap f) h := by
  induction p generalizing h with
  | succeed a => exact hp
  | fail e => exact hp
  | die => exact hp
  | perform c k ih => exact ⟨hp.1, fun r hr => ih r (hp.2 r hr)⟩

theorem Obeys.catchAll {post : Exit E' A → History C R → Prop} {f : E → Effect C R E' A}
    {p : Effect C R E A}
    (hp : Obeys genuine may (fun y h' => Obeys genuine may post (Effect.handle f y) h') p h) :
    Obeys genuine may post (p.catchAll f) h := by
  induction p generalizing h with
  | succeed a => exact hp
  | fail e => exact hp
  | die => exact hp
  | perform c k ih => exact ⟨hp.1, fun r hr => ih r (hp.2 r hr)⟩

theorem Obeys.of_confined {P : C → Prop} {Q : E → Prop} {F : History C R → Prop}
    {p : Effect C R E A} (hp : Effect.Confined Effect.anyAnswer P Q p) (hF : F h)
    (hcall : ∀ c h, P c → F h → may c h ∧ ∀ r, F (h ++ [⟨c, r⟩])) :
    Obeys genuine may (fun _ h' => F h') p h := by
  induction p generalizing h with
  | succeed a => exact hF
  | fail e => exact hF
  | die => exact hF
  | perform c k ih =>
    obtain ⟨hmay, hkeep⟩ := hcall c h hp.1 hF
    exact ⟨hmay, fun r _ => ih r (hp.2 r trivial) (hkeep r)⟩

end Rules

def keep [DecidableEq Pid] (own : Pid → History C R) : Label Pid Job C R → Pid → History C R
  | .env => own
  | .start i _ => Function.update own i []
  | .call i q r => Function.update own i (own i ++ [⟨q, r⟩])
  | .stop i => Function.update own i []

def entry (c : Config Pid Job C R E A S) : Label Pid Job C R → List (Job × Σ q : C, R q)
  | .call i q r => ((c.pool i).map (fun e => (e.1, ⟨q, r⟩))).toList
  | _ => []

/-- What a run has been: what each process has called since it began, all that was called, and
the states that were passed. -/
structure Record (Pid Job : Type) (C : Type u) (R : C → Type) (S : Type) : Type u where
  own : Pid → History C R
  calls : List (Job × Σ q : C, R q)
  passed : List S

/-- The system has gone from `s`, where no process had begun, by steps that meet `ok`. -/
inductive Recorded [DecidableEq Pid] (sys : System Pid Job C R E A S)
    (ok : Config Pid Job C R E A S → Label Pid Job C R → Prop) (s : S) :
    Record Pid Job C R S → Config Pid Job C R E A S → Prop
  | quiet : Recorded sys ok s ⟨fun _ => [], [], [s]⟩ (quiet s)
  | step {w : Record Pid Job C R S} {l : Label Pid Job C R} {c c' : Config Pid Job C R E A S} :
      Recorded sys ok s w c → Step sys c l c' → ok c l →
      Recorded sys ok s ⟨keep w.own l, w.calls ++ entry c l, w.passed ++ [c'.shared]⟩ c'

section Systems

variable [DecidableEq Pid] {sys : System Pid Job C R E A S} {s : S} {own : Pid → History C R}
  {w : Record Pid Job C R S} {c c' : Config Pid Job C R E A S} {l : Label Pid Job C R}

def AllObey (genuine : Job → (c : C) → History C R → R c → Prop)
    (may : Job → C → History C R → Prop) (post : Job → Exit E A → History C R → Prop)
    (own : Pid → History C R) (c : Config Pid Job C R E A S) : Prop :=
  ∀ i j p, c.pool i = some (j, p) → Obeys (genuine j) (may j) (post j) p (own i)

variable {genuine : Job → (c : C) → History C R → R c → Prop} {may : Job → C → History C R → Prop}
  {post : Job → Exit E A → History C R → Prop}

/-- The programs obey, and the answer to the call of a step is genuine. -/
theorem AllObey.step (h : AllObey genuine may post own c)
    (hprogram : ∀ j, Obeys (genuine j) (may j) (post j) (sys.program j) [])
    (hs : Step sys c l c')
    (hl : ∀ i j p q r, l = .call i q r → c.pool i = some (j, p) → genuine j q (own i) r) :
    AllObey genuine may post (keep own l) c' := by
  have hother : ∀ {i i' : Pid} {j : Job} {p : Effect C R E A} (h' : History C R), i' ≠ i →
      c.pool i' = some (j, p) →
      Obeys (genuine j) (may j) (post j) p (Function.update own i h' i') := by
    intro i i' j p h' hne hp
    rw [Function.update_of_ne hne]
    exact h i' j p hp
  intro i' j' p' hp'
  cases hs with
  | env _ => exact h i' j' p' hp'
  | start _ _ =>
    obtain ⟨rfl, hv⟩ | ⟨hne, hp'⟩ := pool_update hp'
    · obtain ⟨rfl, rfl⟩ := Prod.mk.inj (Option.some.inj hv)
      simpa only [keep, Function.update_self] using hprogram _
    · exact hother _ hne hp'
  | @call i j q k r s' hi _ =>
    obtain ⟨rfl, hv⟩ | ⟨hne, hp'⟩ := pool_update hp'
    · obtain ⟨rfl, rfl⟩ := Prod.mk.inj (Option.some.inj hv)
      simpa only [keep, Function.update_self] using (h i' _ _ hi).2 r (hl i' _ _ q r rfl hi)
    · exact hother _ hne hp'
  | stop =>
    obtain ⟨_, hv⟩ | ⟨hne, hp'⟩ := pool_update hp'
    · cases hv
    · exact hother _ hne hp'

/-- A process that goes on alone until it comes to a call, by calls that `good` and so `ok`
allows. -/
theorem Recorded.comes {ok : Config Pid Job C R E A S → Label Pid Job C R → Prop} {i : Pid} {j : Job}
    {p : Effect C R E A} {q : C} {s₁ t : S} {pool : Pid → Option (Job × Effect C R E A)}
    {good : (q : C) → S → R q → Prop}
    (hc : Effect.Comes (fun q s r t => sys.exec q s r t ∧ good q s r) p s₁ q t)
    (h : Recorded sys ok s w ⟨s₁, Function.update pool i (some (j, p))⟩)
    (hok : ∀ q k s r, good q s r →
      ok ⟨s, Function.update pool i (some (j, .perform q k))⟩ (.call i q r)) :
    ∃ w' k, Recorded sys ok s w' ⟨t, Function.update pool i (some (j, .perform q k))⟩ := by
  induction hc generalizing w with
  | here => exact ⟨w, _, h⟩
  | later hexec _ ih =>
    have hnext := h.step (.call (Function.update_self i _ pool) hexec.1) (hok _ _ _ _ hexec.2)
    simp only [Function.update_idem] at hnext
    exact ih hnext

/-- A sum over any processes, when one process moves: it is enough to look at that one and any
others. -/
theorem budget_insert {held : Pid → ℕ} {spent total n : ℕ} {i : Pid}
    (hi : ∀ others : Finset Pid, i ∉ others → spent + (n + ∑ i' ∈ others, held i') ≤ total)
    (others : Finset Pid) : spent + ∑ i' ∈ others, Function.update held i n i' ≤ total := by
  refine (Nat.add_le_add_left ?_ _).trans (hi _ (Finset.notMem_erase i others))
  by_cases hmem : i ∈ others
  · rw [Finset.sum_update_of_mem hmem, Finset.sdiff_singleton_eq_erase]
  · rw [Finset.sum_update_of_notMem hmem, Finset.erase_eq_of_notMem hmem]
    exact Nat.le_add_left _ _

/-- A budget for what the processes hold: what is spent and what any of them hold fits into
what there is. -/
theorem budget_update {held : Pid → ℕ} {spent spent' total total' n : ℕ} {i : Pid}
    (h : ∀ others : Finset Pid, spent + ∑ i' ∈ others, held i' ≤ total)
    (hi : ∀ others : Finset Pid, i ∉ others → spent + (held i + ∑ i' ∈ others, held i') ≤ total →
      spent' + (n + ∑ i' ∈ others, held i') ≤ total')
    (others : Finset Pid) : spent' + ∑ i' ∈ others, Function.update held i n i' ≤ total' := by
  refine budget_insert (fun others hout => hi others hout ?_) others
  have hall := h (insert i others)
  rwa [Finset.sum_insert hout] at hall

end Systems

end EcommerceService.Histories
