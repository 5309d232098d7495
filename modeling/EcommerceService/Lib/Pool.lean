import Mathlib.Data.Set.Finite.Basic
import Mathlib.Logic.Relation
import EcommerceService.Lib.Effects

namespace EcommerceService.Pool

open EcommerceService.Effects

universe u

variable {Pid Job : Type} {C : Type u} {R : C → Type} {E A B S : Type}

/-- Every way `p` can go on from `s` keeps `inv` and ends in `post`, and each of its
calls is a step that `guar` allows, when between two of its own calls the state may change
as `rely` allows. What a process relies on may depend on the call it waits at. -/
def Safe (exec : (c : C) → S → R c → S → Prop) (inv : S → Prop) (rely guar : C → S → S → Prop)
    (post : Exit E A → S → Prop) : Effect C R E A → S → Prop
  | .succeed a, s => post (.success a) s
  | .fail e, s => post (.failure e) s
  | .die, s => post .defect s
  | .perform c k, s => ∀ s₁, rely c s s₁ → inv s₁ → ∀ r s₂, exec c s₁ r s₂ →
      inv s₂ ∧ guar c s₁ s₂ ∧ Safe exec inv rely guar post (k r) s₂

section Rules

variable {exec : (c : C) → S → R c → S → Prop} {inv : S → Prop} {rely guar : C → S → S → Prop}

theorem Safe.mono {post post' : Exit E A → S → Prop} {p : Effect C R E A} {s : S}
    (h : Safe exec inv rely guar post p s) (hpost : ∀ x t, post x t → post' x t) :
    Safe exec inv rely guar post' p s := by
  induction p generalizing s with
  | succeed a => exact hpost _ _ h
  | fail e => exact hpost _ _ h
  | die => exact hpost _ _ h
  | perform c k ih =>
    intro s₁ hs hi r s₂ hr
    obtain ⟨hi₂, hg, hk⟩ := h s₁ hs hi r s₂ hr
    exact ⟨hi₂, hg, ih r hk⟩

theorem Safe.flatMap {post : Exit E B → S → Prop} {f : A → Effect C R E B} {p : Effect C R E A}
    {s : S} (h : Safe exec inv rely guar
      (fun y u => Safe exec inv rely guar post (Effect.resume f y) u) p s) :
    Safe exec inv rely guar post (p.flatMap f) s := by
  induction p generalizing s with
  | succeed a => exact h
  | fail e => exact h
  | die => exact h
  | perform c k ih =>
    intro s₁ hs hi r s₂ hr
    obtain ⟨hi₂, hg, hk⟩ := h s₁ hs hi r s₂ hr
    exact ⟨hi₂, hg, ih r hk⟩

theorem Safe.catchAll {E' : Type} {post : Exit E' A → S → Prop} {h : E → Effect C R E' A}
    {p : Effect C R E A} {s : S} (hp : Safe exec inv rely guar
      (fun y u => Safe exec inv rely guar post (Effect.handle h y) u) p s) :
    Safe exec inv rely guar post (p.catchAll h) s := by
  induction p generalizing s with
  | succeed a => exact hp
  | fail e => exact hp
  | die => exact hp
  | perform c k ih =>
    intro s₁ hs hi r s₂ hr
    obtain ⟨hi₂, hg, hk⟩ := hp s₁ hs hi r s₂ hr
    exact ⟨hi₂, hg, ih r hk⟩

theorem Safe.retry {post : Exit E A → S → Prop} {F : S → Prop} {p : Effect C R E A} {s : S}
    (times : Nat) (h : ∀ s, F s → Safe exec inv rely guar (fun x t => F t ∧ post x t) p s)
    (hs : F s) :
    Safe exec inv rely guar (fun x t => F t ∧ post x t) (p.retry times) s := by
  induction times generalizing s with
  | zero => exact h s hs
  | succ n ih =>
    refine Safe.catchAll ((h s hs).mono (fun x t hx => ?_))
    cases x with
    | success a => exact hx
    | failure e => exact ih hx.1
    | defect => exact hx

theorem Safe.wait {post : Exit E A → S → Prop} {c : C} {k : R c → Effect C R E A} {s t : S}
    (htrans : ∀ s t u, rely c s t → rely c t u → rely c s u)
    (h : Safe exec inv rely guar post (.perform c k) s) (hst : rely c s t) :
    Safe exec inv rely guar post (.perform c k) t :=
  fun s₁ hs hi => h s₁ (htrans s t s₁ hst hs) hi

/-- A whole run of a safe process, the others moving in between. -/
theorem Safe.runs {exec' : (c : C) → S → R c → S → Prop} {post : Exit E A → S → Prop}
    {p : Effect C R E A} {s t : S} {x : Exit E A} (h : Safe exec inv rely guar post p s)
    (hs : inv s) (hr : Effect.Runs exec' p s x t)
    (hexec : ∀ c s r t, exec' c s r t → ∃ u, rely c s u ∧ inv u ∧ exec c u r t) :
    inv t ∧ post x t := by
  induction hr with
  | succeed a s => exact ⟨hs, h⟩
  | fail e s => exact ⟨hs, h⟩
  | die s => exact ⟨hs, h⟩
  | perform hc _ ih =>
    obtain ⟨u, hrely, hu, hc⟩ := hexec _ _ _ _ hc
    obtain ⟨hi, _, hk⟩ := h u hrely hu _ _ hc
    exact ih hk hi

theorem Safe.runs_alone {post : Exit E A → S → Prop} {p : Effect C R E A} {s t : S} {x : Exit E A}
    (hrefl : ∀ c s, rely c s s) (h : Safe exec inv rely guar post p s) (hs : inv s)
    (hr : Effect.Runs exec p s x t) :
    Effect.Runs (fun c s r t => inv s ∧ exec c s r t) p s x t := by
  induction hr with
  | succeed a s => exact .succeed a s
  | fail e s => exact .fail e s
  | die s => exact .die s
  | perform hc _ ih =>
    obtain ⟨hi, _, hk⟩ := h _ (hrefl _ _) hs _ _ hc
    exact .perform ⟨hs, hc⟩ (ih hk hi)

theorem Safe.of_within {good : (c : C) → R c → Prop} {P : C → Prop} {Q : Exit E A → Prop}
    {F : S → Prop} {p : Effect C R E A} {s : S} (h : Effect.Within good P Q p) (hF : F s)
    (hrely : ∀ c s t, rely c s t → F s → F t)
    (hcall : ∀ c s r t, P c → inv s → F s → exec c s r t →
      good c r ∧ inv t ∧ guar c s t ∧ F t) :
    Safe exec inv rely guar (fun x t => Q x ∧ F t) p s := by
  induction p generalizing s with
  | succeed a => exact ⟨h, hF⟩
  | fail e => exact ⟨h, hF⟩
  | die => exact ⟨h, hF⟩
  | perform c k ih =>
    intro s₁ hs hi r s₂ hr
    obtain ⟨hgood, hi₂, hg, hF₂⟩ := hcall c s₁ r s₂ h.1 hi (hrely c s s₁ hs hF) hr
    exact ⟨hi₂, hg, ih r (h.2 r hgood) hF₂⟩

end Rules

/-- Any number of processes over one shared state. `env` is what happens outside
every process, and `start` says when a process may begin a job. -/
structure System (Pid Job : Type) (C : Type u) (R : C → Type) (E A S : Type) where
  exec : (c : C) → S → R c → S → Prop
  program : Job → Effect C R E A
  start : Pid → Job → S → S → Prop
  env : S → S → Prop

structure Config (Pid Job : Type) (C : Type u) (R : C → Type) (E A S : Type) : Type u where
  shared : S
  pool : Pid → Option (Job × Effect C R E A)

inductive Label (Pid Job : Type) (C : Type u) (R : C → Type) : Type u where
  | env
  | start (i : Pid) (j : Job)
  | call (i : Pid) (c : C) (r : R c)
  | stop (i : Pid)

variable [DecidableEq Pid]

/-- One process makes one call, or a process begins or disappears, or the
environment moves. The processes are scheduled in any order. -/
inductive Step (sys : System Pid Job C R E A S) :
    Config Pid Job C R E A S → Label Pid Job C R → Config Pid Job C R E A S → Prop
  | env {c : Config Pid Job C R E A S} {s' : S} : sys.env c.shared s' → Step sys c .env ⟨s', c.pool⟩
  | start {c : Config Pid Job C R E A S} {i : Pid} {j : Job} {s' : S} : c.pool i = none →
      sys.start i j c.shared s' →
      Step sys c (.start i j) ⟨s', Function.update c.pool i (some (j, sys.program j))⟩
  | call {c : Config Pid Job C R E A S} {i : Pid} {j : Job} {q : C} {k : R q → Effect C R E A}
      {r : R q} {s' : S} : c.pool i = some (j, .perform q k) → sys.exec q c.shared r s' →
      Step sys c (.call i q r) ⟨s', Function.update c.pool i (some (j, k r))⟩
  | stop {c : Config Pid Job C R E A S} {i : Pid} :
      Step sys c (.stop i) ⟨c.shared, Function.update c.pool i none⟩

/-- A step that also meets the condition `ok` on the configuration it starts from. -/
def Next (sys : System Pid Job C R E A S) (ok : Config Pid Job C R E A S → Label Pid Job C R → Prop)
    (c c' : Config Pid Job C R E A S) : Prop := ∃ l, Step sys c l c' ∧ ok c l

abbrev Reaches (sys : System Pid Job C R E A S)
    (ok : Config Pid Job C R E A S → Label Pid Job C R → Prop) :
    Config Pid Job C R E A S → Config Pid Job C R E A S → Prop :=
  Relation.ReflTransGen (Next sys ok)

def quiet (s : S) : Config Pid Job C R E A S := ⟨s, fun _ => none⟩

/-- The process `i` waits at the call `q`. -/
def Waits (c : Config Pid Job C R E A S) (i : Pid) (q : C) : Prop :=
  ∃ j k, c.pool i = some (j, .perform q k)

section Schedules

variable {sys : System Pid Job C R E A S}
  {ok : Config Pid Job C R E A S → Label Pid Job C R → Prop} {c₀ c : Config Pid Job C R E A S}

theorem Reaches.env (h : Reaches sys ok c₀ c) {s : S} (hs : sys.env c.shared s) (hok : ok c .env) :
    Reaches sys ok c₀ ⟨s, c.pool⟩ := h.tail ⟨.env, .env hs, hok⟩

theorem Reaches.start (h : Reaches sys ok c₀ c) {i : Pid} {j : Job} {s : S} (hi : c.pool i = none)
    (hs : sys.start i j c.shared s) (hok : ok c (.start i j)) :
    Reaches sys ok c₀ ⟨s, Function.update c.pool i (some (j, sys.program j))⟩ :=
  h.tail ⟨.start i j, .start hi hs, hok⟩

theorem Reaches.call (h : Reaches sys ok c₀ c) {i : Pid} {j : Job} {q : C} {k : R q → Effect C R E A}
    {r : R q} {s : S} (hi : c.pool i = some (j, .perform q k)) (hs : sys.exec q c.shared r s)
    (hok : ok c (.call i q r)) : Reaches sys ok c₀ ⟨s, Function.update c.pool i (some (j, k r))⟩ :=
  h.tail ⟨.call i q r, .call hi hs, hok⟩

theorem Reaches.stop (h : Reaches sys ok c₀ c) (i : Pid) (hok : ok c (.stop i)) :
    Reaches sys ok c₀ ⟨c.shared, Function.update c.pool i none⟩ := h.tail ⟨.stop i, .stop, hok⟩

theorem Reaches.finish {i : Pid} {j : Job} {p : Effect C R E A} {s t : S} {x : Exit E A}
    {pool : Pid → Option (Job × Effect C R E A)} {good : (q : C) → S → R q → Prop}
    (hr : Effect.Runs (fun q s r t => sys.exec q s r t ∧ good q s r) p s x t)
    (h : Reaches sys ok c₀ ⟨s, Function.update pool i (some (j, p))⟩)
    (hcall : ∀ q k s r, good q s r →
      ok ⟨s, Function.update pool i (some (j, .perform q k))⟩ (.call i q r))
    (hstop : ∀ s p, (∀ q k, p ≠ .perform q k) →
      ok ⟨s, Function.update pool i (some (j, p))⟩ (.stop i)) :
    Reaches sys ok c₀ ⟨t, Function.update pool i none⟩ := by
  induction hr with
  | succeed a s => simpa using h.stop i (hstop _ _ (fun _ _ h => nomatch h))
  | fail e s => simpa using h.stop i (hstop _ _ (fun _ _ h => nomatch h))
  | die s => simpa using h.stop i (hstop _ _ (fun _ _ h => nomatch h))
  | perform hc _ ih =>
    have hnext := h.call (Function.update_self i _ pool) hc.1 (hcall _ _ _ _ hc.2)
    exact ih (by simpa using hnext)

theorem Reaches.part {B : Type} {i : Pid} {j : Job} {p : Effect C R E B} {f : B → Effect C R E A}
    {s t : S} {b : B} {pool : Pid → Option (Job × Effect C R E A)}
    {good : (q : C) → S → R q → Prop}
    (hr : Effect.Runs (fun q s r t => sys.exec q s r t ∧ good q s r) p s (.success b) t)
    (h : Reaches sys ok c₀ ⟨s, Function.update pool i (some (j, p.flatMap f))⟩)
    (hcall : ∀ q k s r, good q s r →
      ok ⟨s, Function.update pool i (some (j, .perform q k))⟩ (.call i q r)) :
    Reaches sys ok c₀ ⟨t, Function.update pool i (some (j, f b))⟩ := by
  generalize hx : (Exit.success b : Exit E B) = x at hr
  induction hr with
  | succeed b' s =>
    cases hx
    exact h
  | fail e s => cases hx
  | die s => cases hx
  | perform hc _ ih =>
    have hnext := h.call (Function.update_self i _ pool) hc.1 (hcall _ _ _ _ hc.2)
    exact ih (by simpa using hnext) hx

theorem Reaches.alone {i : Pid} {j : Job} {s t : S} {x : Exit E A} {good : (q : C) → S → R q → Prop}
    (h : Reaches sys ok c₀ c) (hi : c.pool i = none) (hs : sys.start i j c.shared s)
    (hr : Effect.Runs (fun q s r t => sys.exec q s r t ∧ good q s r) (sys.program j) s x t)
    (hstart : ok c (.start i j))
    (hcall : ∀ q k s r, good q s r →
      ok ⟨s, Function.update c.pool i (some (j, .perform q k))⟩ (.call i q r))
    (hstop : ∀ s p, (∀ q k, p ≠ .perform q k) →
      ok ⟨s, Function.update c.pool i (some (j, p))⟩ (.stop i)) :
    Reaches sys ok c₀ ⟨t, c.pool⟩ := by
  have hend := Reaches.finish hr (h.start hi hs hstart) hcall hstop
  rwa [← hi, Function.update_eq_self] at hend

/-- Goals that are stable and can each be reached from everywhere can be reached together. -/
theorem Reaches.goals {G : Type*} (inv : Config Pid Job C R E A S → Prop)
    (reached : G → Config Pid Job C R E A S → Prop)
    (hinv : ∀ c c', inv c → Reaches sys ok c c' → inv c')
    (hreach : ∀ g c, inv c → ∃ c', Reaches sys ok c c' ∧ reached g c')
    (hstable : ∀ g c c', inv c → Reaches sys ok c c' → reached g c → reached g c')
    (goals : List G) (hc : inv c) : ∃ c', Reaches sys ok c c' ∧ ∀ g ∈ goals, reached g c' := by
  induction goals with
  | nil => exact ⟨c, .refl, by simp⟩
  | cons g goals ih =>
    obtain ⟨c₁, h₁, hgoals⟩ := ih
    have hc₁ := hinv _ _ hc h₁
    obtain ⟨c₂, h₂, hg⟩ := hreach g c₁ hc₁
    refine ⟨c₂, h₁.trans h₂, fun g' hg' => ?_⟩
    obtain rfl | hg' := List.mem_cons.mp hg'
    · exact hg
    · exact hstable g' _ _ hc₁ h₂ (hgoals g' hg')

end Schedules

theorem pool_update {pool : Pid → Option (Job × Effect C R E A)} {i i' : Pid}
    {v : Option (Job × Effect C R E A)} {x : Job × Effect C R E A}
    (h : Function.update pool i v i' = some x) :
    (i' = i ∧ v = some x) ∨ (i' ≠ i ∧ pool i' = some x) := by
  by_cases hi : i' = i
  · subst hi
    exact .inl ⟨rfl, by simpa using h⟩
  · rw [Function.update_of_ne hi] at h
    exact .inr ⟨hi, h⟩

theorem Reaches.pool_finite {sys : System Pid Job C R E A S}
    {ok : Config Pid Job C R E A S → Label Pid Job C R → Prop} {c : Config Pid Job C R E A S} {s : S}
    (h : Reaches sys ok (quiet s) c) : {i | c.pool i ≠ none}.Finite := by
  have hupdate : ∀ {pool : Pid → Option (Job × Effect C R E A)} (i : Pid)
      (v : Option (Job × Effect C R E A)), {i | pool i ≠ none}.Finite →
      {i' | Function.update pool i v i' ≠ none}.Finite := by
    intro pool i v hfin
    refine (hfin.insert i).subset (fun i' hi' => ?_)
    by_cases hi : i' = i
    · exact .inl hi
    · exact .inr (by simpa [Function.update_of_ne hi] using hi')
  induction h with
  | refl => simp [quiet]
  | tail _ hn ih =>
    obtain ⟨l, hs, _⟩ := hn
    cases hs with
    | env _ => exact ih
    | start _ _ => exact hupdate _ _ ih
    | call _ _ => exact hupdate _ _ ih
    | stop => exact hupdate _ _ ih

theorem Reaches.exists_free [Infinite Pid] {sys : System Pid Job C R E A S}
    {ok : Config Pid Job C R E A S → Label Pid Job C R → Prop} {c : Config Pid Job C R E A S} {s : S}
    (h : Reaches sys ok (quiet s) c) : ∃ i, c.pool i = none := by
  obtain ⟨i, hi⟩ := h.pool_finite.exists_notMem
  exact ⟨i, by simpa using hi⟩

section Waiting

variable {c : Config Pid Job C R E A S}

omit [DecidableEq Pid] in
theorem Waits.unique {i : Pid} {q q' : C} {j : Job} {k : R q' → Effect C R E A} (h : Waits c i q)
    (hi : c.pool i = some (j, .perform q' k)) : q = q' := by
  obtain ⟨j', k', hi'⟩ := h
  have heq := (Prod.mk.inj (Option.some.inj (hi'.symm.trans hi))).2
  injection heq

theorem Waits.other {i i' : Pid} {q : C} {s : S} {v : Option (Job × Effect C R E A)}
    (h : Waits c i' q) (hne : i' ≠ i) : Waits ⟨s, Function.update c.pool i v⟩ i' q := by
  obtain ⟨j, k, hi⟩ := h
  exact ⟨j, k, (Function.update_of_ne hne _ _).trans hi⟩

def AllFollow (good : (c : C) → R c → Prop) (P : C → Prop)
    (next : (c : C) → R c → Effect C R E A → Prop) (c : Config Pid Job C R E A S) : Prop :=
  ∀ i j p, c.pool i = some (j, p) → Effect.Follows good P next p

theorem AllFollow.update {good : (c : C) → R c → Prop} {P : C → Prop}
    {next : (c : C) → R c → Effect C R E A → Prop} (h : AllFollow good P next c) {i : Pid} {j : Job}
    {p : Effect C R E A} (s : S) (hp : Effect.Follows good P next p) :
    AllFollow good P next ⟨s, Function.update c.pool i (some (j, p))⟩ := by
  intro i' j' p' hi'
  obtain ⟨_, hv⟩ | ⟨_, hi'⟩ := pool_update hi'
  · obtain ⟨_, rfl⟩ := Prod.mk.inj (Option.some.inj hv)
    exact hp
  · exact h i' j' p' hi'

theorem AllFollow.stop {good : (c : C) → R c → Prop} {P : C → Prop}
    {next : (c : C) → R c → Effect C R E A → Prop} (h : AllFollow good P next c) (s : S) (i : Pid) :
    AllFollow good P next ⟨s, Function.update c.pool i none⟩ := by
  intro i' j' p' hi'
  obtain ⟨_, hv⟩ | ⟨_, hi'⟩ := pool_update hi'
  · cases hv
  · exact h i' j' p' hi'

end Waiting

/-- What has to be shown of a system, so that `inv` holds in every configuration it
reaches by steps that meet `ok`: each job is safe where it starts, and a step that one
process guarantees is one that the waiting others rely on. -/
structure Sound (sys : System Pid Job C R E A S)
    (ok : Config Pid Job C R E A S → Label Pid Job C R → Prop)
    (inv : S → Prop) (rely guar : C → S → S → Prop) : Prop where
  refl : ∀ q s, rely q s s
  trans : ∀ q s t u, rely q s t → rely q t u → rely q s u
  env : ∀ s s', inv s → sys.env s s' → inv s' ∧ ∀ q, rely q s s'
  start : ∀ i j s s', inv s → sys.start i j s s' → inv s' ∧ (∀ q, rely q s s') ∧
    Safe sys.exec inv rely guar (fun _ _ => True) (sys.program j) s'
  call : ∀ (c : Config Pid Job C R E A S) i q r s', inv c.shared → inv s' → Waits c i q →
    sys.exec q c.shared r s' → guar q c.shared s' → ok c (.call i q r) →
    ∀ i' q', i' ≠ i → Waits c i' q' → rely q' c.shared s'

def AllSafe (sys : System Pid Job C R E A S) (inv : S → Prop) (rely guar : C → S → S → Prop)
    (c : Config Pid Job C R E A S) : Prop :=
  ∀ i j p, c.pool i = some (j, p) → Safe sys.exec inv rely guar (fun _ _ => True) p c.shared

variable {sys : System Pid Job C R E A S}
  {ok : Config Pid Job C R E A S → Label Pid Job C R → Prop}
  {inv : S → Prop} {rely guar : C → S → S → Prop}

omit [DecidableEq Pid] in
theorem AllSafe.shift_one {c : Config Pid Job C R E A S} {s' : S} (h : AllSafe sys inv rely guar c)
    (htrans : ∀ q s t u, rely q s t → rely q t u → rely q s u) {i : Pid}
    (hrely : ∀ q, Waits c i q → rely q c.shared s') (j : Job) (p : Effect C R E A)
    (hp : c.pool i = some (j, p)) : Safe sys.exec inv rely guar (fun _ _ => True) p s' := by
  cases p with
  | succeed a => trivial
  | fail e => trivial
  | die => trivial
  | perform q k => exact (h i j _ hp).wait (htrans q) (hrely q ⟨j, k, hp⟩)

omit [DecidableEq Pid] in
theorem AllSafe.shift {c : Config Pid Job C R E A S} {s' : S} (h : AllSafe sys inv rely guar c)
    (htrans : ∀ q s t u, rely q s t → rely q t u → rely q s u)
    (hrely : ∀ i q, Waits c i q → rely q c.shared s') (i : Pid) (j : Job) (p : Effect C R E A)
    (hp : c.pool i = some (j, p)) : Safe sys.exec inv rely guar (fun _ _ => True) p s' :=
  h.shift_one htrans (hrely i) j p hp

theorem Sound.step {c c' : Config Pid Job C R E A S} {l : Label Pid Job C R}
    (h : Sound sys ok inv rely guar) (hi : inv c.shared) (hc : AllSafe sys inv rely guar c)
    (hs : Step sys c l c') (hl : ok c l) : inv c'.shared ∧ AllSafe sys inv rely guar c' := by
  cases hs with
  | env henv =>
    obtain ⟨hi', hr⟩ := h.env _ _ hi henv
    exact ⟨hi', hc.shift h.trans (fun _ q _ => hr q)⟩
  | start _ hstart =>
    obtain ⟨hi', hr, hj⟩ := h.start _ _ _ _ hi hstart
    refine ⟨hi', fun i' j' p hp => ?_⟩
    obtain ⟨rfl, hv⟩ | ⟨_, hp⟩ := pool_update hp
    · obtain ⟨rfl, rfl⟩ := Prod.mk.inj (Option.some.inj hv)
      exact hj
    · exact hc.shift h.trans (fun _ q _ => hr q) i' j' p hp
  | call hi₀ hexec =>
    obtain ⟨hi', hg, hk⟩ := hc _ _ _ hi₀ c.shared (h.refl _ _) hi _ _ hexec
    refine ⟨hi', fun i' j' p hp => ?_⟩
    obtain ⟨rfl, hv⟩ | ⟨hne, hp⟩ := pool_update hp
    · obtain ⟨rfl, rfl⟩ := Prod.mk.inj (Option.some.inj hv)
      exact hk
    · have hw := fun q' => h.call c _ _ _ _ hi hi' ⟨_, _, hi₀⟩ hexec hg hl i' q' hne
      exact hc.shift_one h.trans hw j' p hp
  | stop =>
    refine ⟨hi, fun i' j' p hp => ?_⟩
    obtain ⟨_, hv⟩ | ⟨_, hp⟩ := pool_update hp
    · cases hv
    · exact hc i' j' p hp

theorem Sound.reaches {s : S} {c : Config Pid Job C R E A S} (h : Sound sys ok inv rely guar)
    (hi : inv s) (hc : Reaches sys ok (quiet s) c) : inv c.shared ∧ AllSafe sys inv rely guar c := by
  induction hc with
  | refl => exact ⟨hi, fun i j p hp => by simp [quiet] at hp⟩
  | tail _ hn ih =>
    obtain ⟨l, hs, hl⟩ := hn
    exact h.step ih.1 ih.2 hs hl

end EcommerceService.Pool
