import Mathlib.Algebra.GroupWithZero.Nat
import Mathlib.Algebra.Order.BigOperators.Group.List
import Mathlib.Algebra.Order.Group.Nat
import Mathlib.Data.Finset.Lattice.Fold
import Mathlib.Order.Lattice.Nat
import EcommerceService.Lib.Pool

namespace EcommerceService.ForEach

open EcommerceService.Effects

universe u v

variable {X : Type} {C : Type u} {R : C → Type} {E A : Type} {S : Type v}

inductive Task (C : Type u) (R : C → Type) (E A : Type) : Type u where
  | waiting
  | running (p : Effect C R E A)
  | ended (x : Exit E A)
  | interrupted

namespace Task

def isRunning : Task C R E A → Bool
  | running _ => true
  | _ => false

def isOver : Task C R E A → Bool
  | ended _ => true
  | interrupted => true
  | _ => false

def stops : Task C R E A → Bool
  | ended (.failure _) => true
  | ended .defect => true
  | _ => false

def interrupt : Task C R E A → Task C R E A
  | ended x => ended x
  | _ => interrupted

theorem interrupt_cases (task : Task C R E A) :
    task.interrupt = task ∨ task.interrupt = .interrupted := by
  cases task with
  | ended x => exact .inl rfl
  | waiting => exact .inr rfl
  | running p => exact .inr rfl
  | interrupted => exact .inr rfl

end Task

abbrev Tasks (X : Type) (C : Type u) (R : C → Type) (E A : Type) : Type u := List (X × Task C R E A)

def others (task : Task C R E A) (tasks : Tasks X C R E A) : Tasks X C R E A :=
  if task.stops then tasks.map (fun t => (t.1, t.2.interrupt)) else tasks

/-- A step of the effect of one element. -/
inductive Move (f : X → Effect C R E A) (exec : (c : C) → S → R c → S → Prop) (x : X) :
    Task C R E A → S → Task C R E A → S → Prop
  | begin {s : S} : Move f exec x .waiting s (.running (f x)) s
  | call {c : C} {k : R c → Effect C R E A} {s s' : S} {r : R c} : exec c s r s' →
      Move f exec x (.running (.perform c k)) s (.running (k r)) s'
  | succeed {a : A} {s : S} : Move f exec x (.running (.succeed a)) s (.ended (.success a)) s
  | fail {e : E} {s : S} : Move f exec x (.running (.fail e)) s (.ended (.failure e)) s
  | die {s : S} : Move f exec x (.running .die) s (.ended .defect) s

/-- A step of `forEach`. The elements begin in their order, and no more than `limit` run at
once. -/
inductive Step (limit : ℕ) (f : X → Effect C R E A) (exec : (c : C) → S → R c → S → Prop) :
    Tasks X C R E A × S → Tasks X C R E A × S → Prop
  | move {front back : Tasks X C R E A} {x : X} {task task' : Task C R E A} {s s' : S} :
      Move f exec x task s task' s' →
      (task = .waiting → (∀ t ∈ front, t.2 ≠ .waiting) ∧
        (front ++ back).countP (fun t => t.2.isRunning) < limit) →
      Step limit f exec (front ++ (x, task) :: back, s)
        (others task' front ++ (x, task') :: others task' back, s')

theorem Step.first {limit : ℕ} {f : X → Effect C R E A} {exec : (c : C) → S → R c → S → Prop} {x : X}
    {task task' : Task C R E A} {back : Tasks X C R E A} {s s' : S} (h : Move f exec x task s task' s')
    (hroom : back.countP (fun t => t.2.isRunning) < limit) :
    Step limit f exec ((x, task) :: back, s) ((x, task') :: others task' back, s') := by
  have hstep : Step limit f exec ([] ++ (x, task) :: back, s)
      (others task' [] ++ (x, task') :: others task' back, s') :=
    .move h (fun _ => ⟨by simp, hroom⟩)
  simpa [others] using hstep

theorem Step.quiet {limit : ℕ} {f : X → Effect C R E A} {exec : (c : C) → S → R c → S → Prop} {x : X}
    {task task' : Task C R E A} {s s' : S} (front back : Tasks X C R E A)
    (h : Move f exec x task s task' s') (hstops : task'.stops = false)
    (hfront : task = .waiting → ∀ t ∈ front, t.2 ≠ .waiting) (hroom : (front ++ back).length < limit) :
    Step limit f exec (front ++ (x, task) :: back, s) (front ++ (x, task') :: back, s') := by
  have hcount : (front ++ back).countP (fun t => t.2.isRunning) < limit :=
    Nat.lt_of_le_of_lt List.countP_le_length hroom
  have hstep : Step limit f exec (front ++ (x, task) :: back, s)
      (others task' front ++ (x, task') :: others task' back, s') :=
    .move h (fun hwait => ⟨hfront hwait, hcount⟩)
  have hothers : ∀ tasks : Tasks X C R E A, others task' tasks = tasks := fun tasks => by
    simp [others, hstops]
  rwa [hothers, hothers] at hstep

abbrev Steps (limit : ℕ) (f : X → Effect C R E A) (exec : (c : C) → S → R c → S → Prop) :
    Tasks X C R E A × S → Tasks X C R E A × S → Prop := Relation.ReflTransGen (Step limit f exec)

theorem Steps.mono {limit : ℕ} {f : X → Effect C R E A} {exec exec' : (c : C) → S → R c → S → Prop}
    {w w' : Tasks X C R E A × S} (h : Steps limit f exec w w')
    (hexec : ∀ c s r t, exec c s r t → exec' c s r t) : Steps limit f exec' w w' := by
  refine Relation.ReflTransGen.mono ?_ _ _ h
  intro w w' hstep
  cases hstep with
  | move hmove hroom =>
    refine .move ?_ hroom
    cases hmove with
    | begin => exact .begin
    | call hc => exact .call (hexec _ _ _ _ hc)
    | succeed => exact .succeed
    | fail => exact .fail
    | die => exact .die

def start (xs : List X) : Tasks X C R E A := xs.map (fun x => (x, .waiting))

def Over (tasks : Tasks X C R E A) : Prop := ∀ t ∈ tasks, t.2.isOver = true

def outcome : Tasks X C R E A → Exit E (List A)
  | [] => .success []
  | (_, .ended (.success a)) :: tasks => (outcome tasks).map (a :: ·)
  | (_, .ended (.failure e)) :: _ => .failure e
  | (_, .ended .defect) :: _ => .defect
  | _ :: tasks => outcome tasks

section Keeps

variable {limit : ℕ} {f : X → Effect C R E A} {exec : (c : C) → S → R c → S → Prop}
  {tasks tasks' : Tasks X C R E A} {s s' : S}

@[simp] theorem map_fst_others (task : Task C R E A) (tasks : Tasks X C R E A) :
    (others task tasks).map Prod.fst = tasks.map Prod.fst := by
  rw [others]
  split
  · rw [List.map_map]
    rfl
  · rfl

theorem Steps.map_fst (h : Steps limit f exec (tasks, s) (tasks', s')) :
    tasks'.map Prod.fst = tasks.map Prod.fst := by
  suffices hall : ∀ c c' : Tasks X C R E A × S, Steps limit f exec c c' →
      c'.1.map Prod.fst = c.1.map Prod.fst from hall _ _ h
  intro c c' hsteps
  induction hsteps with
  | refl => rfl
  | tail _ hstep ih =>
    cases hstep with
    | move hmove _ => simpa using ih

theorem mem_middle {α : Type v} {front back : List α} {a b : α} :
    b ∈ front ++ a :: back ↔ b = a ∨ b ∈ front ++ back :=
  List.perm_middle.mem_iff.trans List.mem_cons

/-- `F` of the state and `Q` of each element are kept, when the step of an element keeps them for
itself and for every other one, and an interruption does too. -/
structure Keeps (f : X → Effect C R E A) (exec : (c : C) → S → R c → S → Prop) (F : S → Prop)
    (Q : S → X → Task C R E A → Prop) : Prop where
  own : ∀ {x task s task' s'}, F s → Q s x task → Move f exec x task s task' s' → F s' ∧ Q s' x task'
  other : ∀ {x task s task' s' y τ}, F s → Q s x task → Move f exec x task s task' s' → y ≠ x →
    Q s y τ → Q s' y τ
  interrupt : ∀ {x task s y τ}, Q s x task → task.stops = true → Q s y τ → Q s y τ.interrupt

theorem others_append (task : Task C R E A) (front back : Tasks X C R E A) :
    others task front ++ others task back = others task (front ++ back) := by
  rw [others, others, others]
  split
  · rw [List.map_append]
  · rfl

theorem mem_others {task : Task C R E A} {t : X × Task C R E A} (ht : t ∈ others task tasks) :
    t ∈ tasks ∨ task.stops = true ∧ ∃ t' ∈ tasks, t = (t'.1, t'.2.interrupt) := by
  rw [others] at ht
  split at ht
  · rename_i hstops
    obtain ⟨t', ht', rfl⟩ := List.mem_map.mp ht
    exact .inr ⟨hstops, t', ht', rfl⟩
  · exact .inl ht

theorem Keeps.step {F : S → Prop} {Q : S → X → Task C R E A → Prop} (h : Keeps f exec F Q)
    (hstep : Step limit f exec (tasks, s) (tasks', s')) (hnodup : (tasks.map Prod.fst).Nodup)
    (hF : F s) (hQ : ∀ t ∈ tasks, Q s t.1 t.2) : F s' ∧ ∀ t ∈ tasks', Q s' t.1 t.2 := by
  cases hstep with
  | @move front back x task task' _ _ hmove _ =>
    have hx : Q s x task := hQ (x, task) (mem_middle.mpr (.inl rfl))
    obtain ⟨hF', hx'⟩ := h.own hF hx hmove
    have hne : ∀ t ∈ front ++ back, t.1 ≠ x := by
      rw [List.map_append, List.map_cons, List.nodup_middle, List.nodup_cons, ← List.map_append] at hnodup
      rintro t ht rfl
      exact hnodup.1 (List.mem_map.mpr ⟨t, ht, rfl⟩)
    have hother : ∀ t ∈ front ++ back, Q s' t.1 t.2 := fun t ht =>
      h.other hF hx hmove (hne t ht) (hQ t (mem_middle.mpr (.inr ht)))
    refine ⟨hF', fun t ht => ?_⟩
    rw [mem_middle, others_append] at ht
    obtain rfl | ht := ht
    · exact hx'
    · obtain ht | ⟨hstops, t', ht', rfl⟩ := mem_others ht
      · exact hother t ht
      · exact h.interrupt hx' hstops (hother t' ht')

theorem Keeps.steps {F : S → Prop} {Q : S → X → Task C R E A → Prop} (h : Keeps f exec F Q)
    (hsteps : Steps limit f exec (tasks, s) (tasks', s')) (hnodup : (tasks.map Prod.fst).Nodup)
    (hF : F s) (hQ : ∀ t ∈ tasks, Q s t.1 t.2) : F s' ∧ ∀ t ∈ tasks', Q s' t.1 t.2 := by
  suffices hall : ∀ c : Tasks X C R E A × S, Steps limit f exec (tasks, s) c →
      F c.2 ∧ ∀ t ∈ c.1, Q c.2 t.1 t.2 from hall _ hsteps
  intro c hc
  induction hc with
  | refl => exact ⟨hF, hQ⟩
  | tail hprev hstep ih =>
    refine h.step hstep ?_ ih.1 ih.2
    rw [Steps.map_fst hprev]
    exact hnodup

/-- Every run from the start keeps what holds of the elements before they begin. -/
theorem Keeps.run {F : S → Prop} {Q : S → X → Task C R E A → Prop} (h : Keeps f exec F Q)
    {xs : List X} (hsteps : Steps limit f exec (start xs, s) (tasks, s')) (hnodup : xs.Nodup)
    (hF : F s) (hQ : ∀ x ∈ xs, Q s x .waiting) : F s' ∧ ∀ t ∈ tasks, Q s' t.1 t.2 := by
  refine h.steps hsteps ?_ hF (fun t ht => ?_)
  · simpa [start, Function.comp_def] using hnodup
  · obtain ⟨x, hx, rfl⟩ := List.mem_map.mp ht
    exact hQ x hx

end Keeps

section Ends

variable {limit : ℕ} {f : X → Effect C R E A} {exec : (c : C) → S → R c → S → Prop}
  {xs : List X} {tasks : Tasks X C R E A} {s t : S}

/-- The effect of an element makes calls of `P` and ends in `Q`, as long as its calls get good
answers. -/
def Ends (good : (c : C) → R c → Prop) (P : C → Prop) (Q : Exit E A → Prop) : Task C R E A → Prop
  | .running p => Effect.Within good P Q p
  | .ended x => Q x
  | _ => True

theorem Ends.keeps {good : (c : C) → R c → Prop} {P : C → Prop} {Q : X → Exit E A → Prop}
    (hf : ∀ x ∈ xs, Effect.Within good P (Q x) (f x)) (hgood : ∀ c s r s', exec c s r s' → good c r) :
    Keeps f exec (fun _ => True) (fun _ x task => x ∈ xs ∧ Ends good P (Q x) task) := by
  refine ⟨fun _ hx hmove => ⟨trivial, hx.1, ?_⟩, fun _ _ _ _ hy => hy,
    fun {_ _ _ _ τ} _ _ hy => ⟨hy.1, ?_⟩⟩
  · cases hmove with
    | begin => exact hf _ hx.1
    | call hexec => exact hx.2.2 _ (hgood _ _ _ _ hexec)
    | succeed => exact hx.2
    | fail => exact hx.2
    | die => exact hx.2
  · obtain hsame | hinterrupted := τ.interrupt_cases
    · rw [hsame]
      exact hy.2
    · rw [hinterrupted]
      trivial

theorem Steps.ends {good : (c : C) → R c → Prop} {P : C → Prop} {Q : X → Exit E A → Prop}
    (hf : ∀ x ∈ xs, Effect.Within good P (Q x) (f x))
    (hgood : ∀ c s r s', exec c s r s' → good c r) (hnodup : xs.Nodup)
    (h : Steps limit f exec (start xs, s) (tasks, t)) : ∀ p ∈ tasks, p.1 ∈ xs ∧ Ends good P (Q p.1) p.2 :=
  ((Ends.keeps hf hgood).run h hnodup trivial (fun _ hx => ⟨hx, trivial⟩)).2

theorem outcome_success (h : ∀ p ∈ tasks, ∃ a, p.2 = .ended (.success a)) :
    ∃ as, outcome tasks = .success as := by
  induction tasks with
  | nil => exact ⟨[], rfl⟩
  | cons p tasks ih =>
    obtain ⟨⟨a, ha⟩, hrest⟩ := List.forall_mem_cons.mp h
    obtain ⟨as, has⟩ := ih hrest
    obtain ⟨x, task⟩ := p
    subst ha
    exact ⟨a :: as, by rw [outcome, has]; rfl⟩

theorem outcome_defect (hfail : ∀ p ∈ tasks, ∀ e, p.2 ≠ .ended (.failure e))
    (h : ∃ p ∈ tasks, p.2 = .ended .defect) : outcome tasks = .defect := by
  induction tasks with
  | nil => simp at h
  | cons p tasks ih =>
    obtain ⟨x, task⟩ := p
    obtain ⟨hne, hrest⟩ := List.forall_mem_cons.mp hfail
    have hlater : task ≠ .ended .defect → outcome tasks = .defect := by
      intro htask
      refine ih hrest ?_
      obtain ⟨q, hq, hdefect⟩ := h
      obtain rfl | hq := List.mem_cons.mp hq
      · exact absurd hdefect htask
      · exact ⟨q, hq, hdefect⟩
    cases task with
    | waiting => exact hlater (by rintro ⟨⟩)
    | running p => exact hlater (by rintro ⟨⟩)
    | interrupted => exact hlater (by rintro ⟨⟩)
    | ended y =>
      cases y with
      | success a => rw [outcome, hlater (by rintro ⟨⟩)]; rfl
      | failure e => exact absurd rfl (hne e)
      | defect => rfl

theorem outcome_ne_defect (h : ∀ p ∈ tasks, p.2 ≠ .ended .defect) : outcome tasks ≠ .defect := by
  induction tasks with
  | nil => rintro ⟨⟩
  | cons p tasks ih =>
    obtain ⟨x, task⟩ := p
    obtain ⟨hne, hrest⟩ := List.forall_mem_cons.mp h
    have hlater := ih hrest
    cases task with
    | waiting => exact hlater
    | running p => exact hlater
    | interrupted => exact hlater
    | ended y =>
      cases y with
      | failure e => rintro ⟨⟩
      | defect => exact absurd rfl hne
      | success a =>
        rw [outcome]
        cases hout : outcome tasks with
        | success as => rintro ⟨⟩
        | failure e => rintro ⟨⟩
        | defect => exact absurd hout hlater

theorem Steps.stopped (h : Steps limit f exec (start xs, s) (tasks, t))
    (hinterrupted : ∃ p ∈ tasks, p.2 = .interrupted) : ∃ p ∈ tasks, p.2.stops = true := by
  suffices hall : ∀ c : Tasks X C R E A × S, Steps limit f exec (start xs, s) c →
      (∃ p ∈ c.1, p.2 = .interrupted) → ∃ p ∈ c.1, p.2.stops = true from hall _ h hinterrupted
  intro c hc
  induction hc with
  | refl =>
    rintro ⟨p, hp, heq⟩
    obtain ⟨x, _, rfl⟩ := List.mem_map.mp hp
    cases heq
  | tail _ hstep ih =>
    cases hstep with
    | @move front back x task task' _ _ hmove _ =>
      intro hsome
      cases hstops : task'.stops with
      | true => exact ⟨_, mem_middle.mpr (.inl rfl), hstops⟩
      | false =>
        have hsame : ∀ l : Tasks X C R E A, others task' l = l := fun l => by simp [others, hstops]
        simp only [hsame] at hsome ⊢
        -- the element that moves is neither interrupted nor stops the others
        have hne : task' ≠ .interrupted := by cases hmove <;> rintro ⟨⟩
        have hne' : task.stops = false := by cases hmove <;> rfl
        obtain ⟨p, hp, heq⟩ := hsome
        have hp' : p ∈ front ++ back := by
          obtain rfl | hp := mem_middle.mp hp
          · exact absurd heq hne
          · exact hp
        obtain ⟨q, hq, hqs⟩ := ih ⟨p, mem_middle.mpr (.inr hp'), heq⟩
        obtain rfl | hq := mem_middle.mp hq
        · rw [hne'] at hqs
          cases hqs
        · exact ⟨q, mem_middle.mpr (.inr hq), hqs⟩

theorem Steps.success {good : (c : C) → R c → Prop} {P : C → Prop}
    (hf : ∀ x ∈ xs, Effect.Within good P (fun y => ∃ a, y = .success a) (f x))
    (hgood : ∀ c s r s', exec c s r s' → good c r) (hnodup : xs.Nodup)
    (h : Steps limit f exec (start xs, s) (tasks, t)) (hover : Over tasks) :
    ∀ p ∈ tasks, ∃ a, p.2 = .ended (.success a) := by
  have hends := Steps.ends hf hgood hnodup h
  have hquiet : ∀ p ∈ tasks, p.2.stops = false := by
    rintro ⟨x, task⟩ hp
    cases task with
    | ended y =>
      obtain ⟨a, rfl⟩ := (hends _ hp).2
      rfl
    | waiting => rfl
    | running p => rfl
    | interrupted => rfl
  rintro ⟨x, task⟩ hp
  cases task with
  | ended y =>
    obtain ⟨a, rfl⟩ := (hends _ hp).2
    exact ⟨a, rfl⟩
  | waiting => cases hover _ hp
  | running p => cases hover _ hp
  | interrupted =>
    obtain ⟨q, hq, hstops⟩ := Steps.stopped h ⟨_, hp, rfl⟩
    rw [hquiet q hq] at hstops
    cases hstops

/-- Where no effect fails and one never ends with a value, `forEach` ends with a defect if it
ends. -/
theorem Steps.defect {good : (c : C) → R c → Prop} {P : C → Prop} {Q : X → Exit E A → Prop} {x : X}
    (hf : ∀ x ∈ xs, Effect.Within good P (Q x) (f x)) (hfail : ∀ x e, ¬ Q x (.failure e))
    (hgood : ∀ c s r s', exec c s r s' → good c r) (hnodup : xs.Nodup)
    (h : Steps limit f exec (start xs, s) (tasks, t)) (hover : Over tasks) (hx : x ∈ xs)
    (hnever : ∀ a, ¬ Q x (.success a)) : outcome tasks = .defect := by
  have hends := Steps.ends hf hgood hnodup h
  have hstops : ∃ p ∈ tasks, p.2.stops = true := by
    have hm : x ∈ tasks.map Prod.fst := by
      rw [Steps.map_fst h]
      simpa [start] using hx
    obtain ⟨⟨y, task⟩, hp, rfl⟩ := List.mem_map.mp hm
    cases task with
    | ended z =>
      cases z with
      | success a => exact absurd (hends _ hp).2 (hnever a)
      | failure e => exact absurd (hends _ hp).2 (hfail _ e)
      | defect => exact ⟨_, hp, rfl⟩
    | waiting => cases hover _ hp
    | running p => cases hover _ hp
    | interrupted => exact Steps.stopped h ⟨_, hp, rfl⟩
  have hnone : ∀ p ∈ tasks, ∀ e, p.2 ≠ .ended (.failure e) := by
    rintro ⟨y, task⟩ hp e rfl
    exact hfail y e (hends _ hp).2
  refine outcome_defect hnone ?_
  obtain ⟨⟨y, task⟩, hp, hstop⟩ := hstops
  cases task with
  | ended z =>
    cases z with
    | success a => cases hstop
    | failure e => exact absurd rfl (hnone _ hp e)
    | defect => exact ⟨_, hp, rfl⟩
  | waiting => cases hstop
  | running p => cases hstop
  | interrupted => cases hstop

end Ends

section Progress

variable {limit : ℕ} {f : X → Effect C R E A} {exec : (c : C) → S → R c → S → Prop}

/-- Whatever steps are taken they come to a state in `Q`. -/
inductive Inevitable {W : Type u} (step : W → W → Prop) (Q : W → Prop) : W → Prop
  | now {w : W} : Q w → Inevitable step Q w
  | later {w : W} : (∃ w', step w w') → (∀ w', step w w' → Inevitable step Q w') → Inevitable step Q w

theorem first_waiting {tasks : Tasks X C R E A} (h : ∃ t ∈ tasks, t.2 = .waiting) :
    ∃ front x back, tasks = front ++ (x, .waiting) :: back ∧ ∀ t ∈ front, t.2 ≠ .waiting := by
  induction tasks with
  | nil => simp at h
  | cons t tasks ih =>
    by_cases ht : t.2 = .waiting
    · exact ⟨[], t.1, tasks, by rw [← ht]; rfl, by simp⟩
    · have hrest : ∃ t ∈ tasks, t.2 = .waiting := by
        obtain ⟨q, hq, hw⟩ := h
        obtain rfl | hq := List.mem_cons.mp hq
        · exact absurd hw ht
        · exact ⟨q, hq, hw⟩
      obtain ⟨front, x, back, rfl, hfront⟩ := ih hrest
      exact ⟨t :: front, x, back, rfl, List.forall_mem_cons.mpr ⟨ht, hfront⟩⟩

theorem move_exists {good : (c : C) → R c → Prop} {P : C → Prop} {Q : Exit E A → Prop}
    (hexec : ∀ c s, P c → ∃ r t, exec c s r t) {p : Effect C R E A} (hp : Effect.Within good P Q p) (x : X)
    (s : S) : ∃ task s', Move f exec x (.running p) s task s' := by
  cases p with
  | succeed a => exact ⟨_, _, .succeed⟩
  | fail e => exact ⟨_, _, .fail⟩
  | die => exact ⟨_, _, .die⟩
  | perform c k =>
    obtain ⟨r, t, hc⟩ := hexec c s hp.1
    exact ⟨_, _, .call hc⟩

/-- Until it is over `forEach` can go on, as long as its elements make calls that are answered. -/
theorem step_exists {good : (c : C) → R c → Prop} {P : C → Prop} {Q : X → Exit E A → Prop}
    (hlimit : 0 < limit) (hexec : ∀ c s, P c → ∃ r t, exec c s r t) {tasks : Tasks X C R E A}
    (hends : ∀ t ∈ tasks, Ends good P (Q t.1) t.2) (hover : ¬ Over tasks) (s : S) :
    ∃ w, Step limit f exec (tasks, s) w := by
  by_cases hrun : ∃ t ∈ tasks, ∃ p, t.2 = .running p
  · obtain ⟨⟨x, _⟩, hm, p, rfl⟩ := hrun
    have hp : Effect.Within good P (Q x) p := hends _ hm
    obtain ⟨front, back, rfl⟩ := List.append_of_mem hm
    obtain ⟨task, s', hmove⟩ := move_exists hexec hp x s
    exact ⟨_, .move hmove (by rintro ⟨⟩)⟩
  · have hwait : ∃ t ∈ tasks, t.2 = .waiting := by
      by_contra hwait
      refine hover (fun t ht => ?_)
      obtain ⟨x, task⟩ := t
      cases task with
      | waiting => exact absurd ⟨_, ht, rfl⟩ hwait
      | running p => exact absurd ⟨_, ht, p, rfl⟩ hrun
      | ended y => rfl
      | interrupted => rfl
    obtain ⟨front, x, back, rfl, hfront⟩ := first_waiting hwait
    have hidle : (front ++ back).countP (fun t => t.2.isRunning) = 0 := by
      refine List.countP_eq_zero.mpr (fun t ht hrunning => hrun ?_)
      refine ⟨t, mem_middle.mpr (.inr ht), ?_⟩
      obtain ⟨z, task⟩ := t
      cases task with
      | running p => exact ⟨p, rfl⟩
      | waiting => cases hrunning
      | ended y => cases hrunning
      | interrupted => cases hrunning
    exact ⟨_, .move .begin (fun _ => ⟨hfront, by omega⟩)⟩

variable [∀ c, Fintype (R c)]

def depth : Effect C R E A → ℕ
  | .succeed _ => 1
  | .fail _ => 1
  | .die => 1
  | .perform _ k => Finset.univ.sup (fun r => depth (k r)) + 1

def Task.work (p : Effect C R E A) : Task C R E A → ℕ
  | .waiting => depth p + 1
  | .running q => depth q
  | .ended _ => 0
  | .interrupted => 0

def work (f : X → Effect C R E A) (tasks : Tasks X C R E A) : ℕ :=
  (tasks.map (fun t => t.2.work (f t.1))).sum

theorem depth_pos (p : Effect C R E A) : 0 < depth p := by
  cases p <;> simp [depth]

theorem Move.work_lt {x : X} {task task' : Task C R E A} {s s' : S}
    (h : Move f exec x task s task' s') : task'.work (f x) < task.work (f x) := by
  cases h with
  | begin => exact Nat.lt_succ_self _
  | @call c k _ _ r _ =>
    have hle : depth (k r) ≤ Finset.univ.sup (fun r => depth (k r)) :=
      Finset.le_sup (f := fun r => depth (k r)) (Finset.mem_univ r)
    exact Nat.lt_succ_of_le hle
  | succeed => exact depth_pos _
  | fail => exact depth_pos _
  | die => exact depth_pos _

theorem work_others_le (task : Task C R E A) (tasks : Tasks X C R E A) :
    work f (others task tasks) ≤ work f tasks := by
  rw [others]
  split
  · rw [work, work, List.map_map]
    refine List.sum_le_sum (fun t _ => ?_)
    obtain ⟨x, task⟩ := t
    cases task <;> simp [Task.interrupt, Task.work]
  · exact Nat.le_refl _

/-- Every step leaves less to do. -/
theorem Step.work_lt {w w' : Tasks X C R E A × S} (h : Step limit f exec w w') :
    work f w'.1 < work f w.1 := by
  cases h with
  | @move front back x task task' _ _ hmove _ =>
    have hfront := work_others_le (f := f) task' front
    have hback := work_others_le (f := f) task' back
    have hx := hmove.work_lt
    simp only [work] at hfront hback
    simp only [work, List.map_append, List.map_cons, List.sum_append, List.sum_cons]
    omega

/-- From wherever it is, `forEach` comes to its end, as long as its elements make calls that are
answered. -/
theorem over_inevitable {good : (c : C) → R c → Prop} {P : C → Prop} {Q : X → Exit E A → Prop} {xs : List X}
    (hlimit : 0 < limit) (hexec : ∀ c s, P c → ∃ r t, exec c s r t)
    (hf : ∀ x ∈ xs, Effect.Within good P (Q x) (f x)) (hgood : ∀ c s r s', exec c s r s' → good c r)
    (hnodup : xs.Nodup) {tasks : Tasks X C R E A} {s t : S}
    (h : Steps limit f exec (start xs, s) (tasks, t)) :
    Inevitable (Step limit f exec) (fun w => Over w.1) (tasks, t) := by
  induction hn : work f tasks using Nat.strongRecOn generalizing tasks t with
  | _ n ih =>
    by_cases hover : Over tasks
    · exact .now hover
    · have hends : ∀ p ∈ tasks, Ends good P (Q p.1) p.2 :=
        fun p hp => (Steps.ends hf hgood hnodup h p hp).2
      refine .later (step_exists hlimit hexec hends hover t) (fun w hstep => ?_)
      exact ih _ (hn ▸ hstep.work_lt) (h.tail hstep) rfl

end Progress

section Alone

variable {limit : ℕ} {f : X → Effect C R E A} {exec : (c : C) → S → R c → S → Prop} {K V : Type}
  {key : X → K} {view : K → S → V} {alone : (c : C) → V → R c → V → Prop} {own : K → C → Prop}

def Alone (alone : (c : C) → V → R c → V → Prop) (own : C → Prop) (p : Effect C R E A) (before now : V) :
    Task C R E A → Prop
  | .waiting => now = before
  | .running q => Effect.Within Effect.anyAnswer own (fun _ => True) q ∧
      ∀ x after, Effect.Runs alone q now x after → Effect.Runs alone p before x after
  | .ended x => Effect.Runs alone p before x now
  | .interrupted => True

/-- The calls of an element act on what is seen under its key, and on nothing else. -/
structure Separate (f : X → Effect C R E A) (exec : (c : C) → S → R c → S → Prop) (key : X → K)
    (view : K → S → V) (alone : (c : C) → V → R c → V → Prop) (own : K → C → Prop) : Prop where
  calls : ∀ x, Effect.Within Effect.anyAnswer (own (key x)) (fun _ => True) (f x)
  acts : ∀ {k c s r s'}, own k c → exec c s r s' → alone c (view k s) r (view k s')
  frame : ∀ {k k' c s r s'}, own k c → exec c s r s' → k' ≠ k → view k' s' = view k' s

/-- An element that is ended has run as it would by itself. Under a key of no element nothing
changes. -/
theorem Separate.steps (h : Separate f exec key view alone own) {xs : List X}
    {tasks : Tasks X C R E A} {s t : S} (hsteps : Steps limit f exec (start xs, s) (tasks, t))
    (hnodup : (xs.map key).Nodup) : (∀ k, k ∉ xs.map key → view k t = view k s) ∧
      ∀ p ∈ tasks, Alone alone (own (key p.1)) (f p.1) (view (key p.1) s) (view (key p.1) t) p.2 := by
  have hkeeps : Keeps f exec (fun u => ∀ k, k ∉ xs.map key → view k u = view k s)
      (fun u x task => x ∈ xs ∧
        Alone alone (own (key x)) (f x) (view (key x) s) (view (key x) u) task) := by
    refine ⟨fun {x _ _ _ _} hF hx hmove => ?_, fun {x _ _ _ _ y τ} _ hx hmove hne hy => ?_,
      fun {_ _ _ _ τ} _ _ hy => ⟨hy.1, ?_⟩⟩
    · obtain ⟨hx, halone⟩ := hx
      cases hmove with
      | begin => exact ⟨hF, hx, h.calls x, fun y after hr => halone ▸ hr⟩
      | call hexec =>
        obtain ⟨⟨hown, hk⟩, hrest⟩ := halone
        refine ⟨fun k hk => ?_, hx, hk _ trivial, fun y after hr => ?_⟩
        · have hne := (ne_of_mem_of_not_mem (List.mem_map_of_mem hx) hk).symm
          exact (h.frame hown hexec hne).trans (hF k hk)
        · exact hrest y after (.perform (h.acts hown hexec) hr)
      | succeed => exact ⟨hF, hx, halone.2 _ _ (.succeed _ _)⟩
      | fail => exact ⟨hF, hx, halone.2 _ _ (.fail _ _)⟩
      | die => exact ⟨hF, hx, halone.2 _ _ (.die _)⟩
    · cases hmove with
      | call hexec =>
        obtain ⟨hx, ⟨hown, _⟩, _⟩ := hx
        have hkey : key y ≠ key x := fun heq => hne (List.inj_on_of_nodup_map hnodup hy.1 hx heq)
        rw [h.frame hown hexec hkey]
        exact hy
      | begin => exact hy
      | succeed => exact hy
      | fail => exact hy
      | die => exact hy
    · obtain hsame | hinterrupted := τ.interrupt_cases
      · rw [hsame]
        exact hy.2
      · rw [hinterrupted]
        trivial
  obtain ⟨hothers, halone⟩ :=
    hkeeps.run hsteps (hnodup.of_map key) (fun k _ => rfl) (fun x hx => ⟨hx, rfl⟩)
  exact ⟨hothers, fun p hp => (halone p hp).2⟩

end Alone

section Guarded

variable {W : Type} {limit : ℕ} {f : X → Effect C R E A} {exec : (c : C) → W → R c → W → Prop}
  {inv : W → Prop} {rely guar : X → C → W → W → Prop}

def Safe (exec : (c : C) → W → R c → W → Prop) (inv : W → Prop) (rely guar : C → W → W → Prop) (s : W) :
    Task C R E A → Prop
  | .running p => Pool.Safe exec inv rely guar (fun _ _ => True) p s
  | _ => True

theorem Safe.wait {rely guar : C → W → W → Prop} {task : Task C R E A} {s t : W}
    (h : Safe exec inv rely guar s task) (htrans : ∀ c s t u, rely c s t → rely c t u → rely c s u)
    (hst : ∀ c, rely c s t) : Safe exec inv rely guar t task := by
  cases task with
  | waiting => trivial
  | ended x => trivial
  | interrupted => trivial
  | running p =>
    cases p with
    | succeed a => trivial
    | fail e => trivial
    | die => trivial
    | perform c k => exact Pool.Safe.wait (htrans c) h (hst c)

/-- What one element's calls guarantee the others may rely on: then whatever every guarantee keeps
is kept by the whole `forEach`. -/
theorem Steps.safe {F : W → Prop} {xs : List X} {tasks : Tasks X C R E A} {s t : W}
    (hsafe : ∀ x ∈ xs, ∀ s, inv s → Pool.Safe exec inv (rely x) (guar x) (fun _ _ => True) (f x) s)
    (hrefl : ∀ x c s, rely x c s s) (htrans : ∀ x c s t u, rely x c s t → rely x c t u → rely x c s u)
    (hguar : ∀ x y c c' s s', guar x c s s' → rely y c' s s')
    (hF : ∀ x ∈ xs, ∀ c s s', inv s → F s → guar x c s s' → F s') (hnodup : xs.Nodup)
    (h : Steps limit f exec (start xs, s) (tasks, t)) (hs : inv s) (hFs : F s) : inv t ∧ F t := by
  have hkeeps : Keeps f exec (fun s => inv s ∧ F s)
      (fun s x task => x ∈ xs ∧ Safe exec inv (rely x) (guar x) s task) := by
    refine ⟨fun hFs hx hmove => ?_, fun {x _ s _ s' y τ} hFs hx hmove _ hy => ⟨hy.1, ?_⟩,
      fun {_ _ _ _ τ} _ _ hy => ⟨hy.1, ?_⟩⟩
    · obtain ⟨hs, hFs⟩ := hFs
      obtain ⟨hx, hp⟩ := hx
      cases hmove with
      | begin => exact ⟨⟨hs, hFs⟩, hx, hsafe _ hx _ hs⟩
      | call hexec =>
        obtain ⟨hi, hg, hk⟩ := hp _ (hrefl _ _ _) hs _ _ hexec
        exact ⟨⟨hi, hF _ hx _ _ _ hs hFs hg⟩, hx, hk⟩
      | succeed => exact ⟨⟨hs, hFs⟩, hx, trivial⟩
      | fail => exact ⟨⟨hs, hFs⟩, hx, trivial⟩
      | die => exact ⟨⟨hs, hFs⟩, hx, trivial⟩
    · cases hmove with
      | call hexec =>
        obtain ⟨_, hg, _⟩ := hx.2 _ (hrefl _ _ _) hFs.1 _ _ hexec
        exact hy.2.wait (htrans y) (fun c' => hguar _ _ _ _ _ _ hg)
      | begin => exact hy.2
      | succeed => exact hy.2
      | fail => exact hy.2
      | die => exact hy.2
    · obtain hsame | hinterrupted := τ.interrupt_cases
      · rw [hsame]
        exact hy.2
      · rw [hinterrupted]
        trivial
  exact (hkeeps.run h hnodup ⟨hs, hFs⟩ (fun x hx => ⟨hx, trivial⟩)).1

end Guarded

section Conserved

variable {N : Type} [AddCommMonoid N] {limit : ℕ} {f : X → Effect C R E A}
  {exec : (c : C) → S → R c → S → Prop} {F : S → Prop} {Q : S → X → Task C R E A → Prop}
  {tasks tasks' : Tasks X C R E A} {s s' : S}

def total (g : X → Task C R E A → N) (tasks : Tasks X C R E A) : N := (tasks.map (fun t => g t.1 t.2)).sum

/-- What no step of an element makes or loses, and no step is one that stops the others, is the
same in the end. -/
theorem Steps.conserved (μ : S → N) (g : X → Task C R E A → N) (hkeeps : Keeps f exec F Q)
    (hmove : ∀ {x task s task' s'}, F s → Q s x task → Move f exec x task s task' s' →
      task'.stops = false ∧ μ s' + g x task' = μ s + g x task)
    (h : Steps limit f exec (tasks, s) (tasks', s')) (hnodup : (tasks.map Prod.fst).Nodup) (hF : F s)
    (hQ : ∀ t ∈ tasks, Q s t.1 t.2) : μ s' + total g tasks' = μ s + total g tasks := by
  suffices hall : ∀ c : Tasks X C R E A × S, Steps limit f exec (tasks, s) c →
      μ c.2 + total g c.1 = μ s + total g tasks from hall _ h
  intro c hc
  induction hc with
  | refl => rfl
  | @tail c c' hprev hstep ih =>
    obtain ⟨hF', hQ'⟩ := hkeeps.steps hprev hnodup hF hQ
    cases hstep with
    | @move front back x task task' u u' hm _ =>
      obtain ⟨hstops, hsame⟩ := hmove hF' (hQ' (x, task) (mem_middle.mpr (.inl rfl))) hm
      have hothers : ∀ l : Tasks X C R E A, others task' l = l := fun l => by simp [others, hstops]
      have hmiddle : ∀ m a b c : N, m + (a + (b + c)) = (m + b) + (a + c) := fun m a b c => by
        rw [add_left_comm a b c, add_assoc]
      simp only [total, List.map_append, List.map_cons, List.sum_append, List.sum_cons, hmiddle] at ih ⊢
      rw [← ih, hothers, hothers, hsame]

end Conserved

end EcommerceService.ForEach
