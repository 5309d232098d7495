import Mathlib.Logic.Function.Basic

namespace EcommerceService.Effects

universe u v

/-- The ways an effect ends. A defect is an exception thrown while the effect
runs: no error handler sees it. -/
inductive Exit (E A : Type) where
  | success (a : A)
  | failure (e : E)
  | defect

namespace Exit

variable {E A B : Type} {f : A → B} {x : Exit E A}

def map (f : A → B) : Exit E A → Exit E B
  | .success a => .success (f a)
  | .failure e => .failure e
  | .defect => .defect

@[simp] theorem map_eq_success {b : B} : x.map f = .success b ↔ ∃ a, x = .success a ∧ f a = b := by
  cases x <;> simp [map]

@[simp] theorem map_eq_failure {e : E} : x.map f = .failure e ↔ x = .failure e := by
  cases x <;> simp [map]

end Exit

/-- An effect is the tree of the external calls it makes. A call is answered
from outside, and the answer decides how the effect goes on. -/
inductive Effect (C : Type u) (R : C → Type) (E A : Type) : Type u where
  | succeed (a : A)
  | fail (e : E)
  | die
  | perform (c : C) (k : R c → Effect C R E A)

namespace Effect

variable {C : Type u} {R : C → Type} {E E' A B : Type} {S : Type v}

def flatMap (f : A → Effect C R E B) : Effect C R E A → Effect C R E B
  | .succeed a => f a
  | .fail e => .fail e
  | .die => .die
  | .perform c k => .perform c (fun r => flatMap f (k r))

def catchAll (h : E → Effect C R E' A) : Effect C R E A → Effect C R E' A
  | .succeed a => .succeed a
  | .fail e => h e
  | .die => .die
  | .perform c k => .perform c (fun r => catchAll h (k r))

def map (f : A → B) (p : Effect C R E A) : Effect C R E B := p.flatMap (fun a => .succeed (f a))

def tap (f : A → Effect C R E B) (p : Effect C R E A) : Effect C R E A :=
  p.flatMap (fun a => (f a).map (fun _ => a))

def asVoid (p : Effect C R E A) : Effect C R E Unit := p.map (fun _ => ())

def catchIf (test : E → Bool) (h : E → Effect C R E A) (p : Effect C R E A) : Effect C R E A :=
  p.catchAll (fun e => if test e then h e else .fail e)

def all : List (Effect C R E A) → Effect C R E (List A)
  | [] => .succeed []
  | p :: ps => p.flatMap (fun a => (all ps).map (fun as => a :: as))

def retry (times : Nat) (p : Effect C R E A) : Effect C R E A :=
  match times with
  | 0 => p
  | n + 1 => p.catchAll (fun _ => retry n p)

/-- An effect run as a promise inside another one: a failure and a defect both
reject the promise, and a rejection is a failure of the outer effect. -/
def promise (rejected : E') : Effect C R E A → Effect C R E' A
  | .succeed a => .succeed a
  | .fail _ => .fail rejected
  | .die => .fail rejected
  | .perform c k => .perform c (fun r => promise rejected (k r))

def embed {C' : Type u} {R' : C' → Type} (f : C → C') (reply : ∀ c, R' (f c) → R c) :
    Effect C R E A → Effect C' R' E A
  | .succeed a => .succeed a
  | .fail e => .fail e
  | .die => .die
  | .perform c k => .perform (f c) (fun r => embed f reply (k (reply c r)))

/-- A completed run of an effect, nothing else touching the state in between. -/
inductive Runs (exec : (c : C) → S → R c → S → Prop) :
    Effect C R E A → S → Exit E A → S → Prop
  | succeed (a : A) (s : S) : Runs exec (.succeed a) s (.success a) s
  | fail (e : E) (s : S) : Runs exec (.fail e) s (.failure e) s
  | die (s : S) : Runs exec .die s .defect s
  | perform {c : C} {k : R c → Effect C R E A} {s s' t : S} {r : R c} {x : Exit E A} :
      exec c s r s' → Runs exec (k r) s' x t → Runs exec (.perform c k) s x t

variable {exec : (c : C) → S → R c → S → Prop}

@[simp] theorem runs_succeed {a : A} {s t : S} {x : Exit E A} :
    Runs exec (.succeed a) s x t ↔ x = .success a ∧ t = s := by
  constructor
  · rintro ⟨⟩
    exact ⟨rfl, rfl⟩
  · rintro ⟨rfl, rfl⟩
    exact .succeed a t

@[simp] theorem runs_fail {e : E} {s t : S} {x : Exit E A} :
    Runs exec (.fail e) s x t ↔ x = .failure e ∧ t = s := by
  constructor
  · rintro ⟨⟩
    exact ⟨rfl, rfl⟩
  · rintro ⟨rfl, rfl⟩
    exact .fail e t

@[simp] theorem runs_die {s t : S} {x : Exit E A} :
    Runs exec .die s x t ↔ x = .defect ∧ t = s := by
  constructor
  · rintro ⟨⟩
    exact ⟨rfl, rfl⟩
  · rintro ⟨rfl, rfl⟩
    exact .die t

@[simp] theorem runs_perform {c : C} {k : R c → Effect C R E A} {s t : S} {x : Exit E A} :
    Runs exec (.perform c k) s x t ↔ ∃ r s', exec c s r s' ∧ Runs exec (k r) s' x t := by
  constructor
  · intro h
    cases h with
    | perform hc hk => exact ⟨_, _, hc, hk⟩
  · rintro ⟨r, s', hc, hk⟩
    exact .perform hc hk

theorem Runs.mono {exec' : (c : C) → S → R c → S → Prop} {p : Effect C R E A} {s t : S}
    {x : Exit E A} (h : Runs exec p s x t) (hexec : ∀ c s r t, exec c s r t → exec' c s r t) :
    Runs exec' p s x t := by
  induction h with
  | succeed a s => exact .succeed a s
  | fail e s => exact .fail e s
  | die s => exact .die s
  | perform hc _ ih => exact .perform (hexec _ _ _ _ hc) ih

def resume (f : A → Effect C R E B) : Exit E A → Effect C R E B
  | .success a => f a
  | .failure e => .fail e
  | .defect => .die

def handle (h : E → Effect C R E' A) : Exit E A → Effect C R E' A
  | .success a => .succeed a
  | .failure e => h e
  | .defect => .die

theorem flatMap_assoc {B' : Type} (p : Effect C R E A) (f : A → Effect C R E B)
    (g : B → Effect C R E B') :
    (p.flatMap f).flatMap g = p.flatMap (fun a => (f a).flatMap g) := by
  induction p with
  | succeed a => rfl
  | fail e => rfl
  | die => rfl
  | perform c k ih => exact congrArg (perform c) (funext ih)

theorem map_flatMap {B' : Type} (p : Effect C R E A) (f : A → B) (g : B → Effect C R E B') :
    (p.map f).flatMap g = p.flatMap (fun a => g (f a)) := flatMap_assoc p _ g

theorem runs_flatMap {f : A → Effect C R E B} {p : Effect C R E A} {s t : S} {x : Exit E B} :
    Runs exec (p.flatMap f) s x t ↔ ∃ y u, Runs exec p s y u ∧ Runs exec (resume f y) u x t := by
  induction p generalizing s with
  | succeed a => simp [flatMap, resume, and_assoc]
  | fail e => simp [flatMap, resume, and_assoc]
  | die => simp [flatMap, resume, and_assoc]
  | perform c k ih =>
    simp only [flatMap, runs_perform, ih]
    constructor
    · rintro ⟨r, s', hc, y, u, hk, hf⟩
      exact ⟨y, u, ⟨r, s', hc, hk⟩, hf⟩
    · rintro ⟨y, u, ⟨r, s', hc, hk⟩, hf⟩
      exact ⟨r, s', hc, y, u, hk, hf⟩

theorem runs_catchAll {h : E → Effect C R E' A} {p : Effect C R E A} {s t : S} {x : Exit E' A} :
    Runs exec (p.catchAll h) s x t ↔ ∃ y u, Runs exec p s y u ∧ Runs exec (handle h y) u x t := by
  induction p generalizing s with
  | succeed a => simp [catchAll, handle, and_assoc]
  | fail e => simp [catchAll, handle, and_assoc]
  | die => simp [catchAll, handle, and_assoc]
  | perform c k ih =>
    simp only [catchAll, runs_perform, ih]
    constructor
    · rintro ⟨r, s', hc, y, u, hk, hf⟩
      exact ⟨y, u, ⟨r, s', hc, hk⟩, hf⟩
    · rintro ⟨y, u, ⟨r, s', hc, hk⟩, hf⟩
      exact ⟨r, s', hc, y, u, hk, hf⟩

theorem runs_flatMap_success {f : A → Effect C R E B} {p : Effect C R E A} {s t : S} {b : B} :
    Runs exec (p.flatMap f) s (.success b) t ↔
      ∃ a u, Runs exec p s (.success a) u ∧ Runs exec (f a) u (.success b) t := by
  rw [runs_flatMap]
  constructor
  · rintro ⟨y, u, hp, hf⟩
    cases y with
    | success a => exact ⟨a, u, hp, hf⟩
    | failure e => simp [resume] at hf
    | defect => simp [resume] at hf
  · rintro ⟨a, u, hp, hf⟩
    exact ⟨.success a, u, hp, hf⟩

theorem runs_map {f : A → B} {p : Effect C R E A} {s t : S} {x : Exit E B} :
    Runs exec (p.map f) s x t ↔ ∃ y, Runs exec p s y t ∧ x = y.map f := by
  rw [map, runs_flatMap]
  constructor
  · rintro ⟨y, u, hp, hrest⟩
    cases y with
    | success a =>
      obtain ⟨hx, rfl⟩ := runs_succeed.mp hrest
      exact ⟨.success a, hp, hx⟩
    | failure e =>
      obtain ⟨hx, rfl⟩ := runs_fail.mp hrest
      exact ⟨.failure e, hp, hx⟩
    | defect =>
      obtain ⟨hx, rfl⟩ := runs_die.mp hrest
      exact ⟨.defect, hp, hx⟩
  · rintro ⟨y, hp, rfl⟩
    refine ⟨y, t, hp, ?_⟩
    cases y with
    | success a => exact .succeed (f a) t
    | failure e => exact .fail e t
    | defect => exact .die t

section Attempts

variable {V : C → Type} {exec : (c : C) → S → Option (V c) → S → Prop} {e : E} {c : C} {s t : S}

/-- A call that fails when it gets no answer. -/
def attempt (e : E) (c : C) : Effect C (fun c => Option (V c)) E (V c) :=
  .perform c (fun
    | some v => .succeed v
    | none => .fail e)

theorem runs_attempt {x : Exit E (V c)} (h : Runs exec (attempt e c) s x t) :
    (∃ v, exec c s (some v) t ∧ x = .success v) ∨ (exec c s none t ∧ x = .failure e) := by
  obtain ⟨r, s', hexec, hr⟩ := runs_perform.mp h
  cases r with
  | none =>
    obtain ⟨rfl, rfl⟩ := runs_fail.mp hr
    exact .inr ⟨hexec, rfl⟩
  | some v =>
    obtain ⟨rfl, rfl⟩ := runs_succeed.mp hr
    exact .inl ⟨v, hexec, rfl⟩

theorem runs_attempt_map {f : V c → A} {x : Exit E A} (h : Runs exec ((attempt e c).map f) s x t) :
    (∃ v, exec c s (some v) t ∧ x = .success (f v)) ∨ (exec c s none t ∧ x = .failure e) := by
  obtain ⟨y, hy, rfl⟩ := runs_map.mp h
  obtain ⟨v, hexec, rfl⟩ | ⟨hexec, rfl⟩ := runs_attempt hy
  · exact .inl ⟨v, hexec, rfl⟩
  · exact .inr ⟨hexec, rfl⟩

theorem runs_attempt_orFail {f : V c → A} {e' : E'} {x : Exit E' A}
    (h : Runs exec (((attempt e c).map f).catchAll (fun _ => .fail e')) s x t) :
    (∃ v, exec c s (some v) t ∧ x = .success (f v)) ∨ (exec c s none t ∧ x = .failure e') := by
  obtain ⟨y, u, hy, hx⟩ := runs_catchAll.mp h
  obtain ⟨v, hexec, rfl⟩ | ⟨hexec, rfl⟩ := runs_attempt_map hy
  · obtain ⟨rfl, rfl⟩ := runs_succeed.mp hx
    exact .inl ⟨v, hexec, rfl⟩
  · obtain ⟨rfl, rfl⟩ := runs_fail.mp hx
    exact .inr ⟨hexec, rfl⟩

end Attempts

theorem runs_map_success {f : A → B} {p : Effect C R E A} {s t : S} {b : B} :
    Runs exec (p.map f) s (.success b) t ↔ ∃ a, Runs exec p s (.success a) t ∧ b = f a := by
  rw [runs_map]
  constructor
  · rintro ⟨y, hp, hb⟩
    obtain ⟨a, rfl, ha⟩ := Exit.map_eq_success.mp hb.symm
    exact ⟨a, hp, ha.symm⟩
  · rintro ⟨a, hp, rfl⟩
    exact ⟨.success a, hp, rfl⟩

theorem runs_tap_success {f : A → Effect C R E B} {p : Effect C R E A} {s t : S} {a : A} :
    Runs exec (p.tap f) s (.success a) t ↔
      ∃ u b, Runs exec p s (.success a) u ∧ Runs exec (f a) u (.success b) t := by
  simp only [tap, runs_flatMap_success, runs_map_success]
  constructor
  · rintro ⟨a', u, hp, b, hf, rfl⟩
    exact ⟨u, b, hp, hf⟩
  · rintro ⟨u, b, hp, hf⟩
    exact ⟨a, u, hp, b, hf, rfl⟩

theorem runs_flatMap_failure {f : A → Effect C R E B} {p : Effect C R E A} {s t : S} {e : E}
    (h : Runs exec p s (.failure e) t) : Runs exec (p.flatMap f) s (.failure e) t :=
  runs_flatMap.mpr ⟨.failure e, t, h, .fail e t⟩

theorem runs_catchAll_failure {h : E → Effect C R E' A} {p : Effect C R E A} {s t u : S} {e : E}
    {x : Exit E' A} (hp : Runs exec p s (.failure e) u) (hh : Runs exec (h e) u x t) :
    Runs exec (p.catchAll h) s x t := runs_catchAll.mpr ⟨.failure e, u, hp, hh⟩

theorem runs_catchAll_success {h : E → Effect C R E' A} {p : Effect C R E A} {s t : S} {a : A}
    (hh : ∀ e, ∃ e', h e = .fail e') :
    Runs exec (p.catchAll h) s (.success a) t ↔ Runs exec p s (.success a) t := by
  rw [runs_catchAll]
  constructor
  · rintro ⟨y, u, hp, hh'⟩
    cases y with
    | success a' =>
      obtain ⟨ha, rfl⟩ := runs_succeed.mp hh'
      cases ha
      exact hp
    | failure e =>
      obtain ⟨e', he⟩ := hh e
      simp [handle, he] at hh'
    | defect => simp [handle] at hh'
  · exact fun hp => ⟨.success a, t, hp, .succeed a t⟩

theorem runs_all {F : S → Prop} {ps : List (Effect C R E A)}
    (h : ∀ p ∈ ps, ∀ s, F s → ∃ a t, Runs exec p s (.success a) t ∧ F t) {s : S} (hs : F s) :
    ∃ as t, Runs exec (all ps) s (.success as) t ∧ F t := by
  induction ps generalizing s with
  | nil => exact ⟨[], s, .succeed [] s, hs⟩
  | cons p ps ih =>
    obtain ⟨hp, hps⟩ := List.forall_mem_cons.mp h
    obtain ⟨a, u, ha, hu⟩ := hp s hs
    obtain ⟨as, t, has, ht⟩ := ih hps hu
    exact ⟨a :: as, t, runs_flatMap_success.mpr ⟨a, u, ha, runs_map_success.mpr ⟨as, has, rfl⟩⟩, ht⟩

theorem all_succeed {X : Type} {xs : List X} {f : X → Effect C R E A} {g : X → A}
    (h : ∀ x ∈ xs, f x = .succeed (g x)) : all (xs.map f) = .succeed (xs.map g) := by
  induction xs with
  | nil => rfl
  | cons x xs ih =>
    obtain ⟨hx, hxs⟩ := List.forall_mem_cons.mp h
    simp [all, flatMap, map, hx, ih hxs]

theorem all_fail {X : Type} {xs : List X} {f : X → Effect C R E A} {g : X → A} {e : E}
    (h : ∀ x ∈ xs, f x = .succeed (g x) ∨ f x = .fail e) (he : ∃ x ∈ xs, f x = .fail e) :
    all (xs.map f) = .fail e := by
  induction xs with
  | nil => simp at he
  | cons x xs ih =>
    obtain ⟨hx | hx, hxs⟩ := List.forall_mem_cons.mp h
    · obtain ⟨y, hy, hfail⟩ := he
      obtain rfl | hy := List.mem_cons.mp hy
      · cases hx.symm.trans hfail
      · simp [all, flatMap, map, hx, ih hxs ⟨y, hy, hfail⟩]
    · simp [all, flatMap, hx]

/-- Every call the effect can make satisfies `P` and every way it can end satisfies
`Q`, as long as each call gets a good answer. -/
def Within (good : (c : C) → R c → Prop) (P : C → Prop) (Q : Exit E A → Prop) :
    Effect C R E A → Prop
  | .succeed a => Q (.success a)
  | .fail e => Q (.failure e)
  | .die => Q .defect
  | .perform c k => P c ∧ ∀ r, good c r → Within good P Q (k r)

section Within

variable {good : (c : C) → R c → Prop} {P : C → Prop}

@[simp] theorem within_perform {Q : Exit E A → Prop} {c : C} {k : R c → Effect C R E A} :
    Within good P Q (.perform c k) ↔ P c ∧ ∀ r, good c r → Within good P Q (k r) := Iff.rfl

@[simp] theorem within_flatMap {Q : Exit E B → Prop} {f : A → Effect C R E B}
    {p : Effect C R E A} :
    Within good P Q (p.flatMap f) ↔ Within good P (fun y => Within good P Q (resume f y)) p := by
  induction p with
  | succeed a => rfl
  | fail e => rfl
  | die => rfl
  | perform c k ih => simp only [flatMap, within_perform, ih]

@[simp] theorem within_catchAll {Q : Exit E' A → Prop} {h : E → Effect C R E' A}
    {p : Effect C R E A} :
    Within good P Q (p.catchAll h) ↔ Within good P (fun y => Within good P Q (handle h y)) p := by
  induction p with
  | succeed a => rfl
  | fail e => rfl
  | die => rfl
  | perform c k ih => simp only [catchAll, within_perform, ih]

theorem Within.mono {P' : C → Prop} {Q Q' : Exit E A → Prop} {p : Effect C R E A}
    (h : Within good P Q p) (hP : ∀ c, P c → P' c) (hQ : ∀ x, Q x → Q' x) :
    Within good P' Q' p := by
  induction p with
  | succeed a => exact hQ _ h
  | fail e => exact hQ _ h
  | die => exact hQ _ h
  | perform c k ih => exact ⟨hP c h.1, fun r hr => ih r (h.2 r hr)⟩

theorem Within.retry {Q : Exit E A → Prop} {p : Effect C R E A} (times : Nat)
    (h : Within good P Q p) : Within good P Q (p.retry times) := by
  induction times with
  | zero => exact h
  | succ n ih =>
    refine within_catchAll.mpr (h.mono (fun _ hc => hc) (fun x hx => ?_))
    cases x with
    | success a => exact hx
    | failure e => exact ih
    | defect => exact hx

theorem Within.promise {Q : Exit E A → Prop} {Q' : Exit E' A → Prop} {e' : E'}
    {p : Effect C R E A} (h : Within good P Q p) (hs : ∀ a, Q (.success a) → Q' (.success a))
    (hf : Q' (.failure e')) : Within good P Q' (p.promise e') := by
  induction p with
  | succeed a => exact hs a h
  | fail e => exact hf
  | die => exact hf
  | perform c k ih => exact ⟨h.1, fun r hr => ih r (h.2 r hr)⟩

theorem Within.embed {C' : Type u} {R' : C' → Type} {f : C → C'} {reply : ∀ c, R' (f c) → R c}
    {good' : (c : C') → R' c → Prop} {P' : C' → Prop} {Q : Exit E A → Prop} {p : Effect C R E A}
    (h : Within good P Q p) (hgood : ∀ c r, good' (f c) r → good c (reply c r))
    (hP : ∀ c, P c → P' (f c)) : Within good' P' Q (p.embed f reply) := by
  induction p with
  | succeed a => exact h
  | fail e => exact h
  | die => exact h
  | perform c k ih => exact ⟨hP c h.1, fun r hr => ih _ (h.2 _ (hgood c r hr))⟩

/-- A completed run ends in `Q` and keeps what the calls in `P` keep. -/
theorem Within.runs {Q : Exit E A → Prop} {p : Effect C R E A} {F : S → Prop} {s t : S}
    {x : Exit E A} (h : Within good P Q p) (hr : Runs exec p s x t) (hF : F s)
    (hgood : ∀ c s r t, P c → exec c s r t → good c r)
    (hkeep : ∀ c s r t, P c → exec c s r t → F s → F t) : Q x ∧ F t := by
  induction hr with
  | succeed a s => exact ⟨h, hF⟩
  | fail e s => exact ⟨h, hF⟩
  | die s => exact ⟨h, hF⟩
  | perform hc _ ih => exact ih (h.2 _ (hgood _ _ _ _ h.1 hc)) (hkeep _ _ _ _ h.1 hc hF)

/-- Every call the effect can make satisfies `P` and every failure it can end with
satisfies `Q`, as long as each call gets a good answer. -/
def Confined (good : (c : C) → R c → Prop) (P : C → Prop) (Q : E → Prop)
    (p : Effect C R E A) : Prop :=
  Within good P (fun x => ∀ e, x = .failure e → Q e) p

def anyAnswer : (c : C) → R c → Prop := fun _ _ => True

variable {Q : E → Prop} {Q' : E' → Prop}

@[simp] theorem confined_succeed {a : A} : Confined good P Q (.succeed a : Effect C R E A) := by
  rintro e ⟨⟩

@[simp] theorem confined_die : Confined good P Q (.die : Effect C R E A) := by
  rintro e ⟨⟩

@[simp] theorem confined_fail {e : E} : Confined good P Q (.fail e : Effect C R E A) ↔ Q e := by
  refine ⟨fun h => h e rfl, ?_⟩
  rintro h _ ⟨⟩
  exact h

@[simp] theorem confined_perform {c : C} {k : R c → Effect C R E A} :
    Confined good P Q (.perform c k) ↔ P c ∧ ∀ r, good c r → Confined good P Q (k r) := Iff.rfl

theorem Confined.flatMap {p : Effect C R E A} {f : A → Effect C R E B} (hp : Confined good P Q p)
    (hf : ∀ a, Confined good P Q (f a)) : Confined good P Q (p.flatMap f) := by
  refine within_flatMap.mpr (Within.mono hp (fun _ h => h) (fun x hx => ?_))
  cases x with
  | success a => exact hf a
  | failure e => exact confined_fail.mpr (hx e rfl)
  | defect => exact confined_die

theorem Confined.catchAll {p : Effect C R E A} {h : E → Effect C R E' A} (hp : Confined good P Q p)
    (hh : ∀ e, Q e → Confined good P Q' (h e)) : Confined good P Q' (p.catchAll h) := by
  refine within_catchAll.mpr (Within.mono hp (fun _ h => h) (fun x hx => ?_))
  cases x with
  | success a => exact confined_succeed
  | failure e => exact hh e (hx e rfl)
  | defect => exact confined_die

theorem Confined.map {p : Effect C R E A} {f : A → B} (hp : Confined good P Q p) :
    Confined good P Q (p.map f) := hp.flatMap (fun _ => confined_succeed)

theorem Confined.tap {p : Effect C R E A} {f : A → Effect C R E B} (hp : Confined good P Q p)
    (hf : ∀ a, Confined good P Q (f a)) : Confined good P Q (p.tap f) :=
  hp.flatMap (fun a => (hf a).map)

theorem Confined.all {ps : List (Effect C R E A)} (hp : ∀ p ∈ ps, Confined good P Q p) :
    Confined good P Q (all ps) := by
  induction ps with
  | nil => exact confined_succeed
  | cons p ps ih =>
    obtain ⟨h, hs⟩ := List.forall_mem_cons.mp hp
    exact h.flatMap (fun _ => (ih hs).map)

theorem Confined.retry {p : Effect C R E A} (times : Nat) (hp : Confined good P Q p) :
    Confined good P Q (p.retry times) := Within.retry times hp

theorem Confined.promise {e' : E'} {p : Effect C R E A} (hp : Confined good P Q p) (he : Q' e') :
    Confined good P Q' (p.promise e') :=
  Within.promise hp (fun _ _ _ h => nomatch h) (fun _ h => Exit.failure.inj h ▸ he)

theorem Confined.mono {P' : C → Prop} {Q' : E → Prop} {p : Effect C R E A}
    (h : Confined good P Q p) (hP : ∀ c, P c → P' c) (hQ : ∀ e, Q e → Q' e) :
    Confined good P' Q' p :=
  Within.mono h hP (fun _ hx e he => hQ e (hx e he))

theorem Confined.runs {p : Effect C R E A} {F : S → Prop} {s t : S} {x : Exit E A}
    (h : Confined good P Q p) (hr : Runs exec p s x t) (hF : F s)
    (hgood : ∀ c s r t, P c → exec c s r t → good c r)
    (hkeep : ∀ c s r t, P c → exec c s r t → F s → F t) :
    (∀ e, x = .failure e → Q e) ∧ F t :=
  Within.runs h hr hF hgood hkeep

/-- Before each call of a run there is what the calls in `P` keep. -/
theorem Confined.runs_kept {p : Effect C R E A} {F : S → Prop} {s t : S} {x : Exit E A}
    (h : Confined good P Q p) (hr : Runs exec p s x t) (hF : F s)
    (hgood : ∀ c s r t, P c → exec c s r t → good c r)
    (hkeep : ∀ c s r t, P c → exec c s r t → F s → F t) :
    Runs (fun c s r t => exec c s r t ∧ F s) p s x t := by
  induction hr with
  | succeed a s => exact .succeed a s
  | fail e s => exact .fail e s
  | die s => exact .die s
  | perform hc _ ih =>
    exact .perform ⟨hc, hF⟩ (ih (h.2 _ (hgood _ _ _ _ h.1 hc)) (hkeep _ _ _ _ h.1 hc hF))

/-- Run from `s`, the effect comes to the call `c` in the state `t`. -/
inductive Comes (exec : (c : C) → S → R c → S → Prop) : Effect C R E A → S → C → S → Prop
  | here {c : C} {k : R c → Effect C R E A} {s : S} : Comes exec (.perform c k) s c s
  | later {c c' : C} {k : R c → Effect C R E A} {s s' t : S} {r : R c} :
      exec c s r s' → Comes exec (k r) s' c' t → Comes exec (.perform c k) s c' t

section Comes

variable {c : C} {s t : S}

@[simp] theorem not_comes_succeed {a : A} : ¬ Comes exec (.succeed a : Effect C R E A) s c t := by
  rintro ⟨⟩

@[simp] theorem not_comes_fail {e : E} : ¬ Comes exec (.fail e : Effect C R E A) s c t := by
  rintro ⟨⟩

@[simp] theorem not_comes_die : ¬ Comes exec (.die : Effect C R E A) s c t := by
  rintro ⟨⟩

theorem comes_flatMap {f : A → Effect C R E B} {p : Effect C R E A} :
    Comes exec (p.flatMap f) s c t ↔ Comes exec p s c t ∨
      ∃ a u, Runs exec p s (.success a) u ∧ Comes exec (f a) u c t := by
  induction p generalizing s with
  | succeed a => simp [flatMap, and_assoc]
  | fail e => simp [flatMap]
  | die => simp [flatMap]
  | perform c' k ih =>
    constructor
    · rintro (_ | ⟨hc, hk⟩)
      · exact .inl .here
      · obtain hk | ⟨a, u, hr, hf⟩ := (ih _).mp hk
        · exact .inl (.later hc hk)
        · exact .inr ⟨a, u, .perform hc hr, hf⟩
    · rintro ((_ | ⟨hc, hk⟩) | ⟨a, u, hr, hf⟩)
      · exact .here
      · exact .later hc ((ih _).mpr (.inl hk))
      · obtain ⟨r, s', hc, hk⟩ := runs_perform.mp hr
        exact .later hc ((ih r).mpr (.inr ⟨a, u, hk, hf⟩))

theorem comes_catchAll {h : E → Effect C R E' A} {p : Effect C R E A} :
    Comes exec (p.catchAll h) s c t ↔ Comes exec p s c t ∨
      ∃ e u, Runs exec p s (.failure e) u ∧ Comes exec (h e) u c t := by
  induction p generalizing s with
  | succeed a => simp [catchAll]
  | fail e => simp [catchAll, and_assoc]
  | die => simp [catchAll]
  | perform c' k ih =>
    constructor
    · rintro (_ | ⟨hc, hk⟩)
      · exact .inl .here
      · obtain hk | ⟨e, u, hr, hh⟩ := (ih _).mp hk
        · exact .inl (.later hc hk)
        · exact .inr ⟨e, u, .perform hc hr, hh⟩
    · rintro ((_ | ⟨hc, hk⟩) | ⟨e, u, hr, hh⟩)
      · exact .here
      · exact .later hc ((ih _).mpr (.inl hk))
      · obtain ⟨r, s', hc, hk⟩ := runs_perform.mp hr
        exact .later hc ((ih r).mpr (.inr ⟨e, u, hk, hh⟩))

theorem comes_map {f : A → B} {p : Effect C R E A} :
    Comes exec (p.map f) s c t ↔ Comes exec p s c t := by
  simp [map, comes_flatMap]

theorem Comes.mono {exec' : (c : C) → S → R c → S → Prop} {p : Effect C R E A}
    (hc : Comes exec p s c t) (h : ∀ c s r t, exec c s r t → exec' c s r t) : Comes exec' p s c t := by
  induction hc with
  | here => exact .here
  | later hexec _ ih => exact .later (h _ _ _ _ hexec) ih

theorem Within.comes {good : (c : C) → R c → Prop} {P : C → Prop} {Q : Exit E A → Prop}
    {p : Effect C R E A} (h : Within good P Q p) (hc : Comes exec p s c t)
    (hgood : ∀ c s r t, exec c s r t → good c r) : P c := by
  induction hc with
  | here => exact h.1
  | later hexec _ ih => exact ih (h.2 _ (hgood _ _ _ _ hexec))

end Comes

def Settles (p : Effect C R E A) : Prop :=
  Within anyAnswer (fun _ => True) (fun x => x ≠ .defect) p

@[simp] theorem settles_succeed {a : A} : Settles (.succeed a : Effect C R E A) := nofun

@[simp] theorem settles_fail {e : E} : Settles (.fail e : Effect C R E A) := nofun

@[simp] theorem settles_perform {c : C} {k : R c → Effect C R E A} :
    Settles (.perform c k) ↔ ∀ r, Settles (k r) :=
  ⟨fun h r => h.2 r trivial, fun h => ⟨trivial, fun r _ => h r⟩⟩

theorem Settles.flatMap {p : Effect C R E A} {f : A → Effect C R E B} (hp : Settles p)
    (hf : ∀ a, Settles (f a)) : Settles (p.flatMap f) := by
  refine within_flatMap.mpr (Within.mono hp (fun _ h => h) (fun x hx => ?_))
  cases x with
  | success a => exact hf a
  | failure e => exact settles_fail
  | defect => exact absurd rfl hx

theorem Settles.catchAll {p : Effect C R E A} {h : E → Effect C R E' A} (hp : Settles p)
    (hh : ∀ e, Settles (h e)) : Settles (p.catchAll h) := by
  refine within_catchAll.mpr (Within.mono hp (fun _ h => h) (fun x hx => ?_))
  cases x with
  | success a => exact settles_succeed
  | failure e => exact hh e
  | defect => exact absurd rfl hx

theorem Settles.map {p : Effect C R E A} {f : A → B} (hp : Settles p) : Settles (p.map f) :=
  hp.flatMap (fun _ => settles_succeed)

theorem Settles.all {ps : List (Effect C R E A)} (h : ∀ p ∈ ps, Settles p) :
    Settles (all ps) := by
  induction ps with
  | nil => exact settles_succeed
  | cons p ps ih =>
    obtain ⟨hp, hps⟩ := List.forall_mem_cons.mp h
    exact hp.flatMap (fun _ => (ih hps).map)

theorem Settles.runs {p : Effect C R E A} {s t : S} {x : Exit E A} (h : Settles p)
    (hr : Runs exec p s x t) : x ≠ .defect :=
  (Within.runs (F := fun _ => True) h hr trivial (fun _ _ _ _ _ _ => trivial)
    (fun _ _ _ _ _ _ _ => trivial)).1

/-- An effect of which every call gets a reply runs to an end. -/
theorem runs_exists (p : Effect C R E A) (hexec : ∀ c s, ∃ r t, exec c s r t) (s : S) :
    ∃ x t, Runs exec p s x t := by
  induction p generalizing s with
  | succeed a => exact ⟨_, _, .succeed a s⟩
  | fail e => exact ⟨_, _, .fail e s⟩
  | die => exact ⟨_, _, .die s⟩
  | perform c k ih =>
    obtain ⟨r, s', hc⟩ := hexec c s
    obtain ⟨x, t, hk⟩ := ih r s'
    exact ⟨x, t, .perform hc hk⟩

end Within

/-- Every call the effect can make satisfies `P`, and what it goes on with after the reply
to a call is as `next` says, as long as each call gets a good answer. -/
def Follows (good : (c : C) → R c → Prop) (P : C → Prop)
    (next : (c : C) → R c → Effect C R E A → Prop) : Effect C R E A → Prop
  | .perform c k => P c ∧ ∀ r, good c r → next c r (k r) ∧ Follows good P next (k r)
  | _ => True

theorem Follows.of_within {good good' : (c : C) → R c → Prop} {P P' : C → Prop}
    {Q : Exit E A → Prop} {next : (c : C) → R c → Effect C R E A → Prop} {p : Effect C R E A}
    (h : Within good P Q p)
    (hgood : ∀ c r, good' c r → good c r) (hP : ∀ c, P c → P' c)
    (hnext : ∀ c r q, P c → next c r q) : Follows good' P' next p := by
  induction p with
  | succeed a => trivial
  | fail e => trivial
  | die => trivial
  | perform c k ih =>
    exact ⟨hP c h.1, fun r hr => ⟨hnext c r _ h.1, ih r (h.2 r (hgood c r hr))⟩⟩

end Effect

end EcommerceService.Effects
