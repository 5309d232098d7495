import EcommerceService.Lib.Pool

namespace EcommerceService.Linearize

open EcommerceService.Effects EcommerceService.Pool

universe u

variable {Pid Job : Type} {C : Type u} {R : C → Type} {E A B S M : Type}

/-- What an operation on the object may do: the object before, the end of the operation, and
the object after. -/
abbrev Spec (Job M E A : Type) : Type := Job → M → Exit E A → M → Prop

/-- Where an operation stands: it has not taken effect yet, or it has, from one object to
the next. -/
inductive Phase (M : Type) where
  | pending
  | done (m m' : M)
deriving DecidableEq, Repr

/-- An operation in this phase may end so. One that never took effect leaves the object as
it is, whatever it is. -/
def Answers (post : M → Exit E A → M → Prop) : Phase M → Exit E A → Prop
  | .pending, x => ∀ m, post m x m
  | .done m m', x => post m x m'

/-- A call that takes the state from one object to the next: the operation takes effect at
it, or the object stays. -/
def Turn (allowed : M → M → Prop) (ph : Phase M) (m m' : M) (ph' : Phase M) : Prop :=
  (ph' = ph ∧ m' = m) ∨ (ph = .pending ∧ ph' = .done m m' ∧ allowed m m')

/-- Every way `p` can go on from `s` takes effect at most once, by a step that `allowed`
permits, and ends in `post`, when between two of its calls the others keep `inv` and do
what `keeps` says. -/
def Atomic (exec : (c : C) → S → R c → S → Prop) (inv : S → Prop) (keeps : S → S → Prop)
    (abs : S → M) (allowed : M → M → Prop) (post : Phase M → Exit E A → S → Prop) :
    Phase M → Effect C R E A → S → Prop
  | ph, .succeed a, s => post ph (.success a) s
  | ph, .fail e, s => post ph (.failure e) s
  | ph, .die, s => post ph .defect s
  | ph, .perform c k, s => ∀ s₁, keeps s s₁ → inv s₁ → ∀ r s₂, exec c s₁ r s₂ →
      inv s₂ ∧ keeps s₁ s₂ ∧ ∃ ph', Turn allowed ph (abs s₁) (abs s₂) ph' ∧
        Atomic exec inv keeps abs allowed post ph' (k r) s₂

section Rules

variable {exec : (c : C) → S → R c → S → Prop} {inv : S → Prop} {keeps : S → S → Prop}
  {abs : S → M} {allowed : M → M → Prop} {ph : Phase M} {s : S}

theorem Atomic.mono {post post' : Phase M → Exit E A → S → Prop} {p : Effect C R E A}
    (h : Atomic exec inv keeps abs allowed post ph p s)
    (hpost : ∀ ph x t, post ph x t → post' ph x t) :
    Atomic exec inv keeps abs allowed post' ph p s := by
  induction p generalizing ph s with
  | succeed a => exact hpost _ _ _ h
  | fail e => exact hpost _ _ _ h
  | die => exact hpost _ _ _ h
  | perform c k ih =>
    intro s₁ hs hi r s₂ hr
    obtain ⟨hi₂, hk₂, ph', hturn, hk⟩ := h s₁ hs hi r s₂ hr
    exact ⟨hi₂, hk₂, ph', hturn, ih r hk⟩

theorem Atomic.flatMap {post : Phase M → Exit E B → S → Prop} {f : A → Effect C R E B}
    {p : Effect C R E A} (h : Atomic exec inv keeps abs allowed
      (fun ph' y u => Atomic exec inv keeps abs allowed post ph' (Effect.resume f y) u) ph p s) :
    Atomic exec inv keeps abs allowed post ph (p.flatMap f) s := by
  induction p generalizing ph s with
  | succeed a => exact h
  | fail e => exact h
  | die => exact h
  | perform c k ih =>
    intro s₁ hs hi r s₂ hr
    obtain ⟨hi₂, hk₂, ph', hturn, hk⟩ := h s₁ hs hi r s₂ hr
    exact ⟨hi₂, hk₂, ph', hturn, ih r hk⟩

theorem Atomic.catchAll {E' : Type} {post : Phase M → Exit E' A → S → Prop}
    {h : E → Effect C R E' A} {p : Effect C R E A} (hp : Atomic exec inv keeps abs allowed
      (fun ph' y u => Atomic exec inv keeps abs allowed post ph' (Effect.handle h y) u) ph p s) :
    Atomic exec inv keeps abs allowed post ph (p.catchAll h) s := by
  induction p generalizing ph s with
  | succeed a => exact hp
  | fail e => exact hp
  | die => exact hp
  | perform c k ih =>
    intro s₁ hs hi r s₂ hr
    obtain ⟨hi₂, hk₂, ph', hturn, hk⟩ := hp s₁ hs hi r s₂ hr
    exact ⟨hi₂, hk₂, ph', hturn, ih r hk⟩

theorem Atomic.map {post : Phase M → Exit E B → S → Prop} {f : A → B} {p : Effect C R E A}
    (h : Atomic exec inv keeps abs allowed (fun ph' y u => post ph' (y.map f) u) ph p s) :
    Atomic exec inv keeps abs allowed post ph (p.map f) s := by
  refine Atomic.flatMap (h.mono (fun ph' y u hy => ?_))
  cases y with
  | success a => exact hy
  | failure e => exact hy
  | defect => exact hy

theorem Atomic.kept {post : Phase M → Exit E A → S → Prop} {p : Effect C R E A}
    (hrefl : ∀ s, keeps s s) (htrans : ∀ s t u, keeps s t → keeps t u → keeps s u)
    (h : Atomic exec inv keeps abs allowed post ph p s) :
    Atomic exec inv keeps abs allowed (fun ph' x t => keeps s t ∧ post ph' x t) ph p s := by
  induction p generalizing ph s with
  | succeed a => exact ⟨hrefl s, h⟩
  | fail e => exact ⟨hrefl s, h⟩
  | die => exact ⟨hrefl s, h⟩
  | perform c k ih =>
    intro s₁ hs hi r s₂ hr
    obtain ⟨hi₂, hk₂, ph', hturn, hk⟩ := h s₁ hs hi r s₂ hr
    refine ⟨hi₂, hk₂, ph', hturn, (ih r hk).mono (fun _ _ t ht => ⟨?_, ht.2⟩)⟩
    exact htrans _ _ _ hs (htrans _ _ _ hk₂ ht.1)

theorem Atomic.wait {post : Phase M → Exit E A → Prop} {p : Effect C R E A} {t : S}
    (htrans : ∀ s t u, keeps s t → keeps t u → keeps s u)
    (h : Atomic exec inv keeps abs allowed (fun ph x _ => post ph x) ph p s) (hst : keeps s t) :
    Atomic exec inv keeps abs allowed (fun ph x _ => post ph x) ph p t := by
  cases p with
  | succeed a => exact h
  | fail e => exact h
  | die => exact h
  | perform c k => exact fun s₁ hs hi => h s₁ (htrans s t s₁ hst hs) hi

theorem Atomic.runs {post : Phase M → Exit E A → S → Prop} {p : Effect C R E A} {t : S}
    {x : Exit E A} {m : M} (hrefl : ∀ s, keeps s s)
    (h : Atomic exec inv keeps abs allowed post ph p s) (hs : inv s)
    (hr : Effect.Runs exec p s x t)
    (hph : (ph = .pending ∧ abs s = m) ∨ ph = .done m (abs s)) :
    inv t ∧ ∃ ph', ((ph' = .pending ∧ abs t = m) ∨ ph' = .done m (abs t)) ∧ post ph' x t := by
  induction hr generalizing ph with
  | succeed a s => exact ⟨hs, ph, hph, h⟩
  | fail e s => exact ⟨hs, ph, hph, h⟩
  | die s => exact ⟨hs, ph, hph, h⟩
  | perform hc _ ih =>
    obtain ⟨hi, _, ph', hturn, hk⟩ := h _ (hrefl _) hs _ _ hc
    refine ih hk hi ?_
    obtain ⟨rfl, habs⟩ | ⟨rfl, rfl, _⟩ := hturn
    · rw [habs]
      exact hph
    · obtain ⟨_, rfl⟩ | hdone := hph
      · exact .inr rfl
      · cases hdone

/-- Alone, an operation does to the object what it is to do. -/
theorem Atomic.runs_spec {spec : M → Exit E A → M → Prop} {p : Effect C R E A} {t : S}
    {x : Exit E A} (hrefl : ∀ s, keeps s s)
    (h : Atomic exec inv keeps abs allowed (fun ph x _ => Answers spec ph x) .pending p s)
    (hs : inv s) (hr : Effect.Runs exec p s x t) : inv t ∧ spec (abs s) x (abs t) := by
  obtain ⟨ht, ph, ⟨rfl, habs⟩ | rfl, hx⟩ := h.runs hrefl hs hr (.inl ⟨rfl, rfl⟩)
  · exact ⟨ht, habs ▸ hx (abs t)⟩
  · exact ⟨ht, hx⟩

end Rules

/-- What a client sees of the processes: a request comes in, an answer goes out, or a
process disappears without one. -/
inductive Observation (Pid Job E A : Type) where
  | request (i : Pid) (j : Job)
  | answer (i : Pid) (j : Job) (x : Exit E A)
  | crash (i : Pid) (j : Job)

def Observation.job : Observation Pid Job E A → Job
  | request _ j => j
  | answer _ j _ => j
  | crash _ j => j

def ended : Effect C R E A → Option (Exit E A)
  | .succeed a => some (.success a)
  | .fail e => some (.failure e)
  | .die => some .defect
  | .perform _ _ => none

/-- What is seen of a step: the calls and the environment are hidden. -/
def observe (c : Config Pid Job C R E A S) : Label Pid Job C R → List (Observation Pid Job E A)
  | .env => []
  | .start i j => [.request i j]
  | .call _ _ _ => []
  | .stop i => match c.pool i with
    | none => []
    | some (j, p) => match ended p with
      | some x => [.answer i j x]
      | none => [.crash i j]

section Histories

variable [DecidableEq Pid]

/-- A run of the system from `c₀`, with what is seen of it, the last observation first. -/
inductive Observed (sys : System Pid Job C R E A S) (c₀ : Config Pid Job C R E A S) :
    List (Observation Pid Job E A) → Config Pid Job C R E A S → Prop
  | nil : Observed sys c₀ [] c₀
  | step {os : List (Observation Pid Job E A)} {c c' : Config Pid Job C R E A S}
      {l : Label Pid Job C R} : Observed sys c₀ os c → Step sys c l c' →
      Observed sys c₀ (observe c l ++ os) c'

/-- The object, and how far the operations on it are. -/
structure Sequential (Pid Job M : Type) where
  object : M
  pool : Pid → Option (Job × Phase M)

def idle (m : M) : Sequential Pid Job M := ⟨m, fun _ => none⟩

/-- The histories of the object itself, on which every operation takes effect at one moment
between its request and its answer. -/
inductive History (spec : Spec Job M E A) (a₀ : Sequential Pid Job M) :
    List (Observation Pid Job E A) → Sequential Pid Job M → Prop
  | nil : History spec a₀ [] a₀
  | request {os : List (Observation Pid Job E A)} {a : Sequential Pid Job M} (i : Pid) (j : Job) :
      History spec a₀ os a → a.pool i = none →
      History spec a₀ (.request i j :: os)
        ⟨a.object, Function.update a.pool i (some (j, .pending))⟩
  | act {os : List (Observation Pid Job E A)} {a : Sequential Pid Job M} {i : Pid} {j : Job}
      {x : Exit E A} {m' : M} : History spec a₀ os a → a.pool i = some (j, .pending) →
      spec j a.object x m' →
      History spec a₀ os ⟨m', Function.update a.pool i (some (j, .done a.object m'))⟩
  | answer {os : List (Observation Pid Job E A)} {a : Sequential Pid Job M} {i : Pid} {j : Job}
      {m m' : M} {x : Exit E A} : History spec a₀ os a → a.pool i = some (j, .done m m') →
      spec j m x m' →
      History spec a₀ (.answer i j x :: os) ⟨a.object, Function.update a.pool i none⟩
  | crash {os : List (Observation Pid Job E A)} {a : Sequential Pid Job M} {i : Pid} {j : Job}
      {ph : Phase M} : History spec a₀ os a → a.pool i = some (j, ph) →
      History spec a₀ (.crash i j :: os) ⟨a.object, Function.update a.pool i none⟩

/-- What has to be shown of a system whose processes are to behave as operations on one
object: each job is atomic where it starts, and the environment leaves the object alone. -/
structure Refines (sys : System Pid Job C R E A S) (abs : S → M) (spec : Spec Job M E A)
    (inv : S → Prop) (keeps : S → S → Prop) : Prop where
  refl : ∀ s, keeps s s
  trans : ∀ s t u, keeps s t → keeps t u → keeps s u
  env : ∀ s s', inv s → sys.env s s' → inv s' ∧ keeps s s' ∧ abs s' = abs s
  start : ∀ i j s s', inv s → sys.start i j s s' → inv s' ∧ keeps s s' ∧ abs s' = abs s ∧
    Atomic sys.exec inv keeps abs (fun m m' => ∃ x, spec j m x m')
      (fun ph x _ => Answers (spec j) ph x) .pending (sys.program j) s'

def Tracks (sys : System Pid Job C R E A S) (abs : S → M) (spec : Spec Job M E A)
    (inv : S → Prop) (keeps : S → S → Prop) (s : S) :
    Option (Job × Effect C R E A) → Option (Job × Phase M) → Prop
  | none, o => o = none
  | some (j, p), o => ∃ ph, o = some (j, ph) ∧
      Atomic sys.exec inv keeps abs (fun m m' => ∃ x, spec j m x m')
        (fun ph x _ => Answers (spec j) ph x) ph p s

/-- The system stands as the object with its operations does. -/
structure Simulates (sys : System Pid Job C R E A S) (abs : S → M) (spec : Spec Job M E A)
    (inv : S → Prop) (keeps : S → S → Prop) (c : Config Pid Job C R E A S)
    (a : Sequential Pid Job M) : Prop where
  sound : inv c.shared
  object : a.object = abs c.shared
  pool : ∀ i, Tracks sys abs spec inv keeps c.shared (c.pool i) (a.pool i)

variable {sys : System Pid Job C R E A S} {abs : S → M} {spec : Spec Job M E A}
  {inv : S → Prop} {keeps : S → S → Prop} {s t : S}

omit [DecidableEq Pid] in
theorem Tracks.wait {x : Option (Job × Effect C R E A)} {y : Option (Job × Phase M)}
    (h : Tracks sys abs spec inv keeps s x y) (hr : Refines sys abs spec inv keeps)
    (hst : keeps s t) : Tracks sys abs spec inv keeps t x y := by
  cases x with
  | none => exact h
  | some x =>
    obtain ⟨ph, hy, hp⟩ := h
    exact ⟨ph, hy, hp.wait hr.trans hst⟩

theorem tracks_update {pool : Pid → Option (Job × Effect C R E A)}
    {pool' : Pid → Option (Job × Phase M)} {x : Option (Job × Effect C R E A)}
    {y : Option (Job × Phase M)} (hr : Refines sys abs spec inv keeps)
    (h : ∀ i, Tracks sys abs spec inv keeps s (pool i) (pool' i)) (hst : keeps s t) (i : Pid)
    (hxy : Tracks sys abs spec inv keeps t x y) (i' : Pid) :
    Tracks sys abs spec inv keeps t (Function.update pool i x i') (Function.update pool' i y i') := by
  by_cases hi : i' = i
  · subst hi
    simpa using hxy
  · simpa [Function.update_of_ne hi] using (h i').wait hr hst

variable {c c' : Config Pid Job C R E A S} {a : Sequential Pid Job M} {l : Label Pid Job C R}
  {a₀ : Sequential Pid Job M} {os : List (Observation Pid Job E A)}

omit [DecidableEq Pid] in
theorem Simulates.at {i : Pid} {j : Job} {p : Effect C R E A}
    (h : Simulates sys abs spec inv keeps c a) (hi : c.pool i = some (j, p)) :
    ∃ ph, a.pool i = some (j, ph) ∧
      Atomic sys.exec inv keeps abs (fun m m' => ∃ x, spec j m x m')
        (fun ph x _ => Answers (spec j) ph x) ph p c.shared := by
  have htracks := h.pool i
  rw [hi] at htracks
  exact htracks

/-- A call of the process `i` is its operation taking effect, or nothing. -/
theorem History.turn {i : Pid} {j : Job} {ph ph' : Phase M} {m' : M} (h : History spec a₀ os a)
    (hi : a.pool i = some (j, ph))
    (hturn : Turn (fun m m' => ∃ x, spec j m x m') ph a.object m' ph') :
    History spec a₀ os ⟨m', Function.update a.pool i (some (j, ph'))⟩ := by
  obtain ⟨rfl, rfl⟩ | ⟨rfl, rfl, x, hx⟩ := hturn
  · rw [← hi, Function.update_eq_self]
    exact h
  · exact h.act hi hx

theorem History.ends {i : Pid} {j : Job} {ph : Phase M} {x : Exit E A} (h : History spec a₀ os a)
    (hi : a.pool i = some (j, ph)) (hx : Answers (spec j) ph x) :
    History spec a₀ (.answer i j x :: os) ⟨a.object, Function.update a.pool i none⟩ := by
  cases ph with
  | done m m' => exact h.answer hi hx
  | pending =>
    have hact := h.act hi (hx a.object)
    simpa using hact.answer (Function.update_self i _ a.pool) (hx a.object)

omit [DecidableEq Pid] in
theorem ended_eq_some {p : Effect C R E A} {x : Exit E A} {post : Phase M → Exit E A → S → Prop}
    {exec : (c : C) → S → R c → S → Prop} {allowed : M → M → Prop} {ph : Phase M}
    (hp : ended p = some x) (h : Atomic exec inv keeps abs allowed post ph p s) : post ph x s := by
  cases p with
  | succeed a => cases hp; exact h
  | fail e => cases hp; exact h
  | die => cases hp; exact h
  | perform c k => cases hp

/-- A step of the system is what the object does, as far as it is seen. -/
theorem Refines.step (hr : Refines sys abs spec inv keeps)
    (h : Simulates sys abs spec inv keeps c a) (ha : History spec a₀ os a) (hs : Step sys c l c') :
    ∃ a', History spec a₀ (observe c l ++ os) a' ∧ Simulates sys abs spec inv keeps c' a' := by
  cases hs with
  | env henv =>
    obtain ⟨hi', hk, habs⟩ := hr.env _ _ h.sound henv
    refine ⟨a, by simpa [observe] using ha, hi', h.object.trans habs.symm, fun i => ?_⟩
    exact (h.pool i).wait hr hk
  | @start i j s' hnone hstart =>
    obtain ⟨hi', hk, habs, hatomic⟩ := hr.start _ _ _ _ h.sound hstart
    have hfree : a.pool i = none := by
      have htracks := h.pool i
      rw [hnone] at htracks
      exact htracks
    exact ⟨_, ha.request i j hfree, hi', h.object.trans habs.symm,
      tracks_update hr h.pool hk i ⟨.pending, rfl, hatomic⟩⟩
  | @call i j q k r s' hi hexec =>
    obtain ⟨ph, hph, hatomic⟩ := h.at hi
    obtain ⟨hi', hk, ph', hturn, hrest⟩ := hatomic c.shared (hr.refl _) h.sound r s' hexec
    rw [← h.object] at hturn
    refine ⟨_, by simpa [observe] using ha.turn hph hturn, hi', rfl, ?_⟩
    exact tracks_update hr h.pool hk i ⟨ph', rfl, hrest⟩
  | @stop i =>
    have hpool : ∀ i', Tracks sys abs spec inv keeps c.shared (Function.update c.pool i none i')
        (Function.update a.pool i none i') :=
      tracks_update hr h.pool (hr.refl _) i rfl
    cases hi : c.pool i with
    | none =>
      refine ⟨a, by simpa [observe, hi] using ha, h.sound, h.object, fun i' => ?_⟩
      have hfree := h.pool i
      rw [hi] at hfree
      have hsame : Function.update a.pool i none = a.pool := by
        rw [← show a.pool i = none from hfree, Function.update_eq_self]
      exact hsame ▸ hpool i'
    | some jp =>
      obtain ⟨j, p⟩ := jp
      obtain ⟨ph, hph, hatomic⟩ := h.at hi
      cases hend : ended p with
      | some x =>
        have hanswer := ha.ends hph (ended_eq_some hend hatomic)
        exact ⟨⟨a.object, Function.update a.pool i none⟩,
          by simpa only [observe, hi, hend, List.singleton_append] using hanswer, h.sound, h.object, hpool⟩
      | none =>
        have hcrash := ha.crash hph
        exact ⟨⟨a.object, Function.update a.pool i none⟩,
          by simpa only [observe, hi, hend, List.singleton_append] using hcrash, h.sound, h.object, hpool⟩

/-- Whatever is seen of the processes, however they are interleaved, is a history of the
object: every request took effect at one moment before its answer. -/
theorem Refines.histories (hr : Refines sys abs spec inv keeps) (hs : inv s)
    (h : Observed sys (quiet s) os c) :
    ∃ a, History spec (idle (abs s)) os a ∧ Simulates sys abs spec inv keeps c a := by
  induction h with
  | nil => exact ⟨_, .nil, hs, rfl, fun _ => rfl⟩
  | step _ hstep ih =>
    obtain ⟨a, ha, hsim⟩ := ih
    exact hr.step hsim ha hstep

theorem Observed.finish {c₀ : Config Pid Job C R E A S} {i : Pid} {j : Job} {p : Effect C R E A}
    {x : Exit E A} {pool : Pid → Option (Job × Effect C R E A)}
    (h : Observed sys c₀ os ⟨s, pool⟩) (hi : pool i = some (j, p)) (hr : Effect.Runs sys.exec p s x t) :
    Observed sys c₀ (.answer i j x :: os) ⟨t, Function.update pool i none⟩ := by
  induction hr generalizing pool with
  | succeed a s => simpa [observe, ended, hi] using h.step (.stop (i := i))
  | fail e s => simpa [observe, ended, hi] using h.step (.stop (i := i))
  | die s => simpa [observe, ended, hi] using h.step (.stop (i := i))
  | @perform q k s s' t r x hc _ ih =>
    have hnext : Observed sys c₀ os ⟨s', Function.update pool i (some (j, k r))⟩ := by
      simpa [observe] using h.step (.call hi hc)
    simpa using ih hnext (Function.update_self i _ pool)

end Histories

section Sessions

variable {N : Type}

inductive Session (spec : Spec Job N E A) (n₀ : N) : List (Job × Exit E A) → N → Prop
  | nil : Session spec n₀ [] n₀
  | cons {rs : List (Job × Exit E A)} {n n' : N} {j : Job} {x : Exit E A} :
      Session spec n₀ rs n → spec j n x n' → Session spec n₀ ((j, x) :: rs) n'

/-- The requests that are `own` come one at a time: each is answered before the next one
comes in. The list is what they were answered, and the last part the one that waits. -/
inductive Serial (own : Job → Prop) :
    List (Observation Pid Job E A) → List (Job × Exit E A) → Option (Pid × Job) → Prop
  | nil : Serial own [] [] none
  | other {os : List (Observation Pid Job E A)} {rs : List (Job × Exit E A)}
      {w : Option (Pid × Job)} {o : Observation Pid Job E A} : Serial own os rs w → ¬ own o.job →
      Serial own (o :: os) rs w
  | request {os : List (Observation Pid Job E A)} {rs : List (Job × Exit E A)} (i : Pid) {j : Job} :
      Serial own os rs none → own j → Serial own (.request i j :: os) rs (some (i, j))
  | answer {os : List (Observation Pid Job E A)} {rs : List (Job × Exit E A)} {i : Pid} {j : Job}
      (x : Exit E A) : Serial own os rs (some (i, j)) → own j →
      Serial own (.answer i j x :: os) ((j, x) :: rs) none

variable [DecidableEq Pid] {spec : Spec Job M E A} {specN : Spec Job N E A} {own : Job → Prop}
  {view : M → N} {m₀ : M} {os : List (Observation Pid Job E A)} {a : Sequential Pid Job M}
  {rs : List (Job × Exit E A)} {w : Option (Pid × Job)}

/-- How far the session is when the object stands so: which of its requests waits, if one
does, and whether that one has taken effect. -/
def Stands (specN : Spec Job N E A) (own : Job → Prop) (view : M → N) (n₀ : N)
    (rs : List (Job × Exit E A)) (a : Sequential Pid Job M) : Option (Pid × Job) → Prop
  | none => (∀ i j ph, a.pool i = some (j, ph) → ¬ own j) ∧ Session specN n₀ rs (view a.object)
  | some (i, j) => (∀ i' j' ph, a.pool i' = some (j', ph) → own j' → i' = i) ∧ own j ∧
      ((a.pool i = some (j, .pending) ∧ Session specN n₀ rs (view a.object)) ∨
        ∃ m m', a.pool i = some (j, .done m m') ∧ Session specN n₀ rs (view m) ∧
          view m' = view a.object)

omit [DecidableEq Pid] in
theorem Stands.frame {a' : Sequential Pid Job M} {n₀ : N} (h : Stands specN own view n₀ rs a w)
    (hview : view a'.object = view a.object)
    (hsame : ∀ i j ph, own j → (a'.pool i = some (j, ph) ↔ a.pool i = some (j, ph))) :
    Stands specN own view n₀ rs a' w := by
  cases w with
  | none =>
    obtain ⟨hnone, hs⟩ := h
    exact ⟨fun i j ph hi hj => hnone i j ph ((hsame i j ph hj).mp hi) hj, hview ▸ hs⟩
  | some ij =>
    obtain ⟨i, j⟩ := ij
    obtain ⟨hone, hj, hwaits⟩ := h
    refine ⟨fun i' j' ph hi' hj' => hone i' j' ph ((hsame i' j' ph hj').mp hi') hj', hj, ?_⟩
    obtain ⟨hi, hs⟩ | ⟨m, m', hi, hs, hm'⟩ := hwaits
    · exact .inl ⟨(hsame i j _ hj).mpr hi, hview ▸ hs⟩
    · exact .inr ⟨m, m', (hsame i j _ hj).mpr hi, hs, hm'.trans hview.symm⟩

theorem own_update {i i' : Pid} {j : Job} {ph : Phase M} {y : Option (Job × Phase M)}
    {pool : Pid → Option (Job × Phase M)} (hi : ∀ j ph, pool i = some (j, ph) → ¬ own j)
    (hy : ∀ j ph, y = some (j, ph) → ¬ own j) (hj : own j) :
    Function.update pool i y i' = some (j, ph) ↔ pool i' = some (j, ph) := by
  by_cases he : i' = i
  · subst he
    simp only [Function.update_self]
    exact ⟨fun h => absurd hj (hy j ph h), fun h => absurd hj (hi j ph h)⟩
  · rw [Function.update_of_ne he]

theorem entry_update {X : Type} {pool : Pid → Option X} {i i' : Pid} {y : Option X} {x : X}
    (h : Function.update pool i y i' = some x) :
    (i' = i ∧ y = some x) ∨ (i' ≠ i ∧ pool i' = some x) := by
  by_cases hi : i' = i
  · subst hi
    exact .inl ⟨rfl, by simpa using h⟩
  · exact .inr ⟨hi, by simpa [Function.update_of_ne hi] using h⟩

/-- Requests that come one at a time are answered as by an object that nobody else uses,
whatever the other requests are and however they overlap. -/
theorem History.session (view : M → N) (h : History spec (idle m₀) os a) (hs : Serial own os rs w)
    (hframe : ∀ j m x m', spec j m x m' → ¬ own j → view m' = view m)
    (hown : ∀ j m x m', spec j m x m' → own j → specN j (view m) x (view m')) :
    Stands specN own view (view m₀) rs a w := by
  induction h generalizing rs w with
  | nil =>
    cases hs
    exact ⟨by rintro i j ph ⟨⟩, .nil⟩
  | @request os a i j _ hfree ih =>
    have hnone : ∀ j ph, a.pool i = some (j, ph) → ¬ own j := by simp [hfree]
    cases hs with
    | other hos hj =>
      have hj : ¬ own j := hj
      refine (ih hos).frame rfl (fun i' j' ph hj' => own_update hnone ?_ hj')
      rintro _ _ ⟨⟩
      exact hj
    | request _ hos hj =>
      obtain ⟨hothers, hsession⟩ := ih hos
      refine ⟨fun i' j' ph hi' hj' => ?_, hj, .inl ⟨Function.update_self _ _ _, hsession⟩⟩
      obtain ⟨rfl, _⟩ | ⟨_, hi'⟩ := entry_update hi'
      · rfl
      · exact absurd hj' (hothers i' j' ph hi')
  | @act os a i j x m' _ hi hx ih =>
    have hst := ih hs
    by_cases hj : own j
    · cases w with
      | none => exact absurd hj (hst.1 i j _ hi)
      | some ij =>
        obtain ⟨i', j'⟩ := ij
        obtain ⟨hone, hj', hwaits⟩ := hst
        obtain rfl := hone i j _ hi hj
        refine ⟨fun i'' j'' ph hi'' hj'' => ?_, hj', ?_⟩
        · obtain ⟨rfl, _⟩ | ⟨_, hi''⟩ := entry_update hi''
          · rfl
          · exact hone i'' j'' ph hi'' hj''
        · obtain ⟨hi', hsession⟩ | ⟨m, m'', hi', _⟩ := hwaits
          · cases hi.symm.trans hi'
            exact .inr ⟨_, _, Function.update_self _ _ _, hsession, rfl⟩
          · cases hi.symm.trans hi'
    · refine hst.frame (hframe j _ x m' hx hj) (fun i' j' ph hj' => own_update ?_ ?_ hj')
      · rintro j' ph' hi'
        cases hi.symm.trans hi'
        exact hj
      · rintro _ _ ⟨⟩
        exact hj
  | @answer os a i j m m' x _ hi hx ih =>
    cases hs with
    | other hos hj =>
      refine (ih hos).frame rfl (fun i' j' ph hj' => own_update ?_ (by rintro _ _ ⟨⟩) hj')
      rintro j' ph' hi'
      cases hi.symm.trans hi'
      exact hj
    | answer _ hos hj =>
      obtain ⟨hone, _, hwaits⟩ := ih hos
      refine ⟨fun i' j' ph hi' hj' => ?_, ?_⟩
      · obtain ⟨_, hv⟩ | ⟨hne, hi'⟩ := entry_update hi'
        · cases hv
        · exact hne (hone i' j' ph hi' hj')
      · obtain ⟨hi', _⟩ | ⟨n, n', hi', hsession, hn'⟩ := hwaits
        · cases hi.symm.trans hi'
        · cases hi.symm.trans hi'
          exact hn' ▸ hsession.cons (hown j _ x _ hx hj)
  | @crash os a i j ph _ hi ih =>
    cases hs with
    | other hos hj =>
      refine (ih hos).frame rfl (fun i' j' ph' hj' => own_update ?_ (by rintro _ _ ⟨⟩) hj')
      rintro j' ph'' hi'
      cases hi.symm.trans hi'
      exact hj

end Sessions

end EcommerceService.Linearize
