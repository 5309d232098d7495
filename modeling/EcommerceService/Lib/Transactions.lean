import Mathlib.Logic.Relation
import EcommerceService.Lib.Effects

namespace EcommerceService.Transactions

open EcommerceService.Effects

/-- A database seen row by row. `run c s v s'` says that the call `c` may be answered
by `v` in `s`, leaving `s'`; `locks c v` are the rows it keeps locked for its
transaction. A guarded call is one whose answer only depends on the rows it locks, as
long as the state has the same shape; any other call is a plain read. No call changes
the shape of the state. -/
structure Engine (C : Type) (V : C → Type) (S K : Type) where
  run : (c : C) → S → V c → S → Prop
  locks : (c : C) → V c → List K
  guarded : C → Prop
  shape : S → S → Prop
  shape_equiv : Equivalence shape
  keeps : ∀ c s v s', run c s v s' → shape s s'
  agree : K → S → S → Prop
  agree_refl : ∀ k s, agree k s s
  agree_trans : ∀ k s t u, agree k s t → agree k t u → agree k s u
  plain : ∀ c s v s', ¬ guarded c → run c s v s' → s' = s
  guard : ∀ c s v s' t, guarded c → run c s v s' → shape s t → (∀ k ∈ locks c v, agree k s t) →
    ∃ t', run c t v t' ∧ ∀ k, agree k s t → agree k s' t'
  frame : ∀ c s v s' k, run c s v s' → k ∉ locks c v → agree k s s'

section Replay

variable {C : Type} {V : C → Type} {S K : Type} (eng : Engine C V S K)

/-- The calls a transaction has made, the newest first, with their answers. A failed
call has no answer. -/
abbrev Done (C : Type) (V : C → Type) : Type := List (Σ c : C, Option (V c))

/-- Making the calls `h` again from `s` leads to `t`; the calls in `keep` get the
answers they got. -/
def Replays (keep : C → Prop) : Done C V → S → S → Prop
  | [], s, t => t = s
  | ⟨_, none⟩ :: h, s, t => Replays keep h s t
  | ⟨c, some v⟩ :: h, s, t => ∃ u, Replays keep h s u ∧
      (keep c → eng.run c u v t) ∧ (¬ keep c → t = u)

def Holds (h : Done C V) (k : K) : Prop := ∃ c v, ⟨c, some v⟩ ∈ h ∧ k ∈ eng.locks c v

variable {eng}

theorem Holds.tail {e : Σ c : C, Option (V c)} {h : Done C V} {k : K} (hk : Holds eng h k) :
    Holds eng (e :: h) k := by
  obtain ⟨c, v, hm, hv⟩ := hk
  exact ⟨c, v, List.mem_cons_of_mem _ hm, hv⟩

theorem Replays.shape {keep : C → Prop} {h : Done C V} {s t : S} (hr : Replays eng keep h s t) :
    eng.shape s t := by
  induction h generalizing t with
  | nil =>
    cases hr
    exact eng.shape_equiv.refl s
  | cons e h ih =>
    obtain ⟨c, _ | v⟩ := e
    · exact ih hr
    · obtain ⟨u, hu, hrun, hskip⟩ := hr
      by_cases hk : keep c
      · exact eng.shape_equiv.trans (ih hu) (eng.keeps c u v t (hrun hk))
      · rw [hskip hk]
        exact ih hu

theorem Replays.first {c : C} {v : V c} {s t : S} (hrun : eng.run c s v t) :
    Replays eng eng.guarded [⟨c, some v⟩] s t :=
  ⟨s, rfl, fun _ => hrun, fun hg => eng.plain c s v t hg hrun⟩

/-- A transaction leaves the rows it has not locked as they are. -/
theorem Replays.frame {h : Done C V} {s t : S} {k : K} (hr : Replays eng eng.guarded h s t)
    (hk : ¬ Holds eng h k) : eng.agree k s t := by
  induction h generalizing t with
  | nil =>
    cases hr
    exact eng.agree_refl k s
  | cons e h ih =>
    obtain ⟨c, _ | v⟩ := e
    · exact ih hr (fun hh => hk hh.tail)
    · obtain ⟨u, hu, hrun, hskip⟩ := hr
      have hsu := ih hu (fun hh => hk hh.tail)
      by_cases hg : eng.guarded c
      · have hkv : k ∉ eng.locks c v := fun hm => hk ⟨c, v, List.mem_cons_self, hm⟩
        exact eng.agree_trans k s u t hsu (eng.frame c u v t k (hrun hg) hkv)
      · rwa [hskip hg]

/-- The guarded calls are answered as before from any state that agrees on the rows
they have locked. -/
theorem Replays.transport {h : Done C V} {s s' t : S} (hr : Replays eng eng.guarded h s t)
    (hs : eng.shape s s') (hk : ∀ k, Holds eng h k → eng.agree k s s') :
    ∃ t', Replays eng eng.guarded h s' t' ∧ ∀ k, eng.agree k s s' → eng.agree k t t' := by
  induction h generalizing t with
  | nil =>
    cases hr
    exact ⟨s', rfl, fun _ ha => ha⟩
  | cons e h ih =>
    obtain ⟨c, _ | v⟩ := e
    · exact ih hr (fun k hh => hk k hh.tail)
    · obtain ⟨u, hu, hrun, hskip⟩ := hr
      obtain ⟨u', hu', ha⟩ := ih hu (fun k hh => hk k hh.tail)
      by_cases hg : eng.guarded c
      · have hlocks : ∀ k ∈ eng.locks c v, eng.agree k u u' :=
          fun k hm => ha k (hk k ⟨c, v, List.mem_cons_self, hm⟩)
        have hshape : eng.shape u u' := eng.shape_equiv.trans
          (eng.shape_equiv.symm hu.shape) (eng.shape_equiv.trans hs hu'.shape)
        obtain ⟨t', hrun', hb⟩ := eng.guard c u v t u' hg (hrun hg) hshape hlocks
        exact ⟨t', ⟨u', hu', fun _ => hrun', fun hn => absurd hg hn⟩, fun k hs => hb k (ha k hs)⟩
      · refine ⟨u', ⟨u', hu', fun hg' => absurd hg' hg, fun _ => rfl⟩, fun k hs => ?_⟩
        rw [hskip hg]
        exact ha k hs

theorem Replays.append {keep : C → Prop} {h h' : Done C V} {s t : S} :
    Replays eng keep (h ++ h') s t ↔ ∃ u, Replays eng keep h' s u ∧ Replays eng keep h u t := by
  induction h generalizing t with
  | nil =>
    constructor
    · exact fun hr => ⟨t, hr, rfl⟩
    · rintro ⟨u, hr, rfl⟩
      exact hr
  | cons e h ih =>
    obtain ⟨c, _ | v⟩ := e
    · exact ih
    · constructor
      · rintro ⟨w, hw, hrun, hskip⟩
        obtain ⟨u, hu, hrest⟩ := ih.mp hw
        exact ⟨u, hu, w, hrest, hrun, hskip⟩
      · rintro ⟨u, hu, w, hrest, hrun, hskip⟩
        exact ⟨w, ih.mpr ⟨u, hu, hrest⟩, hrun, hskip⟩

theorem Replays.keeps {F : S → Prop} {keep : C → Prop} {h : Done C V} {s t : S}
    (hkeep : ∀ c v s t, eng.run c s v t → F s → F t) (hr : Replays eng keep h s t) (hF : F s) :
    F t := by
  induction h generalizing t with
  | nil =>
    cases hr
    exact hF
  | cons e h ih =>
    obtain ⟨c, _ | v⟩ := e
    · exact ih hr
    · obtain ⟨u, hu, hrun, hskip⟩ := hr
      by_cases hk : keep c
      · exact hkeep c v u t (hrun hk) (ih hu)
      · rw [hskip hk]
        exact ih hu

theorem Replays.all_guarded {h : Done C V} {s t : S} (hr : Replays eng eng.guarded h s t)
    (hg : ∀ e ∈ h, eng.guarded e.1) : Replays eng (fun _ => True) h s t := by
  induction h generalizing t with
  | nil => exact hr
  | cons e h ih =>
    have ih' := fun u hu => ih (t := u) hu (fun e' he' => hg e' (List.mem_cons_of_mem _ he'))
    obtain ⟨c, _ | v⟩ := e
    · exact ih' t hr
    · obtain ⟨u, hu, hrun, _⟩ := hr
      exact ⟨u, ih' u hu, fun _ => hrun (hg _ List.mem_cons_self), fun hn => absurd trivial hn⟩

end Replay

section Programs

variable {C : Type} {V : C → Type} {S K E A : Type}

/-- The calls of a transaction; a failed one has no answer and no effect. -/
abbrev Body (C : Type) (V : C → Type) (E A : Type) : Type :=
  Effect C (fun c => Option (V c)) E A

def Engine.exec (eng : Engine C V S K) (c : C) (s : S) (r : Option (V c)) (s' : S) : Prop :=
  match r with
  | some v => eng.run c s v s'
  | none => s' = s

/-- From `p` the answers `h` lead to `q`. -/
def Path (p : Body C V E A) : Done C V → Body C V E A → Prop
  | [], q => q = p
  | ⟨c, r⟩ :: h, q => ∃ k, Path p h (.perform c k) ∧ q = k r

theorem Path.perform {c : C} {k : Option (V c) → Body C V E A} {q : Body C V E A} {h : Done C V}
    (hp : Path (.perform c k) h q) :
    (h = [] ∧ q = .perform c k) ∨ ∃ r h', h = h' ++ [⟨c, r⟩] ∧ Path (k r) h' q := by
  induction h generalizing q with
  | nil => exact .inl ⟨rfl, hp⟩
  | cons e h ih =>
    obtain ⟨c', r'⟩ := e
    obtain ⟨k', hk, rfl⟩ := hp
    right
    obtain ⟨rfl, hq⟩ | ⟨r, h', rfl, hp'⟩ := ih hk
    · cases hq
      exact ⟨r', [], rfl, rfl⟩
    · exact ⟨r, ⟨c', r'⟩ :: h', rfl, k', hp', rfl⟩

theorem Path.unique {p q q' : Body C V E A} {h : Done C V} (hp : Path p h q) (hp' : Path p h q') :
    q = q' := by
  induction h generalizing q q' with
  | nil => exact hp.trans hp'.symm
  | cons e h ih =>
    obtain ⟨c, r⟩ := e
    obtain ⟨k, hk, rfl⟩ := hp
    obtain ⟨k', hk', rfl⟩ := hp'
    cases ih hk hk'
    rfl

theorem Path.catchAll {E' : Type} {p q : Body C V E A} {h : Done C V} (hp : Path p h q)
    (f : E → Body C V E' A) : Path (p.catchAll f) h (q.catchAll f) := by
  induction h generalizing q with
  | nil =>
    cases hp
    rfl
  | cons e h ih =>
    obtain ⟨c, r⟩ := e
    obtain ⟨k, hk, rfl⟩ := hp
    exact ⟨_, ih hk, rfl⟩

theorem Path.runs {eng : Engine C V S K} {p q : Body C V E A} {h : Done C V} {s t u : S}
    {x : Exit E A} (hp : Path p h q) (hr : Replays eng (fun _ => True) h s t)
    (hq : Effect.Runs eng.exec q t x u) : Effect.Runs eng.exec p s x u := by
  induction h generalizing q t with
  | nil =>
    cases hp
    cases hr
    exact hq
  | cons e h ih =>
    obtain ⟨c, r⟩ := e
    obtain ⟨k, hk, rfl⟩ := hp
    cases r with
    | none => exact ih hk hr (.perform (show eng.exec c t none t from rfl) hq)
    | some v =>
      obtain ⟨w, hw, hrun, _⟩ := hr
      exact ih hk hw (.perform (show eng.exec c w (some v) t from hrun trivial) hq)

theorem Path.confined {P : C → Prop} {Q : E → Prop} {p q : Body C V E A} {h : Done C V}
    (hp : Path p h q) (hw : Effect.Confined Effect.anyAnswer P Q p) :
    Effect.Confined Effect.anyAnswer P Q q ∧ ∀ e ∈ h, P e.1 := by
  induction h generalizing q with
  | nil =>
    cases hp
    exact ⟨hw, by simp⟩
  | cons e h ih =>
    obtain ⟨c, r⟩ := e
    obtain ⟨k, hk, rfl⟩ := hp
    obtain ⟨hq, hh⟩ := ih hk
    obtain ⟨hPc, hPk⟩ := Effect.confined_perform.mp hq
    exact ⟨hPk r trivial, by simpa using ⟨hPc, hh⟩⟩

end Programs

section Schedule

variable {Pid J C : Type} {V : C → Type} {S K E A : Type}

structure Tx (J C : Type) (V : C → Type) (E A : Type) where
  job : J
  rest : Body C V E A
  done : Done C V

/-- The committed database, who holds which row, and the open transactions. `log` is
what has been committed, in order. -/
structure State (Pid J C : Type) (V : C → Type) (S K E A : Type) where
  committed : S
  held : K → Option Pid
  txs : Pid → Option (Tx J C V E A)
  log : List (J × A)

def idle (s : S) : State Pid J C V S K E A := ⟨s, fun _ => none, fun _ => none, []⟩

/-- Each open transaction is on a path of its job, holds the rows it has locked, and
can make its guarded calls again on the committed database. -/
structure Locked (eng : Engine C V S K) (body : J → Body C V E A)
    (st : State Pid J C V S K E A) : Prop where
  path : ∀ i t, st.txs i = some t → Path (body t.job) t.done t.rest
  holds : ∀ i t k, st.txs i = some t → Holds eng t.done k → st.held k = some i
  replays : ∀ i t, st.txs i = some t → ∃ s, Replays eng eng.guarded t.done st.committed s

/-- At its commit a transaction is as good as run alone on the committed database,
if its plain reads would still be answered as they were. -/
def Fresh (eng : Engine C V S K) (st : State Pid J C V S K E A) : Prop :=
  ∀ i j a h s, st.txs i = some ⟨j, .succeed a, h⟩ → Replays eng eng.guarded h st.committed s →
    Replays eng (fun _ => True) h st.committed s

/-- The jobs one after the other, each alone on the database. -/
inductive Serial (eng : Engine C V S K) (body : J → Body C V E A) : S → List (J × A) → S → Prop
  | nil (s : S) : Serial eng body s [] s
  | snoc {s t u : S} {w : List (J × A)} {j : J} {a : A} : Serial eng body s w t →
      Effect.Runs eng.exec (body j) t (.success a) u → Serial eng body s (w ++ [(j, a)]) u

variable {eng : Engine C V S K} {body : J → Body C V E A} {st st' : State Pid J C V S K E A}

theorem Locked.idle (s : S) : Locked eng body (idle s : State Pid J C V S K E A) where
  path i t h := by simp [Transactions.idle] at h
  holds i t k h := by simp [Transactions.idle] at h
  replays i t h := by simp [Transactions.idle] at h

/-- A commit leaves what the other transactions have locked as it is. -/
theorem Locked.commit_agree (hl : Locked eng body st) {i i' : Pid} {t t' : Tx J C V E A} {s : S}
    {k : K} (ht : st.txs i = some t) (hr : Replays eng eng.guarded t.done st.committed s)
    (hne : i' ≠ i) (ht' : st.txs i' = some t') (hk : Holds eng t'.done k) :
    eng.agree k st.committed s := by
  refine hr.frame (fun hh => hne ?_)
  exact Option.some.inj ((hl.holds i' t' k ht' hk).symm.trans (hl.holds i t k ht hh))

theorem Locked.commit_runs (hl : Locked eng body st) (hf : Fresh eng st) {i : Pid} {j : J} {a : A}
    {h : Done C V} {s : S} (ht : st.txs i = some ⟨j, .succeed a, h⟩)
    (hr : Replays eng eng.guarded h st.committed s) :
    Effect.Runs eng.exec (body j) st.committed (.success a) s :=
  (hl.path i _ ht).runs (hf i j a h s ht hr) (.succeed a s)

/-- What every job keeps when run alone, the jobs keep one after the other. -/
theorem Serial.invariant {I : S → List (J × A) → Prop} {s t : S} {w : List (J × A)}
    (h : Serial eng body s w t) (h₀ : I s [])
    (hstep : ∀ u v w j a, I u w → Effect.Runs eng.exec (body j) u (.success a) v →
      I v (w ++ [(j, a)])) : I t w := by
  induction h with
  | nil => exact h₀
  | snoc _ hr ih => exact hstep _ _ _ _ _ ih hr

theorem Holds.of_cons {c : C} {r : Option (V c)} {h : Done C V} {k : K}
    (hk : Holds eng (⟨c, r⟩ :: h) k) : (∃ v, r = some v ∧ k ∈ eng.locks c v) ∨ Holds eng h k := by
  obtain ⟨c', v', hm, hv⟩ := hk
  obtain heq | hm := List.mem_cons.mp hm
  · cases heq
    exact .inl ⟨v', rfl, hv⟩
  · exact .inr ⟨c', v', hm, hv⟩

variable [DecidableEq K]

def grab (held : K → Option Pid) (i : Pid) (ks : List K) : K → Option Pid :=
  fun k => if k ∈ ks then some i else held k

theorem grab_mem {held : K → Option Pid} {i : Pid} {ks : List K} {k : K}
    (h : k ∈ ks ∨ held k = some i) : grab held i ks k = some i := by
  by_cases hk : k ∈ ks
  · simp [grab, hk]
  · simpa [grab, hk] using h.resolve_left hk

@[simp] theorem grab_nil {held : K → Option Pid} {i : Pid} : grab held i [] = held := by
  funext k
  exact if_neg List.not_mem_nil

theorem grab_free {held : K → Option Pid} {i : Pid} (ks : List K)
    (h : ∀ k, held k = none ∨ held k = some i) (k : K) :
    grab held i ks k = none ∨ grab held i ks k = some i := by
  by_cases hk : k ∈ ks
  · exact .inr (grab_mem (.inl hk))
  · simpa [grab, hk] using h k

theorem grab_other {held : K → Option Pid} {i i' : Pid} {ks : List K} {k : K} (hne : i' ≠ i)
    (hfree : ∀ key ∈ ks, held key = none ∨ held key = some i) (hk : held k = some i') :
    grab held i ks k = some i' := by
  have hmem : k ∉ ks := by
    intro hm
    rcases hfree k hm with h | h
    · simp [hk] at h
    · exact hne (Option.some.inj (hk.symm.trans h))
  simpa [grab, hmem] using hk

variable [DecidableEq Pid]

def release (held : K → Option Pid) (i : Pid) : K → Option Pid :=
  fun k => if held k = some i then none else held k

omit [DecidableEq K] in
theorem release_other {held : K → Option Pid} {i i' : Pid} {k : K} (hne : i' ≠ i)
    (hk : held k = some i') : release held i k = some i' := by
  simp [release, hk, hne]

/-- The transactions move one call at a time, in any order. A call waits for the rows
it locks; it may fail, and a transaction may be rolled back at any point. -/
inductive Step (eng : Engine C V S K) (body : J → Body C V E A) :
    State Pid J C V S K E A → State Pid J C V S K E A → Prop
  | start {st : State Pid J C V S K E A} {i : Pid} (j : J) : st.txs i = none →
      Step eng body st { st with txs := Function.update st.txs i (some ⟨j, body j, []⟩) }
  | call {st : State Pid J C V S K E A} {i : Pid} {j : J} {c : C}
      {k : Option (V c) → Body C V E A} {h : Done C V} {s s' : S} {v : V c} :
      st.txs i = some ⟨j, .perform c k, h⟩ → Replays eng eng.guarded h st.committed s →
      (∀ key ∈ eng.locks c v, st.held key = none ∨ st.held key = some i) → eng.run c s v s' →
      Step eng body st { st with
        held := grab st.held i (eng.locks c v)
        txs := Function.update st.txs i (some ⟨j, k (some v), ⟨c, some v⟩ :: h⟩) }
  | fault {st : State Pid J C V S K E A} {i : Pid} {j : J} {c : C}
      {k : Option (V c) → Body C V E A} {h : Done C V} :
      st.txs i = some ⟨j, .perform c k, h⟩ →
      Step eng body st { st with
        txs := Function.update st.txs i (some ⟨j, k none, ⟨c, none⟩ :: h⟩) }
  | commit {st : State Pid J C V S K E A} {i : Pid} {j : J} {a : A} {h : Done C V} {s : S} :
      st.txs i = some ⟨j, .succeed a, h⟩ → Replays eng eng.guarded h st.committed s →
      Step eng body st
        ⟨s, release st.held i, Function.update st.txs i none, st.log ++ [(j, a)]⟩
  | rollback {st : State Pid J C V S K E A} {i : Pid} :
      Step eng body st { st with
        held := release st.held i, txs := Function.update st.txs i none }

abbrev Reaches (eng : Engine C V S K) (body : J → Body C V E A) :
    State Pid J C V S K E A → State Pid J C V S K E A → Prop :=
  Relation.ReflTransGen (Step eng body)

omit [DecidableEq K] in
theorem Locked.move (hl : Locked eng body st) {i : Pid} {v : Option (Tx J C V E A)}
    {held : K → Option Pid} (hheld : ∀ i' k, i' ≠ i → st.held k = some i' → held k = some i')
    (hpath : ∀ t, v = some t → Path (body t.job) t.done t.rest)
    (hholds : ∀ t k, v = some t → Holds eng t.done k → held k = some i)
    (hreplays : ∀ t, v = some t → ∃ s, Replays eng eng.guarded t.done st.committed s) :
    Locked eng body { st with held := held, txs := Function.update st.txs i v } := by
  refine ⟨fun i' t h => ?_, fun i' t k h hk => ?_, fun i' t h => ?_⟩
  all_goals
    by_cases hi : i' = i
    · subst hi
      simp only [Function.update_self] at h
      first
        | exact hpath t h
        | exact hholds t k h hk
        | exact hreplays t h
    · simp only [Function.update_of_ne hi] at h
      first
        | exact hl.path i' t h
        | exact hheld i' k hi (hl.holds i' t k h hk)
        | exact hl.replays i' t h

theorem Locked.step (hl : Locked eng body st) (hs : Step eng body st st') : Locked eng body st' := by
  cases hs with
  | start j _ =>
    refine hl.move (fun _ _ _ h => h) ?_ ?_ ?_
    · rintro t ⟨⟩
      rfl
    · rintro t k ⟨⟩ ⟨c, v, hm, _⟩
      cases hm
    · rintro t ⟨⟩
      exact ⟨_, rfl⟩
  | @call i j c k h s s' v ht hr hfree hrun =>
    refine hl.move (fun _ _ hne => grab_other hne hfree) ?_ ?_ ?_
    · rintro t ⟨⟩
      exact ⟨k, hl.path i _ ht, rfl⟩
    · rintro t key ⟨⟩ hk
      refine grab_mem (hk.of_cons.imp ?_ (hl.holds i _ key ht))
      rintro ⟨v', hv, hm⟩
      cases hv
      exact hm
    · rintro t ⟨⟩
      by_cases hg : eng.guarded c
      · exact ⟨s', s, hr, fun _ => hrun, fun hn => absurd hg hn⟩
      · exact ⟨s, s, hr, fun hg' => absurd hg' hg, fun _ => rfl⟩
  | @fault i j c k h ht =>
    refine hl.move (fun _ _ _ h => h) ?_ ?_ ?_
    · rintro t ⟨⟩
      exact ⟨k, hl.path i _ ht, rfl⟩
    · rintro t key ⟨⟩ hk
      refine hl.holds i _ key ht (hk.of_cons.resolve_left ?_)
      rintro ⟨v, hv, _⟩
      cases hv
    · rintro t ⟨⟩
      obtain ⟨s, hr⟩ := hl.replays i _ ht
      exact ⟨s, hr⟩
  | @commit i j a h s ht hr =>
    have hm : Locked eng body { st with
        held := release st.held i, txs := Function.update st.txs i none } :=
      hl.move (fun _ _ => release_other) (by simp) (by simp) (by simp)
    refine ⟨hm.path, hm.holds, fun i' t ht' => ?_⟩
    by_cases hi : i' = i
    · subst hi
      simp at ht'
    · simp only [Function.update_of_ne hi] at ht'
      obtain ⟨s', hs'⟩ := hl.replays i' t ht'
      obtain ⟨u, hu, _⟩ := hs'.transport hr.shape (fun k hk => hl.commit_agree ht hr hi ht' hk)
      exact ⟨u, hu⟩
  | rollback => exact hl.move (fun _ _ => release_other) (by simp) (by simp) (by simp)

theorem Reaches.locked {s : S} (h : Reaches eng body (idle s) st) : Locked eng body st := by
  induction h with
  | refl => exact .idle s
  | tail _ hs ih => exact ih.step hs

/-- Any interleaving commits what the committed jobs do one after the other, in the
order of their commits. -/
theorem Reaches.serial {s : S}
    (hfresh : ∀ st : State Pid J C V S K E A, Reaches eng body (idle s) st → Fresh eng st)
    (h : Reaches eng body (idle s) st) : Serial eng body s st.log st.committed := by
  induction h with
  | refl => exact .nil s
  | tail hst hs ih =>
    cases hs with
    | start j _ => exact ih
    | call _ _ _ _ => exact ih
    | fault _ => exact ih
    | commit ht hr => exact .snoc ih ((Reaches.locked hst).commit_runs (hfresh _ hst) ht hr)
    | rollback => exact ih

theorem fresh_of_guarded
    (hg : ∀ j, Effect.Confined Effect.anyAnswer eng.guarded (fun _ => True) (body j)) {s : S}
    (h : Reaches eng body (idle s) st) : Fresh eng st :=
  fun i _ _ _ _ ht hr => hr.all_guarded (((Reaches.locked h).path i _ ht).confined (hg _)).2

section Validation

variable {seen : (c : C) → V c → S → Prop}

def Seen (seen : (c : C) → V c → S → Prop) (st : State Pid J C V S K E A) : Prop :=
  ∀ i t c v, st.txs i = some t → t.done.getLast? = some ⟨c, some v⟩ → seen c v st.committed

omit [DecidableEq K] in
theorem Seen.move (hseen : Seen seen st) {i : Pid} {v : Option (Tx J C V E A)}
    {held : K → Option Pid} (hlast : ∀ t c v', v = some t → t.done.getLast? = some ⟨c, some v'⟩ →
      seen c v' st.committed) :
    Seen seen { st with held := held, txs := Function.update st.txs i v } := by
  intro i' t c v' ht hc
  by_cases hi : i' = i
  · subst hi
    simp only [Function.update_self] at ht
    exact hlast t c v' ht hc
  · simp only [Function.update_of_ne hi] at ht
    exact hseen i' t c v' ht hc

theorem Seen.step (hrun : ∀ c v s t, eng.run c s v t → seen c v s)
    (hkeep : ∀ c v c' v' s t, eng.run c' s v' t → seen c v s → seen c v t)
    (hseen : Seen seen st) (hs : Step eng body st st') : Seen seen st' := by
  cases hs with
  | start j _ => exact hseen.move (by rintro t c v ⟨⟩ hc; cases hc)
  | @call i j c k h s s' v ht hr hfree hcall =>
    refine hseen.move ?_
    rintro t c' v' ⟨⟩ hc
    cases h with
    | nil =>
      cases hc
      cases hr
      exact hrun c v _ s' hcall
    | cons e h => exact hseen i _ c' v' ht (by simpa [List.getLast?_cons_cons] using hc)
  | @fault i j c k h ht =>
    refine hseen.move ?_
    rintro t c' v' ⟨⟩ hc
    cases h with
    | nil => cases hc
    | cons e h => exact hseen i _ c' v' ht (by simpa [List.getLast?_cons_cons] using hc)
  | @commit i j a h s ht hr =>
    intro i' t c v ht' hc
    by_cases hi : i' = i
    · subst hi
      simp at ht'
    · simp only [Function.update_of_ne hi] at ht'
      exact hr.keeps (fun c' v' s t => hkeep c v c' v' s t) (hseen i' t c v ht' hc)
  | rollback => exact hseen.move (by rintro t c v ⟨⟩)

theorem Reaches.sees (hrun : ∀ c v s t, eng.run c s v t → seen c v s)
    (hkeep : ∀ c v c' v' s t, eng.run c' s v' t → seen c v s → seen c v t) {s : S}
    (h : Reaches eng body (idle s) st) : Seen seen st := by
  induction h with
  | refl =>
    intro i t c v ht
    cases ht
  | tail _ hs ih => exact ih.step hrun hkeep hs

/-- Jobs that make one plain read first, and whose later calls only go through if the
read would still be answered as it was. -/
theorem fresh_of_validated (hrun : ∀ c v s t, eng.run c s v t → seen c v s)
    (hkeep : ∀ c v c' v' s t, eng.run c' s v' t → seen c v s → seen c v t)
    (hbody : ∀ j, ∃ c k, body j = .perform c k ∧ ¬ eng.guarded c ∧
      (∀ r, Effect.Confined Effect.anyAnswer eng.guarded (fun _ => True) (k r)) ∧
      ∀ v s a t, seen c v s → Effect.Runs eng.exec (k (some v)) s (.success a) t → eng.run c s v s)
    {s : S} (h : Reaches eng body (idle s) st) : Fresh eng st := by
  intro i j a done t ht hr
  obtain ⟨c, k, hb, hplain, hguarded, hvalid⟩ := hbody j
  have hp : Path (body j) done (.succeed a) := (Reaches.locked h).path i _ ht
  rw [hb] at hp
  obtain ⟨_, hq⟩ | ⟨r, done', rfl, hp'⟩ := hp.perform
  · cases hq
  obtain ⟨u, hu, hr'⟩ := Replays.append.mp hr
  have hrest := hr'.all_guarded (hp'.confined (hguarded r)).2
  cases r with
  | none => exact Replays.append.mpr ⟨u, hu, hrest⟩
  | some v =>
    obtain ⟨w, rfl, _, hskip⟩ := hu
    obtain rfl := hskip hplain
    have hseen := Reaches.sees hrun hkeep h i _ c v ht (by simp)
    have hread := hvalid v _ a t hseen (hp'.runs hrest (.succeed a t))
    exact Replays.append.mpr ⟨_, ⟨_, rfl, fun _ => hread, fun hn => absurd trivial hn⟩, hrest⟩

end Validation

theorem Reaches.begun {txs : Pid → Option (Tx J C V E A)} {i : Pid} {j : J} {c : C}
    {k : Option (V c) → Body C V E A} {s u : S} {v : V c} {log : List (J × A)} (hi : txs i = none)
    (hbody : body j = .perform c k) (hrun : eng.run c s v u) :
    Reaches eng body ⟨s, fun _ => none, txs, log⟩ ⟨s, grab (fun _ => none) i (eng.locks c v),
      Function.update txs i (some ⟨j, k (some v), [⟨c, some v⟩]⟩), log⟩ := by
  have hstart : Step eng body ⟨s, fun _ => none, txs, log⟩
      ⟨s, fun _ => none, Function.update txs i (some ⟨j, body j, []⟩), log⟩ := .start j hi
  rw [hbody] at hstart
  have hcall : Step eng body
      ⟨s, fun _ => none, Function.update txs i (some ⟨j, .perform c k, []⟩), log⟩
      ⟨s, grab (fun _ => none) i (eng.locks c v), Function.update (Function.update txs i _) i
        (some ⟨j, k (some v), [⟨c, some v⟩]⟩), log⟩ :=
    .call (Function.update_self i _ txs) rfl (fun _ _ => .inl rfl) hrun
  rw [Function.update_idem] at hcall
  exact .head hstart (.single hcall)

/-- A transaction goes on to its commit while the others stand still and hold no rows. -/
theorem Reaches.undisturbed {txs : Pid → Option (Tx J C V E A)} {i : Pid} {j : J} {p : Body C V E A}
    {s u t : S} {a : A} {log : List (J × A)} {held : K → Option Pid} {h : Done C V}
    (hi : txs i = some ⟨j, p, h⟩) (hr : Effect.Runs eng.exec p u (.success a) t)
    (hheld : ∀ k, held k = none ∨ held k = some i) (hu : Replays eng eng.guarded h s u) :
    Reaches eng body ⟨s, held, txs, log⟩
      ⟨t, fun _ => none, Function.update txs i none, log ++ [(j, a)]⟩ := by
  generalize hx : (Exit.success a : Exit E A) = x at hr
  induction hr generalizing txs held h with
  | succeed b u =>
    cases hx
    have hfree : release held i = fun _ => none := by
      funext k
      obtain hk | hk := hheld k <;> simp [release, hk]
    exact .single (hfree ▸ .commit hi hu)
  | fail e u => cases hx
  | die u => cases hx
  | @perform c k u u' t r x hc _ ih =>
    cases r with
    | none =>
      cases hc
      have hrest := ih (h := ⟨c, none⟩ :: h) (Function.update_self i _ txs) hheld hu hx
      rw [Function.update_idem] at hrest
      exact .head (.fault hi) hrest
    | some v =>
      have hgrab := grab_free (eng.locks c v) hheld
      have hu' : Replays eng eng.guarded (⟨c, some v⟩ :: h) s u' :=
        ⟨u, hu, fun _ => hc, fun hg => eng.plain c u v u' hg hc⟩
      have hrest := ih (h := ⟨c, some v⟩ :: h) (Function.update_self i _ txs) hgrab hu' hx
      rw [Function.update_idem] at hrest
      exact .head (.call hi hu (fun key _ => hheld key) hc) hrest

theorem Reaches.turn {txs : Pid → Option (Tx J C V E A)} {i : Pid} {j : J} {s t : S} {a : A}
    {log : List (J × A)} (hi : txs i = none) (hr : Effect.Runs eng.exec (body j) s (.success a) t) :
    Reaches eng body ⟨s, fun _ => none, txs, log⟩ ⟨t, fun _ => none, txs, log ++ [(j, a)]⟩ := by
  have hrest : Reaches eng body
      ⟨s, fun _ => none, Function.update txs i (some ⟨j, body j, []⟩), log⟩ _ :=
    .undisturbed (h := []) (Function.update_self i _ txs) hr (fun _ => .inl rfl) rfl
  rw [Function.update_idem, ← hi, Function.update_eq_self] at hrest
  exact .head (.start j hi) hrest

end Schedule

end EcommerceService.Transactions
