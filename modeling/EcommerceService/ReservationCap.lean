import Mathlib.Algebra.BigOperators.Group.List.Basic
import Mathlib.Data.Rat.Floor
import EcommerceService.Reservations

namespace EcommerceService.ReservationCap

open EcommerceService.Effects EcommerceService.Errors EcommerceService.Models
open EcommerceService.SortedSets EcommerceService.Cache EcommerceService.Storefront
open EcommerceService.Storefront.ProductStockCacheStore EcommerceService.Storefront.ProductService
open EcommerceService.Pool EcommerceService.Shop EcommerceService.Reservations

abbrev Caller : Type := ℕ × ReserveStockCommand

def elsewhere (s t : State) : Prop :=
  s.clock ≤ t.clock ∧ t.reservations = s.reservations ∧ s.issued ⊆ t.issued ∧
    t.world.store.db.productStock = s.world.store.db.productStock

def shop : System ℕ Caller Request Request.Reply Error Unit State where
  exec := State.exec
  program := fun j => reserveStockAt j.1 j.2
  start := fun _ j s t => j.1 = s.second ∧ t = s
  env := elsewhere

abbrev Configuration : Type 1 := Config ℕ Caller Request Request.Reply Error Unit State

abbrev Action : Type 1 := Label ℕ Caller Request Request.Reply

/-- The units of the product that a program adds before any other command, when its commands are
answered. -/
def pending {A : Type} (p : ℕ) : Shopping A → ℕ
  | .perform (.redis (.zadd key _ _)) k =>
      pending p (k (some 1)) + if key = reservationKey p then 1 else 0
  | .perform .dateNow k => pending p (k 0)
  | .perform .randomUUID k => pending p (k firstId)
  | _ => 0

/-- What one reply may do to the units that are still to be added: each unit is added once, and
only a count that `admits` them decides to add any. -/
def Rule (p : ℕ) (admits : ℕ → ℕ → Prop) (before after : ℕ) : (c : Request) → c.Reply → Prop
  | .redis (.zadd key _ _), _ => after + (if key = reservationKey p then 1 else 0) ≤ before
  | .redis (.zcount key min max), some n => after ≤ before ∨
      (key = reservationKey p ∧ min = .negInf ∧ max = .posInf ∧ admits n after)
  | _, _ => after ≤ before

def Stocked (p : ℕ) (stock : ℤ) : (c : Request) → c.Reply → Prop
  | .findUniqueOrThrowProductStock p', some n => p' = p → n = stock
  | _, _ => True

/-- Every reply keeps to the rule, while the row of the product has this stock. -/
def Orderly {A : Type} (p : ℕ) (stock : ℤ) (admits : ℕ → ℕ → Prop) : Shopping A → Prop
  | .perform c k => ∀ r, Stocked p stock c r →
      Rule p admits (pending p (.perform c k)) (pending p (k r)) c r ∧ Orderly p stock admits (k r)
  | _ => True

def Room (stock quantity : ℤ) (n after : ℕ) : Prop :=
  (after : ℤ) ≤ quantity ∧ (n : ℤ) + quantity ≤ cap stock

section Programs

variable {p : ℕ} {stock : ℤ} {admits : ℕ → ℕ → Prop} {p' userId score : ℕ} {id : Uuid}

def afterUnit (p' userId score : ℕ) (id : Uuid) (seqs : List ℕ) (f : List ℕ → Shopping Unit) :
    Option ℕ → Shopping Unit
  | some a => (Effect.all (seqs.map (addUnit p' userId score id))).flatMap (fun as => f (a :: as))
  | none => .fail .unknownException

theorem units_cons (seq : ℕ) (seqs : List ℕ) (f : List ℕ → Shopping Unit) :
    (Effect.all ((seq :: seqs).map (addUnit p' userId score id))).flatMap f =
      .perform (.redis (.zadd (reservationKey p') score (member userId id seq)))
        (afterUnit p' userId score id seqs f) := by
  refine (Effect.flatMap_assoc _ _ f).trans (congrArg (Effect.perform _) (funext (fun r => ?_)))
  cases r with
  | none => rfl
  | some a => exact Effect.map_flatMap _ _ f

theorem pending_units (seqs : List ℕ) {f : List ℕ → Shopping Unit} (hf : ∀ as, pending p (f as) = 0) :
    pending p ((Effect.all (seqs.map (addUnit p' userId score id))).flatMap f) =
      if p' = p then seqs.length else 0 := by
  induction seqs generalizing f with
  | nil =>
    rw [List.length_nil, ite_self]
    exact hf []
  | cons seq seqs ih =>
    have hrest := ih (f := fun as => f (1 :: as)) (fun as => hf _)
    simp only [units_cons, pending, afterUnit, hrest]
    by_cases hp : p' = p <;> simp [hp]

theorem orderly_units (seqs : List ℕ) {f : List ℕ → Shopping Unit} (hf : ∀ as, pending p (f as) = 0)
    (ho : ∀ as, Orderly p stock admits (f as)) : Orderly p stock admits
      ((Effect.all (seqs.map (addUnit p' userId score id))).flatMap f) := by
  induction seqs generalizing f with
  | nil => exact ho []
  | cons seq seqs ih =>
    have hbefore : pending p ((Effect.all ((seq :: seqs).map
        (addUnit p' userId score id))).flatMap f) = _ := pending_units (seq :: seqs) hf
    rw [units_cons] at hbefore ⊢
    refine fun r _ => ⟨?_, ?_⟩
    · rw [hbefore]
      cases r with
      | none => by_cases hp : p' = p <;> simp [Rule, afterUnit, pending, hp]
      | some a =>
        have hafter : pending p (afterUnit p' userId score id seqs f (some a)) = _ :=
          pending_units seqs (fun as => hf (a :: as))
        rw [hafter]
        by_cases hp : p' = p <;> simp [Rule, hp]
    · cases r with
      | none => trivial
      | some a => exact ih (fun as => hf _) (fun as => ho _)

theorem pending_reserve (command : ReserveStockCommand) :
    pending p (reserve command) = if command.productId = p then command.quantity.toNat else 0 := by
  have h : pending p (reserve command) = if command.productId = p then
      (List.range' 1 command.quantity.toNat).length else 0 := pending_units _ (fun _ => rfl)
  rwa [List.length_range'] at h

theorem orderly_reserve (command : ReserveStockCommand) :
    Orderly p stock admits (reserve command) := by
  have hsame : ∀ (ms : ℕ) (id : Uuid), pending p ((Effect.all ((List.range' 1 command.quantity.toNat).map
      (addUnit command.productId command.userId (ms / 1000 + ttl) id))).flatMap
        (fun _ => .succeed ())) = pending p (reserve command) := by
    intro ms id
    rw [pending_reserve, pending_units _ (fun _ => rfl), List.length_range']
  refine fun ms _ => ⟨(hsame ms firstId).le, fun id _ => ⟨?_, ?_⟩⟩
  · exact ((hsame ms id).trans (hsame ms firstId).symm).le
  · exact orderly_units _ (fun _ => rfl) (fun _ => trivial)

theorem orderly_admit {command : ReserveStockCommand} {n : ℤ} (hn : command.productId = p → n = stock)
    (reserved : ℕ) :
    Rule p (Room stock command.quantity) 0 (pending p (reserveIfAvailable command (cap n - reserved)))
      (.redis (.zcount (reservationKey command.productId) .negInf .posInf)) (some reserved) ∧
    Orderly p stock (Room stock command.quantity) (reserveIfAvailable command (cap n - reserved)) := by
  rw [reserveIfAvailable]
  split
  · rename_i hroom
    refine ⟨?_, orderly_reserve command⟩
    by_cases hp : command.productId = p
    · obtain rfl := hn hp
      rw [Rule, pending_reserve, if_pos hp, hp]
      by_cases hq : 0 ≤ command.quantity
      · exact .inr ⟨rfl, rfl, rfl, by omega, by omega⟩
      · exact .inl (by omega)
    · exact .inl (by rw [pending_reserve, if_neg hp])
  · exact ⟨.inl le_rfl, trivial⟩

theorem pending_program (j : Caller) : pending p (shop.program j) = 0 := rfl

/-- A call of `reserveStock` keeps to the rule. -/
theorem orderly_program (j : Caller) : Orderly p stock (Room stock j.2.quantity) (shop.program j) := by
  obtain ⟨now, command⟩ := j
  intro r hr
  cases r with
  | none => exact ⟨le_rfl, trivial⟩
  | some n =>
    refine ⟨le_rfl, fun r _ => ?_⟩
    cases r with
    | none => exact ⟨le_rfl, trivial⟩
    | some removed =>
      refine ⟨le_rfl, fun r _ => ?_⟩
      cases r with
      | none => exact ⟨le_rfl, trivial⟩
      | some reserved => exact orderly_admit hr reserved

theorem Orderly.mono {A : Type} {admits' : ℕ → ℕ → Prop} {q : Shopping A} (h : Orderly p stock admits q)
    (hadmits : ∀ n after, admits n after → admits' n after) : Orderly p stock admits' q := by
  induction q with
  | perform c k ih =>
    intro r hr
    obtain ⟨hrule, hrest⟩ := h r hr
    refine ⟨?_, ih r hrest⟩
    cases c with
    | redis d =>
      cases d with
      | zcount key min max =>
        cases r with
        | none => exact hrule
        | some n =>
          exact hrule.imp_right (fun ⟨hkey, hmin, hmax, hn⟩ => ⟨hkey, hmin, hmax, hadmits _ _ hn⟩)
      | _ => exact hrule
    | _ => exact hrule
  | _ => trivial

def Apart (q : Request) : Prop := ∀ b, q ≠ .backend b

theorem program_apart (j : Caller) :
    Effect.Confined Effect.anyAnswer Apart (fun _ => True) (shop.program j) :=
  ProductService.confined_reserveStockAt (by rintro _ ⟨⟩) (by rintro _ ⟨⟩) (by rintro _ _ ⟨⟩)
    (by rintro _ _ _ _ ⟨⟩) (by rintro _ _ ⟨⟩) (by rintro _ _ _ ⟨⟩) (fun _ => trivial)

end Programs

section Live

variable {p : ℕ} {s t : State}

theorem liveCount_le {now now' : ℕ} (set : SortedSet String ℕ) (h : now ≤ now') :
    set.count (live now') ≤ set.count (live now) :=
  SortedSet.count_mono set (fun _ => live_mono h)

def additions (p : ℕ) : Request → ℕ
  | .redis (.zadd key _ _) => if key = reservationKey p then 1 else 0
  | _ => 0

theorem setSorted_count {redis : Redis} {key : String} {set : SortedSet String ℕ} {range : ℕ → Bool}
    {n : ℕ} (h : set.count range ≤ (redis.sortedSets key).count range + n) :
    ((redis.setSorted key set).sortedSets (reservationKey p)).count range ≤
      (redis.sortedSets (reservationKey p)).count range + if key = reservationKey p then n else 0 := by
  simp only [Redis.setSorted]
  by_cases hk : key = reservationKey p
  · subst hk
    simpa using h
  · simp [Function.update_of_ne (Ne.symm hk), hk]

theorem send_count (s : State) (c : Command) (range : ℕ → Bool) :
    ((s.send c).reservations p).count range ≤
      (s.reservations p).count range + additions p (.redis c) := by
  cases c with
  | zadd key score m => exact setSorted_count (SortedSet.count_add_le range _ m score)
  | zremrangebyscore key min max =>
    refine (setSorted_count (n := 0) ?_).trans (by simp [additions, State.reservations])
    rw [SortedSet.count_remove]
    exact SortedSet.count_mono _ (fun k hk => (Bool.and_eq_true_iff.mp hk).1)
  | get _ => exact Nat.le_refl _
  | set _ _ _ => exact Nat.le_refl _
  | zcount _ _ _ => exact Nat.le_refl _

theorem act_count {c : Request} {r : c.Reply} (h : State.act c s r t) (range : ℕ → Bool) :
    (t.reservations p).count range ≤ (s.reservations p).count range + additions p c := by
  obtain rfl | ⟨d, rfl, rfl⟩ | ⟨_, _, rfl⟩ | ⟨_, _, _, rfl⟩ | ⟨_, _, _, rfl⟩ := act_cases h
  · exact Nat.le_add_right _ _
  · exact send_count s d range
  · exact Nat.le_add_right _ _
  · exact Nat.le_add_right _ _
  · exact Nat.le_add_right _ _

theorem exec_liveCount {c : Request} {r : c.Reply} (h : State.exec c s r t) :
    t.liveCount p ≤ s.liveCount p + additions p c := by
  have hc := exec_clock h
  obtain ⟨u, ms, hact, rfl⟩ := h
  calc (u.wait ms).liveCount p ≤ (u.reservations p).count (live s.second) :=
        liveCount_le _ (second_mono hc)
    _ ≤ s.liveCount p + additions p c := act_count hact _

end Live

/-- The units of the product that the process has still to add. -/
def outstanding {J A : Type} (p : ℕ) (c : Config ℕ J Request Request.Reply Error A State) (i : ℕ) : ℕ :=
  ((c.pool i).map (fun e => pending p e.2)).getD 0

/-- A count that admits a call would also admit it if the units that other calls have still to
add had been counted. -/
def Foreseen (p : ℕ) (stock : ℤ) (c : Configuration) : Action → Prop
  | .call i (.redis (.zcount key _ _)) (some n) => ∀ j q, c.pool i = some (j, q) →
      key = reservationKey p → (n : ℤ) + j.2.quantity ≤ cap stock →
      ∀ others : List ℕ, others.Nodup → i ∉ others →
        (n : ℤ) + j.2.quantity + (others.map (outstanding p c)).sum ≤ cap stock
  | _ => True

/-- The live members and the units still to be added fit under the cap. -/
structure Fits (p : ℕ) (stock : ℤ) (c : Configuration) : Prop where
  stocked : c.shared.world.store.db.productStock p = some stock
  orderly : ∀ i j q, c.pool i = some (j, q) → Orderly p stock (Room stock j.2.quantity) q ∧
    Effect.Confined Effect.anyAnswer Apart (fun _ => True) q
  room : ∀ l : List ℕ, l.Nodup →
    (c.shared.liveCount p : ℤ) + (l.map (outstanding p c)).sum ≤ cap stock

section Steps

variable {p : ℕ} {stock : ℤ} {c : Configuration} {s' : State} {i : ℕ} {j : Caller}

theorem outstanding_self {q : Shopping Unit} (hi : c.pool i = some (j, q)) :
    outstanding p c i = pending p q := by simp [outstanding, hi]

theorem outstanding_update {J A : Type} {c : Config ℕ J Request Request.Reply Error A State}
    {v : Option (J × Shopping A)} : outstanding p ⟨s', Function.update c.pool i v⟩ =
      Function.update (outstanding p c) i ((v.map (fun e => pending p e.2)).getD 0) :=
  funext (fun i' =>
    Function.apply_update (fun _ v => (v.map (fun e => pending p e.2)).getD 0) c.pool i v i')

theorem outstanding_other {v : Option (Caller × Shopping Unit)} {i' : ℕ} (hne : i' ≠ i) :
    outstanding p ⟨s', Function.update c.pool i v⟩ i' = outstanding p c i' := by
  rw [outstanding_update, Function.update_of_ne hne]

theorem Fits.move {v : Option (Caller × Shopping Unit)} (h : Fits p stock c)
    (hstock : s'.world.store.db.productStock p = some stock)
    (horderly : ∀ j q, v = some (j, q) → Orderly p stock (Room stock j.2.quantity) q ∧
      Effect.Confined Effect.anyAnswer Apart (fun _ => True) q)
    (hroom : ∀ others : List ℕ, others.Nodup → i ∉ others → (s'.liveCount p : ℤ) +
      ((v.map (fun e => pending p e.2)).getD 0 + (others.map (outstanding p c)).sum : ℕ) ≤ cap stock) :
    Fits p stock ⟨s', Function.update c.pool i v⟩ := by
  refine ⟨hstock, fun i' j q hq => ?_, fun l hl => ?_⟩
  · obtain ⟨_, hv⟩ | ⟨_, hq⟩ := pool_update hq
    · exact horderly j q hv
    · exact h.orderly i' j q hq
  · have hsame : ∀ l : List ℕ, i ∉ l →
        l.map (outstanding p ⟨s', Function.update c.pool i v⟩) = l.map (outstanding p c) :=
      fun l hi => List.map_congr_left (fun i' hi' =>
        outstanding_other (fun he => hi (he ▸ hi')))
    by_cases hi : i ∈ l
    · have hself : outstanding p ⟨s', Function.update c.pool i v⟩ i =
          (v.map (fun e => pending p e.2)).getD 0 := by simp [outstanding]
      have hout := hl.not_mem_erase (a := i)
      rw [← List.sum_map_erase _ hi, hself, hsame _ hout]
      exact hroom _ (hl.erase i) hout
    · rw [hsame l hi]
      have hle := hroom l hl hi
      push_cast at hle ⊢
      omega

theorem exec_world {q : Request} {r : q.Reply} {s t : State} (hq : ∀ b, q ≠ .backend b)
    (h : State.exec q s r t) : t.world = s.world := by
  obtain ⟨u, ms, hact, rfl⟩ := h
  obtain rfl | ⟨_, _, rfl⟩ | ⟨_, _, rfl⟩ | ⟨_, _, _, rfl⟩ | ⟨b, _, rfl, rfl⟩ := act_cases hact
  · rfl
  · rfl
  · rfl
  · rfl
  · exact absurd rfl (hq b)

theorem Rule.spends {admits : ℕ → ℕ → Prop} {before after : ℕ} {q : Request} {r : q.Reply}
    (h : Rule p admits before after q r) (hq : ∀ key min max, q ≠ .redis (.zcount key min max)) :
    after + additions p q ≤ before := by
  cases q with
  | redis d =>
    cases d with
    | zcount key min max => exact absurd rfl (hq key min max)
    | _ => exact h
  | _ => exact h

theorem exec_stocked {q : Request} {r : q.Reply} {s t : State}
    (hs : s.world.store.db.productStock p = some stock) (h : State.exec q s r t) :
    Stocked p stock q r := by
  obtain ⟨u, ms, hact, rfl⟩ := h
  cases q with
  | findUniqueOrThrowProductStock p' =>
    cases r with
    | none => trivial
    | some n =>
      intro hp
      subst hp
      exact Option.some.inj (hact.1.symm.trans hs)
  | _ => trivial

theorem exec_zcount {n : ℕ} {s t : State}
    (h : State.exec (.redis (.zcount (reservationKey p) .negInf .posInf)) s (some n) t) :
    t.liveCount p ≤ n := by
  have hc := exec_clock h
  obtain ⟨u, ms, ⟨rfl, rfl⟩, rfl⟩ := h
  exact (liveCount_le _ (second_mono hc)).trans (SortedSet.count_mono _ (fun _ _ => rfl))

/-- A call takes room only if it adds a unit or admits the process that makes it. -/
theorem Fits.call {q : Request} {r : q.Reply} {k : q.Reply → Shopping Unit} (h : Fits p stock c)
    (hi : c.pool i = some (j, .perform q k)) (hexec : State.exec q c.shared r s')
    (hok : Foreseen p stock c (.call i q r)) :
    Fits p stock ⟨s', Function.update c.pool i (some (j, k r))⟩ := by
  obtain ⟨horderly, hapart, hrest⟩ := h.orderly i j _ hi
  obtain ⟨hrule, hnext⟩ := horderly r (exec_stocked h.stocked hexec)
  have hworld : s'.world = c.shared.world := exec_world hapart hexec
  refine h.move (hworld ▸ h.stocked) ?_ (fun others hn hout => ?_)
  · rintro _ _ ⟨⟩
    exact ⟨hnext, hrest r trivial⟩
  have hadds := exec_liveCount (p := p) hexec
  have hroom := h.room (i :: others) (List.nodup_cons.mpr ⟨hout, hn⟩)
  rw [List.map_cons, List.sum_cons, outstanding_self hi] at hroom
  simp only [Option.map_some, Option.getD_some]
  by_cases hq : ∀ key min max, q ≠ .redis (.zcount key min max)
  · have hspends := hrule.spends hq
    push_cast at hroom ⊢
    omega
  · push Not at hq
    obtain ⟨key, min, max, rfl⟩ := hq
    have hsame : additions p (.redis (.zcount key min max)) = 0 := rfl
    cases r with
    | none =>
      have hle : pending p (k none) ≤ pending p (.perform (.redis (.zcount key min max)) k) := hrule
      push_cast at hroom ⊢
      omega
    | some n =>
      obtain hle | ⟨rfl, rfl, rfl, hquantity, hcap⟩ := hrule
      · push_cast at hroom ⊢
        omega
      · have hforeseen := hok j _ hi rfl hcap others hn hout
        have hcount := exec_zcount hexec
        push_cast at hforeseen ⊢
        omega

theorem Fits.step {c' : Configuration} {l : Action} (h : Fits p stock c) (hstep : Step shop c l c')
    (hok : Foreseen p stock c l) : Fits p stock c' := by
  cases hstep with
  | @env s' henv =>
    obtain ⟨hclock, hr, _, hstock⟩ := henv
    refine ⟨hstock ▸ h.stocked, h.orderly, fun l hl => ?_⟩
    have hle : s'.liveCount p ≤ c.shared.liveCount p := by
      rw [State.liveCount, hr]
      exact liveCount_le _ (second_mono hclock)
    exact (add_le_add_left (Nat.cast_le.mpr hle) _).trans (h.room l hl)
  | start hi hs =>
    obtain ⟨_, rfl⟩ := hs
    refine h.move h.stocked ?_ (fun others hn _ => ?_)
    · rintro _ _ ⟨⟩
      exact ⟨orderly_program _, program_apart _⟩
    · exact (h.room others hn).trans' (by simp [pending_program])
  | call hi hexec => exact h.call hi hexec hok
  | stop =>
    refine h.move h.stocked ?_ (fun others hn _ => ?_)
    · rintro _ _ ⟨⟩
    · exact (h.room others hn).trans' (by simp)

end Steps

section Runs

variable {p : ℕ} {stock : ℤ} {s : State} {c : Configuration}

theorem cap_eq_floor (stock : ℤ) : cap stock = ⌊(6 / 5 : ℚ) * stock⌋ := by
  have h : (6 / 5 : ℚ) * stock = ((6 * stock : ℤ) : ℚ) / ((5 : ℕ) : ℚ) := by
    push_cast
    ring
  rw [h, Rat.floor_intCast_div_natCast]
  rfl

theorem Fits.quiet (hstock : s.world.store.db.productStock p = some stock)
    (hlive : (s.liveCount p : ℤ) ≤ cap stock) : Fits p stock (Pool.quiet s) where
  stocked := hstock
  orderly _ _ _ h := nomatch h
  room l _ := by
    have hsum : (l.map (outstanding p (Pool.quiet s : Configuration))).sum = 0 :=
      List.sum_eq_zero (fun n hn => by
        obtain ⟨_, _, rfl⟩ := List.mem_map.mp hn
        rfl)
    rwa [hsum, Nat.cast_zero, add_zero]

theorem Fits.reaches (hs : Fits p stock (Pool.quiet s))
    (h : Reaches shop (Foreseen p stock) (Pool.quiet s) c) : Fits p stock c := by
  induction h with
  | refl => exact hs
  | tail _ hnext ih =>
    obtain ⟨l, hstep, hok⟩ := hnext
    exact ih.step hstep hok

theorem foreseen_alone {i : ℕ} {q : Request} {r : q.Reply} (h : ∀ i', i' ≠ i → outstanding p c i' = 0) :
    Foreseen p stock c (.call i q r) := by
  cases q with
  | redis d =>
    cases d with
    | zcount key min max =>
      cases r with
      | none => trivial
      | some n =>
        intro j q _ _ hcap others _ hi
        have hsum : (others.map (outstanding p c)).sum = 0 :=
          List.sum_eq_zero (fun n hn => by
            obtain ⟨i', hi', rfl⟩ := List.mem_map.mp hn
            exact h i' (fun he => hi (he ▸ hi')))
        rwa [hsum, Nat.cast_zero, add_zero]
    | _ => trivial
  | _ => trivial

/-- While every count that admits a call foresees the units that other calls have still to add,
the live members of a product stay under the cap of its stock. -/
theorem cap_respected (hstock : s.world.store.db.productStock p = some stock)
    (hlive : (s.liveCount p : ℤ) ≤ ⌊(6 / 5 : ℚ) * stock⌋)
    (h : Reaches shop (Foreseen p stock) (Pool.quiet s) c) :
    (c.shared.liveCount p : ℤ) ≤ ⌊(6 / 5 : ℚ) * stock⌋ := by
  rw [← cap_eq_floor] at hlive ⊢
  simpa using ((Fits.quiet hstock hlive).reaches h).room [] List.nodup_nil

end Runs

section Scenes

variable {p : ℕ} {stock : ℤ} {s : State} {ok : Configuration → Action → Prop} {c₀ : Configuration}
  {pool : ℕ → Option (Caller × Shopping Unit)} {i : ℕ} {j : Caller}

def Alone (ok : Configuration → Action → Prop) (pool : ℕ → Option (Caller × Shopping Unit)) (i : ℕ)
    (j : Caller) : Prop := ∀ s q,
  (∀ c r, ok ⟨s, Function.update pool i (some (j, q))⟩ (.call i c r)) ∧
    ok ⟨s, Function.update pool i (some (j, q))⟩ (.stop i)

theorem exec_alone (q : Request) (s : State) (r : q.Reply) (t : State) (h : State.exec q s r t) :
    shop.exec q s r t ∧ (fun (_ : Request) (_ : State) _ => True) q s r := ⟨h, trivial⟩

theorem play_admit (hr : Reaches shop ok c₀ ⟨s, Function.update pool i (some (j, shop.program j))⟩)
    (hok : Alone ok pool i j) (hs : Known s) (hnow : j.1 = s.second)
    (hstock : s.world.store.db.productStock j.2.productId = some stock)
    (hroom : (s.liveCount j.2.productId : ℤ) + j.2.quantity ≤ cap stock) :
    ∃ t, Known t ∧ t.liveCount p = s.liveCount p ∧ t.second = s.second ∧ t.world = s.world ∧
      t.issued = s.issued ∧
      Reaches shop ok c₀ ⟨t, Function.update pool i (some (j, reserve j.2))⟩ := by
  have hfits : ((s.reservations j.2.productId).count (live j.1) : ℤ) + j.2.quantity ≤ cap stock := by
    rw [hnow]
    exact hroom
  obtain ⟨n, redis, hknown, hfind, hcount, hlive, hchecked⟩ :=
    reserveStockAt_admits j.2.userId hs hnow.le hstock hfits
  have hfound := Reaches.part (hfind.mono exec_alone) hr (fun q k s r _ => (hok s _).1 q r)
  have hcounted := Reaches.part (hcount.mono exec_alone) hfound (fun q k s r _ => (hok s _).1 q r)
  rw [hchecked] at hcounted
  exact ⟨_, hknown, hlive p, rfl, rfl, rfl, hcounted⟩

theorem play_reserve (hr : Reaches shop ok c₀ ⟨s, Function.update pool i (some (j, reserve j.2))⟩)
    (hok : Alone ok pool i j) (hs : Known s) {id : Uuid} (hid : id ∉ s.issued) :
    ∃ t, Known t ∧ t.issued = id :: s.issued ∧
      t.liveCount j.2.productId = s.liveCount j.2.productId + j.2.quantity.toNat ∧
      Reaches shop ok c₀ ⟨t, Function.update pool i none⟩ := by
  obtain ⟨as, redis, hrun⟩ := reserveStock_run s j.2.productId j.2.userId j.2.quantity hid
  obtain ⟨id', done, _, _, hadds, hall⟩ := runs_reserveStock hrun hs
  obtain rfl := hall as rfl
  have hreserve : Effect.Runs State.exec (reserve j.2) s (.success ()) _ :=
    Effect.runs_map_success.mpr ⟨as, hrun, rfl⟩
  refine ⟨_, hadds.known, rfl, ?_, Reaches.finish (hreserve.mono exec_alone) hr
    (fun q k s r _ => (hok s _).1 q r) (fun s q _ => (hok s q).2)⟩
  refine (hadds.count j.2.productId s.second le_rfl).trans (congrArg _ ?_)
  rw [unitsOf, List.countP_map, List.countP_eq_length.mpr, List.length_range']
  intro seq _
  simp [live, ttl]

def stocked : State :=
  { opened with
    world := ⟨⟨⟨fun _ => none, [], fun _ => some 1, fun _ => none, [], fun _ => none⟩, []⟩, [], []⟩ }

def buyer (userId : ℕ) : Caller := (0, ⟨1, userId, 1⟩)

theorem known_stocked : Known stocked := by
  intro p m k hm
  exact absurd hm SortedSet.not_has_empty

/-- One call takes all the room there is. -/
theorem cap_respected_single : ∃ c, Reaches shop (Foreseen 1 1) (Pool.quiet stocked) c ∧
    c.shared.liveCount 1 = 1 ∧ (c.shared.liveCount 1 : ℤ) ≤ ⌊(6 / 5 : ℚ) * (1 : ℤ)⌋ := by
  have halone : Alone (Foreseen 1 1) (fun _ => none) 0 (buyer 7) := fun s q =>
    ⟨fun c r => foreseen_alone (fun i' hi' => outstanding_other (c := Pool.quiet s) hi'), trivial⟩
  have hstart : Reaches shop (Foreseen 1 1) (Pool.quiet stocked) _ :=
    Reaches.start .refl (i := 0) (j := buyer 7) rfl ⟨rfl, rfl⟩ trivial
  obtain ⟨s, hknown, hcount, _, _, hissued, hchecked⟩ :=
    play_admit (p := 1) hstart halone known_stocked rfl rfl (by decide)
  have hfresh : firstId ∉ s.issued := hissued ▸ List.not_mem_nil
  obtain ⟨t, _, _, hlive, hreach⟩ := play_reserve hchecked halone hknown hfresh
  have hone : t.liveCount 1 = 1 := hlive.trans (congrArg (· + 1) hcount)
  exact ⟨_, hreach, hone, cap_respected rfl (by rw [← cap_eq_floor]; decide) hreach⟩

def Positive : Configuration → Action → Prop
  | _, .start _ j => 0 < j.2.quantity
  | _, _ => True

/-- Two calls of one unit both count before either has added its unit, and both are admitted. -/
theorem cap_exceeded : ∃ s c, s.world.store.db.productStock 1 = some 1 ∧
    (s.liveCount 1 : ℤ) ≤ ⌊(6 / 5 : ℚ) * (1 : ℤ)⌋ ∧ Reaches shop Positive (Pool.quiet s) c ∧
    ⌊(6 / 5 : ℚ) * (1 : ℤ)⌋ < (c.shared.liveCount 1 : ℤ) := by
  have halone : ∀ pool i j, Alone Positive pool i j := fun _ _ _ _ _ =>
    ⟨fun _ _ => trivial, trivial⟩
  have hstart : Reaches shop Positive (Pool.quiet stocked) _ :=
    Reaches.start .refl (i := 0) (j := buyer 7) rfl ⟨rfl, rfl⟩ Int.zero_lt_one
  obtain ⟨s, hknown, hcount, hsecond, hworld, hissued, hchecked⟩ :=
    play_admit (p := 1) hstart (halone _ _ _) known_stocked rfl rfl (by decide)
  have hrow : s.world.store.db.productStock 1 = some 1 := by
    rw [hworld]
    rfl
  have hstart' := hchecked.start (i := 1) (j := buyer 8) rfl ⟨hsecond.symm, rfl⟩ Int.zero_lt_one
  obtain ⟨s', hknown', hcount', _, _, hissued', hchecked'⟩ :=
    play_admit (p := 1) hstart' (halone _ _ _) hknown hsecond.symm hrow
      (by rw [show s.liveCount (buyer 8).2.productId = 0 from hcount]; decide)
  have hnone : s'.issued = [] := hissued'.trans hissued
  have hfirst : firstId ∉ s'.issued := hnone ▸ List.not_mem_nil
  obtain ⟨t, hknown₁, hissued₁, hlive₁, hreach₁⟩ :=
    play_reserve hchecked' (halone _ _ _) hknown' hfirst
  rw [Function.update_comm (by decide)] at hreach₁
  have hsecond' : (⟨"b", by decide⟩ : Uuid) ∉ t.issued := by
    rw [hissued₁, hnone]
    decide
  obtain ⟨t', _, _, hlive₂, hreach₂⟩ := play_reserve hreach₁ (halone _ _ _) hknown₁ hsecond'
  have htwo : t'.liveCount 1 = 2 := by
    have hone : t.liveCount 1 = 1 := hlive₁.trans (congrArg (· + 1) (hcount'.trans hcount))
    exact hlive₂.trans (congrArg (· + 1) hone)
  rw [← cap_eq_floor]
  refine ⟨stocked, _, rfl, by decide, hreach₂, ?_⟩
  rw [htwo]
  decide

end Scenes

end EcommerceService.ReservationCap
