import EcommerceService.Storefront

namespace EcommerceService.Shop

open EcommerceService.Effects EcommerceService.Errors EcommerceService.Models
open EcommerceService.Database EcommerceService.Backend EcommerceService.Saga
open EcommerceService.SortedSets EcommerceService.Cache EcommerceService.Storefront

/-- The world of the saga, the products, Redis, the clock in milliseconds, and the random
ids that have been made. -/
structure State where
  world : World
  product : ℕ → Option ProductRow
  redis : Redis
  clock : ℕ
  issued : List Uuid

namespace State

def second (s : State) : ℕ := s.clock / 1000

def wait (s : State) (ms : ℕ) : State := { s with clock := s.clock + ms }

def send (s : State) (c : Command) : State := { s with redis := (s.redis.run s.clock c).2 }

def setProduct (s : State) (id : ℕ) (data : ProductModel) : State :=
  { s with
    product := Function.update (Function.update s.product id none) data.id
      (some ⟨data.name, data.price⟩) }

/-- A call on the shop. A call that is rejected has done nothing, or only its answer is lost. -/
def act : (c : Request) → State → c.Reply → State → Prop
  | .redis c, s, some v, t => v = (s.redis.run s.clock c).1 ∧ t = s.send c
  | .redis c, s, none, t => t = s ∨ t = s.send c
  | .dateNow, s, ms, t => ms = s.clock ∧ t = s
  | .randomUUID, s, id, t => id ∉ s.issued ∧ t = { s with issued := id :: s.issued }
  | .findUniqueOrThrowProduct id, s, some row, t => s.product id = some row ∧ t = s
  | .findUniqueOrThrowProduct _, s, none, t => t = s
  | .updateProduct id data, s, some row, t => s.product id ≠ none ∧
      (data.id = id ∨ s.product data.id = none) ∧ row = ⟨data.name, data.price⟩ ∧
      t = s.setProduct id data
  | .updateProduct id data, s, none, t => t = s ∨
      (s.product id ≠ none ∧ (data.id = id ∨ s.product data.id = none) ∧ t = s.setProduct id data)
  | .findUniqueOrThrowProductStock productId, s, some stock, t =>
      s.world.store.db.productStock productId = some stock ∧ t = s
  | .findUniqueOrThrowProductStock _, s, none, t => t = s
  | .backend c, s, r, t => ∃ w, World.exec c s.world r w ∧ t = { s with world := w }

def exec (c : Request) (s : State) (r : c.Reply) (t : State) : Prop :=
  ∃ u ms, act c s r u ∧ t = u.wait ms

end State

def reservationKey (productId : ℕ) : String :=
  ProductStockCacheStore.reservationSpace ++ ":" ++ Nat.repr productId

theorem key_inj {keyspace : String} {p p' : ℕ} :
    keyspace ++ ":" ++ Nat.repr p = keyspace ++ ":" ++ Nat.repr p' ↔ p = p' := by
  refine ⟨fun h => repr_inj.mp (String.toList_inj.mp ?_), fun h => h ▸ rfl⟩
  have hl := congrArg String.toList h
  simpa only [String.toList_append, List.append_cancel_left_eq] using hl

@[simp] theorem reservationKey_inj {p p' : ℕ} : reservationKey p = reservationKey p' ↔ p = p' :=
  key_inj

def State.reservations (s : State) (productId : ℕ) : SortedSet String ℕ :=
  s.redis.sortedSets (reservationKey productId)

def live (now score : ℕ) : Bool := now < score

def State.Live (s : State) (productId : ℕ) (m : String) : Prop :=
  ∃ score, (s.reservations productId).Has m score ∧ live s.second score = true

def State.liveCount (s : State) (productId : ℕ) : ℕ := (s.reservations productId).count (live s.second)

section Time

variable {s : State} {ms : ℕ}

@[simp] theorem wait_reservations : (s.wait ms).reservations = s.reservations := rfl

@[simp] theorem wait_issued : (s.wait ms).issued = s.issued := rfl

@[simp] theorem wait_product : (s.wait ms).product = s.product := rfl

@[simp] theorem wait_world : (s.wait ms).world = s.world := rfl

theorem second_mono {s t : State} (h : s.clock ≤ t.clock) : s.second ≤ t.second :=
  Nat.div_le_div_right h

theorem exec_dateNow {n : ℕ} {t : State} (h : State.exec .dateNow s n t) :
    n = s.clock ∧ ∃ ms, t = s.wait ms := by
  obtain ⟨_, ms, ⟨rfl, rfl⟩, rfl⟩ := h
  exact ⟨rfl, ms, rfl⟩

theorem exec_randomUUID {id : Uuid} {t : State} (h : State.exec .randomUUID s id t) :
    id ∉ s.issued ∧ ∃ ms, t = ({ s with issued := id :: s.issued } : State).wait ms := by
  obtain ⟨_, ms, ⟨hid, rfl⟩, rfl⟩ := h
  exact ⟨hid, ms, rfl⟩

theorem act_cases {c : Request} {t : State} {r : c.Reply} (h : State.act c s r t) :
    t = s ∨ (∃ d, c = .redis d ∧ t = s.send d) ∨
      (∃ id, c = .randomUUID ∧ t = { s with issued := id :: s.issued }) ∨
      (∃ id data, c = .updateProduct id data ∧ t = s.setProduct id data) ∨
      ∃ b w, c = .backend b ∧ t = { s with world := w } := by
  cases c with
  | redis d =>
    cases r with
    | none => exact h.imp_right (fun ht => .inl ⟨d, rfl, ht⟩)
    | some v => exact .inr (.inl ⟨d, rfl, h.2⟩)
  | dateNow => exact .inl h.2
  | randomUUID => exact .inr (.inr (.inl ⟨_, rfl, h.2⟩))
  | findUniqueOrThrowProduct id =>
    cases r with
    | none => exact .inl h
    | some row => exact .inl h.2
  | updateProduct id data =>
    cases r with
    | none => exact h.imp_right (fun ht => .inr (.inr (.inl ⟨id, data, rfl, ht.2.2⟩)))
    | some row => exact .inr (.inr (.inr (.inl ⟨id, data, rfl, h.2.2.2⟩)))
  | findUniqueOrThrowProductStock productId =>
    cases r with
    | none => exact .inl h
    | some stock => exact .inl h.2
  | backend b =>
    obtain ⟨w, _, ht⟩ := h
    exact .inr (.inr (.inr (.inr ⟨b, w, rfl, ht⟩)))

theorem act_clock {c : Request} {t : State} {r : c.Reply} (h : State.act c s r t) :
    t.clock = s.clock := by
  obtain rfl | ⟨_, _, rfl⟩ | ⟨_, _, rfl⟩ | ⟨_, _, _, rfl⟩ | ⟨_, _, _, rfl⟩ := act_cases h <;> rfl

theorem exec_clock {c : Request} {t : State} {r : c.Reply} (h : State.exec c s r t) :
    s.clock ≤ t.clock := by
  obtain ⟨u, ms, hact, rfl⟩ := h
  rw [← act_clock hact]
  exact Nat.le_add_right _ _

end Time

end EcommerceService.Shop
