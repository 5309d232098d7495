import EcommerceService.Lib.Monitor
import EcommerceService.Models

namespace EcommerceService.OrderLife

open EcommerceService.Models

/-- What the saga is for: the stages an order passes. Stock is taken or the order is
rejected; what has been taken is paid for or given back. -/
inductive Phase where
  | absent
  | placed
  | rejected
  | cancelled
  | deducted
  | unpaid
  | debited
  | paid
deriving DecidableEq, Repr

inductive LifeEvent where
  | place
  | reject
  | cancel
  | deduct
  | refuse
  | restore
  | debit
  | pay
deriving DecidableEq, Repr

def next : Phase → LifeEvent → Option Phase
  | .absent, .place => some .placed
  | .placed, .reject => some .rejected
  | .rejected, .cancel => some .cancelled
  | .cancelled, .cancel => some .cancelled
  | .placed, .deduct => some .deducted
  | .deducted, .refuse => some .unpaid
  | .unpaid, .restore => some .unpaid
  | .deducted, .debit => some .debited
  | .debited, .pay => some .paid
  | _, _ => none

namespace Phase

def past : Phase → List Phase
  | absent => [.absent]
  | placed => [.absent, .placed]
  | rejected => [.absent, .placed, .rejected]
  | cancelled => [.absent, .placed, .rejected, .cancelled]
  | deducted => [.absent, .placed, .deducted]
  | unpaid => [.absent, .placed, .deducted, .unpaid]
  | debited => [.absent, .placed, .deducted, .debited]
  | paid => [.absent, .placed, .deducted, .debited, .paid]

instance : Preorder Phase where
  le p q := p ∈ q.past
  le_refl p := by cases p <;> decide
  le_trans p q r := by cases p <;> cases q <;> cases r <;> decide

instance (p q : Phase) : Decidable (p ≤ q) := inferInstanceAs (Decidable (p ∈ q.past))

def orderStatus : Phase → Option OrderStatus
  | absent => none
  | cancelled => some .failed
  | paid => some .paid
  | _ => some .pendingPayment

def createdAs : Phase → OutboxEventType → Option OutboxEventStatus
  | absent, _ => none
  | _, .orderCreated => some .init
  | rejected, .orderDeductStock => some .fail
  | cancelled, .orderDeductStock => some .fail
  | placed, .orderDeductStock => none
  | _, .orderDeductStock => some .init
  | unpaid, .orderPayment => some .fail
  | debited, .orderPayment => some .init
  | paid, .orderPayment => some .init
  | paid, .orderSuccess => some .init
  | _, _ => none

end Phase

def LifeEvent.row : LifeEvent → Option (OutboxEventType × OutboxEventStatus)
  | place => some (.orderCreated, .init)
  | reject => some (.orderDeductStock, .fail)
  | deduct => some (.orderDeductStock, .init)
  | refuse => some (.orderPayment, .fail)
  | debit => some (.orderPayment, .init)
  | pay => some (.orderSuccess, .init)
  | cancel => none
  | restore => none

theorem createdAs_next {p q : Phase} {e : LifeEvent} {ty : OutboxEventType}
    {status : OutboxEventStatus} (h : next p e = some q) (he : e.row = some (ty, status)) :
    q.createdAs = Function.update p.createdAs ty (some status) := by
  funext ty'
  cases p <;> cases e <;> cases h <;> cases he <;> cases ty' <;> rfl

theorem createdAs_same {p q : Phase} {e : LifeEvent} (h : next p e = some q) (he : e.row = none) :
    q.createdAs = p.createdAs := by
  funext ty
  cases p <;> cases e <;> cases h <;> cases he <;> cases ty <;> rfl

theorem next_rises : Monitor.Rises next := by
  intro p e q h
  cases p <;> cases e <;> cases h <;> decide

theorem deduct_gate : Monitor.Gate next .deduct .placed .deducted where
  rises := next_rises
  strict := by decide
  opens p q h := by cases p <;> cases h; exact ⟨rfl, rfl⟩
  only p e q h hq hp := by
    cases p <;> cases e <;> cases h <;>
      first | rfl | exact absurd hq (by decide) | exact absurd (by decide) hp

theorem debit_gate : Monitor.Gate next .debit .deducted .debited where
  rises := next_rises
  strict := by decide
  opens p q h := by cases p <;> cases h; exact ⟨rfl, rfl⟩
  only p e q h hq hp := by
    cases p <;> cases e <;> cases h <;>
      first | rfl | exact absurd hq (by decide) | exact absurd (by decide) hp

theorem restore_stage {p q : Phase} (h : next p .restore = some q) : p = .unpaid := by
  cases p <;> cases h
  rfl

section Stages

variable {p : Phase}

theorem absent_of (h : p.orderStatus = none) : p = .absent := by
  cases p <;> cases h
  rfl

theorem paid_of (h : p.orderStatus = some .paid) : p = .paid := by
  cases p <;> cases h
  rfl

theorem cancelled_of (h : p.orderStatus = some .failed) : p = .cancelled := by
  cases p <;> cases h
  rfl

theorem not_debited_and_unpaid (hd : .debited ≤ p) (hu : .unpaid ≤ p) : False := by
  cases p <;> first | exact absurd hd (by decide) | exact absurd hu (by decide)

theorem not_cancelled_and_debited (hc : .cancelled ≤ p) (hd : .debited ≤ p) : False := by
  cases p <;> first | exact absurd hd (by decide) | exact absurd hc (by decide)

theorem createdAs_orderCreated {status : OutboxEventStatus}
    (h : p.createdAs .orderCreated = some status) : status = .init := by
  cases p <;> cases h <;> rfl

theorem placed_of (h : p.createdAs .orderCreated = some .init)
    (hn : p.createdAs .orderDeductStock = none) : p = .placed := by
  cases p <;> cases h <;> cases hn
  rfl

theorem deducted_of (h : p.createdAs .orderDeductStock = some .init)
    (hn : p.createdAs .orderPayment = none) : p = .deducted := by
  cases p <;> cases h <;> cases hn
  rfl

theorem debited_of (h : p.createdAs .orderPayment = some .init)
    (hn : p.createdAs .orderSuccess = none) : p = .debited := by
  cases p <;> cases h <;> cases hn
  rfl

theorem unpaid_of (h : p.createdAs .orderPayment = some .fail) : p = .unpaid := by
  cases p <;> cases h
  rfl

theorem rejected_of {ty : OutboxEventType} (h : p.createdAs ty = some .fail)
    (hty : ty ≠ .orderPayment) : ty = .orderDeductStock ∧ (p = .rejected ∨ p = .cancelled) := by
  cases p <;> cases ty <;> cases h <;> simp at hty ⊢

end Stages

end EcommerceService.OrderLife
