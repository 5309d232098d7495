import EcommerceService.Repositories

namespace EcommerceService.Backend

open EcommerceService.Effects EcommerceService.Errors EcommerceService.Models
open EcommerceService.Database EcommerceService.Repositories

/-- How the promise of `$transaction` settles. `none` is a rejection by the engine
itself: no connection, a timeout, a failed commit. -/
inductive Settled (A : Type) where
  | resolved (a : A)
  | rejected (e : Option Error)

/-- The calls the services make: a statement that commits by itself, an interactive
transaction, and a message for Kafka. -/
inductive Call : Type 1 where
  | statement (q : Query)
  | transaction (kind : TransactionKind) (A : Type) (body : Statements A)
  | emit (eventType : OutboxEventType) (key : ℕ) (value : Json)

@[reducible] def Call.Reply : Call → Type
  | statement q => Option q.Answer
  | transaction _ A _ => Settled A
  | emit _ _ _ => Bool

abbrev Service (A : Type) : Type 1 := Effect Call Call.Reply Error A

def autocommit {A : Type} : Statements A → Service A
  | .succeed a => .succeed a
  | .fail e => .fail e
  | .die => .die
  | .perform q k => .perform (.statement q) (fun r => autocommit (k r))

theorem confined_autocommit {A : Type} {good : (c : Call) → c.Reply → Prop} {P : Call → Prop}
    {Q : Error → Prop} {p : Statements A}
    (h : Effect.Confined Effect.anyAnswer (fun q => P (.statement q)) Q p) :
    Effect.Confined good P Q (autocommit p) := by
  induction p with
  | succeed a => exact Effect.confined_succeed
  | fail e => exact Effect.confined_fail.mpr (Effect.confined_fail.mp h)
  | die => exact Effect.confined_die
  | perform q k ih =>
    obtain ⟨hq, hk⟩ := Effect.confined_perform.mp h
    exact Effect.confined_perform.mpr ⟨hq, fun r _ => ih r (hk r trivial)⟩

namespace PrismaService

/-- Inside the transaction every failure is made an `ApplicationException`. -/
def effectWithTransaction {A : Type} (effect : Statements A) : Statements A :=
  effect.catchAll (fun error =>
    if error.isApplication then .fail error
    else .fail (.application .conflict none (some error.message)))

def rejection : Option Error → Error
  | some error => if error.isApplication then error else .application .conflict none none
  | none => .application .conflict none none

/-- `PrismaService.transaction`. The promise of an effect that dies never settles, and
then the caller waits for ever. -/
def transaction {A : Type} (kind : TransactionKind) (effect : Statements A) : Service A :=
  .perform (.transaction kind A (effectWithTransaction effect)) (fun
    | .resolved a => .succeed a
    | .rejected e => .fail (rejection e))

theorem confined_transaction {A : Type} {good : (c : Call) → c.Reply → Prop} {P : Call → Prop}
    {Q : Error → Prop} {kind : TransactionKind} {effect : Statements A}
    (hP : P (.transaction kind A (effectWithTransaction effect)))
    (hQ : ∀ e, good (.transaction kind A (effectWithTransaction effect)) (.rejected e) →
      Q (rejection e)) : Effect.Confined good P Q (transaction kind effect) := by
  refine Effect.confined_perform.mpr ⟨hP, fun r hr => ?_⟩
  cases r with
  | resolved a => exact Effect.confined_succeed
  | rejected e => exact Effect.confined_fail.mpr (hQ e hr)

end PrismaService

end EcommerceService.Backend
