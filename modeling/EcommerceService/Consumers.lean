import EcommerceService.Saga

namespace EcommerceService.Consumers

open EcommerceService.Effects EcommerceService.Errors EcommerceService.Models
open EcommerceService.Saga

/-- What a consumer does besides the calls of its facade: it locks and unlocks, it runs the
effect of the facade for a message, and it commits an offset. -/
inductive Task where
  | lock (key : OutboxEventType)
  | unlock (key : OutboxEventType)
  | facade (m : Message)
  | commitOffsets (offset : ℕ)

@[reducible] def Task.Reply : Task → Type
  | lock _ => Bool
  | unlock _ => Bool
  | facade _ => Exit Error Unit
  | commitOffsets _ => Bool

abbrev Handling : Type := Effect Task Task.Reply Error Unit

def processOrder (m : Message) : Handling :=
  .perform (.facade m) (fun
    | .success a => .succeed a
    | .failure e => .fail e
    | .defect => .die)

/-- `murLock.runWithLock`: it throws when the lock is not obtained, and it releases the
lock in the end, whatever the function has done. -/
def runWithLock (key : OutboxEventType) (fn : Handling) : Handling :=
  .perform (.lock key) (fun obtained =>
    if obtained then
      (((fn.promise Error.unknownException).map some).catchAll (fun _ => .succeed none)).flatMap
        (fun result => .perform (.unlock key) (fun released =>
          if released && result.isSome then .succeed () else .fail .unknownException))
    else .fail .unknownException)

/-- A failed lock and a failed function are logged, and `null` is the result. -/
def runWithMurlock (key : OutboxEventType) (fn : Handling) : Handling :=
  (runWithLock key fn).catchAll (fun _ => .succeed ())

namespace ProductEventConsumer

def handleOrderCreated (m : Message) : Handling := runWithMurlock .orderCreated (processOrder m)

end ProductEventConsumer

namespace UserEventConsumer

def handleDeductStock (m : Message) : Handling := runWithMurlock .orderDeductStock (processOrder m)

end UserEventConsumer

namespace OrderEventConsumer

def handleOrderPayment (m : Message) : Handling := processOrder m

end OrderEventConsumer

def handlerOf : OutboxEventType → Option (Message → Handling)
  | .orderCreated => some ProductEventConsumer.handleOrderCreated
  | .orderDeductStock => some UserEventConsumer.handleDeductStock
  | .orderPayment => some OrderEventConsumer.handleOrderPayment
  | _ => none

namespace ConsumerInterceptor

def commitOffsets (offset : ℕ) : Handling :=
  .perform (.commitOffsets offset) (fun committed =>
    if committed then .succeed () else .fail .unknownException)

/-- After a success the offset of the message is committed. A failure is swallowed. -/
def intercept (offset : ℕ) (value : Handling) : Handling :=
  (value.tap (fun _ => commitOffsets offset)).catchAll (fun _ => .succeed ())

end ConsumerInterceptor

end EcommerceService.Consumers
