import Ito.Library.CheckedInt
import Ito.Library.Machine

/-! The lifecycle of one order.

Source: `cpp/ito_execution/order_state_machine.cpp`. A call whose arithmetic overflows is `none`. -/

namespace Ito

open CheckedInt

inductive OrderState where
  | created
  | riskApproved
  | sent
  | accepted
  | partiallyFilled
  | filled
  | cancelPending
  | cancelled
  | rejected
  | uncertain
  deriving DecidableEq, Repr

/-- The events, and the values of the enumeration that have no name. -/
inductive OrderEvent where
  | riskApprove
  | submit
  | venueAccept
  | fill
  | cancelRequest
  | cancelConfirm
  | reject
  | recoveryRequired
  | unnamed
  deriving DecidableEq, Repr

structure OrderStateMachine where
  clientOrderId : UInt64
  state : OrderState := .created
  orderQuantity : Int64
  filledQuantity : Int64 := 0
  deriving DecidableEq, Repr

namespace OrderStateMachine

def create (clientOrderId : UInt64) (orderQuantity : Int64 := 0) : OrderStateMachine :=
  { clientOrderId, orderQuantity }

def terminal (machine : OrderStateMachine) : Bool :=
  machine.state = .filled ∨ machine.state = .cancelled ∨ machine.state = .rejected

def moveIf (machine : OrderStateMachine) (allowed : Bool) (state : OrderState) :
    OrderStateMachine × Bool :=
  if allowed then ({ machine with state }, true) else (machine, false)

/-- The second guard of a fill: it is empty, or more than is left of the order. -/
def overfills (machine : OrderStateMachine) (fillQuantity : Int64) : Option Bool :=
  pure (decide (fillQuantity ≤ 0)) <||>
    (pure (decide (machine.orderQuantity > 0)) <&&>
      (do return decide (machine.filledQuantity > (← sub? machine.orderQuantity fillQuantity))))

def applyFill (machine : OrderStateMachine) (fillQuantity : Int64) :
    Option (OrderStateMachine × Bool) := do
  if machine.state ≠ .accepted ∧ machine.state ≠ .partiallyFilled then return (machine, false)
  else if ← machine.overfills fillQuantity then return (machine, false)
  else
    let filledQuantity ← add? machine.filledQuantity fillQuantity
    return ({ machine with
      filledQuantity
      state :=
        if machine.orderQuantity > 0 ∧ filledQuantity ≥ machine.orderQuantity then .filled
        else .partiallyFilled }, true)

def apply (machine : OrderStateMachine) (event : OrderEvent) (fillQuantity : Int64 := 0) :
    Option (OrderStateMachine × Bool) :=
  match event with
  | .riskApprove => some (machine.moveIf (machine.state = .created) .riskApproved)
  | .submit => some (machine.moveIf (machine.state = .riskApproved) .sent)
  | .venueAccept => some (machine.moveIf (machine.state = .sent) .accepted)
  | .fill => machine.applyFill fillQuantity
  | .cancelRequest =>
      some (machine.moveIf (machine.state = .accepted ∨ machine.state = .partiallyFilled)
        .cancelPending)
  | .cancelConfirm => some (machine.moveIf (machine.state = .cancelPending) .cancelled)
  | .reject =>
      some (machine.moveIf (machine.state = .sent ∨ machine.state = .riskApproved) .rejected)
  | .recoveryRequired => some (machine.moveIf (!machine.terminal) .uncertain)
  | .unnamed => some (machine, false)

def remainingQuantity (machine : OrderStateMachine) : Option Int64 :=
  if machine.orderQuantity > machine.filledQuantity then
    sub? machine.orderQuantity machine.filledQuantity
  else some 0

def stateName (machine : OrderStateMachine) : String :=
  match machine.state with
  | .created => "created"
  | .riskApproved => "risk_approved"
  | .sent => "sent"
  | .accepted => "accepted"
  | .partiallyFilled => "partially_filled"
  | .filled => "filled"
  | .cancelPending => "cancel_pending"
  | .cancelled => "cancelled"
  | .rejected => "rejected"
  | .uncertain => "uncertain"

def step (machine : OrderStateMachine) (input : OrderEvent × Int64) :
    Option (OrderStateMachine × Bool) :=
  machine.apply input.1 input.2

end OrderStateMachine

end Ito
