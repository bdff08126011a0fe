import Ito.Library.ByteLines
import Ito.NetworkAdapter

/-! What the messages to a venue tell about an order, and what they leave out. -/

namespace Ito.NetworkVenueAdapter

def orderFields (order : NormalizedOrder) : List Bytes :=
  [Bytes.ofText "N", Bytes.decimal order.clientOrderId.toNat,
    Bytes.decimal order.instrumentId.toNat, sideName order.side,
    Bytes.signedDecimal order.priceTicks.toInt, Bytes.signedDecimal order.quantity.toInt]

def lastField (order : NormalizedOrder) : Bytes :=
  Bytes.decimal order.strategyId.toNat ++ Bytes.ofText "\n"

theorem encodeOrder_eq (order : NormalizedOrder) :
    encodeOrder order =
      (orderFields order).flatMap (· ++ [Bytes.ofChar '|']) ++ lastField order := by
  simp [encodeOrder, orderFields, lastField, Bytes.ofText]

theorem orderFields_clean (order : NormalizedOrder) :
    ∀ field ∈ orderFields order, Bytes.ofChar '|' ∉ field := by
  have side : ∀ side, Bytes.ofChar '|' ∉ sideName side := by
    intro side
    cases side <;> decide
  have digit : Bytes.isDigit (Bytes.ofChar '|') = false := by decide
  have sign : Bytes.ofChar '|' ≠ Bytes.ofChar '-' := by decide
  simp only [orderFields, List.forall_mem_cons]
  exact ⟨by decide, Bytes.not_mem_decimal digit _, Bytes.not_mem_decimal digit _, side _,
    Bytes.not_mem_signedDecimal digit sign _, Bytes.not_mem_signedDecimal digit sign _, by simp⟩

theorem lastField_clean (order : NormalizedOrder) : Bytes.ofChar '|' ∉ lastField order := by
  rw [lastField, List.mem_append]
  rintro (member | member)
  · exact Bytes.not_mem_decimal (by decide) _ member
  · revert member
    decide

structure SameWritten (first second : NormalizedOrder) : Prop where
  clientOrderId : first.clientOrderId = second.clientOrderId
  instrumentId : first.instrumentId = second.instrumentId
  buys : first.side = .buy ↔ second.side = .buy
  priceTicks : first.priceTicks = second.priceTicks
  quantity : first.quantity = second.quantity
  strategyId : first.strategyId = second.strategyId

structure SameTerms (first second : NormalizedOrder) : Prop where
  clientOrderId : first.clientOrderId = second.clientOrderId
  instrumentId : first.instrumentId = second.instrumentId
  accountId : first.accountId = second.accountId
  side : first.side = second.side
  orderType : first.orderType = second.orderType
  timeInForce : first.timeInForce = second.timeInForce
  priceTicks : first.priceTicks = second.priceTicks
  quantity : first.quantity = second.quantity
  strategyId : first.strategyId = second.strategyId

theorem sideName_eq {first second : Side} :
    sideName first = sideName second ↔ (first = .buy ↔ second = .buy) := by
  cases first <;> cases second <;> decide

theorem encodeOrder_same {first second : NormalizedOrder} :
    encodeOrder first = encodeOrder second ↔ SameWritten first second := by
  constructor
  · intro same
    rw [encodeOrder_eq, encodeOrder_eq] at same
    have read := congrArg (Bytes.finished (Bytes.ofChar '|')) same
    rw [Bytes.finished_lines (orderFields_clean first) (lastField_clean first),
      Bytes.finished_lines (orderFields_clean second) (lastField_clean second),
      Prod.mk.injEq] at read
    rcases read with ⟨fields, last⟩
    simp only [orderFields, List.cons.injEq] at fields
    rcases fields with ⟨-, client, instrument, side, price, quantity, -⟩
    exact
      { clientOrderId := UInt64.toNat_inj.mp (Bytes.decimal_injective client)
        instrumentId := UInt32.toNat_inj.mp (Bytes.decimal_injective instrument)
        buys := sideName_eq.mp side
        priceTicks := Int64.toInt_inj.mp (Bytes.signedDecimal_injective price)
        quantity := Int64.toInt_inj.mp (Bytes.signedDecimal_injective quantity)
        strategyId := UInt64.toNat_inj.mp
          (Bytes.decimal_injective (List.append_cancel_right last)) }
  · intro same
    rw [encodeOrder_eq, encodeOrder_eq, orderFields, orderFields, lastField, lastField,
      same.clientOrderId, same.instrumentId, sideName_eq.mpr same.buys, same.priceTicks,
      same.quantity, same.strategyId]

theorem encodeOrder_ne_encodeCancel (order : NormalizedOrder) (clientOrderId : UInt64) :
    encodeOrder order ≠ encodeCancel clientOrderId := by
  intro same
  have first := congrArg List.head? same
  simp [encodeOrder, encodeCancel, Bytes.ofText, Bytes.ofChar] at first

/-- The messages of two orders tell them apart if and only if they differ in what is written,
or agree on the account, the type, the time in force and the side. -/
theorem messages_faithful_iff (first second : NormalizedOrder) :
    ((encodeOrder first = encodeOrder second → SameTerms first second) ∧
      ∀ clientOrderId, encodeOrder first ≠ encodeCancel clientOrderId) ↔
    (¬ SameWritten first second ∨
      first.accountId = second.accountId ∧ first.orderType = second.orderType ∧
        first.timeInForce = second.timeInForce ∧ first.side = second.side) := by
  rw [encodeOrder_same]
  constructor
  · rintro ⟨faithful, -⟩
    by_cases written : SameWritten first second
    · have terms := faithful written
      exact Or.inr ⟨terms.accountId, terms.orderType, terms.timeInForce, terms.side⟩
    · exact Or.inl written
  · intro condition
    refine ⟨fun written => ?_, encodeOrder_ne_encodeCancel first⟩
    rcases condition with differ | ⟨account, orderType, timeInForce, side⟩
    · exact absurd written differ
    · exact ⟨written.clientOrderId, written.instrumentId, account, side, orderType, timeInForce,
        written.priceTicks, written.quantity, written.strategyId⟩

def limitOrder : NormalizedOrder := ⟨5, 7, 1, 1, .buy, .limit, .day, 100, 10, 3⟩

def marketOrder : NormalizedOrder := ⟨5, 7, 1, 2, .buy, .market, .fok, 100, 10, 3⟩

def readyAdapter : NetworkVenueAdapter where
  session := { venue := ⟨1, 1, .exchange, .fix, "venue", "region"⟩, liveEnabled := true }
  connector := { config := ⟨true, true⟩, connected := true }
  status := .ready

theorem market_order_sent_as_limit :
    encodeOrder limitOrder = encodeOrder marketOrder ∧
    (readyAdapter.submit ⟨true, true, none⟩ limitOrder 10).2.isSome ∧
    (readyAdapter.submit ⟨true, true, none⟩ marketOrder 10).2.isSome ∧
    ¬ SameTerms limitOrder marketOrder :=
  ⟨rfl, by decide +kernel, by decide +kernel, fun terms => by cases terms.orderType⟩

end Ito.NetworkVenueAdapter
