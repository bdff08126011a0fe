import Ito.Library.LittleEndian
import Ito.RiskHardware

/-! The frame of the risk service as 64 bytes, and the bridge that takes it in.

Source: `rust/risk_service/src/hardware.rs`, `rust/risk_service/src/generated.rs` and
`rtl/common/generated/risk_frame_pkg.sv`. `none` is a slice or an index out of range. -/

namespace Ito.RiskService

open LittleEndian

def frameBytes : Nat := 64
def offsetPriceTicks : Nat := 0
def offsetQuantity : Nat := 8
def offsetMaxQuantity : Nat := 16
def offsetMaxNotionalTicks : Nat := 24
def offsetNetPosition : Nat := 32
def offsetMaxNetPosition : Nat := 40
def offsetControl : Nat := 48
def offsetHealth : Nat := 49
def offsetLimitsVersion : Nat := 56

/-- `value.to_le_bytes()` of a `u64`. -/
def leBytes (value : UInt64) : List UInt8 := toBytes 8 value.toNat

def putU64 (bytes : List UInt8) (offset : Nat) (value : UInt64) : Option (List UInt8) :=
  splice bytes offset (leBytes value)

def putU8 (bytes : List UInt8) (offset : Nat) (value : UInt8) : Option (List UInt8) :=
  splice bytes offset [value]

def encodeFrame (frame : FpgaRiskFrame) : Option (List UInt8) := do
  let bytes := List.replicate frameBytes 0
  let bytes ← putU64 bytes offsetPriceTicks frame.priceTicks
  let bytes ← putU64 bytes offsetQuantity frame.quantity
  let bytes ← putU64 bytes offsetMaxQuantity frame.maxQuantity
  let bytes ← putU64 bytes offsetMaxNotionalTicks frame.maxNotionalTicks
  let bytes ← putU64 bytes offsetNetPosition frame.netPosition.toUInt64
  let bytes ← putU64 bytes offsetMaxNetPosition frame.maxNetPosition
  let bytes ← putU8 bytes offsetControl frame.control
  let bytes ← putU8 bytes offsetHealth frame.health
  putU64 bytes offsetLimitsVersion 1

def reserved : List UInt8 := List.replicate 6 0

def layout (frame : FpgaRiskFrame) (version : UInt64) : List UInt8 :=
  leBytes frame.priceTicks ++ (leBytes frame.quantity ++ (leBytes frame.maxQuantity ++
    (leBytes frame.maxNotionalTicks ++ (leBytes frame.netPosition.toUInt64 ++
      (leBytes frame.maxNetPosition ++ ([frame.control] ++ ([frame.health] ++
        (reserved ++ leBytes version))))))))

theorem length_leBytes (value : UInt64) : (leBytes value).length = 8 := length_toBytes 8 _

theorem length_reserved : reserved.length = 6 := rfl

theorem encodeFrame_eq (frame : FpgaRiskFrame) : encodeFrame frame = some (layout frame 1) := by
  have blank : List.replicate frameBytes 0 = layout ⟨0, 0, 0, 0, 0, 0, 0, 0⟩ 0 := by decide
  rw [encodeFrame, blank]
  have version : splice (reserved ++ leBytes 0) 6 (leBytes 1) = some (reserved ++ leBytes 1) := by
    have same : (leBytes 0).length = (leBytes 1).length := rfl
    rw [splice_skip (Nat.le_refl 6), length_reserved, Nat.sub_self, splice_whole same,
      Option.map_some]
  simp (disch := simp [length_leBytes]) only [putU64, putU8, layout, offsetPriceTicks,
    offsetQuantity, offsetMaxQuantity, offsetMaxNotionalTicks, offsetNetPosition,
    offsetMaxNetPosition, offsetControl, offsetHealth, offsetLimitsVersion, splice_skip,
    splice_head, version, length_leBytes, List.length_singleton, Nat.reduceSub,
    Option.bind_eq_bind, Option.bind_some, Option.map_some]

def u64At (bytes : List UInt8) (offset : Nat) : UInt64 :=
  UInt64.ofNat (ofBytes (field bytes offset 8))

def u8At (bytes : List UInt8) (offset : Nat) : UInt8 :=
  UInt8.ofNat (ofBytes (field bytes offset 1))

theorem ofBytes_leBytes (value : UInt64) : UInt64.ofNat (ofBytes (leBytes value)) = value := by
  rw [leBytes, ofBytes_toBytes value.toNat_lt, UInt64.ofNat_toNat]

theorem ofBytes_single (value : UInt8) : UInt8.ofNat (ofBytes [value]) = value := by
  rw [ofBytes, ofBytes, Nat.mul_zero, Nat.add_zero, UInt8.ofNat_toNat]

def readFrame (bytes : List UInt8) : FpgaRiskFrame :=
  { priceTicks := u64At bytes offsetPriceTicks
    quantity := u64At bytes offsetQuantity
    maxQuantity := u64At bytes offsetMaxQuantity
    maxNotionalTicks := u64At bytes offsetMaxNotionalTicks
    netPosition := (u64At bytes offsetNetPosition).toInt64
    maxNetPosition := u64At bytes offsetMaxNetPosition
    control := u8At bytes offsetControl
    health := u8At bytes offsetHealth }

theorem length_layout (frame : FpgaRiskFrame) (version : UInt64) :
    (layout frame version).length = frameBytes := by
  simp [layout, length_leBytes, length_reserved, frameBytes]

theorem readFrame_layout (frame : FpgaRiskFrame) (version : UInt64) :
    readFrame (layout frame version) = frame := by
  simp (disch := simp [length_leBytes]) only [readFrame, u64At, u8At, layout, offsetPriceTicks,
    offsetQuantity, offsetMaxQuantity, offsetMaxNotionalTicks, offsetNetPosition,
    offsetMaxNetPosition, offsetControl, offsetHealth, field_skip, field_head, length_leBytes,
    List.length_singleton, Nat.reduceSub, ofBytes_leBytes, ofBytes_single]
  rfl

end Ito.RiskService

namespace Ito.Rtl

open RiskService

/-- A byte frame on the wires of the bridge, each field from its generated offset. -/
def wires (bytes : List UInt8) : FrameInput 64 :=
  { valid := true
    priceTicks := (u64At bytes offsetPriceTicks).toBitVec
    quantity := (u64At bytes offsetQuantity).toBitVec
    maxQuantity := (u64At bytes offsetMaxQuantity).toBitVec
    maxNotionalTicks := (u64At bytes offsetMaxNotionalTicks).toBitVec
    netPosition := (u64At bytes offsetNetPosition).toBitVec
    maxNetPosition := (u64At bytes offsetMaxNetPosition).toBitVec
    control := (u8At bytes offsetControl).toBitVec
    health := (u8At bytes offsetHealth).toBitVec }

theorem wires_eq (bytes : List UInt8) : wires bytes = present (readFrame bytes) := rfl

theorem frameParityOk_request (request : RiskRequest) :
    frameParityOk (present (toFpgaFrame request)) = true := by
  have control := packed_bits request.tradingEnabled request.halted (request.side == .buy)
  have health := packed_bits request.limitsValid request.clockHealthy request.feedHealthy
  simp only [frameParityOk, present, toFpgaFrame, control.1, health.1, BEq.rfl, Bool.and_self]

theorem orderOf_injective {request other : RiskRequest} (same : orderOf other = orderOf request) :
    other = request := by
  have sides : (other.side == .buy) = (request.side == .buy) := congrArg GateOrder.sideBuy same
  have side : other.side = request.side := by
    revert sides
    cases other.side <;> cases request.side <;> decide
  simp only [orderOf, GateOrder.mk.injEq, UInt64.toBitVec_inj, Int64.toBitVec_inj] at same
  cases other
  cases request
  simp_all

/-- Every request is carried by its frame: the numbers stand at the generated offsets, the
bridge accepts the frame and holds the request one cycle later, and no other request has the
same frame. -/
theorem frame_carries_request (request : RiskRequest) :
    ∃ bytes, encodeFrame (toFpgaFrame request) = some bytes ∧ bytes.length = frameBytes ∧
      u64At bytes offsetPriceTicks = request.priceTicks ∧
      u64At bytes offsetQuantity = request.quantity ∧
      u64At bytes offsetMaxQuantity = request.maxQuantity ∧
      u64At bytes offsetMaxNotionalTicks = request.maxNotionalTicks ∧
      u64At bytes offsetNetPosition = request.netPosition.toUInt64 ∧
      u64At bytes offsetMaxNetPosition = request.maxNetPosition ∧
      frameParityOk (wires bytes) = true ∧
      (∀ bridge : OrderFrameBridge 64,
        bridge.clock (wires bytes) = { requestValid := true, order := orderOf request }) ∧
      ∀ other, encodeFrame (toFpgaFrame other) = some bytes → other = request := by
  have read := readFrame_layout (toFpgaFrame request) 1
  have onWires : wires (layout (toFpgaFrame request) 1) = present (toFpgaFrame request) := by
    rw [wires_eq, read]
  apply Exists.intro (layout (toFpgaFrame request) 1)
  apply And.intro (encodeFrame_eq _)
  apply And.intro (length_layout _ _)
  apply And.intro (congrArg FpgaRiskFrame.priceTicks read)
  apply And.intro (congrArg FpgaRiskFrame.quantity read)
  apply And.intro (congrArg FpgaRiskFrame.maxQuantity read)
  apply And.intro (congrArg FpgaRiskFrame.maxNotionalTicks read)
  apply And.intro (congrArg (fun frame => frame.netPosition.toUInt64) read)
  apply And.intro (congrArg FpgaRiskFrame.maxNetPosition read)
  rw [onWires]
  apply And.intro (frameParityOk_request request)
  constructor
  · intro bridge
    exact bridge_captures bridge request
  · intro other encoded
    rw [encodeFrame_eq, Option.some.injEq] at encoded
    have frames : toFpgaFrame other = toFpgaFrame request := by
      rw [← readFrame_layout (toFpgaFrame other) 1, encoded, read]
    have captured := bridge_captures OrderFrameBridge.reset other
    rw [frames, bridge_captures] at captured
    exact orderOf_injective (congrArg OrderFrameBridge.order captured).symm

end Ito.Rtl
