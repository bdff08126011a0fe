import Ito.HardwareFrame
import Ito.Library.Layout
import Ito.RecordReconcile
import Mathlib.Data.Finset.Image

/-! The register map of the risk gate, which the generator checks before it writes the offsets of
the frame for both sides of the link.

Source: `validate_registers` of `scripts/generate_risk_interface.py`, and
`interfaces/register_maps/risk_gate.json`. Texts are lists of code points. -/

namespace Ito.RegisterMap

open Replay (LoadError)
open RecordReconcile (Record toInt)

/-- What `int` makes of a text, and `str` of any value. -/
structure Python where
  intOfText : List Nat → Option Int
  str : Json → List Nat
  str_text : ∀ text, str (.str text) = text

inductive Error where
  | valueError (message : List Nat)
  /-- An exception of `int`. -/
  | raised (error : LoadError)
  deriving DecidableEq, Repr

structure Register where
  name : List Nat
  offset : Int
  bytes : Int
  access : List Nat
  fields : Json

def codes (text : String) : List Nat := Json.codes text.toList

/-- `int(record.get(key, default))`. -/
def intField (python : Python) (record : Record) (key : String) (default : Int) :
    Except Error Int :=
  match toInt python.intOfText ((Json.get? key record).getD (.int default)) with
  | .ok value => .ok value
  | .error error => .error (.raised error)

/-- `str(record.get(key, ""))`. -/
def strField (python : Python) (record : Record) (key : String) : List Nat :=
  python.str ((Json.get? key record).getD (.str []))

/-- `set(range(offset, offset + width))`. -/
def positions (offset width : Int) : Finset Int :=
  (Finset.range width.toNat).image fun index : Nat => offset + index

theorem mem_positions {offset width position : Int} :
    position ∈ positions offset width ↔ offset ≤ position ∧ position < offset + width := by
  rw [positions, Finset.mem_image]
  constructor
  · rintro ⟨index, within, rfl⟩
    have within := Finset.mem_range.mp within
    omega
  · intro within
    exact ⟨(position - offset).toNat, Finset.mem_range.mpr (by omega), by omega⟩

def validateRegister (python : Python) (frameBytes : Int) (occupied : Finset Int) :
    Json → Except Error Register
  | .obj register => do
      let name := strField python register "name"
      let offset ← intField python register "offset" (-1)
      let width ← intField python register "bytes" 0
      if name = [] ∨ offset < 0 ∨ width ≤ 0 ∨ offset + width > frameBytes then
        throw (.valueError (codes "register_bounds_invalid:" ++ name))
      else if occupied ∩ positions offset width ≠ ∅ then
        throw (.valueError (codes "register_overlap:" ++ name))
      else
        return {
          name, offset, bytes := width
          access := strField python register "access"
          fields := (Json.get? "fields" register).getD (.arr []) }
  | _ => .error (.valueError (codes "register_invalid"))

def validateAll (python : Python) (frameBytes : Int) :
    Finset Int → List Json → Except Error (List Register)
  | _, [] => .ok []
  | occupied, item :: items => do
      let register ← validateRegister python frameBytes occupied item
      let rest ← validateAll python frameBytes
        (occupied ∪ positions register.offset register.bytes) items
      return register :: rest

def validateRegisters (python : Python) (registerMap : Record) :
    Except Error (Int × List Register) := do
  let frameBytes ← intField python registerMap "frame_bytes" 0
  let frameBits ← intField python registerMap "frame_bits" 0
  if frameBytes ≤ 0 ∨ frameBits ≠ frameBytes * 8 then
    throw (.valueError (codes "frame_dimensions_invalid"))
  else
    match Json.get? "registers" registerMap with
    | some (.arr (item :: items)) => do
        let normalized ← validateAll python frameBytes ∅ (item :: items)
        return (frameBytes, normalized)
    | _ => throw (.valueError (codes "registers_missing"))

/-! What is accepted -/

variable {python : Python} {frameBytes : Int} {registers : List Register}

def Describes (python : Python) (item : Json) (register : Register) : Prop :=
  ∃ record, item = .obj record ∧
    intField python record "offset" (-1) = .ok register.offset ∧
    intField python record "bytes" 0 = .ok register.bytes ∧
    register = { register with
      name := strField python record "name"
      access := strField python record "access"
      fields := (Json.get? "fields" record).getD (.arr []) }

structure Placed (frameBytes : Int) (register : Register) : Prop where
  named : register.name ≠ []
  start : 0 ≤ register.offset
  width : 0 < register.bytes
  within : register.offset + register.bytes ≤ frameBytes

def Clear (first second : Register) : Prop :=
  first.offset + first.bytes ≤ second.offset ∨ second.offset + second.bytes ≤ first.offset

def Free (occupied : Finset Int) (register : Register) : Prop :=
  occupied ∩ positions register.offset register.bytes = ∅

theorem free_union {occupied : Finset Int} {first second : Register} (width : 0 < first.bytes)
    (other : 0 < second.bytes) :
    Free (occupied ∪ positions first.offset first.bytes) second ↔
      Free occupied second ∧ Clear first second := by
  rw [Free, Finset.union_inter_distrib_right, Finset.union_eq_empty, Free]
  refine and_congr_right fun _ => ?_
  rw [← Finset.disjoint_iff_inter_eq_empty, Finset.disjoint_left, Clear]
  simp only [mem_positions]
  constructor
  · intro apart
    have atSecond := apart (a := second.offset)
    have atFirst := apart (a := first.offset)
    omega
  · omega

theorem validateRegister_eq_ok {occupied : Finset Int} {item : Json} {register : Register} :
    validateRegister python frameBytes occupied item = .ok register ↔
      Describes python item register ∧ Placed frameBytes register ∧ Free occupied register := by
  cases item with
  | obj record =>
      rw [validateRegister]
      simp only [Fallible.bind_eq_ok, Fallible.throw_else_eq_ok]
      constructor
      · rintro ⟨offset, readOffset, width, readWidth, placed, free, same⟩
        cases same
        rw [not_or, not_or, not_or, not_lt, not_le, not_lt] at placed
        exact ⟨⟨record, rfl, readOffset, readWidth, rfl⟩, ⟨placed.1, placed.2.1, placed.2.2.1, placed.2.2.2⟩,
          not_not.mp free⟩
      · rintro ⟨⟨other, json, readOffset, readWidth, same⟩, placed, free⟩
        cases json
        have name := placed.named
        rw [same] at name
        refine ⟨_, readOffset, _, readWidth, ?_, not_not.mpr free, congrArg Except.ok same.symm⟩
        rw [not_or, not_or, not_or]
        have start := placed.start
        have width := placed.width
        have within := placed.within
        exact ⟨name, by omega, by omega, by omega⟩
  | null | bool | int | float | nan | infinity | str | arr =>
      refine iff_of_false (fun accepted => by cases accepted) ?_
      rintro ⟨⟨record, same, -⟩, -⟩
      cases same

theorem validateAll_eq_ok {occupied : Finset Int} {items : List Json} :
    validateAll python frameBytes occupied items = .ok registers ↔
      List.Forall₂ (Describes python) items registers ∧
        (∀ register ∈ registers, Placed frameBytes register ∧ Free occupied register) ∧
        registers.Pairwise Clear := by
  induction items generalizing occupied registers with
  | nil =>
      rw [validateAll, List.forall₂_nil_left_iff]
      constructor
      · rintro ⟨⟩
        simp
      · rintro ⟨rfl, -⟩
        rfl
  | cons item items ih =>
      rw [validateAll]
      simp only [Fallible.bind_eq_ok, validateRegister_eq_ok, ih]
      constructor
      · rintro ⟨register, ⟨described, placed, free⟩, rest, ⟨all, each, apart⟩, same⟩
        cases same
        have clear : ∀ later ∈ rest, Free occupied later ∧ Clear register later :=
          fun later member =>
            (free_union placed.width (each later member).1.width).mp (each later member).2
        exact ⟨.cons described all,
          List.forall_mem_cons.mpr ⟨⟨placed, free⟩,
            fun later member => ⟨(each later member).1, (clear later member).1⟩⟩,
          List.pairwise_cons.mpr ⟨fun later member => (clear later member).2, apart⟩⟩
      · rintro ⟨all, each, apart⟩
        cases all with
        | cons described others =>
            rename_i register rest
            rcases List.forall_mem_cons.mp each with ⟨⟨placed, free⟩, later⟩
            rcases List.pairwise_cons.mp apart with ⟨clear, apart⟩
            refine ⟨register, ⟨described, placed, free⟩, rest, ⟨others, ?_, apart⟩, rfl⟩
            intro next member
            exact ⟨(later next member).1, (free_union placed.width (later next member).1.width).mpr
              ⟨(later next member).2, clear next member⟩⟩

/-- The generator accepts a map exactly when its frame has a size in whole bytes, every item of its
list describes a register with a name that lies within the frame, and no two of these overlap; and
it passes these registers on in their order. -/
theorem validateRegisters_eq_ok {registerMap : Record} :
    validateRegisters python registerMap = .ok (frameBytes, registers) ↔
      0 < frameBytes ∧ intField python registerMap "frame_bytes" 0 = .ok frameBytes ∧
        intField python registerMap "frame_bits" 0 = .ok (frameBytes * 8) ∧
        ∃ items, Json.get? "registers" registerMap = some (.arr items) ∧ items ≠ [] ∧
          List.Forall₂ (Describes python) items registers ∧
          (∀ register ∈ registers, Placed frameBytes register) ∧ registers.Pairwise Clear := by
  have fresh : ∀ register, Free ∅ register := fun register => Finset.empty_inter _
  rw [validateRegisters]
  simp only [Fallible.bind_eq_ok, Fallible.throw_else_eq_ok]
  constructor
  · rintro ⟨size, readSize, bits, readBits, sized, accepted⟩
    split at accepted
    case h_1 item items found =>
      rcases Fallible.bind_eq_ok.mp accepted with ⟨normalized, validated, same⟩
      cases same
      rw [not_or, not_not, not_le] at sized
      rcases validateAll_eq_ok.mp validated with ⟨all, each, apart⟩
      rw [sized.2] at readBits
      exact ⟨sized.1, readSize, readBits, _, found, List.cons_ne_nil _ _, all,
        fun register member => (each register member).1, apart⟩
    case h_2 => cases accepted
  · rintro ⟨positive, readSize, readBits, items, found, filled, all, each, apart⟩
    refine ⟨frameBytes, readSize, _, readBits, by omega, ?_⟩
    cases items with
    | nil => exact absurd rfl filled
    | cons item items =>
        rw [found]
        exact Fallible.bind_eq_ok.mpr ⟨registers, validateAll_eq_ok.mpr
          ⟨all, fun register member => ⟨each register member, fresh register⟩, apart⟩, rfl⟩

/-! What an accepted map is good for -/

open Layout

structure Filled (registers : List Register) (contents : List (Register × List UInt8)) : Prop where
  each : contents.map Prod.fst = registers
  width : ∀ content ∈ contents, (content.2.length : Int) = content.1.bytes

def fieldOf (content : Register × List UInt8) : Nat × List UInt8 :=
  (content.1.offset.toNat, content.2)

theorem fields_apart {contents : List (Register × List UInt8)}
    (filled : Filled registers contents) (placed : ∀ register ∈ registers, Placed frameBytes register)
    (clear : registers.Pairwise Clear) : (contents.map fieldOf).Pairwise Apart := by
  rw [List.pairwise_map]
  rw [← filled.each, List.pairwise_map] at clear
  refine clear.imp_of_mem fun {first second} early late apart position here there => ?_
  have widthFirst := filled.width first early
  have widthSecond := filled.width second late
  have startFirst := (placed first.1 (filled.each ▸ List.mem_map_of_mem early)).start
  have startSecond := (placed second.1 (filled.each ▸ List.mem_map_of_mem late)).start
  simp only [Covers, fieldOf] at here there
  rw [Clear] at apart
  omega

/-- The registers of an accepted map hold what is written to them, whatever the order of the
writes: each can be read back, every order leaves the same frame, and the bytes of no register stay
zero. -/
theorem registers_hold {registerMap : Record}
    (accepted : validateRegisters python registerMap = .ok (frameBytes, registers))
    {contents : List (Register × List UInt8)} (filled : Filled registers contents) :
    ∃ frame,
      (∀ order, (contents.map fieldOf).Perm order →
        writeAll (List.replicate frameBytes.toNat 0) order = some frame) ∧
      (frame.length : Int) = frameBytes ∧
      (∀ content ∈ contents,
        LittleEndian.field frame content.1.offset.toNat content.2.length = content.2) ∧
      ∀ position < frame.length,
        (∀ register ∈ registers,
          ¬ (register.offset ≤ position ∧ position < register.offset + register.bytes)) →
        frame[position]? = some 0 := by
  rcases validateRegisters_eq_ok.mp accepted with
    ⟨positive, -, -, items, -, -, -, placed, clear⟩
  have apart := fields_apart filled placed clear
  have known : ∀ content ∈ contents, Placed frameBytes content.1 := fun content member =>
    placed content.1 (filled.each ▸ List.mem_map_of_mem member)
  have fits : ∀ write ∈ contents.map fieldOf,
      write.1 + write.2.length ≤ (List.replicate frameBytes.toNat (0 : UInt8)).length := by
    rw [List.forall_mem_map, List.length_replicate]
    intro content member
    have width := filled.width content member
    have start := (known content member).start
    have within := (known content member).within
    dsimp only [fieldOf]
    omega
  rcases writeAll_spec fits apart with ⟨frame, written, length, each⟩
  rw [List.length_replicate] at length
  refine ⟨frame, fun order perm => (writeAll_perm perm fits apart).symm.trans written,
    by omega, ?_, ?_⟩
  · intro content member
    exact field_writeAll fits apart written (List.mem_map_of_mem member)
  · intro position inside free
    rw [(each position).2 _, List.getElem?_replicate, if_pos (by omega)]
    rw [List.forall_mem_map]
    intro content member covers
    have width := filled.width content member
    have start := (known content member).start
    refine free content.1 (filled.each ▸ List.mem_map_of_mem member) ?_
    simp only [Covers, fieldOf] at covers
    omega

/-! The map of the risk gate, which the frame of the risk service is written by -/

open RiskService

def item (name : String) (offset width : Int) (fields : List String) : Json :=
  .obj
    [(codes "name", .str (codes name)), (codes "offset", .int offset), (codes "bytes", .int width),
      (codes "access", .str (codes "rw")),
      (codes "fields", .arr (fields.map fun field => .str (codes field)))]

/-- `risk_gate.json`. -/
def riskGate : Record :=
  [(codes "register_map_version", .int 2), (codes "block", .str (codes "pre_trade_gate")),
    (codes "frame_bytes", .int 64), (codes "frame_bits", .int 512),
    (codes "registers", .arr
      [item "PRICE_TICKS" 0 8 ["value"], item "QUANTITY" 8 8 ["value"],
        item "MAX_QUANTITY" 16 8 ["value"], item "MAX_NOTIONAL_TICKS" 24 8 ["value"],
        item "NET_POSITION" 32 8 ["value"], item "MAX_NET_POSITION" 40 8 ["value"],
        item "CONTROL" 48 1 ["trading_enabled", "halted", "side_buy"],
        item "HEALTH" 49 1 ["clock_healthy", "feed_healthy", "limits_valid"],
        item "LIMITS_VERSION" 56 8 ["version"]])]

def register (name : String) (offset width : Nat) (fields : List String) : Register :=
  { name := codes name, offset, bytes := width, access := codes "rw"
    fields := .arr (fields.map fun field => .str (codes field)) }

def riskRegisters : List Register :=
  [register "PRICE_TICKS" offsetPriceTicks 8 ["value"],
    register "QUANTITY" offsetQuantity 8 ["value"],
    register "MAX_QUANTITY" offsetMaxQuantity 8 ["value"],
    register "MAX_NOTIONAL_TICKS" offsetMaxNotionalTicks 8 ["value"],
    register "NET_POSITION" offsetNetPosition 8 ["value"],
    register "MAX_NET_POSITION" offsetMaxNetPosition 8 ["value"],
    register "CONTROL" offsetControl 1 ["trading_enabled", "halted", "side_buy"],
    register "HEALTH" offsetHealth 1 ["clock_healthy", "feed_healthy", "limits_valid"],
    register "LIMITS_VERSION" offsetLimitsVersion 8 ["version"]]

theorem item_describes (python : Python) (name : String) (offset width : Nat)
    (fields : List String) :
    Describes python (item name offset width fields) (register name offset width fields) := by
  refine ⟨_, rfl, rfl, rfl, ?_⟩
  exact congrArg₂ (fun name access => Register.mk name offset width access _)
    (python.str_text (codes name)).symm (python.str_text (codes "rw")).symm

theorem riskGate_accepted (python : Python) :
    validateRegisters python riskGate = .ok (64, riskRegisters) := by
  refine validateRegisters_eq_ok.mpr ⟨by decide, rfl, rfl, _, rfl, List.cons_ne_nil _ _, ?_, ?_, ?_⟩
  · simp only [riskRegisters, List.forall₂_cons]
    refine ⟨item_describes .., item_describes .., item_describes .., item_describes ..,
      item_describes .., item_describes .., item_describes .., item_describes ..,
      item_describes .., .nil⟩
  · intro register member
    simp only [riskRegisters, List.mem_cons, List.not_mem_nil, or_false] at member
    rcases member with rfl | rfl | rfl | rfl | rfl | rfl | rfl | rfl | rfl <;>
      exact ⟨by decide, by decide, by decide, by decide⟩
  · have apart : riskRegisters.Pairwise fun first second =>
        first.offset + first.bytes ≤ second.offset ∨
          second.offset + second.bytes ≤ first.offset := by decide
    exact apart

def valuesOf (frame : FpgaRiskFrame) : List (String × List UInt8) :=
  [("PRICE_TICKS", leBytes frame.priceTicks), ("QUANTITY", leBytes frame.quantity),
    ("MAX_QUANTITY", leBytes frame.maxQuantity),
    ("MAX_NOTIONAL_TICKS", leBytes frame.maxNotionalTicks),
    ("NET_POSITION", leBytes frame.netPosition.toUInt64),
    ("MAX_NET_POSITION", leBytes frame.maxNetPosition), ("CONTROL", [frame.control]),
    ("HEALTH", [frame.health]), ("LIMITS_VERSION", leBytes 1)]

def contentsOf (frame : FpgaRiskFrame) : List (Register × List UInt8) :=
  riskRegisters.zip ((valuesOf frame).map Prod.snd)

theorem encodeFrame_writes (frame : FpgaRiskFrame) :
    encodeFrame frame = writeAll (List.replicate 64 0) ((contentsOf frame).map fieldOf) := by
  simp only [contentsOf, valuesOf, riskRegisters, List.zip_cons_cons, List.map_cons, writeAll_cons]
  rfl

theorem contentsOf_filled (frame : FpgaRiskFrame) : Filled riskRegisters (contentsOf frame) where
  each := rfl
  width := by
    intro content member
    simp only [contentsOf, valuesOf, riskRegisters, List.map_cons, List.zip_cons_cons,
      List.zip_nil_left, List.mem_cons, List.not_mem_nil, or_false] at member
    rcases member with rfl | rfl | rfl | rfl | rfl | rfl | rfl | rfl | rfl <;> rfl

/-- The service takes its offsets from constants of its own. Whatever the frame, `risk_gate.json`
is accepted, its registers hold in the bytes of the service what their names say, at the offsets
and in the widths that the map gives, and the bytes of no register are zero. -/
theorem riskGate_frame (python : Python) (frame : FpgaRiskFrame) :
    ∃ registers bytes, validateRegisters python riskGate = .ok (64, registers) ∧
      encodeFrame frame = some bytes ∧ bytes.length = 64 ∧
      (∀ register ∈ registers, ∃ entry ∈ valuesOf frame, register.name = codes entry.1 ∧
        LittleEndian.field bytes register.offset.toNat register.bytes.toNat = entry.2) ∧
      ∀ position < bytes.length,
        (∀ register ∈ registers,
          ¬ (register.offset ≤ position ∧ position < register.offset + register.bytes)) →
        bytes[position]? = some 0 := by
  have filled := contentsOf_filled frame
  rcases registers_hold (riskGate_accepted python) filled with ⟨bytes, written, length, read, free⟩
  refine ⟨riskRegisters, bytes, riskGate_accepted python,
    (encodeFrame_writes frame).trans (written _ (List.Perm.refl _)), by omega, ?_, free⟩
  have named : (contentsOf frame).map (fun content => (content.1.name, content.2)) =
      (valuesOf frame).map fun entry => (codes entry.1, entry.2) := rfl
  intro register member
  rw [← filled.each] at member
  rcases List.mem_map.mp member with ⟨content, among, rfl⟩
  have entered := List.mem_map_of_mem (f := fun content => (content.1.name, content.2)) among
  rw [named] at entered
  rcases List.mem_map.mp entered with ⟨entry, held, same⟩
  have width := filled.width content among
  have value := read content among
  obtain ⟨name, bytesOf⟩ := Prod.mk.inj same
  refine ⟨entry, held, name.symm, ?_⟩
  rw [bytesOf, ← value]
  congr 1
  omega

/-- The conversions of Python, as far as they are of texts. -/
def plainPython : Python where
  intOfText := PythonText.intOfText
  str
    | .str text => text
    | _ => []
  str_text := fun _ => rfl

theorem riskGate_holds :
    let frame : FpgaRiskFrame := ⟨100, 10, 100, 10000, -3, 1000, 5, 7⟩
    ∃ bytes, writeAll (List.replicate 64 0) ((contentsOf frame).map fieldOf).reverse = some bytes ∧
      encodeFrame frame = some bytes ∧
      LittleEndian.field bytes 32 8 = leBytes (UInt64.ofNat (2 ^ 64 - 3)) := by
  intro frame
  rcases registers_hold (riskGate_accepted plainPython) (contentsOf_filled frame) with
    ⟨bytes, written, -, read, -⟩
  have position : (register "NET_POSITION" offsetNetPosition 8 ["value"],
      leBytes frame.netPosition.toUInt64) ∈ contentsOf frame := by
    simp [contentsOf, valuesOf, riskRegisters]
  exact ⟨bytes, written _ (List.reverse_perm _).symm,
    (encodeFrame_writes frame).trans (written _ (List.Perm.refl _)), read _ position⟩

end Ito.RegisterMap
