/-
# Executing an instruction

`Machine.effect` is what an instruction does to everything but the program counter, together
with where the program counter is to go; `Machine.execute` does both.  A fault comes with the
machine as it was left; since whatever can fail is checked before anything is changed, that is
the machine the instruction started from.
-/
import ChipVm.Machine.Basic

namespace ChipVm.Machine

/-- Where the program counter goes once an instruction has run. -/
inductive Flow where
  /-- On to the following instruction. -/
  | next
  /-- Past the following instruction. -/
  | skip
  /-- Somewhere else. -/
  | goto (address : UInt16)
  /-- Nowhere: the instruction is not done until a key is pressed. -/
  | stay
deriving DecidableEq, Repr

/-- Moves the program counter. -/
def follow (m : Machine) : Flow → Machine
  | .next => { m with registers := m.registers.advance }
  | .skip => { m with registers := m.registers.skip }
  | .goto address => { m with registers := m.registers.goto address }
  | .stay => m

/-- Whether a skip under this condition passes over the next instruction. -/
def meets (m : Machine) : Condition → Bool
  | .holds x kk => m.registers.get x == kk
  | .lacks x kk => m.registers.get x != kk
  | .same x y => m.registers.get x == m.registers.get y
  | .differ x y => m.registers.get x != m.registers.get y
  | .pressed x => m.keypad.isPressed (m.registers.get x)
  | .released x => !m.keypad.isPressed (m.registers.get x)

/-- The result of combining two bytes, and the flag that goes with it if there is one.
`a` and `b` are the bytes in the first and the second register. -/
def combine (dialect : Dialect) (op : AluOp) (a b : UInt8) : UInt8 × Option Bool :=
  let cleared := if dialect.logicResetsFlag then some false else none
  let shifted := if dialect.shiftUsesVy then b else a
  match op with
  | .copy => (b, none)
  | .or => (a ||| b, cleared)
  | .and => (a &&& b, cleared)
  | .xor => (a ^^^ b, cleared)
  | .add => (a + b, some (decide (256 ≤ a.toNat + b.toNat)))
  | .sub => (a - b, some (decide (b.toNat ≤ a.toNat)))
  | .subFrom => (b - a, some (decide (a.toNat ≤ b.toNat)))
  | .shiftRight => (shifted >>> 1, some (shifted.toNat.testBit 0))
  | .shiftLeft => (shifted <<< 1, some (shifted.toNat.testBit 7))

/-- Stores a result in register `x`, and then the flag, which wins where both go to VF. -/
def storeResult (file : RegisterFile) (x : Register) : UInt8 × Option Bool → RegisterFile
  | (value, none) => file.set x value
  | (value, some flag) => (file.set x value).setFlag flag

/-- Where the sprite of the digit in the low nibble of a byte stands. -/
def glyphAddress (digit : UInt8) : UInt16 :=
  UInt16.ofNat (glyphStart + digit.toNat % 16 * glyphHeight)

/-- The hundreds, tens and units of a byte. -/
def decimalDigits (value : UInt8) : List UInt8 :=
  [value / 100 % 10, value / 10 % 10, value % 10]

/-- Stores bytes from where the index register points, all of them or none: the whole window is
looked at before the first byte is written. -/
def storeAtIndex (m : Machine) (bytes : List UInt8) : Outcome Machine Unit :=
  let start := m.registers.i.toNat
  match m.memory.slice start bytes.length with
  | .error fault => .error fault m
  | .ok _ =>
    match m.memory.write start bytes with
    | .error fault memory => .error fault { m with memory }
    | .ok _ memory => .ok () { m with memory }

/-- Moves the index register past V0..Vx after a block transfer, in dialects that do so. -/
def moveIndex (m : Machine) (x : Register) : Machine :=
  if m.dialect.transferMovesIndex then
    { m with
      registers := m.registers.setIndex (m.registers.i + UInt16.ofNat (x.index.val + 1)) }
  else
    m

/-- What an instruction does to everything but the program counter, and where that goes. -/
def effect (m : Machine) : Instruction → Outcome Machine Flow
  | .sys _ => .ok .next m
  | .clear => .ok .next { m with screen := m.screen.clear }
  | .ret =>
    match m.stack.pop m.registers.pc with
    | .error fault stack => .error fault { m with stack }
    | .ok address stack => .ok (.goto address) { m with stack }
  | .jump address => .ok (.goto address) m
  | .call address =>
    match m.stack.push (m.registers.pc + 2) m.registers.pc with
    | .error fault stack => .error fault { m with stack }
    | .ok _ stack => .ok (.goto address) { m with stack }
  | .skip condition => .ok (if m.meets condition then .skip else .next) m
  | .loadByte x kk => .ok .next { m with registers := m.registers.set x kk }
  | .addByte x kk =>
    .ok .next { m with registers := m.registers.set x (m.registers.get x + kk) }
  | .alu op x y =>
    let result := combine m.dialect op (m.registers.get x) (m.registers.get y)
    .ok .next { m with registers := storeResult m.registers x result }
  | .loadIndex address => .ok .next { m with registers := m.registers.setIndex address }
  | .jumpOffset address =>
    .ok (.goto (address + (m.registers.get Register.v0).toUInt16)) m
  | .random x kk =>
    let (byte, generator) := m.generator.next
    .ok .next { m with generator, registers := m.registers.set x (byte &&& kk) }
  | .draw x y height =>
    match m.memory.slice m.registers.i.toNat height.toNat with
    | .error fault => .error fault m
    | .ok rows =>
      let (screen, collided) := m.screen.draw (m.registers.get x) (m.registers.get y) rows
      .ok .next { m with screen, registers := m.registers.setFlag collided }
  | .loadDelay x => .ok .next { m with registers := m.registers.set x m.timers.delay }
  | .awaitKey x => .ok .stay { m with keypad := m.keypad.awaitKey x }
  | .setDelay x =>
    .ok .next { m with timers := { m.timers with delay := m.registers.get x } }
  | .setSound x =>
    .ok .next { m with timers := { m.timers with sound := m.registers.get x } }
  | .addIndex x =>
    .ok .next { m with
      registers := m.registers.setIndex (m.registers.i + (m.registers.get x).toUInt16) }
  | .loadGlyph x =>
    .ok .next { m with
      registers := m.registers.setIndex (glyphAddress (m.registers.get x)) }
  | .storeDecimal x =>
    match m.storeAtIndex (decimalDigits (m.registers.get x)) with
    | .error fault m => .error fault m
    | .ok _ m => .ok .next m
  | .storeThrough x =>
    match m.storeAtIndex (m.registers.valuesThrough x) with
    | .error fault m => .error fault m
    | .ok _ m => .ok .next (m.moveIndex x)
  | .loadThrough x =>
    match m.memory.slice m.registers.i.toNat (x.index.val + 1) with
    | .error fault => .error fault m
    | .ok bytes =>
      .ok .next (({ m with registers := m.registers.setThrough x bytes } : Machine).moveIndex x)

/-- Executes one instruction.  The program counter moves only when nothing went wrong. -/
def execute (m : Machine) (instruction : Instruction) : Outcome Machine Unit :=
  match m.effect instruction with
  | .error fault after => .error fault after
  | .ok flow after => .ok () (after.follow flow)

end ChipVm.Machine
