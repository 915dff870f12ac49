/-
The garbling engine. A compiled circuit becomes an execution plan, which is
garbled with half gates, free exclusive or and a row-reduced inverter, and
evaluated on one label per input wire. A read past the end of a slice, which
panics in the source, yields zero.
-/

import ReclaimTee.Mpc.Label
import ReclaimTee.Mpc.Random

namespace ReclaimTee.Mpc

def inputBits : Nat := 640

def outputBits : Nat := 128

/-- The operations of the circuit compiler; the engine supports all but `or`. -/
inductive CompiledOp
  | xor
  | xnor
  | and
  | or
  | inv
deriving DecidableEq, Repr

def CompiledOp.name : CompiledOp → String
  | .xor => "XOR"
  | .xnor => "XNOR"
  | .and => "AND"
  | .or => "OR"
  | .inv => "INV"

/-- Wire identifiers of the compiler are 32-bit. -/
structure CompiledGate where
  input0 : BitVec 32
  input1 : BitVec 32
  output : BitVec 32
  op : CompiledOp
deriving Repr

structure CompiledCircuit where
  numParties : Nat
  inputsSize : Nat
  outputsSize : Nat
  numWires : Nat
  gates : List CompiledGate

inductive Operation
  | xor
  | xnor
  | and
  | inv
deriving DecidableEq, Repr

structure Gate where
  in0 : BitVec 32
  in1 : BitVec 32
  out : BitVec 32
  table : BitVec 32
  op : Operation
deriving Repr

structure Engine where
  gates : List Gate
  numWires : Nat
  tableCount : Nat

def CompiledOp.operation : CompiledOp → Option Operation
  | .xor => some .xor
  | .xnor => some .xnor
  | .and => some .and
  | .or => none
  | .inv => some .inv

def Operation.tableRows : Operation → Nat
  | .xor => 0
  | .xnor => 0
  | .and => 2
  | .inv => 1

/-- The table position is converted to 32 bits; gates without rows keep zero. -/
def planGate (src : CompiledGate) (op : Operation) (tableCount : Nat) : Gate :=
  { in0 := src.input0
    in1 := src.input1
    out := src.output
    table := if op.tableRows = 0 then 0 else BitVec.ofNat 32 tableCount
    op := op }

def planGates : List CompiledGate → Nat → Nat → Except String (List Gate × Nat)
  | [], _, tableCount => .ok ([], tableCount)
  | src :: rest, position, tableCount =>
    match src.op.operation with
    | none => .error s!"unsupported circuit operation {src.op.name} at gate {position}"
    | some op => do
        let (gates, total) ← planGates rest (position + 1) (tableCount + op.tableRows)
        return (planGate src op tableCount :: gates, total)

def newEngine (compiled : Option CompiledCircuit) : Except String Engine :=
  match compiled with
  | none => .error "nil compiled circuit"
  | some compiled => do
      rejectIf (compiled.numParties ≠ 2 ∨ compiled.inputsSize ≠ 2 * inputBits ∨
          compiled.outputsSize ≠ outputBits)
        s!"unexpected circuit shape: parties={compiled.numParties} inputs={compiled.inputsSize} outputs={compiled.outputsSize}"
      let (gates, tableCount) ← planGates compiled.gates 0 0
      return { gates := gates, numWires := compiled.numWires, tableCount := tableCount }

@[ext] structure Wire where
  l0 : Label
  l1 : Label
deriving DecidableEq, Repr

def Wire.zero : Wire :=
  { l0 := Label.zero, l1 := Label.zero }

def halfHashInput (x : Label) (tweak : BitVec 32) : Label :=
  let carry := x.d0 >>> 63
  { d0 := (x.d0 <<< 1) ||| (x.d1 >>> 63)
    d1 := (x.d1 <<< 1) ^^^ (0x87#64 &&& (0#64 - carry)) ^^^ tweak.setWidth 64 }

section Hashing

variable (encrypt : Label → Label)

/-- Every hash of the engine encrypts the doubled and tweaked label and adds it. -/
def labelHash (x : Label) (tweak : BitVec 32) : Label :=
  let k := halfHashInput x tweak
  (encrypt k).xor k

def halfHash4 (x0 x1 x2 x3 : Label) (tweak01 tweak23 : BitVec 32) :
    Label × Label × Label × Label :=
  (labelHash encrypt x0 tweak01, labelHash encrypt x1 tweak01,
    labelHash encrypt x2 tweak23, labelHash encrypt x3 tweak23)

def halfHash2 (x0 x1 : Label) (tweak0 tweak1 : BitVec 32) : Label × Label :=
  (labelHash encrypt x0 tweak0, labelHash encrypt x1 tweak1)

def unaryHash (a : Label) (tweak : BitVec 32) : Label :=
  labelHash encrypt a tweak

end Hashing

structure GarbleState where
  wires : List Wire
  tables : List Label
  tweak : BitVec 32

def garbleGate (encrypt : Label → Label) (r : Label) (state : GarbleState) (g : Gate) :
    GarbleState :=
  let a := state.wires.getD g.in0.toNat Wire.zero
  match g.op with
  | .xor | .xnor =>
    let b := state.wires.getD g.in1.toNat Wire.zero
    let l0 := a.l0.xor b.l0
    let l1 := l0.xor r
    let driven : Wire := if g.op = .xnor then ⟨l1, l0⟩ else ⟨l0, l1⟩
    { state with wires := state.wires.set g.out.toNat driven }
  | .and =>
    let b := state.wires.getD g.in1.toNat Wire.zero
    let pa := a.l0.permutationBit
    let pb := b.l0.permutationBit
    let (ha0, ha1, hb0, hb1) :=
      halfHash4 encrypt a.l0 a.l1 b.l0 b.l1 state.tweak (state.tweak + 1)
    let tg := if pb then (ha0.xor ha1).xor r else ha0.xor ha1
    let wg0 := if pa then ha0.xor tg else ha0
    let te := (hb0.xor hb1).xor a.l0
    let we0 := if pb then (hb0.xor te).xor a.l0 else hb0
    let l0 := wg0.xor we0
    { wires := state.wires.set g.out.toNat ⟨l0, l0.xor r⟩
      tables := (state.tables.set g.table.toNat tg).set (g.table + 1).toNat te
      tweak := state.tweak + 2 }
  | .inv =>
    let p0 := a.l0.permutationBit
    let h0 := unaryHash encrypt a.l0 state.tweak
    let h1 := unaryHash encrypt a.l1 state.tweak
    let table0 := if p0 then h1 else h0
    let table1 := if p0 then h0 else h1
    let l0 := if p0 then table0 else table0.xor r
    let l1 := if p0 then table0.xor r else table0
    let row := if p0 then table1.xor l1 else table1.xor l0
    { wires := state.wires.set g.out.toNat ⟨l0, l1⟩
      tables := state.tables.set g.table.toNat row
      tweak := state.tweak + 1 }

structure Garbled where
  wires : List Wire
  tables : List Label

def garbleRandomSize : Nat := 16 + (2 * inputBits) * 16

def inputWire (random : List Byte) (r : Label) (input : Nat) : Wire :=
  let l0 := Label.fromBytes ((random.drop (16 + 16 * input)).take 16)
  ⟨l0, l0.xor r⟩

def garblingOffset (random : List Byte) : Label :=
  (Label.fromBytes (random.take 16)).withPermutationBit true

/-- The state before the first gate: labelled inputs, every other wire zero. -/
def garbleStart (engine : Engine) (random : List Byte) : GarbleState :=
  { wires := (List.range engine.numWires).map fun wire =>
      if wire < 2 * inputBits then inputWire random (garblingOffset random) wire
      else Wire.zero
    tables := List.replicate engine.tableCount Label.zero
    tweak := 0 }

def Engine.garbleWith (engine : Engine) (encrypt : Label → Label) (random : List Byte) :
    Garbled :=
  let final := engine.gates.foldl (garbleGate encrypt (garblingOffset random))
    (garbleStart engine random)
  { wires := final.wires, tables := final.tables }

def Engine.garble (engine : Engine) (encrypt : Label → Label) (rng : RandomSource)
    (position : Nat) : Except String Garbled :=
  match readFull rng position garbleRandomSize with
  | .error message => .error ("read garbling randomness: " ++ message)
  | .ok random => .ok (engine.garbleWith encrypt random)

structure EvaluateState where
  wires : List Label
  tweak : BitVec 32

def evaluateGate (encrypt : Label → Label) (tables : List Label) (state : EvaluateState)
    (g : Gate) : EvaluateState :=
  let a := state.wires.getD g.in0.toNat Label.zero
  match g.op with
  | .xor | .xnor =>
    let b := state.wires.getD g.in1.toNat Label.zero
    { state with wires := state.wires.set g.out.toNat (a.xor b) }
  | .and =>
    let b := state.wires.getD g.in1.toNat Label.zero
    let (ha, hb) := halfHash2 encrypt a b state.tweak (state.tweak + 1)
    let wg := if a.permutationBit then
      ha.xor (tables.getD g.table.toNat Label.zero) else ha
    let we := if b.permutationBit then
      (hb.xor (tables.getD (g.table + 1).toNat Label.zero)).xor a else hb
    { wires := state.wires.set g.out.toNat (wg.xor we), tweak := state.tweak + 2 }
  | .inv =>
    let row := if a.permutationBit then tables.getD g.table.toNat Label.zero
      else Label.zero
    { wires := state.wires.set g.out.toNat ((unaryHash encrypt a state.tweak).xor row)
      tweak := state.tweak + 1 }

def Engine.evaluate (engine : Engine) (encrypt : Label → Label) (wires tables : List Label) :
    Except String (List Label) := do
  rejectIf (wires.length ≠ engine.numWires)
    s!"wire count mismatch: got {wires.length} want {engine.numWires}"
  rejectIf (tables.length ≠ engine.tableCount)
    s!"garbled table count mismatch: got {tables.length} want {engine.tableCount}"
  return (engine.gates.foldl (evaluateGate encrypt tables) ⟨wires, 0⟩).wires

/-! ### Plain evaluation -/

def CompiledOp.apply : CompiledOp → Bool → Bool → Bool
  | .xor, a, b => a ^^ b
  | .xnor, a, b => !(a ^^ b)
  | .and, a, b => a && b
  | .or, a, b => a || b
  | .inv, a, _ => !a

def plainGate (values : List Bool) (g : CompiledGate) : List Bool :=
  values.set g.output.toNat
    (g.op.apply (values.getD g.input0.toNat false) (values.getD g.input1.toNat false))

def CompiledCircuit.plainWires (circuit : CompiledCircuit) (inputs : List Bool) : List Bool :=
  circuit.gates.foldl plainGate
    ((List.range circuit.numWires).map fun wire => inputs.getD wire false)

/-- The outputs are the last wires of the circuit. -/
def CompiledCircuit.plainEvaluate (circuit : CompiledCircuit) (inputs : List Bool) :
    List Bool :=
  (circuit.plainWires inputs).drop (circuit.numWires - outputBits)

end ReclaimTee.Mpc
