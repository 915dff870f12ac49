/-
The online round of the two-party OPRF: the garbler's payload, the evaluator's
choice corrections, the correction-aware masks, the evaluation and the check of
the output labels. The keyed block cipher and the engine are parameters.
-/

import ReclaimTee.Mpc.Circuit
import ReclaimTee.Mpc.Index

namespace ReclaimTee.Mpc

structure OTMask where
  m0 : Label
  m1 : Label
deriving DecidableEq, Repr

structure OnlinePayload where
  sessionID : BitVec 64
  key : List Byte
  tables : List Label
  garblerInputs : List Label
  outputTranslations : List Byte
  otStartIndex : Nat

structure GarblerSession where
  sessionID : BitVec 64
  evaluatorWires : List Wire
  otPads : List SenderOT
  outputWires : List Wire
  corrected : Bool
  verified : Bool

structure EvaluatorSession where
  sessionID : BitVec 64
  payload : Option OnlinePayload
  inputBits : List Bool
  ots : List ReceiverOT
  evaluated : Bool

structure OnlineResult where
  cmacOutput : List Byte
  outputLabels : List Label

/-- What the garbler builds from a garbled circuit and the random header, which holds
the session identifier and the hash key. -/
def newOnlinePayload (e : Engine) (header : List Byte) (g : Garbled)
    (garblerInput : Vector Byte 80) (otStartIndex : Nat) : OnlinePayload :=
  let bits := bytesToBits garblerInput.toList
  { sessionID := Label.bigEndianWord (header.take 8)
    key := header.drop 8
    tables := g.tables
    garblerInputs := (List.range inputBits).map fun i =>
      if bits.getD i false then (g.wires.getD i Wire.zero).l1
      else (g.wires.getD i Wire.zero).l0
    outputTranslations :=
      bitsToBytes ((g.wires.drop (e.numWires - outputBits)).map fun w =>
        w.l0.permutationBit) (outputBits / 8)
    otStartIndex := otStartIndex }

def newGarblerSession (e : Engine) (header : List Byte) (g : Garbled)
    (ots : List SenderOT) : GarblerSession :=
  { sessionID := Label.bigEndianWord (header.take 8)
    evaluatorWires := (g.wires.drop inputBits).take inputBits
    otPads := ots
    outputWires := g.wires.drop (e.numWires - outputBits)
    corrected := false
    verified := false }

def newOnlineResult (e : Engine) (outputTranslations : List Byte) (wires : List Label) :
    OnlineResult :=
  let outputLabels := wires.drop (e.numWires - outputBits)
  let bits := outputLabels.mapIdx fun i label =>
    label.permutationBit != packedBit outputTranslations i
  { cmacOutput := bitsToBytes bits (outputBits / 8), outputLabels := outputLabels }

section Online

variable (aes : List Byte → Label → Label) (defaultEngine : Except String Engine)

def garblerOnline (rng : RandomSource) (garblerInput : Vector Byte 80)
    (ots : List SenderOT) (otStartIndex : Nat) :
    Except String (OnlinePayload × GarblerSession) := do
  rejectIf (ots.length ≠ inputBits)
    s!"mpc: need {inputBits} sender OTs, got {ots.length}"
  validateSenderOTIndices ots otStartIndex
  let e ← defaultEngine
  let header ← (readFull rng 0 24).mapError ("mpc: read online randomness: " ++ ·)
  let g ← (e.garble (aes (header.drop 8)) rng 24).mapError ("mpc: garble circuit: " ++ ·)
  return (newOnlinePayload e header g garblerInput otStartIndex, newGarblerSession e header g ots)

def evaluatorPrepare (payload : OnlinePayload) (evaluatorInput : Vector Byte 80)
    (ots : List ReceiverOT) : Except String (EvaluatorSession × List Bool) := do
  rejectIf (ots.length ≠ inputBits)
    s!"mpc: need {inputBits} receiver OTs, got {ots.length}"
  rejectIf (payload.garblerInputs.length ≠ inputBits)
    s!"mpc: garbler input label count {payload.garblerInputs.length}"
  validateReceiverOTIndices ots payload.otStartIndex
  let bits := bytesToBits evaluatorInput.toList
  let corrections := (ots.zip bits).map fun (ot, bit) => ot.choice != bit
  return (
    { sessionID := payload.sessionID
      payload := some payload
      inputBits := bits
      ots := ots
      evaluated := false },
    corrections)

def correctedMask (pads : SenderOT) (w : Wire) (correction : Bool) : OTMask :=
  if correction then
    { m0 := w.l0.xor pads.r1, m1 := w.l1.xor pads.r0 }
  else
    { m0 := w.l0.xor pads.r0, m1 := w.l1.xor pads.r1 }

def applyCorrections (session : GarblerSession) (corrections : List Bool) :
    Except String (List OTMask × GarblerSession) := do
  rejectIf (corrections.length ≠ inputBits)
    s!"mpc: need {inputBits} corrections, got {corrections.length}"
  rejectIf (session.corrected = true)
    "mpc: corrections already applied"
  rejectIf (session.evaluatorWires.length ≠ inputBits ∨ session.otPads.length ≠ inputBits)
    "mpc: invalid garbler session state"
  let masks := (session.otPads.zip (session.evaluatorWires.zip corrections)).map
    fun (pads, w, correction) => correctedMask pads w correction
  return (masks,
    { session with corrected := true, evaluatorWires := [], otPads := [] })

/-- The evaluator's starting labels: the garbler's inputs, its own unmasked
inputs, and zero for every other wire. -/
def evaluatorWires (numWires : Nat) (garblerInputs : List Label) (ots : List ReceiverOT)
    (bits : List Bool) (masks : List OTMask) : List Label :=
  let own := (ots.zip (bits.zip masks)).map fun (ot, bit, mask) =>
    ot.r.xor (if bit then mask.m1 else mask.m0)
  (List.range numWires).map fun wire => (garblerInputs ++ own).getD wire Label.zero

/-- Once the session is marked evaluated it stays so on every later error. -/
def evaluatorOnline (session : EvaluatorSession) (masks : List OTMask) :
    Except String OnlineResult × EvaluatorSession :=
  if masks.length ≠ inputBits then
    (.error s!"mpc: need {inputBits} OT masks, got {masks.length}", session)
  else if session.evaluated then
    (.error "mpc: evaluator session already used", session)
  else
    let used :=
      { session with payload := none, inputBits := [], ots := [], evaluated := true }
    let result : Except String OnlineResult :=
      match session.payload with
      | none => .error "mpc: invalid evaluator session state"
      | some p => do
          rejectIf (session.ots.length ≠ inputBits)
            "mpc: invalid evaluator session state"
          let e ← defaultEngine
          let wires :=
            evaluatorWires e.numWires p.garblerInputs session.ots session.inputBits masks
          let evaluated ← (e.evaluate (aes p.key) wires p.tables).mapError
            ("mpc: evaluate circuit: " ++ ·)
          return newOnlineResult e p.outputTranslations evaluated
    (result, used)

/-- The bit of each output label, or the position of the first foreign label. -/
def decodeLabels : List Label → List Wire → Nat → Except String (List Bool)
  | label :: labels, w :: wires, position =>
    if label = w.l0 then do
      let bits ← decodeLabels labels wires (position + 1)
      return false :: bits
    else if label = w.l1 then do
      let bits ← decodeLabels labels wires (position + 1)
      return true :: bits
    else
      .error s!"mpc: output label {position} is invalid"
  | _, _, _ => .ok []

def verifyOutput (session : GarblerSession) (labels : List Label) :
    Except String (List Byte) × GarblerSession :=
  if session.corrected = false then
    (.error "mpc: corrections not applied", session)
  else if session.verified then
    (.error "mpc: output already verified", session)
  else
    let used :=
      { session with verified := true, outputWires := [] }
    let result := do
      rejectIf (labels.length ≠ outputBits ∨ session.outputWires.length ≠ outputBits)
        s!"mpc: need {outputBits} output labels, got {labels.length}"
      let bits ← decodeLabels labels session.outputWires 0
      return bitsToBytes bits (outputBits / 8)
    (result, used)

/-- The five calls of one honest online round, in order. -/
def onlineRound (rng : RandomSource) (garblerInput evaluatorInput : Vector Byte 80)
    (sent : List SenderOT) (received : List ReceiverOT) (otStartIndex : Nat) :
    Except String (List Byte × OnlineResult) := do
  let (payload, garbler) ← garblerOnline aes defaultEngine rng garblerInput sent otStartIndex
  let (evaluator, corrections) ← evaluatorPrepare payload evaluatorInput received
  let (masks, garbler) ← applyCorrections garbler corrections
  let result ← (evaluatorOnline aes defaultEngine evaluator masks).1
  let verified ← (verifyOutput garbler result.outputLabels).1
  return (verified, result)

end Online

end ReclaimTee.Mpc
