/-
Correctness of the honest online round. Corrections turn the random OTs into
the evaluator's chosen labels, so the evaluator starts from one label per
input wire, and the garbled evaluation then follows the plain circuit.
-/

import Mathlib.Data.List.GetD
import ReclaimTee.Mpc.CircuitCorrect
import ReclaimTee.Mpc.Oprf

namespace ReclaimTee.Mpc

open Garbling (encode)
open List hiding Vector

def CompiledGate.tableRows (src : CompiledGate) : Nat :=
  (src.op.operation.map Operation.tableRows).getD 0

def tableRowsOf (sources : List CompiledGate) : Nat :=
  (sources.map CompiledGate.tableRows).sum

def CompiledCircuit.tableRows (circuit : CompiledCircuit) : Nat :=
  tableRowsOf circuit.gates

/-- A two-party circuit of supported gates in topological order. -/
structure CompiledCircuit.WellFormed (circuit : CompiledCircuit) : Prop where
  parties : circuit.numParties = 2
  inputs : circuit.inputsSize = 2 * inputBits
  outputs : circuit.outputsSize = outputBits
  inputsInRange : 2 * inputBits ≤ circuit.numWires
  supported : ∀ src ∈ circuit.gates, src.op ≠ .or
  topological : Topological circuit.numWires circuit.gates fun wire => wire < 2 * inputBits

/-- Correlated sender and receiver entries at consecutive indices. -/
structure OTsAgree (start : Nat) (sent : List SenderOT) (received : List ReceiverOT) :
    Prop where
  consecutive : sent.map SenderOT.index = List.range' start inputBits
  paired : List.Forall₂ Correlated sent received

variable {sent : List SenderOT} {received : List ReceiverOT}

theorem OTsAgree.sent_length {start : Nat} (agree : OTsAgree start sent received) :
    sent.length = inputBits := by
  have lengths := congrArg List.length agree.consecutive
  rwa [length_map, length_range'] at lengths

theorem OTsAgree.received_length {start : Nat} (agree : OTsAgree start sent received) :
    received.length = inputBits := by
  rw [← agree.paired.length_eq]
  exact agree.sent_length

theorem correlated_indices (paired : List.Forall₂ Correlated sent received) :
    received.map ReceiverOT.index = sent.map SenderOT.index := by
  induction paired with
  | nil => rfl
  | cons first _rest ih => rw [map_cons, map_cons, ih, first.sameIndex]

def onlineRandomSize : Nat := 24 + garbleRandomSize

/-! ### Set-up -/

theorem CompiledOp.operation_of_ne_or {op : CompiledOp} (supported : op ≠ .or) :
    ∃ planned, op.operation = some planned := by
  cases op with
  | or => exact absurd rfl supported
  | xor | xnor | and | inv => exact ⟨_, rfl⟩

theorem planGates_supported (sources : List CompiledGate) (position tableCount : Nat)
    (supported : ∀ src ∈ sources, src.op ≠ .or) :
    ∃ gates, planGates sources position tableCount =
      .ok (gates, tableCount + tableRowsOf sources) := by
  induction sources generalizing position tableCount with
  | nil => exact ⟨[], rfl⟩
  | cons src rest ih =>
    rw [forall_mem_cons] at supported
    obtain ⟨op, operation⟩ := CompiledOp.operation_of_ne_or supported.1
    obtain ⟨later, planned⟩ := ih (position + 1) (tableCount + op.tableRows) supported.2
    have total : tableCount + tableRowsOf (src :: rest) =
        tableCount + op.tableRows + tableRowsOf rest := by
      simp [tableRowsOf, CompiledGate.tableRows, operation, Nat.add_assoc]
    refine ⟨planGate src op tableCount :: later, ?_⟩
    rw [planGates, operation, total]
    simp only [planned]
    rfl

theorem newEngine_eq_ok {circuit : CompiledCircuit} (wellFormed : circuit.WellFormed) :
    ∃ gates, planGates circuit.gates 0 0 = .ok (gates, circuit.tableRows) ∧
      newEngine (some circuit) =
        .ok { gates := gates
              numWires := circuit.numWires
              tableCount := circuit.tableRows } := by
  obtain ⟨gates, planned⟩ := planGates_supported circuit.gates 0 0 wellFormed.supported
  rw [Nat.zero_add] at planned
  refine ⟨gates, planned, ?_⟩
  have shape : ¬ (circuit.numParties ≠ 2 ∨ circuit.inputsSize ≠ 2 * inputBits ∨
      circuit.outputsSize ≠ outputBits) := by
    simp [wellFormed.parties, wellFormed.inputs, wellFormed.outputs]
  unfold newEngine
  simp only [rejectIf_of_not shape, planned]
  rfl

theorem Topological.output_not_input {wireCount : Nat} {sources : List CompiledGate}
    {driven : Nat → Prop} (topological : Topological wireCount sources driven) :
    ∀ src ∈ sources, 2 * inputBits ≤ src.output.toNat := by
  induction sources generalizing driven with
  | nil => exact forall_mem_nil _
  | cons src rest ih =>
    obtain ⟨_, _, notInput, _, later⟩ := topological
    exact forall_mem_cons.mpr ⟨notInput, ih later⟩

/-! ### Choice corrections -/

def Wire.label (w : Wire) (bit : Bool) : Label :=
  if bit then w.l1 else w.l0

private theorem corrected_label (sent : SenderOT) (received : ReceiverOT) (w : Wire) (bit : Bool)
    (correlated : Correlated sent received) :
    received.r.xor
        (if bit then (correctedMask sent w (received.choice != bit)).m1
          else (correctedMask sent w (received.choice != bit)).m0) =
      w.label bit := by
  rw [correlated.chosen, Wire.label]
  cases received.choice <;> cases bit <;>
    simp [correctedMask, Label.xor_eq_add, add_left_comm _ (Wire.l0 w),
      add_left_comm _ (Wire.l1 w), Label.add_self]

def corrections (received : List ReceiverOT) (bits : List Bool) : List Bool :=
  (received.zip bits).map fun (ot, bit) => ot.choice != bit

def correctedMasks (sent : List SenderOT) (wires : List Wire) (corrections : List Bool) :
    List OTMask :=
  (sent.zip (wires.zip corrections)).map fun (pads, w, correction) =>
    correctedMask pads w correction

/-- Whatever the random choices, the corrections leave the evaluator with the
label of its own bit on every input wire. -/
theorem corrected_labels
    (paired : List.Forall₂ Correlated sent received) (wires : List Wire) (bits : List Bool)
    (wiresLength : wires.length = sent.length) (bitsLength : bits.length = sent.length) :
    (received.zip (bits.zip (correctedMasks sent wires (corrections received bits)))).map
        (fun (ot, bit, mask) => ot.r.xor (if bit then mask.m1 else mask.m0)) =
      List.zipWith Wire.label wires bits := by
  induction paired generalizing wires bits with
  | nil => rw [eq_nil_of_length_eq_zero wiresLength, zipWith_nil_left, zip_nil_left, map_nil]
  | cons first rest ih =>
    cases wires with
    | nil => cases wiresLength
    | cons w wires =>
      cases bits with
      | nil => cases bitsLength
      | cons bit bits =>
        have tail := ih wires bits (Nat.succ.inj wiresLength) (Nat.succ.inj bitsLength)
        have head := corrected_label _ _ w bit first
        rw [zipWith_cons_cons, ← head, ← tail]
        rfl

/-! ### Output labels -/

/-- A wire and a label agree on a bit, by their labels and by their permutation bits. -/
structure Reads (w : Wire) (label : Label) (value : Bool) : Prop where
  selected : label = if value then w.l1 else w.l0
  distinct : value = true → label ≠ w.l0
  permutation : label.permutationBit = (w.l0.permutationBit ^^ value)

theorem Tracks.reads {r : Label} (offsetBit : r.permutationBit = true) {wireCount : Nat}
    {driven : Nat → Prop} {garbling : GarbleState} {evaluation : EvaluateState}
    {values : List Bool} (tracks : Tracks r wireCount driven garbling evaluation values)
    (wire : Nat) :
    Reads (garbling.wires.getD wire Wire.zero) (evaluation.wires.getD wire Label.zero)
      (values.getD wire false) := by
  by_cases isDriven : driven wire
  · obtain ⟨paired, labelled⟩ := tracks.carries wire isDriven
    have permutation := Garbling.select_encode Label.permutationBit_add offsetBit
      (garbling.wires.getD wire Wire.zero).l0 (values.getD wire false)
    rw [← labelled] at permutation
    refine ⟨?_, ?_, permutation⟩
    · rw [labelled, paired]
      rfl
    · intro isTrue same
      rw [isTrue, same] at permutation
      simp at permutation
  · obtain ⟨wireZero, labelZero, valueFalse⟩ := tracks.idle wire isDriven
    rw [wireZero, labelZero, valueFalse]
    exact ⟨rfl, fun impossible => absurd impossible (by decide), by decide⟩

structure ReadsAll (wires : List Wire) (labels : List Label) (values : List Bool) : Prop where
  labelsLength : labels.length = wires.length
  valuesLength : values.length = wires.length
  reads : ∀ i, Reads (wires.getD i Wire.zero) (labels.getD i Label.zero) (values.getD i false)

namespace ReadsAll

variable {wires : List Wire} {labels : List Label} {values : List Bool}
  (all : ReadsAll wires labels values)
include all

theorem drop (count : Nat) :
    ReadsAll (wires.drop count) (labels.drop count) (values.drop count) where
  labelsLength := by rw [length_drop, length_drop, all.labelsLength]
  valuesLength := by rw [length_drop, length_drop, all.valuesLength]
  reads i := by
    rw [getD_drop, getD_drop, getD_drop]
    exact all.reads _

theorem decodeLabels_eq_ok (position : Nat) : decodeLabels labels wires position = .ok values := by
  induction wires generalizing labels values position with
  | nil =>
    rw [eq_nil_of_length_eq_zero all.labelsLength, eq_nil_of_length_eq_zero all.valuesLength]
    rfl
  | cons w wires ih =>
    obtain ⟨labelsLength, valuesLength, reads⟩ := all
    cases labels with
    | nil => cases labelsLength
    | cons label labels =>
      cases values with
      | nil => cases valuesLength
      | cons value values =>
        have first : Reads w label value := reads 0
        have later := ih ⟨Nat.succ.inj labelsLength, Nat.succ.inj valuesLength,
          fun i => reads (i + 1)⟩ (position + 1)
        cases value with
        | false =>
          have same : label = w.l0 := first.selected
          rw [decodeLabels, if_pos same, later]
          rfl
        | true =>
          have same : label = w.l1 := first.selected
          rw [decodeLabels, if_neg (first.distinct rfl), if_pos same, later]
          rfl

theorem translated_bits {size : Nat} (wiresLength : wires.length = 8 * size) :
    (labels.mapIdx fun i label => label.permutationBit !=
        packedBit (bitsToBytes (wires.map fun w => w.l0.permutationBit) size) i) =
      values := by
  obtain ⟨labelsLength, valuesLength, reads⟩ := all
  apply ext_getElem?
  intro i
  rw [getElem?_mapIdx]
  by_cases inside : i < wires.length
  · have translation : (wires.map fun w => w.l0.permutationBit).getD i false =
        (wires.getD i Wire.zero).l0.permutationBit := by
      rw [getD_eq_getElem?_getD, getElem?_map, getElem?_eq_some_getD wires i Wire.zero inside]
      rfl
    rw [getElem?_eq_some_getD labels i Label.zero (by omega),
      getElem?_eq_some_getD values i false (by omega), Option.map_some,
      packedBit_bitsToBytes _ _ _ (by omega), translation, (reads i).permutation]
    cases (wires.getD i Wire.zero).l0.permutationBit <;> cases values.getD i false <;> rfl
  · rw [getElem?_eq_none (by omega), getElem?_eq_none (by omega)]
    rfl

end ReadsAll

/-! ### The honest round -/

/-- The labels the evaluator starts from once its corrections are applied. -/
def startLabels (g : Garbled) (garblerInput evaluatorInput : Vector Byte 80) :
    List Label :=
  let garblerBits := bytesToBits garblerInput.toList
  ((List.range inputBits).map fun i =>
      if garblerBits.getD i false then (g.wires.getD i Wire.zero).l1
      else (g.wires.getD i Wire.zero).l0) ++
    List.zipWith Wire.label ((g.wires.drop inputBits).take inputBits)
      (bytesToBits evaluatorInput.toList)

def finalLabels (engine : Engine) (encrypt : Label → Label) (g : Garbled)
    (garblerInput evaluatorInput : Vector Byte 80) : List Label :=
  (engine.gates.foldl (evaluateGate encrypt g.tables)
    { wires := (List.range engine.numWires).map fun wire =>
        (startLabels g garblerInput evaluatorInput).getD wire Label.zero
      tweak := 0 }).wires

/-- The inputs of the plain circuit, the garbler's first. -/
def roundInput (garblerInput evaluatorInput : Vector Byte 80) : List Bool :=
  bytesToBits garblerInput.toList ++ bytesToBits evaluatorInput.toList

theorem inputBits_of_vector (input : Vector Byte 80) :
    (bytesToBits input.toList).length = inputBits := by
  rw [bytesToBits_length, Vector.length_toList]
  rfl

section Inputs

variable (engine : Engine) (encrypt : Label → Label) (random : List Byte)
  (garblerInput evaluatorInput : Vector Byte 80)

theorem garbleWith_wires_length :
    (engine.garbleWith encrypt random).wires.length = engine.numWires := by
  refine (foldl_writes_length garbleGate_writes _ _).trans ?_
  simp [garbleStart]

theorem garbleWith_tables_length :
    (engine.garbleWith encrypt random).tables.length = engine.tableCount := by
  rw [Engine.garbleWith, garble_tables_length]
  simp [garbleStart]

theorem finalLabels_length (g : Garbled) :
    (finalLabels engine encrypt g garblerInput evaluatorInput).length = engine.numWires := by
  refine (foldl_writes_length evaluateGate_writes _ _).trans ?_
  simp

variable {engine} (enough : 2 * inputBits ≤ engine.numWires)
  (apart : ∀ g ∈ engine.gates, 2 * inputBits ≤ g.out.toNat) {wire : Nat}
  (isInput : wire < 2 * inputBits)
include enough

include isInput in
theorem garbleStart_input : (garbleStart engine random).wires.getD wire Wire.zero =
    inputWire random (garblingOffset random) wire := by
  rw [garbleStart, getD_range_map, if_pos (by omega), if_pos isInput]

include apart

include isInput in
theorem garbleWith_input : (engine.garbleWith encrypt random).wires.getD wire Wire.zero =
    inputWire random (garblingOffset random) wire := by
  rw [← garbleStart_input random enough isInput]
  exact foldl_writes_other garbleGate_writes fun g member => by
    have further := apart g member
    omega

include isInput in
theorem startLabels_input :
    (startLabels (engine.garbleWith encrypt random) garblerInput evaluatorInput).getD wire
        Label.zero =
      (inputWire random (garblingOffset random) wire).label
        ((roundInput garblerInput evaluatorInput).getD wire false) := by
  have garblerLength := inputBits_of_vector garblerInput
  have evaluatorLength := inputBits_of_vector evaluatorInput
  have wiresLength := garbleWith_wires_length engine encrypt random
  rw [← garbleWith_input encrypt random enough apart isInput, startLabels, roundInput]
  by_cases first : wire < inputBits
  · rw [getD_append _ _ _ _ (by rw [length_map, length_range]; exact first),
      getD_append _ _ _ _ (by omega), getD_range_map, if_pos first]
    rfl
  · rw [getD_append_right _ _ _ _ (by rw [length_map, length_range]; omega),
      getD_append_right _ _ _ _ (by omega), length_map, length_range, garblerLength]
    have located : inputBits + (wire - inputBits) = wire := by omega
    have own : (((engine.garbleWith encrypt random).wires.drop inputBits).take
        inputBits)[wire - inputBits]? =
          some ((engine.garbleWith encrypt random).wires.getD wire Wire.zero) := by
      rw [getElem?_take, if_pos (by omega), getElem?_drop, located]
      exact getElem?_eq_some_getD _ _ _ (by omega)
    rw [getD_eq_getElem?_getD, getElem?_zipWith, own,
      getElem?_eq_some_getD (bytesToBits evaluatorInput.toList) _ false (by omega)]
    rfl

theorem initial_tracks :
    Tracks (garblingOffset random) engine.numWires (fun wire => wire < 2 * inputBits)
      (garbleStart engine random)
      { wires := (List.range engine.numWires).map fun wire =>
          (startLabels (engine.garbleWith encrypt random) garblerInput evaluatorInput).getD wire
            Label.zero
        tweak := 0 }
      ((List.range engine.numWires).map fun wire =>
        (roundInput garblerInput evaluatorInput).getD wire false) := by
  have garblerLength := inputBits_of_vector garblerInput
  have evaluatorLength := inputBits_of_vector evaluatorInput
  have wiresLength := garbleWith_wires_length engine encrypt random
  -- no input reaches past the input wires
  have beyond {α : Type} {items : List α} {fallback : α} {wire : Nat}
      (short : items.length = 2 * inputBits) (notInput : ¬ wire < 2 * inputBits) :
      ((List.range engine.numWires).map fun wire => items.getD wire fallback).getD wire fallback =
        fallback := by
    rw [getD_range_map, getD_eq_default _ _ (by omega), ite_self]
  refine
    { sameTweak := rfl
      wiresLength := by simp [garbleStart]
      labelsLength := by simp
      valuesLength := by simp
      carries := ?_
      idle := ?_ }
  · intro wire isInput
    rw [garbleStart_input random enough isInput, getD_range_map, getD_range_map,
      if_pos (by omega), if_pos (by omega)]
    exact ⟨rfl, startLabels_input encrypt random garblerInput evaluatorInput enough apart isInput⟩
  · intro wire notInput
    refine ⟨?_, beyond ?_ notInput, beyond ?_ notInput⟩
    · rw [garbleStart, getD_range_map, if_neg notInput, ite_self]
    · rw [startLabels, length_append, length_map, length_range, length_zipWith, length_take,
        length_drop]
      omega
    · rw [roundInput, length_append]
      omega

end Inputs

section Reduction

variable {aes : List Byte → Label → Label} {engine : Engine} {rng : RandomSource}
  {garblerInput evaluatorInput : Vector Byte 80} {start : Nat} {header random : List Byte}

section Agreed

variable (agree : OTsAgree start sent received) (indexFits : start + inputBits ≤ maxUint64)
include agree indexFits

omit agree in
theorem validateOTIndices_range (role : String) :
    validateOTIndices role (List.range' start inputBits) start = .ok () := by
  rw [validateOTIndices_ok_iff, length_range']
  exact ⟨by omega, rfl⟩

theorem garblerOnline_eq_ok (headerRead : readFull rng 0 24 = .ok header)
    (randomRead : readFull rng 24 garbleRandomSize = .ok random) :
    garblerOnline aes (.ok engine) rng garblerInput sent start =
      .ok (newOnlinePayload engine header
          (engine.garbleWith (aes (header.drop 8)) random) garblerInput start,
        newGarblerSession engine header
          (engine.garbleWith (aes (header.drop 8)) random) sent) := by
  have garbled : engine.garble (aes (header.drop 8)) rng 24 =
      .ok (engine.garbleWith (aes (header.drop 8)) random) := by
    rw [Engine.garble, randomRead]
  rw [garblerOnline, rejectIf_of_eq agree.sent_length, validateSenderOTIndices, agree.consecutive,
    validateOTIndices_range indexFits, headerRead]
  change ((engine.garble (aes (header.drop 8)) rng 24).mapError _ >>= _) = _
  rw [garbled]
  rfl

theorem evaluatorPrepare_eq_ok {payload : OnlinePayload} (sameStart : payload.otStartIndex = start)
    (inputsLength : payload.garblerInputs.length = inputBits) :
    evaluatorPrepare payload evaluatorInput received =
      .ok ({ sessionID := payload.sessionID
             payload := some payload
             inputBits := bytesToBits evaluatorInput.toList
             ots := received
             evaluated := false },
        corrections received (bytesToBits evaluatorInput.toList)) := by
  rw [evaluatorPrepare, rejectIf_of_eq agree.received_length, rejectIf_of_eq inputsLength,
    sameStart, validateReceiverOTIndices, correlated_indices agree.paired, agree.consecutive,
    validateOTIndices_range indexFits]
  rfl

end Agreed

theorem applyCorrections_eq_ok {wires : List Wire} {corrections : List Bool}
    (correctionsLength : corrections.length = inputBits) (wiresLength : wires.length = inputBits)
    (sentLength : sent.length = inputBits) (sessionID : BitVec 64) (outputWires : List Wire) :
    applyCorrections ⟨sessionID, wires, sent, outputWires, false, false⟩ corrections =
      .ok (correctedMasks sent wires corrections, ⟨sessionID, [], [], outputWires, true, false⟩) := by
  rw [applyCorrections, rejectIf_of_eq correctionsLength, rejectIf_of_not (by simp),
    rejectIf_of_not (by simp [wiresLength, sentLength])]
  rfl

theorem evaluatorOnline_eq_ok {masks : List OTMask} {payload : OnlinePayload}
    (masksLength : masks.length = inputBits) (receivedLength : received.length = inputBits)
    (tablesLength : payload.tables.length = engine.tableCount) (sessionID : BitVec 64)
    (bits : List Bool) :
    (evaluatorOnline aes (.ok engine) ⟨sessionID, some payload, bits, received, false⟩ masks).1 =
      .ok (newOnlineResult engine payload.outputTranslations
        (engine.gates.foldl (evaluateGate (aes payload.key) payload.tables)
          { wires := evaluatorWires engine.numWires payload.garblerInputs received bits masks
            tweak := 0 }).wires) := by
  rw [evaluatorOnline, if_neg (not_not.mpr masksLength), if_neg (by simp)]
  dsimp only
  rw [rejectIf_of_eq receivedLength, ok_bind, ok_bind, Engine.evaluate,
    rejectIf_of_eq (by simp [evaluatorWires]), rejectIf_of_eq tablesLength]
  rfl

theorem verifyOutput_eq {labels : List Label} {outputWires : List Wire}
    (labelsLength : labels.length = outputBits) (wiresLength : outputWires.length = outputBits)
    (sessionID : BitVec 64) :
    (verifyOutput ⟨sessionID, [], [], outputWires, true, false⟩ labels).1 = (do
      let bits ← decodeLabels labels outputWires 0
      return bitsToBytes bits (outputBits / 8)) := by
  rw [verifyOutput, if_neg (by simp), if_neg (by simp)]
  rw [rejectIf_of_not (by simp [labelsLength, wiresLength]), ok_bind]

theorem onlineRound_reduces (enough : 2 * inputBits ≤ engine.numWires)
    (agree : OTsAgree start sent received) (indexFits : start + inputBits ≤ maxUint64)
    (headerRead : readFull rng 0 24 = .ok header)
    (randomRead : readFull rng 24 garbleRandomSize = .ok random) :
    let encrypt := aes (header.drop 8)
    let g := engine.garbleWith encrypt random
    let labels := finalLabels engine encrypt g garblerInput evaluatorInput
    onlineRound aes (.ok engine) rng garblerInput evaluatorInput sent received start =
      (do
        let bits ← decodeLabels (labels.drop (engine.numWires - outputBits))
          (g.wires.drop (engine.numWires - outputBits)) 0
        return (bitsToBytes bits (outputBits / 8),
          newOnlineResult engine
            (newOnlinePayload engine header g garblerInput start).outputTranslations labels)) := by
  intro encrypt g labels
  have sentLength := agree.sent_length
  have receivedLength := agree.received_length
  have evaluatorBits := inputBits_of_vector evaluatorInput
  have wiresLength : g.wires.length = engine.numWires := garbleWith_wires_length _ _ _
  have labelsLength : labels.length = engine.numWires := finalLabels_length _ _ _ _ _
  have small : outputBits ≤ 2 * inputBits := by decide
  have ownWires : ((g.wires.drop inputBits).take inputBits).length = inputBits := by
    rw [length_take, length_drop]
    omega
  have chosen := corrected_labels agree.paired ((g.wires.drop inputBits).take inputBits)
    (bytesToBits evaluatorInput.toList) (by omega) (by omega)
  have correctionsLength :
      (corrections received (bytesToBits evaluatorInput.toList)).length = inputBits := by
    simp [corrections, receivedLength, evaluatorBits]
  generalize correctedEq : corrections received (bytesToBits evaluatorInput.toList) = corrected
    at chosen correctionsLength
  have masksLength : (correctedMasks sent ((g.wires.drop inputBits).take inputBits)
      corrected).length = inputBits := by
    rw [correctedMasks, length_map, length_zip, length_zip, correctionsLength, ownWires, sentLength,
      Nat.min_self, Nat.min_self]
  have labelsEq : (engine.gates.foldl (evaluateGate encrypt g.tables)
      { wires := evaluatorWires engine.numWires
          (newOnlinePayload engine header g garblerInput start).garblerInputs received
          (bytesToBits evaluatorInput.toList)
          (correctedMasks sent ((g.wires.drop inputBits).take inputBits) corrected)
        tweak := 0 }).wires = labels := by
    simp only [evaluatorWires, chosen, newOnlinePayload, labels, finalLabels, startLabels]
  rw [onlineRound, garblerOnline_eq_ok agree indexFits headerRead randomRead, ok_bind]
  dsimp only
  rw [evaluatorPrepare_eq_ok agree indexFits rfl (by simp [newOnlinePayload]), correctedEq, ok_bind]
  dsimp only
  rw [newGarblerSession, applyCorrections_eq_ok correctionsLength ownWires sentLength, ok_bind]
  dsimp only
  rw [evaluatorOnline_eq_ok masksLength receivedLength (garbleWith_tables_length _ _ _), ok_bind]
  dsimp only [newOnlinePayload] at labelsEq ⊢
  rw [labelsEq]
  rw [verifyOutput_eq (by simp only [newOnlineResult, length_drop]; omega)
    (by rw [length_drop, garbleWith_wires_length]; omega)]
  simp only [newOnlineResult]
  cases decodeLabels (labels.drop (engine.numWires - outputBits))
      (g.wires.drop (engine.numWires - outputBits)) 0 with
  | error message => rfl
  | ok bits => rfl

end Reduction

/-- A round is correct when all five calls succeed, the garbler decodes the
evaluator's own output, and that output is the plain circuit's. -/
def OnlineRoundCorrect (aes : List Byte → Label → Label) (circuit : CompiledCircuit)
    (rng : RandomSource) (garblerInput evaluatorInput : Vector Byte 80)
    (sent : List SenderOT) (received : List ReceiverOT) (start : Nat) : Prop :=
  ∃ result,
    onlineRound aes (newEngine (some circuit)) rng garblerInput evaluatorInput sent received
        start = .ok (result.cmacOutput, result) ∧
      result.cmacOutput =
        bitsToBytes (circuit.plainEvaluate
          (bytesToBits garblerInput.toList ++ bytesToBits evaluatorInput.toList))
          (outputBits / 8)

theorem final_reads (encrypt : Label → Label) {circuit : CompiledCircuit}
    (wellFormed : circuit.WellFormed) (rowsFit : circuit.tableRows ≤ 2 ^ 32)
    {gates : List Gate} (planned : planGates circuit.gates 0 0 = .ok (gates, circuit.tableRows))
    (random : List Byte) (garblerInput evaluatorInput : Vector Byte 80) :
    let engine : Engine := ⟨gates, circuit.numWires, circuit.tableRows⟩
    let g := engine.garbleWith encrypt random
    ReadsAll g.wires (finalLabels engine encrypt g garblerInput evaluatorInput)
      (circuit.plainWires (roundInput garblerInput evaluatorInput)) := by
  intro engine g
  have apart : ∀ g ∈ engine.gates, 2 * inputBits ≤ g.out.toNat := by
    intro g member
    obtain ⟨src, inside, same⟩ := planGates_source planned member
    rw [same]
    exact wellFormed.topological.output_not_input src inside
  have offsetBit : (garblingOffset random).permutationBit = true :=
    Label.withPermutationBit_permutationBit _ _
  have initial := initial_tracks encrypt random garblerInput evaluatorInput
    wellFormed.inputsInRange apart
  obtain ⟨_, tracks⟩ := Tracks.run planned rowsFit offsetBit wellFormed.topological initial
    (by simp [garbleStart, engine]) rfl
  exact ⟨tracks.labelsLength.trans tracks.wiresLength.symm,
    tracks.valuesLength.trans tracks.wiresLength.symm, tracks.reads offsetBit⟩

/-- The honest online round computes the plain circuit, for every block
cipher, both inputs and all agreeing OT lists. -/
theorem onlineRound_correct (aes : List Byte → Label → Label) {circuit : CompiledCircuit}
    (wellFormed : circuit.WellFormed) (rowsFit : circuit.tableRows ≤ 2 ^ 32) {rng : RandomSource}
    (supplies : rng.Supplies onlineRandomSize) (garblerInput evaluatorInput : Vector Byte 80)
    {sent : List SenderOT} {received : List ReceiverOT} {start : Nat}
    (agree : OTsAgree start sent received) (indexFits : start + inputBits ≤ maxUint64) :
    OnlineRoundCorrect aes circuit rng garblerInput evaluatorInput sent received start := by
  obtain ⟨gates, planned, engineEq⟩ := newEngine_eq_ok wellFormed
  obtain ⟨header, headerRead⟩ := supplies.readFull_eq_ok (by decide : 0 + 24 ≤ onlineRandomSize)
  obtain ⟨random, randomRead⟩ := supplies.readFull_eq_ok (Nat.le_refl (24 + garbleRandomSize))
  have enough := wellFormed.inputsInRange
  have small : outputBits ≤ 2 * inputBits := by decide
  have reads := (final_reads (aes (header.drop 8)) wellFormed rowsFit planned random garblerInput
    evaluatorInput).drop (circuit.numWires - outputBits)
  have outputs : ((Engine.garbleWith ⟨gates, circuit.numWires, circuit.tableRows⟩
      (aes (header.drop 8)) random).wires.drop (circuit.numWires - outputBits)).length =
        8 * (outputBits / 8) := by
    rw [length_drop, garbleWith_wires_length]
    change circuit.numWires - (circuit.numWires - outputBits) = outputBits
    omega
  have translated := congrArg (bitsToBytes · (outputBits / 8)) (reads.translated_bits outputs)
  refine ⟨newOnlineResult ⟨gates, circuit.numWires, circuit.tableRows⟩ _ _, ?_, translated⟩
  rw [engineEq, onlineRound_reduces enough agree indexFits headerRead randomRead,
    reads.decodeLabels_eq_ok]
  exact congrArg (fun bytes => Except.ok (bytes, _)) translated.symm

/-- Labels that differ from entry to entry. -/
def sampleSent (start : Nat) : List SenderOT :=
  (List.range' start inputBits).map fun index =>
    ⟨⟨BitVec.ofNat 64 index, 1⟩, ⟨2, BitVec.ofNat 64 index⟩, index⟩

/-- The odd entries choose one. -/
def sampleReceived (start : Nat) : List ReceiverOT :=
  (sampleSent start).map fun ot =>
    ⟨if ot.index % 2 == 1 then ot.r1 else ot.r0, ot.index, ot.index % 2 == 1⟩

theorem sample_agree (start : Nat) : OTsAgree start (sampleSent start) (sampleReceived start) := by
  refine ⟨?_, ?_⟩
  · rw [sampleSent, map_map]
    exact map_id _
  · rw [sampleReceived, forall₂_map_right_iff, forall₂_same]
    intro ot _member
    exact ⟨rfl, rfl⟩

/-- One conjunction of the first bits of both parties. -/
def conjunctionCircuit : CompiledCircuit :=
  { numParties := 2
    inputsSize := 2 * inputBits
    outputsSize := outputBits
    numWires := 1281
    gates := [⟨0, 640, 1280, .and⟩] }

theorem conjunctionCircuit_wellFormed : conjunctionCircuit.WellFormed :=
  { parties := rfl
    inputs := rfl
    outputs := rfl
    inputsInRange := by decide
    supported := by
      intro src member
      rw [mem_singleton.mp member]
      decide
    topological := by
      refine ⟨?_, fun _ => ?_, ?_, ?_, trivial⟩ <;> decide }

theorem onlineRound_correct_conjunction :
    conjunctionCircuit.tableRows = 2 ∧
      OnlineRoundCorrect (fun _ block => block) conjunctionCircuit (fun _ => .ok 0x5a)
        (Vector.ofFn fun _ => 1) (Vector.ofFn fun _ => 3) (sampleSent 7) (sampleReceived 7) 7 := by
  refine ⟨by decide, ?_⟩
  refine onlineRound_correct (fun _ block => block) conjunctionCircuit_wellFormed (by decide) ?_
    _ _ (sample_agree 7) (by decide)
  intro position _inside
  exact ⟨0x5a, rfl⟩

end ReclaimTee.Mpc
