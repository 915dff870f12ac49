/-
Where the online round stops being correct. Past `2 ^ 32` table rows a gate
overwrites the rows of an earlier one; the index check refuses the last range of
OT indices, and a random source may fail.
-/

import ReclaimTee.Mpc.OnlineRound

namespace ReclaimTee.Mpc.TableWrap

open Garbling (encode andGeneratorRow andEvaluatorRow evaluateAnd)
open List hiding Vector

def firstGate : CompiledGate := ⟨0, 640, 1280, .and⟩

def fillerGate : CompiledGate := ⟨0, 640, 1281, .and⟩

def lastGate : CompiledGate := ⟨1, 641, 1282, .and⟩

/-- With `2 ^ 31 - 1` fillers the rows of the last gate are numbered `2 ^ 32`. -/
def circuit (fillers : Nat) : CompiledCircuit :=
  { numParties := 2
    inputsSize := 2 * inputBits
    outputsSize := outputBits
    numWires := 1283
    gates := firstGate :: (List.replicate fillers fillerGate ++ [lastGate]) }

theorem topological_of_forall {wireCount : Nat} {sources : List CompiledGate} {driven : Nat → Prop}
    (each : ∀ src ∈ sources, driven src.input0.toNat ∧ driven src.input1.toNat ∧
      2 * inputBits ≤ src.output.toNat ∧ src.output.toNat < wireCount) :
    Topological wireCount sources driven := by
  induction sources generalizing driven with
  | nil => trivial
  | cons src rest ih =>
    obtain ⟨left, right, notInput, inRange⟩ := each src mem_cons_self
    refine ⟨left, fun _ => right, notInput, inRange, ih ?_⟩
    intro other member
    obtain ⟨otherLeft, otherRight, bounds⟩ := each other (mem_cons_of_mem _ member)
    exact ⟨Or.inl otherLeft, Or.inl otherRight, bounds⟩

theorem later_gates {fillers : Nat} {src : CompiledGate}
    (member : src ∈ List.replicate fillers fillerGate ++ [lastGate]) :
    src = fillerGate ∨ src = lastGate := by
  rcases mem_append.mp member with filler | last
  · exact .inl (eq_of_mem_replicate filler)
  · exact .inr (mem_singleton.mp last)

theorem circuit_wellFormed (fillers : Nat) : (circuit fillers).WellFormed := by
  refine
    { parties := rfl
      inputs := rfl
      outputs := rfl
      inputsInRange := by
        change 2 * inputBits ≤ 1283
        decide
      supported := ?_
      topological := ?_ }
  · intro src member
    rcases mem_cons.mp member with rfl | later
    · decide
    · rcases later_gates later with rfl | rfl <;> decide
  · change Topological 1283 _ _
    apply topological_of_forall
    intro src member
    rcases mem_cons.mp member with rfl | later
    · decide
    · rcases later_gates later with rfl | rfl <;> decide

theorem fillers_tableRows (fillers : Nat) :
    tableRowsOf (List.replicate fillers fillerGate) = 2 * fillers := by
  rw [tableRowsOf, map_replicate, sum_replicate]
  change fillers • 2 = _
  rw [smul_eq_mul, Nat.mul_comm]

theorem circuit_tableRows (fillers : Nat) : 2 ≤ (circuit fillers).tableRows :=
  Nat.le_add_right 2 _

theorem planGates_append_eq_ok {first rest : List CompiledGate}
    {position tableCount total : Nat} {gates : List Gate}
    (planned : planGates (first ++ rest) position tableCount = .ok (gates, total)) :
    ∃ earlier later middle,
      planGates first position tableCount = .ok (earlier, middle) ∧
        planGates rest (position + first.length) middle = .ok (later, total) ∧
        gates = earlier ++ later := by
  induction first generalizing position tableCount gates with
  | nil => exact ⟨[], gates, tableCount, rfl, planned, rfl⟩
  | cons src first ih =>
    obtain ⟨op, later, supported, recursive, gatesEq⟩ := planGates_cons_eq_ok planned
    obtain ⟨earlier, last, middle, firstPlanned, lastPlanned, laterEq⟩ := ih recursive
    refine ⟨planGate src op tableCount :: earlier, last, middle, ?_, ?_, ?_⟩
    · rw [planGates, supported]
      simp only [firstPlanned]
      rfl
    · have shifted : position + (src :: first).length = position + 1 + first.length := by
        rw [length_cons]
        omega
      rw [shifted]
      exact lastPlanned
    · rw [gatesEq, laterEq]
      rfl

/-- The plan of the wrapping circuit: the last gate reuses table position zero. -/
theorem circuit_plan {fillers : Nat} (wraps : 2 * fillers + 2 = 2 ^ 32) {gates : List Gate}
    {total : Nat} (planned : planGates (circuit fillers).gates 0 0 = .ok (gates, total)) :
    ∃ middle, gates = planGate firstGate .and 0 :: (middle ++ [planGate lastGate .and 0]) ∧
      ∀ g ∈ middle, g.out = 1281 := by
  obtain ⟨op, later, supported, recursive, gatesEq⟩ := planGates_cons_eq_ok planned
  cases supported
  obtain ⟨earlier, last, middle, fillersPlanned, lastPlanned, laterEq⟩ :=
    planGates_append_eq_ok recursive
  obtain ⟨lastOp, none, lastSupported, nonePlanned, lastEq⟩ := planGates_cons_eq_ok lastPlanned
  cases lastSupported
  cases nonePlanned
  have counted : middle = 2 ^ 32 := by
    obtain ⟨others, again⟩ := planGates_supported (List.replicate fillers fillerGate) 1 2 (by
      intro src member
      rw [eq_of_mem_replicate member]
      decide)
    change planGates (List.replicate fillers fillerGate) 1 2 = _ at fillersPlanned
    rw [fillersPlanned, fillers_tableRows] at again
    have middleEq := (Prod.mk.inj (Except.ok.inj again)).2
    omega
  refine ⟨earlier, ?_, ?_⟩
  · rw [gatesEq, laterEq, lastEq, counted]
    rfl
  · intro g member
    obtain ⟨src, filler, same⟩ := planGates_source fillersPlanned member
    rw [same, eq_of_mem_replicate filler]
    rfl

/-! ### The failing run -/

/-- All zero bytes, except the first label byte of input wire 641. -/
def sourceByte (position : Nat) : Byte :=
  if position = 10296 then 0x80 else 0

def source : RandomSource := fun position => .ok (sourceByte position)

def sourceRandom : List Byte := (List.range' 24 garbleRandomSize).map sourceByte

def offset : Label :=
  { d0 := Label.permutationMask, d1 := 0 }

theorem readFull_total (byteAt : Nat → Byte) (position count : Nat) :
    readFull (fun index => .ok (byteAt index)) position count =
      .ok ((List.range' position count).map byteAt) := by
  induction count generalizing position with
  | zero => rfl
  | succ count ih =>
    rw [readFull, ih]
    rfl

private theorem random_window (skip : Nat) (inside : skip + 16 ≤ garbleRandomSize) :
    (sourceRandom.drop skip).take 16 = (List.range' (24 + skip) 16).map sourceByte := by
  have enough : 16 ≤ garbleRandomSize - skip := by omega
  rw [sourceRandom, ← map_drop, ← map_take, drop_range',
    take_range'_of_length_ge enough, Nat.mul_one]

theorem offset_eq : garblingOffset sourceRandom = offset := by
  decide

theorem inputWire_eq (input : Nat) (isInput : input < 2 * inputBits) :
    (inputWire sourceRandom offset input).l0 =
      Label.fromBytes ((List.range' (40 + 16 * input) 16).map sourceByte) := by
  have inside : 16 + 16 * input + 16 ≤ garbleRandomSize := by
    rw [garbleRandomSize]
    omega
  have start : 24 + (16 + 16 * input) = 40 + 16 * input := by omega
  rw [inputWire]
  rw [random_window _ inside, start]

theorem labelHash_identity (x : Label) (tweak : BitVec 32) :
    labelHash (fun block => block) x tweak = 0 :=
  Label.add_self _

/-- Only the first garbler bit is set. -/
def garblerInput : Vector Byte 80 :=
  Vector.ofFn fun index => if index.val = 0 then 1 else 0

def evaluatorInput : Vector Byte 80 :=
  Vector.ofFn fun _ => 0

theorem decodeLabels_bit {labels : List Label} {wires : List Wire} {position : Nat}
    {bits : List Bool} (decoded : decodeLabels labels wires position = .ok bits) (index : Nat)
    (label : Label) (w : Wire) (labelAt : labels[index]? = some label)
    (wireAt : wires[index]? = some w) (foreign : label ≠ w.l0) : bits.getD index false = true := by
  induction labels generalizing wires position bits index with
  | nil => cases labelAt
  | cons first labels ih =>
    cases wires with
    | nil => cases wireAt
    | cons firstWire wires =>
      have split : ∃ bit others, decodeLabels labels wires (position + 1) = .ok others ∧
          bits = bit :: others ∧ (first ≠ firstWire.l0 → bit = true) := by
        rw [decodeLabels] at decoded
        split at decoded
        · next same =>
          simp only [eq_ok_iff] at decoded
          obtain ⟨others, rest, rfl⟩ := decoded
          exact ⟨false, others, rest, rfl, fun different => absurd same different⟩
        · split at decoded
          · simp only [eq_ok_iff] at decoded
            obtain ⟨others, rest, rfl⟩ := decoded
            exact ⟨true, others, rest, rfl, fun _ => rfl⟩
          · cases decoded
      obtain ⟨bit, others, rest, rfl, isSet⟩ := split
      cases index with
      | zero =>
        cases labelAt
        cases wireAt
        exact isSet foreign
      | succ index => exact ih rest index labelAt wireAt

theorem zeroLabels :
    (inputWire sourceRandom offset 0).l0 = 0 ∧ (inputWire sourceRandom offset 1).l0 = 0 ∧
      (inputWire sourceRandom offset 640).l0 = 0 ∧
      (inputWire sourceRandom offset 641).l0 = offset := by
  rw [inputWire_eq 640 (by decide),
    inputWire_eq 641 (by decide)]
  decide

/-- The engine of the wrapping circuit, with its fillers as found. -/
def engine (middle : List Gate) (tableCount : Nat) : Engine :=
  { gates := planGate firstGate .and 0 :: (middle ++ [planGate lastGate .and 0])
    numWires := 1283
    tableCount := tableCount }

/-- What the garbler makes of it, and the labels that the evaluator ends with. -/
def garbled (middle : List Gate) (tableCount : Nat) : Garbled :=
  (engine middle tableCount).garbleWith (fun block => block) sourceRandom

def labels (middle : List Gate) (tableCount : Nat) : List Label :=
  finalLabels (engine middle tableCount) (fun block => block) (garbled middle tableCount)
    garblerInput evaluatorInput

theorem garbleGate_and_zero (state : GarbleState) (g : Gate) (isAnd : g.op = .and)
    (left right : Label) (leftClear : left.permutationBit = false)
    (leftWire : state.wires.getD g.in0.toNat Wire.zero = ⟨left, left + offset⟩)
    (rightWire : state.wires.getD g.in1.toNat Wire.zero = ⟨right, right + offset⟩) :
    garbleGate (fun block => block) offset state g =
      { wires := state.wires.set g.out.toNat ⟨0, offset⟩
        tables := (state.tables.set g.table.toNat
          (if right.permutationBit then offset else 0)).set (g.table + 1).toNat left
        tweak := state.tweak + 2 } := by
  have garbled := garbleGate_and (fun block => block) offset isAnd (by rw [leftWire])
    (by rw [rightWire])
  rw [leftWire, rightWire] at garbled
  simp only [labelHash_identity, andGeneratorRow, andEvaluatorRow, evaluateAnd, leftClear,
    zero_add, Bool.false_eq_true, if_false, Label.add_self, ite_self] at garbled
  exact garbled

theorem roundInput_at : (roundInput garblerInput evaluatorInput).getD 0 false = true ∧
    (roundInput garblerInput evaluatorInput).getD 640 false = false := by
  decide +kernel

section Round

variable {middle : List Gate} (middleOuts : ∀ g ∈ middle, g.out = 1281) {tableCount : Nat}
include middleOuts

theorem later_outs : ∀ g ∈ middle ++ [planGate lastGate .and 0], 1280 < g.out.toNat := by
  refine forall_mem_append.mpr ⟨fun g filler => ?_, forall_mem_singleton.mpr (by decide)⟩
  rw [middleOuts g filler]
  decide

theorem engine_outs : ∀ g ∈ (engine middle tableCount).gates, 2 * inputBits ≤ g.out.toNat :=
  forall_mem_cons.mpr ⟨by decide, fun g later => Nat.le_of_lt (later_outs middleOuts g later)⟩

/-- The garbler ends with the last gate's generator row at position zero. -/
theorem garbled_state (rows : 2 ≤ tableCount) :
    (garbled middle tableCount).wires.getD 1280 Wire.zero = ⟨0, offset⟩ ∧
      (garbled middle tableCount).tables.getD 0 Label.zero = offset := by
  obtain ⟨zero0, zero1, zero640, label641⟩ := zeroLabels
  have startWire (input : Nat) (label : Label) (isInput : input < 2 * inputBits)
      (zeroLabel : (inputWire sourceRandom offset input).l0 = label) :
      (garbleStart (engine middle tableCount) sourceRandom).wires.getD input Wire.zero =
        ⟨label, label + offset⟩ := by
    rw [garbleStart_input sourceRandom (by decide : 2 * inputBits ≤ 1283) isInput, offset_eq,
      ← zeroLabel]
    rfl
  have at0 := startWire 0 0 (by decide) zero0
  have at1 := startWire 1 0 (by decide) zero1
  have at640 := startWire 640 0 (by decide) zero640
  have at641 := startWire 641 offset (by decide) label641
  have startWires : (garbleStart (engine middle tableCount) sourceRandom).wires.length = 1283 := by
    simp only [garbleStart, engine, length_map, length_range]
  have startTables : (garbleStart (engine middle tableCount) sourceRandom).tables.length =
      tableCount := by
    simp only [garbleStart, engine, length_replicate]
  simp only [garbled, Engine.garbleWith, offset_eq]
  generalize garbleStart (engine middle tableCount) sourceRandom = start at *
  have first := garbleGate_and_zero start (planGate firstGate .and 0) rfl 0 0
    Label.permutationBit_zero at0 at640
  simp only [engine, foldl_cons, foldl_append, foldl_nil]
  generalize garbleGate (fun block => block) offset start (planGate firstGate .and 0) = one at *
  generalize afterMiddle : middle.foldl (garbleGate (fun block => block) offset) one = two
  have kept (wire : Nat) (different : wire ≠ 1281) :
      two.wires.getD wire Wire.zero = one.wires.getD wire Wire.zero := by
    rw [← afterMiddle]
    exact foldl_writes_other garbleGate_writes fun g member => by
      rw [middleOuts g member]
      exact Ne.symm different
  have twoTables : two.tables.length = tableCount := by
    rw [← afterMiddle, garble_tables_length, first, length_set, length_set, startTables]
  have oneLow (wire : Nat) (low : wire < 1280) :
      one.wires.getD wire Wire.zero = start.wires.getD wire Wire.zero := by
    rw [first]
    exact getD_set_other (by change 1280 ≠ wire; omega)
  have left := (kept 1 (by decide)).trans ((oneLow 1 (by decide)).trans at1)
  have right := (kept 641 (by decide)).trans ((oneLow 641 (by decide)).trans at641)
  rw [garbleGate_and_zero two (planGate lastGate .and 0) rfl 0 offset Label.permutationBit_zero
    left right]
  refine ⟨?_, ?_⟩
  · rw [getD_set_other (by decide), kept 1280 (by decide), first]
    exact getD_set_self (by rw [startWires]; decide)
  · rw [getD_set_other (by decide)]
    exact getD_set_self (by rw [twoTables]; change 0 < tableCount; omega)

theorem evaluated_label (rows : 2 ≤ tableCount) :
    (labels middle tableCount).getD 1280 Label.zero = offset := by
  have startAt (input : Nat) (isInput : input < 2 * inputBits) :
      ((List.range 1283).map fun wire =>
          (startLabels (garbled middle tableCount) garblerInput evaluatorInput).getD wire
            Label.zero).getD input Label.zero =
        (inputWire sourceRandom offset input).label
          ((roundInput garblerInput evaluatorInput).getD input false) := by
    have bound : 2 * inputBits = 1280 := by decide
    rw [getD_range_map, if_pos (by omega), garbled, startLabels_input _ _ _ _
      (by decide : 2 * inputBits ≤ 1283) (engine_outs middleOuts) isInput, offset_eq]
  obtain ⟨zero0, _, zero640, _⟩ := zeroLabels
  obtain ⟨bit0, bit640⟩ := roundInput_at
  have label0 := startAt 0 (by decide)
  have label640 := startAt 640 (by decide)
  rw [bit0] at label0
  rw [bit640] at label640
  have one0 : (inputWire sourceRandom offset 0).label true = offset := by
    change (inputWire sourceRandom offset 0).l0 + offset = offset
    rw [zero0, zero_add]
  have zeroAt640 : (inputWire sourceRandom offset 640).label false = 0 := zero640
  rw [one0] at label0
  rw [zeroAt640] at label640
  have offsetBit : offset.permutationBit = true := by decide
  rw [labels, finalLabels]
  simp only [engine, foldl_cons]
  generalize startEq : (List.range 1283).map (fun wire =>
    (startLabels (garbled middle tableCount) garblerInput evaluatorInput).getD wire
      Label.zero) = start at *
  have startLength : start.length = 1283 := by
    rw [← startEq, length_map, length_range]
  rw [foldl_writes_other evaluateGate_writes fun g member =>
    Nat.ne_of_gt (later_outs middleOuts g member), evaluateGate_and _ rfl]
  refine (getD_set_self (by rw [startLength]; decide)).trans ?_
  change evaluateAnd _ _ _ ((garbled middle tableCount).tables.getD 0 Label.zero) _
    (start.getD 0 Label.zero) (start.getD 640 Label.zero) = _
  rw [label0, label640, (garbled_state middleOuts rows).2]
  simp [evaluateAnd, labelHash_identity, offsetBit]

end Round

theorem plain_value (fillers : Nat) :
    ((circuit fillers).plainWires (roundInput garblerInput evaluatorInput)).getD 1280 false =
      false := by
  have writes (values : List Bool) (src : CompiledGate) : ∃ value,
      id (plainGate values src) = (id values).set src.output.toNat value := ⟨_, rfl⟩
  have untouched : ∀ src ∈ List.replicate fillers fillerGate ++ [lastGate],
      src.output.toNat ≠ 1280 := by
    intro src later
    rcases later_gates later with rfl | rfl <;> decide
  have gatesEq : (circuit fillers).gates =
      firstGate :: (List.replicate fillers fillerGate ++ [lastGate]) := rfl
  have wiresEq : (circuit fillers).numWires = 1283 := rfl
  have kept (values : List Bool) : ((List.replicate fillers fillerGate ++ [lastGate]).foldl
      plainGate values).getD 1280 false = values.getD 1280 false :=
    foldl_writes_other writes untouched
  have outEq : firstGate.output.toNat = 1280 := rfl
  have rightEq : firstGate.input1.toNat = 640 := rfl
  have opEq : firstGate.op = .and := rfl
  rw [CompiledCircuit.plainWires, gatesEq, wiresEq, foldl_cons, kept, plainGate, outEq, rightEq,
    opEq, getD_set_self (by simp), getD_range_map 1283 640, if_pos (by decide), roundInput_at.2]
  simp only [CompiledOp.apply, Bool.and_false]

theorem source_supplies : source.Supplies onlineRandomSize := by
  intro position _inside
  exact ⟨sourceByte position, rfl⟩

private theorem output_at {α : Type} {items : List α} (fallback : α) (length : items.length = 1283) :
    (items.drop 1155)[125]? = some (items.getD 1280 fallback) := by
  rw [getElem?_drop]
  exact getElem?_eq_some_getD items 1280 fallback (by rw [length]; decide)

/-- Past `2 ^ 32` table rows the round decodes a bit the circuit does not have. -/
theorem wrapped_round_incorrect {fillers : Nat} (wraps : 2 * fillers + 2 = 2 ^ 32) :
    ¬ OnlineRoundCorrect (fun _ block => block) (circuit fillers) source garblerInput
      evaluatorInput (sampleSent 0) (sampleReceived 0) 0 := by
  intro correct
  obtain ⟨result, ran, cmac⟩ := correct
  obtain ⟨gates, planned, engineEq⟩ := newEngine_eq_ok (circuit_wellFormed fillers)
  obtain ⟨middle, gatesEq, middleOuts⟩ := circuit_plan wraps planned
  have rows := circuit_tableRows fillers
  have isEngine : newEngine (some (circuit fillers)) =
      .ok (engine middle (circuit fillers).tableRows) := by
    rw [engineEq, gatesEq]
    rfl
  generalize (circuit fillers).tableRows = tableCount at rows isEngine
  have enough : 2 * inputBits ≤ (engine middle tableCount).numWires := by
    change 2 * inputBits ≤ 1283
    decide
  have reads (position count : Nat) : readFull source position count = _ :=
    readFull_total sourceByte position count
  rw [isEngine, onlineRound_reduces enough (sample_agree 0) (by decide) (reads 0 24)
    (reads 24 garbleRandomSize), bind_eq_ok_iff] at ran
  obtain ⟨bits, decoded, answer⟩ := ran
  have outputStart : (engine middle tableCount).numWires - outputBits = 1155 := by
    simp only [engine, outputBits]
  rw [outputStart] at decoded
  have packed := (Prod.mk.inj (pure_eq_ok_iff.mp answer)).1
  have wireAt : ((garbled middle tableCount).wires.drop 1155)[125]? = some ⟨0, offset⟩ := by
    rw [output_at Wire.zero (garbleWith_wires_length _ _ _), (garbled_state middleOuts rows).1]
  have labelAt : ((labels middle tableCount).drop 1155)[125]? = some offset := by
    have length : (labels middle tableCount).length = 1283 := by
      rw [labels, finalLabels_length, engine]
    rw [output_at Label.zero length, evaluated_label middleOuts rows]
  have setBit := decodeLabels_bit decoded 125 offset ⟨0, offset⟩ labelAt wireAt (by decide)
  have plainBit : ((circuit fillers).plainEvaluate (roundInput garblerInput evaluatorInput)).getD
      125 false = false := by
    have start : (circuit fillers).numWires - outputBits = 1155 := by
      simp only [circuit, outputBits]
    rw [CompiledCircuit.plainEvaluate, getD_drop, start]
    exact plain_value fillers
  have read := congrArg (fun bytes => packedBit bytes 125) (packed.trans cmac)
  rw [packedBit_bitsToBytes _ _ _ (by decide), packedBit_bitsToBytes _ _ _ (by decide), setBit]
    at read
  exact absurd (read.trans plainBit) (by decide)

theorem last_range_incorrect (aes : List Byte → Label → Label) (circuit : CompiledCircuit)
    (rng : RandomSource) (garblerInput evaluatorInput : Vector Byte 80)
    {sent : List SenderOT} {received : List ReceiverOT} {start : Nat}
    (agree : OTsAgree start sent received) (overflows : maxUint64 < start + inputBits) :
    ¬ OnlineRoundCorrect aes circuit rng garblerInput evaluatorInput sent received start := by
  intro correct
  obtain ⟨result, ran, _⟩ := correct
  have length := agree.sent_length
  simp only [onlineRound, garblerOnline, bind_eq_ok_iff, validateSenderOTIndices,
    validateOTIndices_ok_iff, length_map] at ran
  have positive : 0 < inputBits := by decide
  omega

theorem failing_source_incorrect (aes : List Byte → Label → Label) (circuit : CompiledCircuit)
    (garblerInput evaluatorInput : Vector Byte 80) (sent : List SenderOT)
    (received : List ReceiverOT) (start : Nat) (message : String) :
    ¬ OnlineRoundCorrect aes circuit (fun _ => .error message) garblerInput evaluatorInput sent
      received start := by
  intro correct
  obtain ⟨result, ran, _⟩ := correct
  simp only [onlineRound, garblerOnline, bind_eq_ok_iff] at ran
  obtain ⟨_, ⟨_, _, _, _, _, _, _, headerRead, _⟩, _⟩ := ran
  cases headerRead

/-- Agreement, order and range alone do not make every round correct: the
source may fail, the last index range is refused, and the table index wraps. -/
theorem onlineRound_not_always_correct :
    ((circuit 0).WellFormed ∧ OTsAgree 0 (sampleSent 0) (sampleReceived 0) ∧
      ¬ OnlineRoundCorrect (fun _ block => block) (circuit 0) (fun _ => .error "unavailable")
        garblerInput evaluatorInput (sampleSent 0) (sampleReceived 0) 0) ∧
    (source.Supplies onlineRandomSize ∧
      OTsAgree (2 ^ 64 - 640) (sampleSent (2 ^ 64 - 640)) (sampleReceived (2 ^ 64 - 640)) ∧
      ¬ OnlineRoundCorrect (fun _ block => block) (circuit 0) source garblerInput
        evaluatorInput (sampleSent (2 ^ 64 - 640)) (sampleReceived (2 ^ 64 - 640))
        (2 ^ 64 - 640)) ∧
    ((circuit (2 ^ 31 - 1)).WellFormed ∧
      ¬ OnlineRoundCorrect (fun _ block => block) (circuit (2 ^ 31 - 1)) source garblerInput
        evaluatorInput (sampleSent 0) (sampleReceived 0) 0) := by
  refine ⟨⟨circuit_wellFormed 0, sample_agree 0, ?_⟩,
    ⟨source_supplies, sample_agree _, ?_⟩, ⟨circuit_wellFormed _, ?_⟩⟩
  · exact failing_source_incorrect _ _ _ _ _ _ _ _
  · exact last_range_incorrect _ _ _ _ _ (sample_agree _) (by decide)
  · exact wrapped_round_incorrect (by decide)

end ReclaimTee.Mpc.TableWrap
