/-
Garbling followed by evaluation computes the plain circuit. Garbler, evaluator
and plain evaluation run side by side over the gate list, with the final tables
given to the evaluator from the start.
-/

import ReclaimTee.Garbling
import ReclaimTee.Mpc.Circuit

namespace ReclaimTee.Mpc

open List

open Garbling (encode andGeneratorRow andEvaluatorRow evaluateAnd invZero invRow evaluateInv)

/-! ### One gate -/

private theorem masked_xor (condition : Bool) (first second : Label) :
    (if condition then first.xor second else first) = first + if condition then second else 0 := by
  cases condition
  · exact (add_zero first).symm
  · rfl

private theorem masked_xor_xor (condition : Bool) (first second third : Label) :
    (if condition then (first.xor second).xor third else first) =
      first + if condition then second + third else 0 := by
  cases condition
  · exact (add_zero first).symm
  · exact add_assoc first second third

variable (encrypt : Label → Label) (r : Label) {garbling : GarbleState}
  {evaluation : EvaluateState} {tables : List Label} {g : Gate}

theorem garbleGate_and (isAnd : g.op = .and)
    (leftPaired : (garbling.wires.getD g.in0.toNat Wire.zero).l1 =
      (garbling.wires.getD g.in0.toNat Wire.zero).l0 + r)
    (rightPaired : (garbling.wires.getD g.in1.toNat Wire.zero).l1 =
      (garbling.wires.getD g.in1.toNat Wire.zero).l0 + r) :
    let left := (garbling.wires.getD g.in0.toNat Wire.zero).l0
    let right := (garbling.wires.getD g.in1.toNat Wire.zero).l0
    let leftHash := fun x => labelHash encrypt x garbling.tweak
    let rightHash := fun x => labelHash encrypt x (garbling.tweak + 1)
    let generatorRow := andGeneratorRow Label.permutationBit r leftHash left right
    let evaluatorRow := andEvaluatorRow r rightHash left right
    let zero := evaluateAnd Label.permutationBit leftHash rightHash
      generatorRow evaluatorRow left right
    garbleGate encrypt r garbling g =
      { wires := garbling.wires.set g.out.toNat ⟨zero, zero + r⟩
        tables := (garbling.tables.set g.table.toNat generatorRow).set (g.table + 1).toNat
          evaluatorRow
        tweak := garbling.tweak + 2 } := by
  unfold garbleGate
  simp only [isAnd, leftPaired, rightPaired, masked_xor, masked_xor_xor]
  rfl

theorem garbleGate_inv (isInv : g.op = .inv)
    (paired : (garbling.wires.getD g.in0.toNat Wire.zero).l1 =
      (garbling.wires.getD g.in0.toNat Wire.zero).l0 + r) :
    let input := (garbling.wires.getD g.in0.toNat Wire.zero).l0
    let hash := fun x => labelHash encrypt x garbling.tweak
    let zero := invZero Label.permutationBit r hash input
    garbleGate encrypt r garbling g =
      { wires := garbling.wires.set g.out.toNat ⟨zero, zero + r⟩
        tables := garbling.tables.set g.table.toNat (invRow r hash input)
        tweak := garbling.tweak + 1 } := by
  unfold garbleGate
  simp only [isInv, paired, unaryHash, invZero, invRow, Label.xor_eq_add]
  cases (garbling.wires.getD g.in0.toNat Wire.zero).l0.permutationBit
  · simp only [Bool.false_eq_true, if_false, add_assoc, Label.add_self, add_zero]
    simp only [add_left_comm]
  · simp only [if_true, add_assoc]

theorem evaluateGate_and (isAnd : g.op = .and) :
    evaluateGate encrypt tables evaluation g =
      { wires := evaluation.wires.set g.out.toNat
          (evaluateAnd Label.permutationBit (fun x => labelHash encrypt x evaluation.tweak)
            (fun x => labelHash encrypt x (evaluation.tweak + 1))
            (tables.getD g.table.toNat Label.zero)
            (tables.getD (g.table + 1).toNat Label.zero)
            (evaluation.wires.getD g.in0.toNat Label.zero)
            (evaluation.wires.getD g.in1.toNat Label.zero))
        tweak := evaluation.tweak + 2 } := by
  unfold evaluateGate
  simp only [isAnd, masked_xor, masked_xor_xor]
  rfl

/-- The rows a planned gate writes, as table positions. -/
def Gate.rows (g : Gate) : List Nat :=
  match g.op with
  | .xor => []
  | .xnor => []
  | .and => [g.table.toNat, (g.table + 1).toNat]
  | .inv => [g.table.toNat]

private theorem successor_row_ne (table : BitVec 32) : (table + 1).toNat ≠ table.toNat := by
  rw [BitVec.toNat_add]
  change (table.toNat + 1) % 2 ^ 32 ≠ table.toNat
  omega

/-- The labels of a wire are the offset apart; the evaluator holds that of the value. -/
structure Carries (w : Wire) (label : Label) (value : Bool) : Prop where
  paired : w.l1 = w.l0 + r
  labelled : label = encode r w.l0 value

/-- A gate writes a wire, and the evaluator a label of it, that stand for the value. -/
def Drives (garbling : GarbleState) (evaluation : EvaluateState) (tables : List Label) (g : Gate)
    (value : Bool) : Prop :=
  (garbleGate encrypt r garbling g).tweak = (evaluateGate encrypt tables evaluation g).tweak ∧
    ∃ w label, Carries r w label value ∧
      (garbleGate encrypt r garbling g).wires = garbling.wires.set g.out.toNat w ∧
      (evaluateGate encrypt tables evaluation g).wires = evaluation.wires.set g.out.toNat label

variable {encrypt r}

section Gates

variable {x y : Bool} (sameTweak : garbling.tweak = evaluation.tweak)
  (left : Carries r (garbling.wires.getD g.in0.toNat Wire.zero)
    (evaluation.wires.getD g.in0.toNat Label.zero) x)
include sameTweak left

section Binary

variable (right : Carries r (garbling.wires.getD g.in1.toNat Wire.zero)
  (evaluation.wires.getD g.in1.toNat Label.zero) y)
include right

theorem drives_xor (isXor : g.op = .xor) :
    Drives encrypt r garbling evaluation tables g (x ^^ y) := by
  unfold Drives garbleGate evaluateGate
  simp only [isXor]
  refine ⟨sameTweak, _, _, ⟨rfl, ?_⟩, rfl, rfl⟩
  rw [left.labelled, right.labelled]
  exact Garbling.encode_xor _ _ _ _ _

theorem drives_xnor (isXnor : g.op = .xnor) :
    Drives encrypt r garbling evaluation tables g (!(x ^^ y)) := by
  unfold Drives garbleGate evaluateGate
  simp only [isXnor]
  refine ⟨sameTweak, _, _, ⟨?_, ?_⟩, rfl, rfl⟩
  · simp only [if_true, Label.xor_eq_add, add_assoc, Label.add_self, add_zero]
  · rw [left.labelled, right.labelled]
    refine (Garbling.encode_xor _ _ _ _ _).trans ?_
    exact (Bool.not_not (x ^^ y) ▸ Garbling.encode_not r _ (!(x ^^ y))).symm

end Binary

variable (offsetBit : r.permutationBit = true)
  (rowsInRange : ∀ row ∈ g.rows, row < garbling.tables.length)
  (rowsKept : ∀ row ∈ g.rows,
    tables.getD row Label.zero = (garbleGate encrypt r garbling g).tables.getD row Label.zero)
include offsetBit rowsInRange rowsKept

theorem drives_and (isAnd : g.op = .and)
    (right : Carries r (garbling.wires.getD g.in1.toNat Wire.zero)
      (evaluation.wires.getD g.in1.toNat Label.zero) y) :
    Drives encrypt r garbling evaluation tables g (x && y) := by
  have rows : g.rows = [g.table.toNat, (g.table + 1).toNat] := by
    rw [Gate.rows, isAnd]
  rw [rows, forall_mem_cons, forall_mem_singleton] at rowsInRange
  rw [rows, forall_mem_cons, forall_mem_singleton,
    garbleGate_and encrypt r isAnd left.paired right.paired,
    getD_set_other (successor_row_ne _), getD_set_self rowsInRange.1,
    getD_set_self (by rw [length_set]; exact rowsInRange.2)] at rowsKept
  rw [Drives, garbleGate_and encrypt r isAnd left.paired right.paired,
    evaluateGate_and encrypt isAnd, rowsKept.1, rowsKept.2, ← sameTweak]
  refine ⟨rfl, _, _, ⟨rfl, ?_⟩, rfl, rfl⟩
  rw [left.labelled, right.labelled]
  exact Garbling.evaluateAnd_encode Label.permutationBit_add offsetBit _ _ _ _ _ _

theorem drives_inv (isInv : g.op = .inv) :
    Drives encrypt r garbling evaluation tables g (!x) := by
  have rows : g.rows = [g.table.toNat] := by
    rw [Gate.rows, isInv]
  have garbled := garbleGate_inv encrypt r isInv left.paired
  rw [rows, forall_mem_singleton] at rowsInRange
  rw [rows, forall_mem_singleton, garbled, getD_set_self rowsInRange] at rowsKept
  unfold Drives
  rw [garbled]
  unfold evaluateGate
  simp only [isInv, rowsKept, ← sameTweak]
  refine ⟨trivial, _, _, ⟨rfl, ?_⟩, rfl, rfl⟩
  rw [left.labelled]
  exact Garbling.evaluateInv_encode Label.permutationBit_add offsetBit
    (fun x => labelHash encrypt x garbling.tweak) _ x

end Gates

/-! ### Tracking the three evaluations -/

/-- Driven wires carry the label of their plain value; all others are zero. -/
structure Tracks (r : Label) (wireCount : Nat) (driven : Nat → Prop) (garbling : GarbleState)
    (evaluation : EvaluateState) (values : List Bool) : Prop where
  sameTweak : garbling.tweak = evaluation.tweak
  wiresLength : garbling.wires.length = wireCount
  labelsLength : evaluation.wires.length = wireCount
  valuesLength : values.length = wireCount
  carries : ∀ wire, driven wire → Carries r (garbling.wires.getD wire Wire.zero)
    (evaluation.wires.getD wire Label.zero) (values.getD wire false)
  idle : ∀ wire, ¬ driven wire →
    garbling.wires.getD wire Wire.zero = Wire.zero ∧
      evaluation.wires.getD wire Label.zero = Label.zero ∧ values.getD wire false = false

section Step

variable {wireCount : Nat} {driven : Nat → Prop} {values : List Bool}
  (tracks : Tracks r wireCount driven garbling evaluation values)
include tracks

theorem Tracks.drive {value : Bool} (inRange : g.out.toNat < wireCount)
    (drives : Drives encrypt r garbling evaluation tables g value) :
    Tracks r wireCount (fun wire => driven wire ∨ wire = g.out.toNat)
      (garbleGate encrypt r garbling g) (evaluateGate encrypt tables evaluation g)
      (values.set g.out.toNat value) := by
  obtain ⟨sameTweak, w, label, carried, wires, labels⟩ := drives
  refine
    { sameTweak := sameTweak
      wiresLength := by rw [wires, length_set, tracks.wiresLength]
      labelsLength := by rw [labels, length_set, tracks.labelsLength]
      valuesLength := by rw [length_set, tracks.valuesLength]
      carries := ?_
      idle := ?_ }
  · intro wire nowDriven
    rw [wires, labels]
    by_cases same : wire = g.out.toNat
    · rw [same, getD_set_self (by rw [tracks.wiresLength]; exact inRange),
        getD_set_self (by rw [tracks.labelsLength]; exact inRange),
        getD_set_self (by rw [tracks.valuesLength]; exact inRange)]
      exact carried
    · simp only [getD_set_other (Ne.symm same)]
      exact tracks.carries wire (nowDriven.resolve_right same)
  · intro wire notDriven
    simp only [wires, labels, getD_set_other fun same => notDriven (.inr (Eq.symm same))]
    exact tracks.idle wire fun before => notDriven (.inl before)

/-- One gate keeps the three evaluations together, provided the evaluator's
tables hold the rows the garbler writes here. -/
theorem Tracks.step (tables : List Label) (offsetBit : r.permutationBit = true)
    {src : CompiledGate} {op : Operation} (supported : src.op.operation = some op) (tableCount : Nat)
    (leftDriven : driven src.input0.toNat) (rightDriven : src.op ≠ .inv → driven src.input1.toNat)
    (outInRange : src.output.toNat < wireCount)
    (rowsInRange : ∀ row ∈ (planGate src op tableCount).rows, row < garbling.tables.length)
    (rowsKept : ∀ row ∈ (planGate src op tableCount).rows,
      tables.getD row Label.zero =
        (garbleGate encrypt r garbling (planGate src op tableCount)).tables.getD row
          Label.zero) :
    Tracks r wireCount (fun wire => driven wire ∨ wire = src.output.toNat)
      (garbleGate encrypt r garbling (planGate src op tableCount))
      (evaluateGate encrypt tables evaluation (planGate src op tableCount))
      (plainGate values src) := by
  have left := tracks.carries _ leftDriven
  have right (binary : src.op ≠ .inv) := tracks.carries _ (rightDriven binary)
  apply tracks.drive (g := planGate src op tableCount) outInRange
  cases opEq : src.op with (rw [opEq] at supported right; cases supported)
  | xor => exact drives_xor tracks.sameTweak left (right (by decide)) rfl
  | xnor => exact drives_xnor tracks.sameTweak left (right (by decide)) rfl
  | and =>
    exact drives_and tracks.sameTweak left offsetBit rowsInRange rowsKept rfl (right (by decide))
  | inv => exact drives_inv tracks.sameTweak left offsetBit rowsInRange rowsKept rfl

end Step

/-! ### The whole gate list -/

/-- Every gate reads driven wires and drives an in-range wire of its own. -/
def Topological (wireCount : Nat) : List CompiledGate → (Nat → Prop) → Prop
  | [], _ => True
  | src :: rest, driven =>
    driven src.input0.toNat ∧ (src.op ≠ .inv → driven src.input1.toNat) ∧
      2 * inputBits ≤ src.output.toNat ∧ src.output.toNat < wireCount ∧
      Topological wireCount rest fun wire => driven wire ∨ wire = src.output.toNat

variable {position tableCount total : Nat} {gates : List Gate} {sources : List CompiledGate}

theorem planGates_cons_eq_ok {src : CompiledGate} {rest : List CompiledGate}
    (planned : planGates (src :: rest) position tableCount = .ok (gates, total)) :
    ∃ op later, src.op.operation = some op ∧
      planGates rest (position + 1) (tableCount + op.tableRows) = .ok (later, total) ∧
      gates = planGate src op tableCount :: later := by
  rw [planGates] at planned
  cases supported : src.op.operation with
  | none =>
    rw [supported] at planned
    cases planned
  | some op =>
    rw [supported] at planned
    simp only [eq_ok_iff, Prod.exists, Prod.mk.injEq] at planned
    obtain ⟨later, laterTotal, recursive, gatesEq, totalEq⟩ := planned
    subst totalEq
    exact ⟨op, later, rfl, recursive, gatesEq.symm⟩

theorem planGates_source (planned : planGates sources position tableCount = .ok (gates, total))
    (member : g ∈ gates) : ∃ src ∈ sources, g.out = src.output := by
  induction sources generalizing position tableCount gates with
  | nil =>
    cases planned
    cases member
  | cons src rest ih =>
    obtain ⟨op, later, _, recursive, rfl⟩ := planGates_cons_eq_ok planned
    rcases mem_cons.mp member with rfl | member
    · exact ⟨src, mem_cons_self, rfl⟩
    · obtain ⟨found, inside, same⟩ := ih recursive member
      exact ⟨found, mem_cons_of_mem _ inside, same⟩

theorem planGates_count_le (planned : planGates sources position tableCount = .ok (gates, total)) :
    tableCount ≤ total := by
  induction sources generalizing position tableCount gates with
  | nil =>
    cases planned
    exact Nat.le_refl _
  | cons src rest ih =>
    obtain ⟨op, later, _, recursive, _⟩ := planGates_cons_eq_ok planned
    have further := ih recursive
    omega

theorem planGate_rows (src : CompiledGate) (op : Operation) (tableCount : Nat)
    (fits : tableCount + op.tableRows ≤ 2 ^ 32) :
    (planGate src op tableCount).rows = List.range' tableCount op.tableRows := by
  cases op with
  | xor | xnor => rfl
  | and =>
    change tableCount + 2 ≤ 2 ^ 32 at fits
    change [(BitVec.ofNat 32 tableCount).toNat, (BitVec.ofNat 32 tableCount + 1).toNat] =
      [tableCount, tableCount + 1]
    have first : (BitVec.ofNat 32 tableCount).toNat = tableCount := by
      rw [BitVec.toNat_ofNat]
      omega
    have second : (BitVec.ofNat 32 tableCount + 1).toNat = tableCount + 1 := by
      rw [BitVec.toNat_add, first]
      change (tableCount + 1) % 2 ^ 32 = tableCount + 1
      omega
    rw [first, second]
  | inv =>
    change tableCount + 1 ≤ 2 ^ 32 at fits
    change [(BitVec.ofNat 32 tableCount).toNat] = [tableCount]
    rw [BitVec.toNat_ofNat, Nat.mod_eq_of_lt (by omega)]

theorem garbleGate_tables_frame {row : Nat} (untouched : row ∉ g.rows) :
    (garbleGate encrypt r garbling g).tables.getD row Label.zero =
      garbling.tables.getD row Label.zero := by
  unfold Gate.rows at untouched
  unfold garbleGate
  cases opEq : g.op with
  | xor | xnor => rfl
  | and =>
    rw [opEq] at untouched
    have notFirst : g.table.toNat ≠ row := fun same =>
      untouched (same ▸ mem_cons_self)
    have notSecond : (g.table + 1).toNat ≠ row := fun same =>
      untouched (mem_cons_of_mem _ (same ▸ mem_cons_self))
    rw [getD_set_other notSecond, getD_set_other notFirst]
  | inv =>
    rw [opEq] at untouched
    have notFirst : g.table.toNat ≠ row := fun same =>
      untouched (same ▸ mem_cons_self)
    rw [getD_set_other notFirst]

theorem garbleGate_tables_length :
    (garbleGate encrypt r garbling g).tables.length = garbling.tables.length := by
  unfold garbleGate
  cases g.op with
  | xor | xnor => rfl
  | and | inv => simp

theorem garbleGate_writes (state : GarbleState) (g : Gate) : ∃ w,
    (garbleGate encrypt r state g).wires = state.wires.set g.out.toNat w := by
  unfold garbleGate
  cases g.op with
  | xor | xnor | and | inv => exact ⟨_, rfl⟩

theorem evaluateGate_writes (state : EvaluateState) (g : Gate) : ∃ label,
    (evaluateGate encrypt tables state g).wires = state.wires.set g.out.toNat label := by
  unfold evaluateGate
  cases g.op with
  | xor | xnor | and | inv => exact ⟨_, rfl⟩

theorem garble_tables_frame (planned : planGates sources position tableCount = .ok (gates, total))
    (fits : total ≤ 2 ^ 32) (state : GarbleState) (row : Nat) (earlier : row < tableCount) :
    (gates.foldl (garbleGate encrypt r) state).tables.getD row Label.zero =
      state.tables.getD row Label.zero := by
  induction sources generalizing position tableCount gates state with
  | nil =>
    cases planned
    rfl
  | cons src rest ih =>
    obtain ⟨op, later, _, recursive, gatesEq⟩ := planGates_cons_eq_ok planned
    have bound := planGates_count_le recursive
    have rows := planGate_rows src op tableCount (by omega)
    have untouched : row ∉ (planGate src op tableCount).rows := by
      rw [rows, mem_range'_1]
      omega
    rw [gatesEq, foldl_cons, ih recursive _ (by omega), garbleGate_tables_frame untouched]

theorem garble_tables_length (gates : List Gate) (state : GarbleState) :
    (gates.foldl (garbleGate encrypt r) state).tables.length = state.tables.length := by
  induction gates generalizing state with
  | nil => rfl
  | cons g rest ih => rw [foldl_cons, ih, garbleGate_tables_length]

/-- Side-by-side run over the planned gates. The evaluator reads the tables
the garbler ends with. -/
theorem Tracks.run (planned : planGates sources position tableCount = .ok (gates, total))
    (fits : total ≤ 2 ^ 32) (offsetBit : r.permutationBit = true) {wireCount : Nat}
    {driven : Nat → Prop} {values : List Bool} (topological : Topological wireCount sources driven)
    (tracks : Tracks r wireCount driven garbling evaluation values)
    (tablesLength : garbling.tables.length = total)
    (tablesEq : tables = (gates.foldl (garbleGate encrypt r) garbling).tables) :
    ∃ drivenAfter,
      Tracks r wireCount drivenAfter (gates.foldl (garbleGate encrypt r) garbling)
        (gates.foldl (evaluateGate encrypt tables) evaluation) (sources.foldl plainGate values) := by
  induction sources generalizing position tableCount gates driven garbling evaluation values with
  | nil =>
    cases planned
    exact ⟨driven, tracks⟩
  | cons src rest ih =>
    obtain ⟨op, later, supported, recursive, rfl⟩ := planGates_cons_eq_ok planned
    obtain ⟨leftDriven, rightDriven, _, outInRange, restTopological⟩ := topological
    have bound := planGates_count_le recursive
    have rows := planGate_rows src op tableCount (by omega)
    have stepped := tracks.step tables offsetBit supported tableCount leftDriven rightDriven
      outInRange
      (by
        intro row member
        rw [rows, mem_range'_1] at member
        omega)
      (by
        intro row member
        rw [rows, mem_range'_1] at member
        rw [tablesEq]
        exact garble_tables_frame recursive fits _ row (by omega))
    exact ih recursive restTopological stepped (garbleGate_tables_length.trans tablesLength)
      tablesEq

end ReclaimTee.Mpc
