/-
What a receipt earns under a seller's rate card, and the cut the Hub takes on
it. Sums and products that leave the range of a 64-bit number are refused.
-/

import ReclaimTee.TokenHive.Receipt

namespace ReclaimTee.TokenHive.Hub

def mebibyte : Nat := 2 ^ 20

/-- The status of a receipt for a streaming session. -/
def sessionStatus : Nat := 101

structure RateCard where
  perRequestMicros : Nat
  perMegabyteMicros : Nat
  modelPremiumMicros : List (Text × Nat)
deriving DecidableEq, Repr

def RateCard.premium (card : RateCard) (model : Text) : Nat :=
  (card.modelPremiumMicros.lookup model).getD 0

def addChecked (one other : Nat) : Option Nat :=
  if one + other < uint64Limit then some (one + other) else none

def mulChecked (one other : Nat) : Option Nat :=
  if one * other < uint64Limit then some (one * other) else none

/-- A completed success, of a request or of a session. -/
def billable (receipt : Receipt) : Bool :=
  if receipt.completion ≠ .complete then
    false
  else if 200 ≤ receipt.statusCode ∧ receipt.statusCode < 300 then
    true
  else
    receipt.statusCode = sessionStatus

/-- The price in micro-units; none where it does not fit 64 bits. -/
def price (card : RateCard) (declaredModel : Text) (relayedBytes : Nat) (receipt : Receipt) :
    Option Nat :=
  if receipt.completion ≠ .complete ∧ receipt.completion ≠ .truncated then
    some 0
  else if (receipt.statusCode < 200 ∨ 300 ≤ receipt.statusCode) ∧
      receipt.statusCode ≠ sessionStatus then
    some 0
  else
    let delivered := min receipt.responseBytes relayedBytes
    if receipt.completion = .truncated ∧ delivered = 0 then
      some 0
    else do
      let billed ← addChecked receipt.requestBytes delivered
      -- The rounding itself is not checked and wraps.
      let volumes := (billed + mebibyte - 1) % uint64Limit / mebibyte
      let total ← mulChecked volumes card.perMegabyteMicros
      if receipt.completion = .complete then do
        let fee ← addChecked card.perRequestMicros (card.premium declaredModel)
        addChecked total fee
      else
        some total

/-- The Hub's cut in hundredths of a percent. -/
structure CommissionRate where
  basisPoints : Nat
deriving DecidableEq, Repr

def CommissionRate.commissionOn (rate : CommissionRate) (seller : Nat) : Option Nat :=
  if rate.basisPoints = 0 ∨ seller = 0 then
    some 0
  else
    (mulChecked seller rate.basisPoints).map (· / 10000)

def CommissionRate.buyerPrice (rate : CommissionRate) (seller : Nat) : Option Nat := do
  let commission ← rate.commissionOn seller
  addChecked seller commission

/-- The price of a card for the scheduler's order and the directory. -/
def bookPrice (card : RateCard) (model : Text) : Option Nat := do
  let book ← addChecked card.perRequestMicros (card.premium model)
  addChecked book card.perMegabyteMicros

/-! ### Exact prices -/

def billedBytes (relayed : Nat) (receipt : Receipt) : Nat :=
  receipt.requestBytes + min receipt.responseBytes relayed

def Earns (relayed : Nat) (receipt : Receipt) : Prop :=
  (receipt.completion = .complete ∨
      receipt.completion = .truncated ∧ min receipt.responseBytes relayed ≠ 0) ∧
    (200 ≤ receipt.statusCode ∧ receipt.statusCode < 300 ∨ receipt.statusCode = sessionStatus)

instance (relayed : Nat) (receipt : Receipt) : Decidable (Earns relayed receipt) :=
  inferInstanceAs (Decidable (_ ∧ _))

/-- The charge for so many volumes, without any bound. -/
def charge (card : RateCard) (model : Text) (receipt : Receipt) (volumes : Nat) : Nat :=
  volumes * card.perMegabyteMicros +
    if receipt.completion = .complete then card.perRequestMicros + card.premium model else 0

def exactPrice (card : RateCard) (model : Text) (relayed : Nat) (receipt : Receipt) : Nat :=
  if Earns relayed receipt then
    charge card model receipt ((billedBytes relayed receipt + mebibyte - 1) / mebibyte)
  else
    0

/-- Prices of a receipt are exact or refused, and not below the book price. -/
def ExactlyPriced (card : RateCard) (rate : CommissionRate) (model : Text) (relayed : Nat)
    (receipt : Receipt) : Prop :=
  match price card model relayed receipt with
  | some amount =>
    amount = exactPrice card model relayed receipt ∧ amount < uint64Limit ∧
      (∀ buyer, rate.buyerPrice amount = some buyer →
        buyer = amount + amount * rate.basisPoints / 10000 ∧ buyer < uint64Limit) ∧
      (billable receipt = true → 1 ≤ billedBytes relayed receipt →
        ∀ book, bookPrice card model = some book → book ≤ amount)
  | none =>
    uint64Limit ≤ exactPrice card model relayed receipt ∨
      uint64Limit ≤ billedBytes relayed receipt

/-- The rounding of the volume wraps, which only a rate of zero or a flat fee
that is refused by itself makes harmless. -/
def WrapsVolume (card : RateCard) (model : Text) (relayed : Nat) (receipt : Receipt) : Prop :=
  Earns relayed receipt ∧ uint64Limit < billedBytes relayed receipt + mebibyte ∧
    billedBytes relayed receipt < uint64Limit ∧ card.perMegabyteMicros ≠ 0 ∧
    (receipt.completion = .complete → card.perRequestMicros + card.premium model < uint64Limit)

theorem addChecked_eq_some {one other sum : Nat} :
    addChecked one other = some sum ↔ sum = one + other ∧ sum < uint64Limit := by
  unfold addChecked
  split <;> simp <;> omega

theorem mulChecked_eq_some {one other product : Nat} :
    mulChecked one other = some product ↔ product = one * other ∧ product < uint64Limit := by
  unfold mulChecked
  split <;> simp <;> omega

theorem buyerPrice_eq_some {rate : CommissionRate} {seller buyer : Nat}
    (priced : rate.buyerPrice seller = some buyer) :
    buyer = seller + seller * rate.basisPoints / 10000 ∧ buyer < uint64Limit := by
  obtain ⟨commission, cut, sum⟩ := Option.bind_eq_some_iff.mp priced
  obtain ⟨rfl, fits⟩ := addChecked_eq_some.mp sum
  refine ⟨congrArg _ ?_, fits⟩
  unfold CommissionRate.commissionOn at cut
  split at cut
  · next free =>
    cases cut
    obtain zero | zero := free <;> simp [zero]
  · obtain ⟨scaled, product, rfl⟩ := Option.map_eq_some_iff.mp cut
    rw [(mulChecked_eq_some.mp product).1]

section

variable {card : RateCard} {model : Text} {relayed : Nat} {receipt : Receipt}

theorem price_eq_some {amount : Nat} :
    price card model relayed receipt = some amount ↔
      if Earns relayed receipt then
        billedBytes relayed receipt < uint64Limit ∧ amount < uint64Limit ∧
          amount = charge card model receipt
            ((billedBytes relayed receipt + mebibyte - 1) % uint64Limit / mebibyte)
      else amount = 0 := by
  unfold price
  obtain earning | nothing := Decidable.em (Earns relayed receipt)
  · have ⟨ended, success⟩ := earning
    rw [if_pos earning, if_neg (by tauto), if_neg (by omega)]
    simp only
    rw [if_neg fun ⟨cut, undelivered⟩ => ended.elim (by simp [cut]) (·.2 undelivered)]
    simp only [Option.bind_eq_bind, Option.bind_eq_some_iff, addChecked_eq_some,
      mulChecked_eq_some, billedBytes, charge]
    split <;> simp [addChecked_eq_some, Option.bind_eq_some_iff] <;> omega
  · rw [if_neg nothing]
    split
    · simp [eq_comm]
    split
    · simp [eq_comm]
    simp only
    rw [if_pos]
    · simp [eq_comm]
    unfold Earns at nothing
    have success : 200 ≤ receipt.statusCode ∧ receipt.statusCode < 300 ∨
        receipt.statusCode = sessionStatus := by omega
    tauto

theorem price_of_wraps (wraps : WrapsVolume card model relayed receipt) :
    price card model relayed receipt = some (charge card model receipt 0) ∧
      charge card model receipt 0 < exactPrice card model relayed receipt := by
  obtain ⟨earning, above, below, rated, feeFits⟩ := wraps
  have lost : (billedBytes relayed receipt + mebibyte - 1) % uint64Limit / mebibyte = 0 := by
    unfold uint64Limit mebibyte at *
    omega
  have fits : charge card model receipt 0 < uint64Limit := by
    unfold charge
    split
    · next complete => simpa using feeFits complete
    · simp [uint64Limit]
  have units : 0 < (billedBytes relayed receipt + mebibyte - 1) / mebibyte := by
    unfold uint64Limit mebibyte at *
    omega
  rw [price_eq_some, exactPrice, if_pos earning, if_pos earning, lost]
  refine ⟨⟨below, fits, rfl⟩, ?_⟩
  have := Nat.mul_pos units (Nat.pos_of_ne_zero rated)
  unfold charge
  omega

/-- The code's charge is the exact one unless both are too large. -/
theorem charge_agrees (exact : ¬ WrapsVolume card model relayed receipt)
    (earning : Earns relayed receipt) (below : billedBytes relayed receipt < uint64Limit) :
    let charged := charge card model receipt
      ((billedBytes relayed receipt + mebibyte - 1) % uint64Limit / mebibyte)
    charged = exactPrice card model relayed receipt ∨
      uint64Limit ≤ charged ∧ uint64Limit ≤ exactPrice card model relayed receipt := by
  rw [exactPrice, if_pos earning]
  by_cases above : uint64Limit < billedBytes relayed receipt + mebibyte
  · unfold charge
    by_contra! differ
    refine exact ⟨earning, above, below, fun unrated => ?_, fun complete => ?_⟩
    · simp [unrated] at differ
    · rw [if_pos complete] at differ
      omega
  · rw [Nat.mod_eq_of_lt (by unfold mebibyte uint64Limit at *; omega)]
    exact .inl rfl

theorem exactPrice_of_some (exact : ¬ WrapsVolume card model relayed receipt) {amount : Nat}
    (returned : price card model relayed receipt = some amount) :
    amount = exactPrice card model relayed receipt ∧ amount < uint64Limit := by
  rw [price_eq_some] at returned
  split at returned
  · next earning =>
    obtain ⟨below, fits, rfl⟩ := returned
    have := charge_agrees exact earning below
    omega
  · next nothing => simp [returned, exactPrice, nothing, uint64Limit]

theorem bookPrice_le (bills : billable receipt = true) (nonempty : 1 ≤ billedBytes relayed receipt)
    {book : Nat} (booked : bookPrice card model = some book) :
    book ≤ exactPrice card model relayed receipt := by
  unfold billable at bills
  split at bills
  · cases bills
  next complete =>
  have complete := not_not.mp complete
  have earning : Earns relayed receipt := by
    refine ⟨.inl complete, ?_⟩
    split at bills
    · next success => exact .inl success
    · exact .inr (of_decide_eq_true bills)
  obtain ⟨fee, feeSum, bookSum⟩ := Option.bind_eq_some_iff.mp booked
  have unit : 1 ≤ (billedBytes relayed receipt + mebibyte - 1) / mebibyte := by
    unfold mebibyte
    omega
  have volume := Nat.mul_le_mul_right card.perMegabyteMicros unit
  rw [exactPrice, if_pos earning, charge, if_pos complete,
    (addChecked_eq_some.mp bookSum).1, (addChecked_eq_some.mp feeSum).1]
  omega

end

theorem exactlyPriced_iff (card : RateCard) (rate : CommissionRate) (model : Text) (relayed : Nat)
    (receipt : Receipt) :
    ExactlyPriced card rate model relayed receipt ↔ ¬ WrapsVolume card model relayed receipt := by
  unfold ExactlyPriced
  constructor
  · intro priced wraps
    obtain ⟨returned, less⟩ := price_of_wraps wraps
    rw [returned] at priced
    exact less.ne priced.1
  intro exact
  split
  · next amount returned =>
    obtain ⟨rfl, fits⟩ := exactPrice_of_some exact returned
    refine ⟨rfl, fits, fun _ => buyerPrice_eq_some, ?_⟩
    exact fun bills nonempty _ => bookPrice_le bills nonempty
  · next refused =>
    by_contra! fits
    have returned : price card model relayed receipt =
        some (exactPrice card model relayed receipt) := by
      rw [price_eq_some]
      split
      · next earning =>
        have := charge_agrees exact earning fits.2
        omega
      · next nothing => rw [exactPrice, if_neg nothing]
    rw [refused] at returned
    cases returned

/-- A completed request of 2^64 - 1 bytes. -/
def hugeRequest : Receipt :=
  { SignedReceipt.zero.receipt with
    completion := .complete, statusCode := 200, requestBytes := uint64Limit - 1 }

theorem huge_request_free : ¬ ExactlyPriced ⟨0, 1, []⟩ ⟨0⟩ [] 0 hugeRequest := by
  have returned : price ⟨0, 1, []⟩ [] 0 hugeRequest = some 0 := by decide
  unfold ExactlyPriced
  rw [returned]
  exact fun priced => absurd priced.1 (by decide)

end ReclaimTee.TokenHive.Hub
