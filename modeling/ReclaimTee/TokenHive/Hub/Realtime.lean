/-
A streaming session through the Hub. The in-flight slot belongs to the tunnel
and is given back by the first of its closes, which comes before the relay of
the session returns; the receipt is read, priced and settled after that.
-/

import ReclaimTee.TokenHive.Hub.Execute

namespace ReclaimTee.TokenHive.Hub

structure SessionOutcome where
  receipt : SignedReceipt
  provider : Text
  uplinkBytes : Nat
  downlinkBytes : Nat
  charged : Nat
  commission : Nat
  buyer : Nat
  stored : Bool
deriving DecidableEq, Repr

def SessionOutcome.empty : SessionOutcome where
  receipt := .zero
  provider := []
  uplinkBytes := 0
  downlinkBytes := 0
  charged := 0
  commission := 0
  buyer := 0
  stored := false

structure SessionEnd where
  outcome : SessionOutcome
  error : Option HubError
deriving DecidableEq, Repr

def supplyError (model : Text) : HubProgram HubError := do
  let gone ← send .agentsGone
  if gone then
    return .noProvidersOnline model
  else
    return .noProviderForModel model

namespace Config

variable (config : Config)

def boundSession (spec : Spec) : Spec :=
  if config.sessionMaxDownBytes = 0 then
    spec
  else if spec.maxResponseBytes = 0 ∨ config.sessionMaxDownBytes < spec.maxResponseBytes then
    { spec with maxResponseBytes := config.sessionMaxDownBytes }
  else
    spec

/-- Tries the candidates in order; only a failed open goes on to the next. -/
def openAmong (model : Text) : List Text → HubProgram (Except HubError Spec)
  | [] => return .error (.noProviderForModel model)
  | provider :: rest => do
      let built ← send (.build provider)
      match built with
      | .error reason => return .error (.buildSpec provider reason)
      | .ok spec =>
        let attached ← attachCredential (config.boundSession spec)
        match attached with
        | .error error => return .error error
        | .ok spec =>
          let opened ← send (.openSession spec)
          if opened then
            return .ok spec
          else
            openAmong model rest

/-- A session for the cheapest server of a model, or pinned to one provider. -/
def openSessionFor (model : Text) (pinned : Option Text) : HubProgram (Except HubError Spec) := do
  match pinned with
  | some provider =>
    let serves ← send (.providerServes provider model)
    if serves then
      config.openAmong model [provider]
    else
      return .error (.noProviderForModel model)
  | none =>
    let providers ← send (.providersForModel model)
    if providers = [] then
      let error ← supplyError model
      return .error error
    else
      config.openAmong model providers

/-- On success the slot stays taken: it belongs to the tunnel. -/
def openSession (tenant model : Text) (pinned : Option Text) :
    HubProgram (Except HubError Spec) := do
  let refused ← beginJob tenant
  match refused with
  | some error => return .error error
  | none =>
    let opened ← config.openSessionFor model pinned
    match opened with
    | .error error =>
      send (.release tenant)
      return .error error
    | .ok spec => return .ok spec

def billedSession (spec : Spec) (relayed : RelayEnd) (signed : SignedReceipt) (bill : Bill)
    (stored : Bool) : SessionOutcome where
  receipt := signed
  provider := spec.provider
  uplinkBytes := relayed.up
  downlinkBytes := relayed.down
  charged := bill.charged
  commission := bill.commission
  buyer := bill.buyer
  stored := stored

/-- What is done with the terminal receipt of a session. -/
def accountSession (tenant model : Text) (spec : Spec) (relayed : RelayEnd)
    (signed : SignedReceipt) : HubProgram SessionEnd := do
  match config.verify signed with
  | some reason => return ⟨.empty, some (.verify reason)⟩
  | none =>
    send (.noteVerified spec.provider)
    if signed.receipt.statusCode ≠ Hub.sessionStatus then
      return ⟨.empty, some (.sessionStatus signed.receipt.statusCode)⟩
    else if relayed.up < signed.receipt.requestBytes ∨
        signed.receipt.responseBytes ≠ relayed.down ∨
        signed.receipt.streamHash ≠ relayed.downHash then
      return ⟨.empty, some .sessionStreamMismatch⟩
    else
      let card ← send (.card spec.provider)
      match card with
      | none => return ⟨.empty, some (.unknownProvider spec.provider)⟩
      | some card =>
        match config.bill card model relayed.down signed.receipt with
        | none => return ⟨.empty, some .priceOverflow⟩
        | some bill =>
          let (stored, error) ← config.storeAndSettle tenant spec.provider signed bill
          let outcome := billedSession spec relayed signed bill stored
          return ⟨outcome, error.or (relayed.error.map .relay)⟩

/-- The backstop on the downlink settles nothing. -/
def endSession (tenant model : Text) (spec : Spec) (relayed : RelayEnd) :
    HubProgram SessionEnd := do
  if relayed.error = some .sessionLimitExceeded then
    let outcome :=
      { SessionOutcome.empty with
        provider := spec.provider
        uplinkBytes := relayed.up
        downlinkBytes := relayed.down }
    return ⟨outcome, some (.relay .sessionLimitExceeded)⟩
  else
    let receipt ← send (.sessionReceipt spec)
    match receipt with
    | .error reason => return ⟨.empty, some (.noReceiptForSession reason)⟩
    | .ok signed => config.accountSession tenant model spec relayed signed

def runRealtime (tenant model : Text) (pinned : Option Text) : HubProgram SessionEnd := do
  let opened ← config.openSession tenant model pinned
  match opened with
  | .error error => return ⟨.empty, some error⟩
  | .ok spec =>
    send (.noteDispatch spec.provider)
    -- The first close of the tunnel, by whichever goroutine ends the session.
    send (.release tenant)
    let relayed ← send (.relaySession spec)
    config.endSession tenant model spec relayed

end Config

end ReclaimTee.TokenHive.Hub
