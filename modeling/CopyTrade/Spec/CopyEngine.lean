import CopyTrade.Async.Prog
import CopyTrade.Spec.Events
import CopyTrade.Spec.Stream

/-!
# The copy engine

`handler.py`, `processor.py`, the handlers of `main.py` and the two-statement
recorder of `execution_results.py`, as programs of awaited calls. Every `await` of
the source on a store, a recorder, the provider or the bus is one call; `uuid4()` is
a draw.
-/

namespace CopyTrade

open Async (Sig Prog)

/-- `relationships.CopyRelationship`. -/
structure CopyRelationship where
  copyRelationshipId : UUID
  followerAccountId : String
  targetExchange : Exchange
  targetSymbol : String
  effectiveFrom : Timestamp
  maxSlippageBps : ℤ := 100
  active : Bool := true
  sourceAccountStatus : Option String := some "active"
  followerAccountStatus : Option String := some "active"
  followerUserStatus : Option String := some "active"
  subscriptionStatus : Option String := some "active"
  copyTradingEnabled : Bool := true
  riskEnabled : Bool := true
  riskMaxOrderQuantity : Option Decimal := none
  riskMaxSlippageBps : Option ℤ := some 1000
  riskMaxLeverage : Option Decimal := none
  deriving DecidableEq

/-! ## Awaited calls -/

inductive Call where
  | listActiveForEvent (event : NormalizedOrderEvent)
  | reserve (key : String)
  | release (key : String)
  | record (request : CopyExecutionRequest)
  | markPublished (request : CopyExecutionRequest)
  | publishJson (subject : String) (payload : CopyExecutionRequest)
  | insertResult (result : CopyExecutionResult)
  | updateRequestFromResult (requestId : UUID) (status : CopyExecutionStatus)

abbrev CopyEngine : Sig where
  Name := UUID
  Call := Call
  Ret
    | .listActiveForEvent _ => List CopyRelationship
    | .reserve _ => Bool
    | _ => Unit
  Exn := PyException

def listActiveForEvent (event : NormalizedOrderEvent) : Prog CopyEngine (List CopyRelationship) :=
  Prog.call (σ := CopyEngine) (.listActiveForEvent event)

def reserve (key : String) : Prog CopyEngine Bool := Prog.call (σ := CopyEngine) (.reserve key)

def release (key : String) : Prog CopyEngine Unit := Prog.call (σ := CopyEngine) (.release key)

def record (request : CopyExecutionRequest) : Prog CopyEngine Unit :=
  Prog.call (σ := CopyEngine) (.record request)

def markPublished (request : CopyExecutionRequest) : Prog CopyEngine Unit :=
  Prog.call (σ := CopyEngine) (.markPublished request)

def publishJson (subject : String) (payload : CopyExecutionRequest) : Prog CopyEngine Unit :=
  Prog.call (σ := CopyEngine) (.publishJson subject payload)

/-! ## `handler.py` -/

def eventIsAfterFollowStart (event : NormalizedOrderEvent) (effectiveFrom : Timestamp) : Bool :=
  event.occurredAt ≥ effectiveFrom

/-- `f"copy:{copy_relationship_id}:{event.idempotency_key}"` -/
def copyKey (copyRelationshipId : UUID) (eventKey : String) : String :=
  "copy:" ++ copyRelationshipId.str ++ ":" ++ eventKey

theorem copyKey_min (id : UUID) {key : String} (h : 8 ≤ key.length) :
    8 ≤ (copyKey id key).length := by
  simp only [copyKey, String.length_append]; omega

/-- **The key distinguishes relationships and event keys**, whatever characters the event
key contains: the text of an id has a fixed length. -/
theorem copyKey_inj {a b : UUID} {k l : String} (h : copyKey a k = copyKey b l) : a = b ∧ k = l := by
  have h := congrArg String.toList h
  simp only [copyKey, String.toList_append, List.append_assoc] at h
  obtain ⟨-, h⟩ := List.append_inj h rfl
  obtain ⟨hid, h⟩ := List.append_inj h (by rw [UUID.length_str, UUID.length_str])
  obtain ⟨-, h⟩ := List.append_inj h rfl
  exact ⟨UUID.str_inj (String.toList_injective hid), String.toList_injective h⟩

/-- Where a key holds a U+0000, the event key does. -/
theorem nul_copyKey (id : UUID) (key : String) :
    '\u0000' ∈ (copyKey id key).toList ↔ '\u0000' ∈ key.toList := by
  have hprefix : '\u0000' ∉ "copy:".toList := by decide
  have hcolon : '\u0000' ∉ ":".toList := by decide
  simp only [copyKey, String.toList_append, List.mem_append, hprefix, hcolon, id.nul_not_str,
    false_or]

/-- The request is built from a validated event, so only the two columns that come from
the relationship can fail the validation. `eventId` is the default of `event_id`, and
`max_slippage_bps` is left to its default. -/
def buildDryRunExecutionRequest (eventId : UUID) (event : NormalizedOrderEvent)
    (copyRelationshipId : UUID) (followerAccountId : String) (targetExchange : Exchange)
    (targetSymbol : String) : Except PyException CopyExecutionRequest :=
  if h : 1 ≤ followerAccountId.length ∧ 1 ≤ targetSymbol.length then
    .ok {
      eventId := eventId
      occurredAt := event.occurredAt
      observedAt := event.observedAt
      sourceExchange := event.sourceExchange
      sourceAccountId := event.sourceAccountId
      idempotencyKey := copyKey copyRelationshipId event.idempotencyKey
      traceId := event.traceId
      sourceAccountId_min := event.sourceAccountId_min
      idempotencyKey_min := copyKey_min copyRelationshipId event.idempotencyKey_min
      sourceEventId := event.eventId
      copyRelationshipId := copyRelationshipId
      followerAccountId := followerAccountId
      targetExchange := targetExchange
      targetSymbol := targetSymbol
      orderType := event.orderType
      side := event.side
      positionSide := event.positionSide
      quantity := event.quantity
      price := event.price
      triggerPrice := event.triggerPrice
      reduceOnly := event.reduceOnly
      postOnly := event.postOnly
      dryRun := true
      followerAccountId_min := h.1
      targetSymbol_min := h.2
      quantity_pos := event.quantity_pos
      price_pos := event.price_pos
      triggerPrice_pos := event.triggerPrice_pos }
  else .error validationError

/-! ## `processor.py` -/

def relationshipHasActiveExchangeAccounts (relationship : CopyRelationship) : Bool :=
  relationship.sourceAccountStatus == some "active" &&
    relationship.followerAccountStatus == some "active" &&
    relationship.followerUserStatus == some "active"

def relationshipHasActiveSubscription (relationship : CopyRelationship) : Bool :=
  (relationship.subscriptionStatus == some "active" ||
    relationship.subscriptionStatus == some "trialing") && relationship.copyTradingEnabled

def relationshipPassesRiskSettings (event : NormalizedOrderEvent)
    (relationship : CopyRelationship) : Bool :=
  if !relationship.riskEnabled then false
  else match relationship.riskMaxSlippageBps with
    | none => false
    | some riskMaxSlippageBps =>
      if relationship.maxSlippageBps > riskMaxSlippageBps then false
      else if relationship.riskMaxOrderQuantity.any (event.quantity > ·) then false
      else match relationship.riskMaxLeverage, event.leverage with
        | some riskMaxLeverage, some leverage => leverage ≤ riskMaxLeverage
        | _, _ => true

structure ProcessingResult where
  requests : List CopyExecutionRequest := []
  skippedDuplicates : ℕ := 0
  skippedInactive : ℕ := 0
  skippedBeforeFollowStart : ℕ := 0
  skippedExchangeAccount : ℕ := 0
  skippedSubscription : ℕ := 0
  skippedRisk : ℕ := 0
  deriving DecidableEq

/-- The loop of `_build_requests_for_relationships`, from the counters `acc`. -/
def buildRequestsForRelationships (event : NormalizedOrderEvent) :
    List CopyRelationship → ProcessingResult → Prog CopyEngine ProcessingResult
  | [], acc => pure acc
  | relationship :: rest, acc =>
    if !relationship.active then
      buildRequestsForRelationships event rest
        { acc with skippedInactive := acc.skippedInactive + 1 }
    else if !relationshipHasActiveExchangeAccounts relationship then
      buildRequestsForRelationships event rest
        { acc with skippedExchangeAccount := acc.skippedExchangeAccount + 1 }
    else if !relationshipHasActiveSubscription relationship then
      buildRequestsForRelationships event rest
        { acc with skippedSubscription := acc.skippedSubscription + 1 }
    else if !relationshipPassesRiskSettings event relationship then
      buildRequestsForRelationships event rest { acc with skippedRisk := acc.skippedRisk + 1 }
    else if !eventIsAfterFollowStart event relationship.effectiveFrom then
      buildRequestsForRelationships event rest
        { acc with skippedBeforeFollowStart := acc.skippedBeforeFollowStart + 1 }
    else do
      let eventId ← Prog.name (σ := CopyEngine)
      let request ← Prog.ofExcept (σ := CopyEngine) (buildDryRunExecutionRequest eventId event
        relationship.copyRelationshipId relationship.followerAccountId
        relationship.targetExchange relationship.targetSymbol)
      let reserved ← reserve request.idempotencyKey
      if !reserved then
        buildRequestsForRelationships event rest
          { acc with skippedDuplicates := acc.skippedDuplicates + 1 }
      else
        buildRequestsForRelationships event rest { acc with requests := acc.requests ++ [request] }

def processNormalizedOrderEvent (event : NormalizedOrderEvent) :
    Prog CopyEngine ProcessingResult := do
  let relationships ← listActiveForEvent event
  buildRequestsForRelationships event relationships {}

def releaseIdempotencyKey (key : String) : Prog CopyEngine Unit := release key

/-! ## `main.py` -/

/-- The loop `for request in result.requests`. -/
def handOver : List CopyExecutionRequest → Prog CopyEngine Unit
  | [] => pure ()
  | request :: rest => do
    record request
    (publishJson copyExecutionRequested request).tryExcept fun e => do
      releaseIdempotencyKey request.idempotencyKey
      Prog.fail e
    markPublished request
    handOver rest

/-- `validated` is what `NormalizedOrderEvent.model_validate(message.data)` answers. -/
def handleNormalizedTradeEvent (validated : Except PyException NormalizedOrderEvent) :
    Prog CopyEngine Unit := do
  let event ← Prog.ofExcept (σ := CopyEngine) validated
  let result ← processNormalizedOrderEvent event
  handOver result.requests

/-- `PostgresCopyExecutionResultRecorder.record`: two statements, each committed by itself. -/
def recordResult (result : CopyExecutionResult) : Prog CopyEngine Unit := do
  Prog.call (σ := CopyEngine) (.insertResult result)
  Prog.call (σ := CopyEngine) (.updateRequestFromResult result.requestId result.status)

/-- `validated` is what `CopyExecutionResult.model_validate(message.data)` answers. -/
def handleCopyExecutionResultEvent (validated : Except PyException CopyExecutionResult) :
    Prog CopyEngine Unit := do
  let result ← Prog.ofExcept (σ := CopyEngine) validated
  recordResult result

end CopyTrade
