import CopyTrade.Spec.Events
import CopyTrade.Sql.Column
import CopyTrade.Sql.Keyed

/-!
# Subscriptions and risk settings

The payloads, the rows and the responses of the subscriptions and of the risk settings of
`foundation_controls.py`.

* `newSubscription`, `newRiskSettings?`: the rows that the upserts insert.
* `setSubscription`, `setRiskSettings`: what they set where the user, or the relationship,
  has a row.
-/

namespace CopyTrade

/-! ## Subscriptions -/

inductive SubscriptionStatus where
  | trialing
  | active
  | pastDue
  | canceled
  | disabled
  deriving DecidableEq, Repr

structure SubscriptionUpsert where
  status : SubscriptionStatus
  copyTradingEnabled : Bool := false
  currentPeriodEnd : Option Timestamp := none
  deriving DecidableEq

/-- `SubscriptionRecord`: the columns of a row of `user_subscriptions`. -/
structure SubscriptionRecord where
  userId : UUID
  status : SubscriptionStatus
  copyTradingEnabled : Bool
  currentPeriodEnd : Option Timestamp
  createdAt : Timestamp
  updatedAt : Timestamp
  deriving DecidableEq

instance : Sql.Constrained SubscriptionRecord where
  Clash a b := a.userId = b.userId
  clash_symm h := h.symm
  decidable _ _ := inferInstance

instance : Sql.Keyed SubscriptionRecord UUID Empty where
  id r := r.userId
  entries _ := []
  clash_iff := by simp [Sql.Clash]

/-- The row that `UPSERT_SUBSCRIPTION_SQL` inserts. -/
def newSubscription (userId : UUID) (now : Timestamp) (payload : SubscriptionUpsert) :
    SubscriptionRecord where
  userId := userId
  status := payload.status
  copyTradingEnabled := payload.copyTradingEnabled
  currentPeriodEnd := payload.currentPeriodEnd
  createdAt := now
  updatedAt := now

/-- What it sets `ON CONFLICT`. -/
def setSubscription (now : Timestamp) (payload : SubscriptionUpsert) (r : SubscriptionRecord) :
    SubscriptionRecord :=
  { r with
    status := payload.status
    copyTradingEnabled := payload.copyTradingEnabled
    currentPeriodEnd := payload.currentPeriodEnd
    updatedAt := now }

structure SubscriptionResponse where
  userId : UUID
  status : SubscriptionStatus
  copyTradingEnabled : Bool
  currentPeriodEnd : Option Timestamp
  createdAt : Timestamp
  updatedAt : Timestamp
  deriving DecidableEq

/-- `subscription_to_response` -/
def subscriptionToResponse (record : SubscriptionRecord) : SubscriptionResponse where
  userId := record.userId
  status := record.status
  copyTradingEnabled := record.copyTradingEnabled
  currentPeriodEnd := record.currentPeriodEnd
  createdAt := record.createdAt
  updatedAt := record.updatedAt

/-! ## Risk settings -/

structure RiskSettingsUpsert where
  enabled : Bool := true
  maxOrderQuantity : Option Decimal := none
  maxSlippageBps : ℤ := 100
  maxLeverage : Option Decimal := none
  maxOrderQuantity_pos : ∀ q ∈ maxOrderQuantity, 0 < q
  maxSlippageBps_range : 0 ≤ maxSlippageBps ∧ maxSlippageBps ≤ 1000
  maxLeverage_pos : ∀ l ∈ maxLeverage, 0 < l

/-- `RiskSettingsRecord`: the columns of a row of `copy_relationship_risk_settings`. -/
structure RiskSettingsRecord where
  copyRelationshipId : UUID
  enabled : Bool
  maxOrderQuantity : Option Decimal
  maxSlippageBps : ℤ
  maxLeverage : Option Decimal
  createdAt : Timestamp
  updatedAt : Timestamp
  order_quantity_positive : ∀ q ∈ maxOrderQuantity, 0 < q
  slippage_non_negative : 0 ≤ maxSlippageBps
  leverage_positive : ∀ l ∈ maxLeverage, 0 < l

instance : Sql.Constrained RiskSettingsRecord where
  Clash a b := a.copyRelationshipId = b.copyRelationshipId
  clash_symm h := h.symm
  decidable _ _ := inferInstance

instance : Sql.Keyed RiskSettingsRecord UUID Empty where
  id r := r.copyRelationshipId
  entries _ := []
  clash_iff := by simp [Sql.Clash]

/-- The row that `UPSERT_RISK_SETTINGS_SQL` inserts; `none` where a column or a CHECK refuses
its value. -/
def newRiskSettings? (relationshipId : UUID) (now : Timestamp) (payload : RiskSettingsUpsert) :
    Option RiskSettingsRecord := do
  let maxOrderQuantity ← Sql.nullable (Sql.numeric? 38 18) payload.maxOrderQuantity
  let maxLeverage ← Sql.nullable (Sql.numeric? 38 18) payload.maxLeverage
  if h : (∀ q ∈ maxOrderQuantity, 0 < q) ∧ ∀ l ∈ maxLeverage, 0 < l then
    some {
      copyRelationshipId := relationshipId
      enabled := payload.enabled
      maxOrderQuantity := maxOrderQuantity
      maxSlippageBps := payload.maxSlippageBps
      maxLeverage := maxLeverage
      createdAt := now
      updatedAt := now
      order_quantity_positive := h.1
      slippage_non_negative := payload.maxSlippageBps_range.1
      leverage_positive := h.2 }
  else none

/-- What it sets `ON CONFLICT`. -/
def setRiskSettings (now : Timestamp) (excluded r : RiskSettingsRecord) : RiskSettingsRecord :=
  { r with
    enabled := excluded.enabled
    maxOrderQuantity := excluded.maxOrderQuantity
    maxSlippageBps := excluded.maxSlippageBps
    maxLeverage := excluded.maxLeverage
    updatedAt := now
    order_quantity_positive := excluded.order_quantity_positive
    slippage_non_negative := excluded.slippage_non_negative
    leverage_positive := excluded.leverage_positive }

structure RiskSettingsResponse where
  copyRelationshipId : UUID
  enabled : Bool
  maxOrderQuantity : Option Decimal
  maxSlippageBps : ℤ
  maxLeverage : Option Decimal
  createdAt : Timestamp
  updatedAt : Timestamp
  deriving DecidableEq

/-- `risk_settings_to_response` -/
def riskSettingsToResponse (record : RiskSettingsRecord) : RiskSettingsResponse where
  copyRelationshipId := record.copyRelationshipId
  enabled := record.enabled
  maxOrderQuantity := record.maxOrderQuantity
  maxSlippageBps := record.maxSlippageBps
  maxLeverage := record.maxLeverage
  createdAt := record.createdAt
  updatedAt := record.updatedAt

end CopyTrade
