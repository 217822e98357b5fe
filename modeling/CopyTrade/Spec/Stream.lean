import CopyTrade.Spec.Events

/-!
# Subjects and the publishing side of the bus

`subjects.py`, and what `bus.py` sends with a published record: the stream's
duplicate window and the `Nats-Msg-Id` header. The retention and storage settings of
the stream are left out.
-/

namespace CopyTrade

def eventStream : String := "COPY_TRADE_EVENTS"

def exchangeTradeEventNormalized : String := "exchange.trade_event.normalized"
def exchangeOrderUpdateNormalized : String := "exchange.order_update.normalized"

def copyExecutionRequested : String := "copy.execution.requested"
def copyExecutionAccepted : String := "copy.execution.accepted"
def copyExecutionRejected : String := "copy.execution.rejected"
def copyExecutionFilled : String := "copy.execution.filled"
def copyExecutionFailed : String := "copy.execution.failed"

def billingOrderCreated : String := "billing.order.created"
def billingPaymentVerified : String := "billing.payment.verified"

def notificationRequested : String := "notification.requested"
def auditEventCreated : String := "audit.event.created"
def deadLetterEventCreated : String := "system.dead_letter.created"

def allEventSubjects : List String :=
  [exchangeTradeEventNormalized, exchangeOrderUpdateNormalized, copyExecutionRequested,
    copyExecutionAccepted, copyExecutionRejected, copyExecutionFilled, copyExecutionFailed,
    billingOrderCreated, billingPaymentVerified, notificationRequested, auditEventCreated,
    deadLetterEventCreated]

structure StreamConfig where
  name : String
  subjects : List String
  duplicateWindow : ℚ
  deriving DecidableEq

def buildStreamConfig (streamName : String) (subjects : List String) : StreamConfig where
  name := streamName
  subjects := subjects
  duplicateWindow := 120

/-- The `Nats-Msg-Id` header of a published record, by its `idempotency_key`. -/
def buildPublishHeaders (idempotencyKey : String) : Option String :=
  if idempotencyKey = "" then none else some idempotencyKey

theorem buildPublishHeaders_of_min {key : String} (h : 8 ≤ key.length) :
    buildPublishHeaders key = some key := by
  have hne : key ≠ "" := by rintro rfl; simp at h
  simp [buildPublishHeaders, hne]

end CopyTrade
