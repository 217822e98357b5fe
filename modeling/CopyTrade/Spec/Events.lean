import Mathlib.Data.Rat.Defs
import Mathlib.Tactic.NormNum

/-!
# Domain events

The records of `copy_trade_domain/events.py`. A field constraint of the source
(`min_length`, `gt`) is a field of the structure, so an event that exists passed its
validation. Times are instants in microseconds, whatever zone they were written in;
a `Decimal` is its value.

Fields of the source that no modelled function reads (`base_asset`, `quote_asset`,
`market_type`, `client_order_id`, `raw_event`, `raw_response`) are left out.
-/

namespace CopyTrade

/-- A `uuid.UUID`: 128 bits. -/
structure UUID where
  int : BitVec 128
  deriving DecidableEq, Repr

/-- An exception, by the name of its type. -/
structure PyException where
  name : String
  deriving DecidableEq, Repr

def validationError : PyException := ⟨"ValidationError"⟩

abbrev Timestamp := ℤ

abbrev Decimal := ℚ

inductive Exchange where
  | hyperliquid
  | aster
  | blofin
  deriving DecidableEq, Repr

inductive OrderSide where
  | buy
  | sell
  deriving DecidableEq, Repr

inductive PositionSide where
  | long
  | short
  | net
  deriving DecidableEq, Repr

inductive OrderType where
  | market
  | limit
  | stop
  | takeProfit
  | trailingStop
  deriving DecidableEq, Repr

inductive CopyExecutionStatus where
  | accepted
  | rejected
  | filled
  | failed
  deriving DecidableEq, Repr

structure EventEnvelope where
  eventId : UUID
  schemaVersion : String := "v1"
  occurredAt : Timestamp
  observedAt : Timestamp
  sourceExchange : Exchange
  sourceAccountId : String
  idempotencyKey : String
  traceId : String
  sourceAccountId_min : 1 ≤ sourceAccountId.length
  idempotencyKey_min : 8 ≤ idempotencyKey.length
  deriving DecidableEq

structure NormalizedOrderEvent extends EventEnvelope where
  symbol : String
  side : OrderSide
  positionSide : PositionSide
  orderType : OrderType
  quantity : Decimal
  price : Option Decimal := none
  triggerPrice : Option Decimal := none
  reduceOnly : Bool := false
  postOnly : Bool := false
  leverage : Option Decimal := none
  symbol_min : 1 ≤ symbol.length
  quantity_pos : 0 < quantity
  price_pos : ∀ p ∈ price, 0 < p
  triggerPrice_pos : ∀ p ∈ triggerPrice, 0 < p
  leverage_pos : ∀ p ∈ leverage, 0 < p
  deriving DecidableEq

structure CopyExecutionRequest extends EventEnvelope where
  sourceEventId : UUID
  copyRelationshipId : UUID
  followerAccountId : String
  targetExchange : Exchange
  targetSymbol : String
  orderType : OrderType
  side : OrderSide
  positionSide : PositionSide
  quantity : Decimal
  price : Option Decimal := none
  triggerPrice : Option Decimal := none
  reduceOnly : Bool := false
  postOnly : Bool := false
  maxSlippageBps : ℕ := 100
  dryRun : Bool := true
  followerAccountId_min : 1 ≤ followerAccountId.length
  targetSymbol_min : 1 ≤ targetSymbol.length
  quantity_pos : 0 < quantity
  price_pos : ∀ p ∈ price, 0 < p
  triggerPrice_pos : ∀ p ∈ triggerPrice, 0 < p
  deriving DecidableEq

structure CopyExecutionResult extends EventEnvelope where
  requestId : UUID
  status : CopyExecutionStatus
  exchangeOrderId : Option String := none
  rejectReason : Option String := none
  deriving DecidableEq

/-! ## Text of a UUID -/

/-- One lower-case hexadecimal digit. -/
def hexDigit (n : ℕ) : Char := (Nat.digitChar n)

/-- The last `w` hexadecimal digits of `n`. -/
def hexDigits : ℕ → ℕ → List Char
  | 0, _ => []
  | w + 1, n => hexDigits w (n / 16) ++ [hexDigit (n % 16)]

/-- `str(uuid)`: 32 hexadecimal digits in groups of 8, 4, 4, 4 and 12. -/
def UUID.str (u : UUID) : String :=
  let ds := hexDigits 32 u.int.toNat
  String.ofList (ds.take 8 ++ '-' :: (ds.drop 8).take 4 ++ '-' :: (ds.drop 12).take 4 ++
    '-' :: (ds.drop 16).take 4 ++ '-' :: ds.drop 20)

theorem hexDigit_inj {a b : ℕ} (ha : a < 16) (hb : b < 16) (h : hexDigit a = hexDigit b) :
    a = b := by
  have key : ∀ i : Fin 16, ∀ j : Fin 16, hexDigit i = hexDigit j → i = j := by decide
  exact Fin.mk.inj (key ⟨a, ha⟩ ⟨b, hb⟩ h)

@[simp] theorem length_hexDigits (w n : ℕ) : (hexDigits w n).length = w := by
  induction w generalizing n with
  | zero => rfl
  | succ w ih => simp [hexDigits, ih]

theorem hexDigits_inj {w : ℕ} : ∀ {a b : ℕ}, a < 16 ^ w → b < 16 ^ w →
    hexDigits w a = hexDigits w b → a = b := by
  induction w with
  | zero => intro a b ha hb _; simp at ha hb; omega
  | succ w ih =>
    intro a b ha hb h
    obtain ⟨h1, h2⟩ := List.append_inj h (by simp)
    have hq : a / 16 = b / 16 := by
      rw [pow_succ] at ha hb
      exact ih (Nat.div_lt_of_lt_mul (by omega)) (Nat.div_lt_of_lt_mul (by omega)) h1
    have hr : a % 16 = b % 16 :=
      hexDigit_inj (Nat.mod_lt _ (by omega)) (Nat.mod_lt _ (by omega)) (List.singleton_inj.1 h2)
    omega

theorem UUID.length_str (u : UUID) : u.str.toList.length = 36 := by
  simp [UUID.str]

/-- **Distinct UUIDs have distinct texts.** -/
theorem UUID.str_inj {u v : UUID} (h : u.str = v.str) : u = v := by
  have h := String.ofList_injective h
  -- the groups have fixed lengths, so the digits are the texts without the hyphens
  have hd : hexDigits 32 u.int.toNat = hexDigits 32 v.int.toNat := by
    simp only [List.append_assoc, List.cons_append] at h
    obtain ⟨h1, h⟩ := List.append_inj h (by simp)
    obtain ⟨h2, h⟩ := List.append_inj (List.cons.inj h).2 (by simp)
    obtain ⟨h3, h⟩ := List.append_inj (List.cons.inj h).2 (by simp)
    obtain ⟨h4, h⟩ := List.append_inj (List.cons.inj h).2 (by simp)
    have h5 := (List.cons.inj h).2
    have hsplit : ∀ l : List Char, l = l.take 8 ++ (l.drop 8).take 4 ++ (l.drop 12).take 4 ++
        (l.drop 16).take 4 ++ l.drop 20 := by
      intro l
      rw [← List.take_add, ← List.take_add, ← List.take_add, List.take_append_drop]
    rw [hsplit (hexDigits 32 u.int.toNat), hsplit (hexDigits 32 v.int.toNat), h1, h2, h3, h4, h5]
  have hn := hexDigits_inj (by have := u.int.isLt; omega) (by have := v.int.isLt; omega) hd
  cases u; cases v
  simp only [UUID.mk.injEq]
  exact BitVec.eq_of_toNat_eq hn

theorem nul_not_hexDigits (w n : ℕ) : '\u0000' ∉ hexDigits w n := by
  induction w generalizing n with
  | zero => simp [hexDigits]
  | succ w ih =>
    have hdigit : ∀ d : Fin 16, '\u0000' ≠ hexDigit d := by decide
    have hlast := hdigit ⟨n % 16, Nat.mod_lt n (by omega)⟩
    rw [hexDigits, List.mem_append, List.mem_singleton, not_or]
    exact ⟨ih (n / 16), hlast⟩

/-- The text of an id holds no U+0000. -/
theorem UUID.nul_not_str (u : UUID) : '\u0000' ∉ u.str.toList := by
  have hdigits := nul_not_hexDigits 32 u.int.toNat
  have hpart : ∀ c ∈ u.str.toList, c = '-' ∨ c ∈ hexDigits 32 u.int.toNat := by
    intro c hc
    simp only [UUID.str, String.toList_ofList, List.mem_append, List.mem_cons] at hc
    rcases hc with (((hc | rfl | hc) | rfl | hc) | rfl | hc) | rfl | hc
    · exact Or.inr (List.mem_of_mem_take hc)
    · exact Or.inl rfl
    · exact Or.inr (List.mem_of_mem_drop (List.mem_of_mem_take hc))
    · exact Or.inl rfl
    · exact Or.inr (List.mem_of_mem_drop (List.mem_of_mem_take hc))
    · exact Or.inl rfl
    · exact Or.inr (List.mem_of_mem_drop (List.mem_of_mem_take hc))
    · exact Or.inl rfl
    · exact Or.inr (List.mem_of_mem_drop hc)
  intro hnul
  rcases hpart _ hnul with h | h
  · exact absurd h (by decide)
  · exact hdigits h

end CopyTrade
