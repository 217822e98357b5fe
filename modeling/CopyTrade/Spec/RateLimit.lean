import CopyTrade.Python.Text
import Mathlib.Algebra.Order.Floor.Defs
import Mathlib.Data.Rat.Floor
import Mathlib.Logic.Function.Basic

/-!
# The rate limiter

`rate_limit.py`: a bucket of times for each client, and the middleware in front of the
admin routes and the login. Times are exact; a clock reading is an argument.
-/

namespace CopyTrade

open Python (Text text)

/-- A bucket that does not exist yet is empty, as in a `defaultdict`. -/
structure InMemoryRateLimiter where
  maxRequests : ℤ
  windowSeconds : ℚ
  requests : Text → List ℚ := fun _ => []

namespace InMemoryRateLimiter

def allow (limiter : InMemoryRateLimiter) (now : ℚ) (key : Text) : Bool × InMemoryRateLimiter :=
  let windowStart := now - limiter.windowSeconds
  let bucket := (limiter.requests key).dropWhile (· ≤ windowStart)
  if bucket.length ≥ limiter.maxRequests then
    (false, { limiter with requests := Function.update limiter.requests key bucket })
  else
    (true, { limiter with requests := Function.update limiter.requests key (bucket ++ [now]) })

end InMemoryRateLimiter

/-- What the middleware reads of an ASGI scope. `client` is the host of a client that is
not empty. -/
structure Scope where
  type : Text
  path : Text := []
  client : Option Text := none
  deriving DecidableEq

def clientKey (scope : Scope) : Text := scope.client.getD (text "unknown")

/-- The requests that are limited. -/
def Scope.Limited (scope : Scope) : Prop :=
  scope.type = text "http" ∧ (text "/admin/" <+: scope.path ∨ scope.path = text "/auth/login")

instance : DecidablePred Scope.Limited := fun _ => inferInstanceAs (Decidable (_ ∧ (_ ∨ _)))

/-- `int` of a float. -/
def truncate (x : ℚ) : ℤ := if 0 ≤ x then ⌊x⌋ else ⌈x⌉

structure AdminRateLimitMiddleware where
  retryAfterSeconds : ℤ
  limiter : InMemoryRateLimiter

/-- How a request is answered: by the application, or by 429 with its `Retry-After`. -/
inductive RateLimitAnswer where
  | app
  | rateLimited (retryAfter : ℤ)
  deriving DecidableEq, Repr

namespace AdminRateLimitMiddleware

/-- `__init__` -/
def init (maxRequests : ℤ) (windowSeconds : ℚ) : AdminRateLimitMiddleware :=
  ⟨truncate windowSeconds, { maxRequests := maxRequests, windowSeconds := windowSeconds }⟩

/-- `__call__` -/
def call (middleware : AdminRateLimitMiddleware) (now : ℚ) (scope : Scope) :
    RateLimitAnswer × AdminRateLimitMiddleware :=
  if scope.Limited then
    let (allowed, limiter) := middleware.limiter.allow now (clientKey scope)
    (if allowed then .app else .rateLimited middleware.retryAfterSeconds,
      { middleware with limiter := limiter })
  else (.app, middleware)

end AdminRateLimitMiddleware

end CopyTrade
