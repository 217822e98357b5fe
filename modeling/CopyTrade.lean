import CopyTrade.Async.Prog
import CopyTrade.Async.Pool
import CopyTrade.Async.Solo
import CopyTrade.Sql.Table
import CopyTrade.Sql.Column
import CopyTrade.Broker.Log
import CopyTrade.Python.Text
import CopyTrade.Python.Json
import CopyTrade.Python.Dumps
import CopyTrade.Python.RoundTrip
import CopyTrade.Python.Decoded
import CopyTrade.Spec.Events
import CopyTrade.Spec.Stream
import CopyTrade.Spec.CopyEngine
import CopyTrade.Spec.World
import CopyTrade.Spec.Postgres
import CopyTrade.Spec.RelationshipApi
import CopyTrade.Spec.RelationshipQuery
import CopyTrade.Spec.DeadLetter
import CopyTrade.Spec.Bus
import CopyTrade.Spec.DeadLetterStore
import CopyTrade.Proof.Building
import CopyTrade.Proof.Ownership
import CopyTrade.Proof.DuplicateWindow
import CopyTrade.Proof.Limits
import CopyTrade.Proof.HandingOver
import CopyTrade.Proof.Reserving
import CopyTrade.Proof.Retry
import CopyTrade.Proof.Results
import CopyTrade.Proof.Ledger
import CopyTrade.Proof.Routes
import CopyTrade.Proof.Delivery
import CopyTrade.Proof.Sanitizing
import CopyTrade.Proof.Storing
import CopyTrade.Proof.Listing
import CopyTrade.Proof.Secrets
import CopyTrade.Async.Steps
import CopyTrade.Spec.Consuming
import CopyTrade.Proof.Acknowledgement
import CopyTrade.Proof.Generations
import CopyTrade.Proof.Gate
import CopyTrade.Sql.Client
import CopyTrade.Sql.Keyed
import CopyTrade.Spec.Audit
import CopyTrade.Spec.Identity
import CopyTrade.Spec.IdentitySchema
import CopyTrade.Spec.Auth
import CopyTrade.Async.Amid
import CopyTrade.Proof.Admission
import CopyTrade.Proof.Entrance
import CopyTrade.Proof.Effects
import CopyTrade.Proof.Revocation
import CopyTrade.Proof.Idempotence
import CopyTrade.Proof.Paths
import CopyTrade.Proof.Spelling
import CopyTrade.Proof.Window
import CopyTrade.Proof.Collision
import CopyTrade.Spec.Idempotency
import CopyTrade.Proof.Processing
import CopyTrade.Proof.Suppression
import CopyTrade.Proof.Logout
import CopyTrade.Spec.AdminCredentials
import CopyTrade.Spec.FoundationControls
import CopyTrade.Async.Lockstep
import CopyTrade.Sql.Alone
import CopyTrade.Sql.Related
import CopyTrade.Spec.AdminApi
import CopyTrade.Proof.Redaction
import CopyTrade.Proof.Secrecy
import CopyTrade.Async.Begun
import CopyTrade.Sql.Noted
import CopyTrade.Proof.Rotation
import CopyTrade.Proof.Linearity
import CopyTrade.Sql.Journal
import CopyTrade.Proof.Trail
import CopyTrade.Proof.Chronology
import CopyTrade.Proof.StoredRequest
import CopyTrade.Spec.AdminLists
import CopyTrade.Sql.Paging
import CopyTrade.Spec.Subscription
import CopyTrade.Proof.Pages
import CopyTrade.Sql.Upsert
import CopyTrade.Spec.Upserts
import CopyTrade.Proof.BeforeImages
import CopyTrade.Python.Fields
import CopyTrade.Spec.Passwords
import CopyTrade.Proof.Passwords
import CopyTrade.Spec.EnsureStream
import CopyTrade.Proof.Subjects
import CopyTrade.Async.Learning
import CopyTrade.Async.Widen
import CopyTrade.Spec.Startup
import CopyTrade.Proof.Startup
import CopyTrade.Proof.CleanUp
import CopyTrade.Async.Moments
import CopyTrade.Sql.Attributed
import CopyTrade.Spec.ApiServer
import CopyTrade.Proof.Mediation
import CopyTrade.Proof.Accountability
import CopyTrade.Spec.BackedWorld
import CopyTrade.Proof.Authority
import CopyTrade.Async.Simulation
import CopyTrade.Proof.Stores
import CopyTrade.Async.Embed
import CopyTrade.Spec.Worker
import CopyTrade.Proof.Settling
import CopyTrade.Proof.CopiedOnce
import CopyTrade.Proof.Books
import CopyTrade.Proof.Bookkeeping
import CopyTrade.Sql.Own
import CopyTrade.Proof.Durability
import CopyTrade.Sql.Amended
import CopyTrade.Proof.Updates
import CopyTrade.Async.Coupled
import CopyTrade.Spec.Platform
import CopyTrade.Proof.KillSwitch
