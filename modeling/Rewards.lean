import Rewards.Account.Credentials
import Rewards.Account.User
import Rewards.Accrual.Client
import Rewards.Accrual.Outcome
import Rewards.Binary64.Basic
import Rewards.Binary64.Shortest
import Rewards.Config.Basic
import Rewards.Config.CommandLine
import Rewards.Crypto.Base64
import Rewards.Crypto.Blowfish
import Rewards.Crypto.Circle
import Rewards.Crypto.PasswordHash
import Rewards.Crypto.Sha256
import Rewards.Decimal.Addition
import Rewards.Decimal.Basic
import Rewards.Decimal.Binary
import Rewards.Decimal.Json
import Rewards.Decimal.Reading
import Rewards.DomainError
import Rewards.Failure
import Rewards.Http.Document
import Rewards.Http.Endpoint
import Rewards.Http.Message
import Rewards.Http.Router
import Rewards.Http.SessionToken
import Rewards.Json.Error
import Rewards.Json.Number
import Rewards.Json.Reader
import Rewards.Json.Record
import Rewards.Json.Value
import Rewards.Ledger.Balance
import Rewards.Ledger.Entry
import Rewards.Ledger.Withdrawal
import Rewards.Main
import Rewards.Order.Basic
import Rewards.Order.Number
import Rewards.Order.Status
import Rewards.Pipeline.Attempt
import Rewards.Pipeline.Job
import Rewards.Pipeline.Queue
import Rewards.Pipeline.State
import Rewards.Pipeline.Sweep
import Rewards.Rounding
import Rewards.Service.Basic
import Rewards.Service.Error
import Rewards.Session.Claims
import Rewards.Session.Header
import Rewards.Session.Token
import Rewards.Simulation.Backend
import Rewards.Simulation.Basic
import Rewards.Simulation.Call
import Rewards.Simulation.Names
import Rewards.Simulation.Processing
import Rewards.Simulation.Schedule
import Rewards.Simulation.Script
import Rewards.Simulation.Store
import Rewards.Simulation.Worker
import Rewards.Store.Access
import Rewards.Store.Basic
import Rewards.Store.Connect
import Rewards.Store.Error
import Rewards.Store.InPlace
import Rewards.Text.Blank
import Rewards.Text.Natural
import Rewards.Text.Printable
import Rewards.Text.Quoted
import Rewards.Text.Split
import Rewards.Text.Utf8
import Rewards.Time.Date
import Rewards.Time.Instant
import Rewards.Time.Json
import Rewards.Time.Reading
import Rewards.Url.Basic
import Rewards.Url.Error
import Rewards.Url.Host
import Rewards.UserId
import Rewards.Uuid
import Rewards.Proofs.Account.Identifiers
import Rewards.Proofs.Account.Passwords
import Rewards.Proofs.Accrual.Addresses
import Rewards.Proofs.Accrual.Answers
import Rewards.Proofs.Binary64.Rounding
import Rewards.Proofs.Binary64.Shortest
import Rewards.Proofs.Crypto.Base64
import Rewards.Proofs.Decimal.Binary
import Rewards.Proofs.Decimal.Documents
import Rewards.Proofs.Decimal.Exchange
import Rewards.Proofs.Decimal.Rendering
import Rewards.Proofs.Decimal.Sums
import Rewards.Proofs.Decimal.Texts
import Rewards.Proofs.Decimal.Value
import Rewards.Proofs.Http.Headers
import Rewards.Proofs.Http.Requests
import Rewards.Proofs.Http.SessionTokens
import Rewards.Proofs.Json.Conversion
import Rewards.Proofs.Json.Numerals
import Rewards.Proofs.Json.Records
import Rewards.Proofs.Json.Results
import Rewards.Proofs.Json.Strings
import Rewards.Proofs.Json.Texts
import Rewards.Proofs.Ledger.Agreement
import Rewards.Proofs.Ledger.Amounts
import Rewards.Proofs.Ledger.Documents
import Rewards.Proofs.Ledger.Exactness
import Rewards.Proofs.Ledger.Overflow
import Rewards.Proofs.Ledger.Solvency
import Rewards.Proofs.Order.Checksum
import Rewards.Proofs.Order.Grammar
import Rewards.Proofs.Order.InPlace
import Rewards.Proofs.Order.Numbers
import Rewards.Proofs.Order.Operations
import Rewards.Proofs.Order.Sums
import Rewards.Proofs.Pipeline.Accounts
import Rewards.Proofs.Pipeline.Attempts
import Rewards.Proofs.Pipeline.Calls
import Rewards.Proofs.Pipeline.Conservation
import Rewards.Proofs.Pipeline.Failures
import Rewards.Proofs.Pipeline.Jobs
import Rewards.Proofs.Pipeline.Losses
import Rewards.Proofs.Pipeline.Offers
import Rewards.Proofs.Pipeline.Parties
import Rewards.Proofs.Pipeline.Places
import Rewards.Proofs.Pipeline.Processing
import Rewards.Proofs.Pipeline.Progress
import Rewards.Proofs.Pipeline.Race
import Rewards.Proofs.Pipeline.Runs
import Rewards.Proofs.Pipeline.Shutdown
import Rewards.Proofs.Pipeline.SingleFlight
import Rewards.Proofs.Pipeline.Sweeps
import Rewards.Proofs.Service.Accounts
import Rewards.Proofs.Service.Effects
import Rewards.Proofs.Service.FirstUpload
import Rewards.Proofs.Service.InMemory
import Rewards.Proofs.Service.Isolation
import Rewards.Proofs.Service.Overflow
import Rewards.Proofs.Service.Sessions
import Rewards.Proofs.Service.Site
import Rewards.Proofs.Service.Visits
import Rewards.Proofs.Service.Withdrawals
import Rewards.Proofs.Session.Tokens
import Rewards.Proofs.Store.Calls
import Rewards.Proofs.Store.Finished
import Rewards.Proofs.Store.History
import Rewards.Proofs.Store.LifeCycle
import Rewards.Proofs.Store.Listings
import Rewards.Proofs.Store.Operations
import Rewards.Proofs.Store.Orders
import Rewards.Proofs.Store.Tables
import Rewards.Proofs.Store.Transitions
import Rewards.Proofs.Store.Withdrawals
import Rewards.Proofs.Store.Writes
import Rewards.Proofs.Text.Blanks
import Rewards.Proofs.Text.Bytes
import Rewards.Proofs.Text.Digits
import Rewards.Proofs.Text.Encoding
import Rewards.Proofs.Text.Splitting
import Rewards.Proofs.Time.Calendar
import Rewards.Proofs.Time.Clock
import Rewards.Proofs.Time.Timestamps
import Rewards.Proofs.Url.Extensions
import Rewards.Proofs.Url.Hosts
import Rewards.Proofs.Url.Layout
import Rewards.Proofs.Url.Paths
