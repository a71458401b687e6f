import PasswordVault.Library.Transactions
import PasswordVault.Library.Contracts
import PasswordVault.Library.Tables
import PasswordVault.Server.Json
import PasswordVault.Server.Http
import PasswordVault.Server.Schema
import PasswordVault.Auth.Scram
import PasswordVault.Auth.Totp
import PasswordVault.Auth.Sessions
import PasswordVault.Auth.Login
import PasswordVault.Auth.Enrollment
import PasswordVault.Vault.Handlers
import PasswordVault.Server.Service
import PasswordVault.Server.Effects
import PasswordVault.Auth.SessionGuarantees
import PasswordVault.Auth.LoginGuarantees
import PasswordVault.Auth.MfaGuarantees
import PasswordVault.Vault.Guarantees
import PasswordVault.Server.Soundness
import PasswordVault.Library.Serial
import PasswordVault.Library.Schedules
import PasswordVault.Auth.Moves
import PasswordVault.Auth.Factors
import PasswordVault.Auth.SessionHistory
import PasswordVault.Auth.ChallengeBudget
import PasswordVault.Auth.TotpReplay
import PasswordVault.Library.HashChain
import PasswordVault.Vault.Chain
import PasswordVault.Vault.Items
import PasswordVault.Vault.Sync
import PasswordVault.Vault.Envelopes
import PasswordVault.Library.Hashing
import PasswordVault.Library.Aead
import PasswordVault.Server.Standard
import PasswordVault.Server.Isolation
import PasswordVault.Vault.Served
import PasswordVault.Auth.RecoveryCodes
import PasswordVault.Library.Requests
import PasswordVault.Library.Threads
import PasswordVault.Server.Endings
import PasswordVault.Auth.OneShot
import PasswordVault.Auth.Registrations
import PasswordVault.Auth.SecondFactor
import PasswordVault.Auth.ProvenLogins
import PasswordVault.Auth.SessionLifetime
import PasswordVault.Library.Pbkdf2
import PasswordVault.Auth.ScramDerivation
import PasswordVault.Auth.PendingFactor
import PasswordVault.Vault.Outcomes
import PasswordVault.Auth.EnrollmentBinding
import PasswordVault.Auth.Completion
import PasswordVault.Browser.Checkpoints
import PasswordVault.Browser.Changes
import PasswordVault.Browser.Evidence
import PasswordVault.Browser.Page
import PasswordVault.Browser.Turns
import PasswordVault.Auth.Transcript
import PasswordVault.Auth.Base32
import PasswordVault.Auth.TotpExact
import PasswordVault.Library.Regex
import PasswordVault.Server.Maintenance
import PasswordVault.Server.Cleanup
import PasswordVault.Server.RequestHeaders
import PasswordVault.Auth.SeedBinding
import PasswordVault.Browser.CodeUnits
import PasswordVault.Browser.SecretKey
import PasswordVault.Browser.StableJson
import PasswordVault.Browser.ParseJson
import PasswordVault.Browser.CanonicalPayloads
import PasswordVault.Library.PercentEncoding
import PasswordVault.Auth.ProvisioningUri
import PasswordVault.Auth.RecoveryCodeText
import PasswordVault.Server.Evaluation
import PasswordVault.Server.Wire
import PasswordVault.Auth.Starts
import PasswordVault.Browser.Handles
import PasswordVault.Browser.Credentials
import PasswordVault.Browser.Unlocking
import PasswordVault.Browser.Locking
import PasswordVault.Browser.Writes
import PasswordVault.Browser.Replays
import PasswordVault.Browser.Accepted
import PasswordVault.Browser.SignIn
import PasswordVault.Vault.Listing
import PasswordVault.Browser.Recovery
