import CrossClusterKeys.ApiServer.Call
import CrossClusterKeys.ApiServer.Client
import CrossClusterKeys.ApiServer.Isolated
import CrossClusterKeys.ApiServer.Object
import CrossClusterKeys.ApiServer.Script
import CrossClusterKeys.Arguments
import CrossClusterKeys.Backend
import CrossClusterKeys.Base64
import CrossClusterKeys.Cli
import CrossClusterKeys.Cluster
import CrossClusterKeys.Convergence
import CrossClusterKeys.Failure
import CrossClusterKeys.Failure.Description
import CrossClusterKeys.Files
import CrossClusterKeys.Interference
import CrossClusterKeys.Json.Basic
import CrossClusterKeys.Json.Grammar
import CrossClusterKeys.Json.Reader
import CrossClusterKeys.KeyIndex
import CrossClusterKeys.KeyIndex.Persistence
import CrossClusterKeys.Keystore
import CrossClusterKeys.Log.Level
import CrossClusterKeys.Log.Record
import CrossClusterKeys.Log.Scope
import CrossClusterKeys.Log.Session
import CrossClusterKeys.Log.Template
import CrossClusterKeys.Log.Timestamp
import CrossClusterKeys.Main
import CrossClusterKeys.Number.Binary64
import CrossClusterKeys.Number.Decimal
import CrossClusterKeys.Pass
import CrossClusterKeys.Program
import CrossClusterKeys.Proofs.AliasDifference
import CrossClusterKeys.Proofs.Asking
import CrossClusterKeys.Proofs.Backings
import CrossClusterKeys.Proofs.Base64
import CrossClusterKeys.Proofs.CallProtocol
import CrossClusterKeys.Proofs.ClientRequests
import CrossClusterKeys.Proofs.Commands
import CrossClusterKeys.Proofs.CredentialFlow
import CrossClusterKeys.Proofs.CurrentId
import CrossClusterKeys.Proofs.EditOrder
import CrossClusterKeys.Proofs.EditedCredentials
import CrossClusterKeys.Proofs.Edits
import CrossClusterKeys.Proofs.Execution
import CrossClusterKeys.Proofs.FailedOperations
import CrossClusterKeys.Proofs.GuardedRemoval
import CrossClusterKeys.Proofs.Incarnations
import CrossClusterKeys.Proofs.Interleaving
import CrossClusterKeys.Proofs.JsonCompleteness
import CrossClusterKeys.Proofs.JsonDocument
import CrossClusterKeys.Proofs.JsonIndenting
import CrossClusterKeys.Proofs.JsonLine
import CrossClusterKeys.Proofs.JsonNumbers
import CrossClusterKeys.Proofs.JsonSoundness
import CrossClusterKeys.Proofs.JsonText
import CrossClusterKeys.Proofs.JsonTokens
import CrossClusterKeys.Proofs.JsonWriting
import CrossClusterKeys.Proofs.Lockstep
import CrossClusterKeys.Proofs.LogLines
import CrossClusterKeys.Proofs.LogSetup
import CrossClusterKeys.Proofs.LoneWriter
import CrossClusterKeys.Proofs.LostAnswers
import CrossClusterKeys.Proofs.LostEdits
import CrossClusterKeys.Proofs.MalformedAliases
import CrossClusterKeys.Proofs.Merging
import CrossClusterKeys.Proofs.Naming
import CrossClusterKeys.Proofs.OwnerReferences
import CrossClusterKeys.Proofs.PassOutcome
import CrossClusterKeys.Proofs.Persistence
import CrossClusterKeys.Proofs.PlainValues
import CrossClusterKeys.Proofs.Registry
import CrossClusterKeys.Proofs.RenamedCredentials
import CrossClusterKeys.Proofs.RepeatedConvergence
import CrossClusterKeys.Proofs.RepeatedPass
import CrossClusterKeys.Proofs.Requests
import CrossClusterKeys.Proofs.Rereading
import CrossClusterKeys.Proofs.Resending
import CrossClusterKeys.Proofs.Rounds
import CrossClusterKeys.Proofs.ScopedIds
import CrossClusterKeys.Proofs.SentSecrets
import CrossClusterKeys.Proofs.SettingBounds
import CrossClusterKeys.Proofs.SettingPattern
import CrossClusterKeys.Proofs.SharedStore
import CrossClusterKeys.Proofs.SoleController
import CrossClusterKeys.Proofs.StampedLines
import CrossClusterKeys.Proofs.StoreStates
import CrossClusterKeys.Proofs.StoredIndex
import CrossClusterKeys.Proofs.SuppliedKeys
import CrossClusterKeys.Proofs.Tables
import CrossClusterKeys.Proofs.Tokens
import CrossClusterKeys.Proofs.Transactions
import CrossClusterKeys.Proofs.Utf8
import CrossClusterKeys.Proofs.Vanishing
import CrossClusterKeys.Proofs.Versions
import CrossClusterKeys.Secret
import CrossClusterKeys.SecretStore
import CrossClusterKeys.Settings
import CrossClusterKeys.Settings.EnvFile
import CrossClusterKeys.Settings.Reading
import CrossClusterKeys.StoreCall
import CrossClusterKeys.Table
import CrossClusterKeys.Text.Basic
import CrossClusterKeys.Text.Blank
import CrossClusterKeys.Text.Casing
import CrossClusterKeys.Text.Casing.Table
import CrossClusterKeys.Text.Digits
import CrossClusterKeys.Text.Numeral
import CrossClusterKeys.Text.Pattern
import CrossClusterKeys.Text.Printable
import CrossClusterKeys.Text.Quoted
import CrossClusterKeys.Text.Utf8
import CrossClusterKeys.Uuid
import CrossClusterKeys.Value
