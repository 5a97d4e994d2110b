import Jeryu.Library.TaskPool
import Jeryu.Library.KeyedFold
import Jeryu.Core.System
import Jeryu.Core.DutySeparation
import Jeryu.Core.TerminalStates
import Jeryu.Core.OneRecord
import Jeryu.Core.DefaultRules
import Jeryu.Core.ArchivedRepositories
import Jeryu.Core.Transfers
import Jeryu.Core.MoveWhole
import Jeryu.Auth.Authority
import Jeryu.Auth.System
import Jeryu.Auth.Principals
import Jeryu.Auth.RunsOnce
import Jeryu.Auth.RecoveryOnce
import Jeryu.Gitd.Loopback
import Jeryu.Gitd.Coincidence
import Jeryu.Gitd.Archive
import Jeryu.Gitd.Registrars
import Jeryu.Gitd.Pushes
import Jeryu.Gitd.LfsPuts
import Jeryu.Mirror.Secrets
import Jeryu.Core.PrivilegedActs
import Jeryu.Core.CommitStatuses
import Jeryu.Core.PullListing
import Jeryu.Core.EncodedRules
import Jeryu.Core.Overlap
import Jeryu.Core.DeploymentSlugs
import Jeryu.Core.DeploymentTrails
import Jeryu.Bugs.History
import Jeryu.Mirror.Offline
import Jeryu.Auth.TeamBotNames
import Jeryu.Auth.AuthorityAtWrite
import Jeryu.Auth.Panics
import Jeryu.Auth.RefGlobs
import Jeryu.Vault.Rows
import Jeryu.Core.LinearHistory
import Jeryu.Core.CodeOwnerGate
import Jeryu.Gitd.PushPrelude
import Jeryu.Proof.Witness
import Jeryu.Gitd.PushRecords
import Jeryu.Gitd.UrlDecode
import Jeryu.Gitd.ParsePanics
import Jeryu.Gitd.PatchId
import Jeryu.Gitd.FeedChild
import Jeryu.Gitd.PackRpc
import Jeryu.Gitd.LocalImport
import Jeryu.Gitd.ServerMerges
import Jeryu.Proof.Plan
import Jeryu.Mirror.Restore
import Jeryu.Mirror.Drift
import Jeryu.Mirror.Protections
import Jeryu.Bugs.Listing
import Jeryu.Gitd.Sha256
import Jeryu.Gitd.Fingerprints
import Jeryu.Auth.Roster
import Jeryu.Auth.Membership
import Jeryu.Auth.AuthoritySeen
import Jeryu.Auth.PasswordChange
import Jeryu.Auth.InvitationRuns
import Jeryu.Library.Tables
import Jeryu.Storage.ForeignKeys
import Jeryu.Gitd.Pump
