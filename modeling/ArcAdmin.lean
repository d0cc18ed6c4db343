import ArcAdmin.ReadCommitted.Store
import ArcAdmin.ReadCommitted.Transaction
import ArcAdmin.ReadCommitted.Prog
import ArcAdmin.ReadCommitted.World
import ArcAdmin.ReadCommitted.Invariant
import ArcAdmin.ReadCommitted.RowLaw
import ArcAdmin.ReadCommitted.Unique
import ArcAdmin.ReadCommitted.Fate
import ArcAdmin.ReadCommitted.Contract
import ArcAdmin.ReadCommitted.Statements
import ArcAdmin.Paging
import ArcAdmin.Access
import ArcAdmin.Text
import ArcAdmin.Results
import ArcAdmin.Schema
import ArcAdmin.External
import ArcAdmin.Repositories.AuditLogs
import ArcAdmin.Repositories.Departments
import ArcAdmin.Repositories.Users
import ArcAdmin.Repositories.Roles
import ArcAdmin.Repositories.AuthSessions
import ArcAdmin.Repositories.Mfa
import ArcAdmin.Repositories.StepUp
import ArcAdmin.Models
import ArcAdmin.Services.AuditLogs
import ArcAdmin.Services.Auth
import ArcAdmin.Services.Departments
import ArcAdmin.Services.Login
import ArcAdmin.Services.Roles
import ArcAdmin.Services.Users
import ArcAdmin.Handlers
import ArcAdmin.System
import ArcAdmin.ReadCommitted.Footprint
import ArcAdmin.Proofs.Footprints
import ArcAdmin.ReadCommitted.Rules
import ArcAdmin.ReadCommitted.Replace
import ArcAdmin.ReadCommitted.Sequential
import ArcAdmin.ReadCommitted.Script
import ArcAdmin.Sample
import ArcAdmin.Proofs.LastSuperAdmin
import ArcAdmin.Proofs.Steps
import ArcAdmin.Proofs.LoginChallenges
import ArcAdmin.Proofs.SessionCap
import ArcAdmin.Proofs.Outside
import ArcAdmin.Proofs.Assignments
import ArcAdmin.Proofs.RecoveryCodes
import ArcAdmin.Proofs.Enrollment
import ArcAdmin.Proofs.PasskeyRevocation
import ArcAdmin.Proofs.AuditPages
import ArcAdmin.Proofs.Hierarchy
import ArcAdmin.Proofs.UserPages
import ArcAdmin.MachineInt
import ArcAdmin.Proofs.PageArithmetic
import ArcAdmin.Config
import ArcAdmin.Proofs.ConfigLimits
import ArcAdmin.Forest
import ArcAdmin.ReadCommitted.Alone
import ArcAdmin.Proofs.DepartmentTree
import ArcAdmin.Proofs.OrganizationRequests
import ArcAdmin.Like
import ArcAdmin.Proofs.KeywordSearch
import ArcAdmin.Dialogue
import ArcAdmin.Flow.Config
import ArcAdmin.Flow.Process
import ArcAdmin.Flow.Verify
import ArcAdmin.Proofs.Verdict
import ArcAdmin.Archive.Archiver
import ArcAdmin.Proofs.ArchivedRows
import ArcAdmin.Proofs.PermissionDependencies
import ArcAdmin.Proofs.LoginThrottle
import ArcAdmin.Proofs.IdleTimeout
import ArcAdmin.Net.Address
import ArcAdmin.Proofs.ThrottleKeys
import ArcAdmin.ClientIp
import ArcAdmin.Proofs.ForwardedFor
import ArcAdmin.Flow.Git
import ArcAdmin.Flow.Sample
import ArcAdmin.Flow.Secrets
import ArcAdmin.Proofs.StagedSecrets
import ArcAdmin.Flow.Scope
import ArcAdmin.Proofs.ScopeCoverage
import ArcAdmin.FileTree.Tree
import ArcAdmin.FileTree.Run
import ArcAdmin.FileTree.Changes
import ArcAdmin.Upgrade.Plan
import ArcAdmin.Upgrade.Rules
import ArcAdmin.Upgrade.Sample
import ArcAdmin.Proofs.FrameworkMerge
import ArcAdmin.Proofs.FrameworkApply
import ArcAdmin.Proofs.FrameworkChain
import ArcAdmin.Proofs.OrganizationRequests
import ArcAdmin.Proofs.Subtree
import ArcAdmin.Proofs.DepartmentDeletion
import ArcAdmin.Proofs.Placement
import ArcAdmin.LastMember
import ArcAdmin.Proofs.Batches
import ArcAdmin.Proofs.ScopePolicy
import ArcAdmin.Proofs.MergeConflicts
import ArcAdmin.Flow.Project
import ArcAdmin.Proofs.TemplateExpansion
import ArcAdmin.Utf8
import ArcAdmin.PartitionPoint
import ArcAdmin.StdPath
import ArcAdmin.Flow.Audit.Config
import ArcAdmin.Flow.Audit.Comments
import ArcAdmin.Flow.Audit.Scan
import ArcAdmin.Flow.Audit.Report
import ArcAdmin.Flow.Audit.Sample
import ArcAdmin.Proofs.ReportAttribution
import ArcAdmin.Flow.Audit.Reference
import ArcAdmin.Proofs.CommentRanges
import ArcAdmin.Proofs.HiddenMatches
import ArcAdmin.Flow.Audit.Rust
import ArcAdmin.Proofs.RustComments
import ArcAdmin.Lines
import ArcAdmin.InitProject
import ArcAdmin.Proofs.ProjectEnvironment
import ArcAdmin.FileTree.Walk
import ArcAdmin.Flow.RepoPath
import ArcAdmin.Proofs.RepoPaths
import ArcAdmin.Proofs.LineAttribution
import ArcAdmin.Runs
import ArcAdmin.Frontend.AuthService
import ArcAdmin.Proofs.StaleResponses
import ArcAdmin.Flow.PostgresUrl
import ArcAdmin.Proofs.DatabaseIsolation
import ArcAdmin.Proofs.QuietRequests
import ArcAdmin.ReadCommitted.Lawful
import ArcAdmin.Proofs.ChallengeCourse
import ArcAdmin.Proofs.ChallengeProtocol
import ArcAdmin.Proofs.SensitiveChanges
import ArcAdmin.Proofs.RecoveryLogins
