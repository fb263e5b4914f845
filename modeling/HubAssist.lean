import HubAssist.RunSystem
import HubAssist.CheckedArith
import HubAssist.StorageMap
import HubAssist.TokenLedger
import HubAssist.SorobanHost
import HubAssist.EscrowModel
import HubAssist.EscrowSteps
import HubAssist.EscrowSolvency
import HubAssist.EscrowPayouts
import HubAssist.EscrowCustody
import HubAssist.EscrowAuthority
import HubAssist.EscrowWindow
import HubAssist.EscrowRefund
import HubAssist.EscrowArbitration
import HubAssist.WorkspaceModel
import HubAssist.WorkspaceSlots
import HubAssist.WorkspaceOccupancy
import HubAssist.StakingModel
import HubAssist.StakingSteps
import HubAssist.StakingBooks
import HubAssist.StakingSolvency
import HubAssist.StakingAccrual
import HubAssist.StakingWithdrawals
import HubAssist.StakingLock
import HubAssist.StakingRewards
import HubAssist.IntervalSweep
import HubAssist.KeyedTable
import HubAssist.BookingsModel
import HubAssist.BookingsConflict
import HubAssist.BookingsSteps
import HubAssist.BookingsOccupancy
import HubAssist.BookingsCapacity
import HubAssist.RootOfTrust
import HubAssist.AccessModel
import HubAssist.AccessSteps
import HubAssist.AccessCoalition
import HubAssist.AccessTransfer
import HubAssist.EscrowPause
import HubAssist.MembershipModel
import HubAssist.MembershipSteps
import HubAssist.HubRegistry
import HubAssist.OneTimeSetup
import HubAssist.TtlCache
import HubAssist.AuthModel
import HubAssist.AuthSteps
import HubAssist.AuthOtpBudget
import HubAssist.ChallengeLog
import HubAssist.JsonValue
import HubAssist.BiometricModel
import HubAssist.BiometricReplay
import HubAssist.Interleaving
import HubAssist.IdempotencyModel
import HubAssist.IdempotencyOnce
import HubAssist.WorkQueue
import HubAssist.WorkAccounting
import HubAssist.DeliveryModel
import HubAssist.DeliveryOnce
import HubAssist.BookingsLifecycle
import HubAssist.ManageHubStorage
import HubAssist.ManageHubTokens
import HubAssist.ManageHubTiers
import HubAssist.ManageHubAttendance
import HubAssist.ManageHubModel
import HubAssist.ManageHubPrivilege
import HubAssist.MembershipStatus
import HubAssist.MembershipExpiry
import HubAssist.BucketIndex
import HubAssist.Base64
import HubAssist.FixedDigits
import HubAssist.IsoDate
import HubAssist.QueryBuilder
import HubAssist.PagedFeed
import HubAssist.DashboardModel
import HubAssist.DashboardIsolation
import HubAssist.DashboardPages
import HubAssist.NodeRuntime
import HubAssist.JsText
import HubAssist.JsonText
import HubAssist.CursorUtil
import HubAssist.AttendanceModel
import HubAssist.AttendancePages
import HubAssist.ReadModifyWrite
import HubAssist.BookingsRace
import HubAssist.AuthSessions
import HubAssist.AuthLogout
import HubAssist.AuthOtpReuse
import HubAssist.AttendanceClock
import HubAssist.AttendanceIntegrity
import HubAssist.AccessQuorum
import HubAssist.AccessTimelock
import HubAssist.AccessBounds
import HubAssist.AccessReplaced
import HubAssist.AccessPause
import HubAssist.StakingCarryOver
import HubAssist.ManageHubReads
import HubAssist.ManageHubIsolation
import HubAssist.SubscriptionSteps
import HubAssist.SubscriptionExpiry
import HubAssist.SubscriptionPauses
import HubAssist.SubscriptionEntitlement
import HubAssist.HashChain
import HubAssist.AttendanceLogSteps
import HubAssist.AttendanceLogChain
import HubAssist.AttendanceLogAppend
import HubAssist.PeakHoursCache
import HubAssist.TierChangeSteps
import HubAssist.TierChangeIds
import HubAssist.TierChangeMoves
import HubAssist.TokenSteps
import HubAssist.TierChangeReach
import HubAssist.AllowanceTransfers
import HubAssist.AllowanceOwnership
import HubAssist.SubscriptionPeriods
import HubAssist.WorkspaceRecords
import HubAssist.WorkspaceMaintenance
import HubAssist.WorkspacePayment
import HubAssist.WorkspaceListing
import HubAssist.WorkspaceBatch
import HubAssist.OwnershipExpiry
import HubAssist.SchemaMigration
import HubAssist.MerkleRewards
import HubAssist.BookingsDeletion
import HubAssist.SmtpBreaker
import HubAssist.ApiClientModel
import HubAssist.ApiClientRefresh
import HubAssist.NumberedTable
import HubAssist.WorkspaceIndexes
import HubAssist.EscrowLists
import HubAssist.MembershipBatch
import HubAssist.MembershipIds
import HubAssist.MembershipRenewal
import HubAssist.EscrowTimes
import HubAssist.StakingFormulas
import HubAssist.StakingExits
import HubAssist.StakingEmergency
import HubAssist.BookingsAvailability
import HubAssist.BookingsSlots
import HubAssist.IntervalTiling
import HubAssist.PricingModel
import HubAssist.PricingSegments
import HubAssist.PricingRules
import HubAssist.RefundPolicies
import HubAssist.RefundModel
import HubAssist.BookingsSeriesPrice
import HubAssist.GroupTable
import HubAssist.AttendanceSummaryModel
import HubAssist.AttendanceSummary
import HubAssist.AttendanceLogPairs
import HubAssist.AttendanceLogTraps
import HubAssist.SlidingWindow
import HubAssist.AuthResendWindow
import HubAssist.AuthResendRace
import HubAssist.IdempotencyReplay
import HubAssist.WorkTurns
import HubAssist.RetryLifecycle
import HubAssist.DeliveryRetries
import HubAssist.WorkPages
import HubAssist.WebhookBlocking
import HubAssist.EmailRetry
import HubAssist.BitGroups
import HubAssist.Base32
import HubAssist.TotpCodes
import HubAssist.TotpEnrolment
import HubAssist.QuotedRecords
import HubAssist.DateUtils
import HubAssist.AttendanceExport
import HubAssist.IsoWeek
import HubAssist.DateUtilsWeeks
import HubAssist.DecimalText
import HubAssist.Binary64
import HubAssist.NumberText
import HubAssist.UrlFilters
import HubAssist.ClosedRanges
import HubAssist.OccupancyStream
import HubAssist.DailyUtilization
import HubAssist.BracketedText
import HubAssist.SanitizationPipe
import HubAssist.SessionBroadcast
import HubAssist.SessionDelivery
import HubAssist.HubDirectory
import HubAssist.UserSearch
import HubAssist.OffsetFeed
import HubAssist.ContactInbox
import HubAssist.BookingsLedger
import HubAssist.SessionTimeout
import HubAssist.EscrowHistory
import HubAssist.RequestGuards
import HubAssist.LeastSquares
import HubAssist.UtilizationTrend
import HubAssist.WorkspaceStatus
import HubAssist.RevenueReport
import HubAssist.NotificationMarks
import HubAssist.Newsletter
import HubAssist.RouteMiddleware
import HubAssist.BookingWizard
