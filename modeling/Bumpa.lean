import Bumpa.Amqp.TopicPattern
import Bumpa.Http.Router
import Bumpa.Purchases.CreatePurchaseDto
import Bumpa.Purchases.PurchaseService
import Bumpa.Purchases.Consistency
import Bumpa.Purchases.IdempotentCreation
import Bumpa.Purchases.ReturnedPurchase
import Bumpa.Purchases.AmountRange
import Bumpa.Purchases.AnnouncedPurchases
import Bumpa.Outbox.OutboxService
import Bumpa.Outbox.PublishIntent
import Bumpa.Outbox.ExclusivePublishing
import Bumpa.Outbox.BestEffort
import Bumpa.Outbox.CountedAttempts
import Bumpa.Outbox.BoundedWaiting
import Bumpa.Outbox.ScheduledPublisher
import Bumpa.Outbox.LockOwnership
import Bumpa.Broker.BrokerService
import Bumpa.Broker.OwnChannel
import Bumpa.Broker.Executions
import Bumpa.Broker.ServerQueues
import Bumpa.Broker.Redelivery
import Bumpa.Broker.Conservation
import Bumpa.Broker.Provenance
import Bumpa.Broker.Topology
import Bumpa.Broker.LiveConsumers
import Bumpa.Broker.ReconnectTurns
import Bumpa.Broker.SingleFlight
import Bumpa.Loyalty.LoyaltyService
import Bumpa.Loyalty.ExactlyOnce
import Bumpa.Loyalty.RuleSemantics
import Bumpa.Loyalty.UnlockLoop
import Bumpa.Loyalty.PurchaseTransaction
import Bumpa.Loyalty.Sequential
import Bumpa.Loyalty.PurchaseOrder
import Bumpa.Loyalty.Serialization
import Bumpa.Loyalty.UnlockEvents
import Bumpa.Loyalty.StatsColumns
import Bumpa.Loyalty.BadgeEvents
import Bumpa.Loyalty.AnnouncedBadges
import Bumpa.Loyalty.EarnedBadges
import Bumpa.Loyalty.AdminConfigs
import Bumpa.Loyalty.BadgeConfigs
import Bumpa.Loyalty.AdminOrdering
import Bumpa.Loyalty.ConfigPages
import Bumpa.Loyalty.DefaultConfig
import Bumpa.Loyalty.AdminTransactions
import Bumpa.Loyalty.SingleCalls
import Bumpa.Loyalty.ConfigReferences
import Bumpa.Loyalty.GroupReferences
import Bumpa.Loyalty.Seeding
import Bumpa.Loyalty.SeedingRuns
import Bumpa.Loyalty.SeedRestarts
import Bumpa.Loyalty.CatalogReads
import Bumpa.Loyalty.RuleShape
import Bumpa.Loyalty.DeadAchievements
import Bumpa.Loyalty.AcceptedRules
import Bumpa.Loyalty.AchievementSets
import Bumpa.Loyalty.AchievementState
import Bumpa.Loyalty.Standing
import Bumpa.Cashback.DoublePayment
import Bumpa.Cashback.PayoutRecipient
import Bumpa.Cashback.Attempts
import Bumpa.Cashback.WebhookRace
import Bumpa.Cashback.TerminalSuccess
import Bumpa.Cashback.BookkeepingFailure
import Bumpa.Cashback.AutoRetryBound
import Bumpa.Cashback.Stranding
import Bumpa.Cashback.BadgeRows
import Bumpa.Cashback.SingleEnqueue
import Bumpa.Cashback.RetryEnqueue
import Bumpa.Cashback.ClaimAccounting
import Bumpa.Cashback.SupersededWebhook
import Bumpa.Cashback.FailureResidue
import Bumpa.Cashback.ScannerEligibility
import Bumpa.Cashback.CashbackProcessed
import Bumpa.Cashback.FixedIdentity
import Bumpa.Cashback.Noninterference
import Bumpa.Cashback.Redelivery
import Bumpa.Cashback.RetrySchedule
import Bumpa.Cashback.HandledEvents
import Bumpa.Cashback.BankDetails
import Bumpa.Cashback.PaystackClient
import Bumpa.Cashback.ListTransactions
import Bumpa.Cashback.TracedTransactions
import Bumpa.Rewards.Services
import Bumpa.Rewards.DistinctBadges
import Bumpa.Delivery.Relay
import Bumpa.Delivery.Delivered
import Bumpa.Delivery.PurchaseEvents
import Bumpa.Delivery.CountedPurchases
import Bumpa.Delivery.BadgeEvents
import Bumpa.Delivery.PaidBadges
import Bumpa.Delivery.Pipeline
import Bumpa.Delivery.TracedCashback
import Bumpa.Gateway.Routes
