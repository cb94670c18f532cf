import Taskboard.Contracts
import Taskboard.Dependencies
import Taskboard.Duplicates
import Taskboard.Exclusive
import Taskboard.LeaseGrant
import Taskboard.Lib.ReadCommitted
import Taskboard.Offers
import Taskboard.PickupRate
import Taskboard.PrivateWork
import Taskboard.RunLimits
import Taskboard.Separation
import Taskboard.Statuses
import Taskboard.Timestamps
import Taskboard.Unseen
import Taskboard.Waits
import Taskboard.Lib.Interleaving
import Taskboard.Checklists
import Taskboard.Handoffs
import Taskboard.Lib.StaleReads
import Taskboard.DiscussionIdle
import Taskboard.OpenControls
import Taskboard.DesktopHandoffs
import Taskboard.EventFanout
import Taskboard.EventCatchUp
import Taskboard.PendingMessages
import Taskboard.InboxDigest
import Taskboard.Inbox
import Taskboard.InboxDiscussions
import Taskboard.PendingControls
import Taskboard.SortOrders
import Taskboard.RateLimiter
import Taskboard.Recurrence
import Taskboard.Deferral
import Taskboard.Review
import Taskboard.Analytics
import Taskboard.Migrations
import Taskboard.Webhooks
import Taskboard.ControlTimes
import Taskboard.Successors
import Taskboard.Lib.Quoting
import Taskboard.Placeholders
import Taskboard.RecentEvents
import Taskboard.CodexAdapter
