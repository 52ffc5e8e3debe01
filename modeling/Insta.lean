import Insta.Core.Lts
import Insta.Core.Table
import Insta.Core.Act
import Insta.Core.Failure
import Insta.Core.Threads
import Insta.Core.KeyedLog
import Insta.Core.FindOrCreate
import Insta.Core.Mirror
import Insta.Core.Base64
import Insta.Core.FormUrl
import Insta.Core.Router
import Insta.Core.Paging
import Insta.Core.Community
import Insta.L1Store.Schema
import Insta.L1Store.World
import Insta.L2Model.User
import Insta.L2Model.Content
import Insta.L2Model.Cascade
import Insta.L2Model.Ability
import Insta.L3Service.Customer
import Insta.L3Service.Billing
import Insta.L4App.Controllers
import Insta.L4App.System
import Insta.L4App.Effects
import Insta.L4App.UserWrites
import Insta.L4App.PasswordReset
import Insta.L4App.Privilege
import Insta.L4App.SubscriptionMirror
import Insta.L4App.CustomerLoop
import Insta.L4App.CustomerImport
import Insta.L4App.SubscriptionRows
import Insta.L4App.DeliveryOrder
import Insta.L4App.Integrity
import Insta.L4App.ProductMirror
import Insta.L4App.PostOwnership
import Insta.L4App.LikeOwnership
import Insta.L4App.Isolation
import Insta.L4App.CustomerLinks
import Insta.L4App.EmailIdentity
import Insta.L4App.ActiveSubscription
import Insta.L4App.DiscourseSso
import Insta.L4App.AdminCreation
import Insta.L4App.AccountDeletion
import Insta.L4App.WebhookTotal
import Insta.L4App.PostingPolicy
import Insta.L4App.InviteLink
import Insta.L4App.Prices
import Insta.L4App.LikeToggle
import Insta.L4App.FailedRequests
import Insta.L4App.AccountMoves
import Insta.L4App.AccountMirror
import Insta.L4App.Routes
import Insta.L4App.StoredContent
import Insta.L4App.Permalinks
import Insta.L4App.Dashboard
import Insta.L4App.PostingRight
import Insta.L4App.Sessions
import Insta.L5Concurrency.PostQuota
import Insta.L5Concurrency.LostEdit
import Insta.L5Concurrency.DuplicateRows
import Insta.L5Concurrency.LikeCount
import Insta.L5Concurrency.WelcomeJobs
import Insta.L5Concurrency.WelcomeRetries
import Insta.L5Concurrency.SsoProtocol
import Insta.L5Concurrency.BillingLinks
import Insta.L6Refinement.CommunityStore
