import Insta.Core.Lts
import Insta.L4App.Controllers

/-!
# The application as a system of requests

`system`: from any state without outstanding reset tokens, requests are
served one after the other, each with its session and with a script of
failing external calls; between them time passes and anything may happen in
the Stripe account.
-/
namespace Insta.Web

open Insta.Core Insta.Store Insta.Store.App Insta.Model Insta.Service

inductive Request
  | signUp (p : UserParams)
  | accountUpdate (currentPassword : String) (p : UserParams)
  | accountDestroy
  | forgotPassword (email : Option String) (raw : String)
  | devisePasswordUpdate (raw : Option String) (a : PasswordAttrs)
  | passwordsUpdate (params : Option ResetParams)
  | usersCreate (p : UserParams) (token : Hex 10)
  | usersUpdate (id : IdParam) (p : UserParams)
  | usersDestroy (id : IdParam)
  | profilesCreate (p : ProfileParams)
  | profilesUpdate (p : ProfileParams)
  | profilesDestroy
  | postsCreate (p : PostParams)
  | postsUpdate (id : IdParam) (p : PostParams)
  | postsDestroy (id : IdParam)
  | tagsCreate (name : Option (Option String))
  | tagsUpdate (id : IdParam) (name : Option (Option String))
  | tagsDestroy (id : IdParam)
  | likesCreate (post user : Nat)
  | likesDestroy (id : Nat)
  | subscriptionsCreate (product : String)
  | subscriptionsDestroy (s : String)
  | webhooksStripe (payload : Option Event)

/-- config/routes.rb: the action of each request. -/
def handle (lib : Lib) (actor : Option Nat) : Request → App Unit
  | .signUp p => signUp lib actor p
  | .accountUpdate pw p => accountUpdate lib actor pw p
  | .accountDestroy => accountDestroy lib actor
  | .forgotPassword e raw => forgotPassword lib actor e raw
  | .devisePasswordUpdate raw a => devisePasswordUpdate lib actor raw a
  | .passwordsUpdate p => passwordsUpdate lib p
  | .usersCreate p token => usersCreate lib actor p token
  | .usersUpdate id p => usersUpdate lib actor id p
  | .usersDestroy id => usersDestroy lib actor id
  | .profilesCreate p => profilesCreate lib actor p
  | .profilesUpdate p => profilesUpdate lib actor p
  | .profilesDestroy => profilesDestroy actor
  | .postsCreate p => postsCreate lib actor p
  | .postsUpdate id p => postsUpdate lib actor id p
  | .postsDestroy id => postsDestroy actor id
  | .tagsCreate n => tagsCreate lib actor n
  | .tagsUpdate id n => tagsUpdate lib actor id n
  | .tagsDestroy id => tagsDestroy actor id
  | .likesCreate p u => likesCreate actor p u
  | .likesDestroy id => likesDestroy actor id
  | .subscriptionsCreate p => subscriptionsCreate actor p
  | .subscriptionsDestroy s => subscriptionsDestroy actor s
  | .webhooksStripe e => webhooksStripe lib e

/-- A request with its session and the faults of its external calls. -/
structure Call where
  actor : Option Nat
  req : Request
  script : List (Option Fault) := []

/-- The world after a call, whether it returned or raised. -/
def serve (lib : Lib) (w : World) (c : Call) : World :=
  ((handle lib c.actor c.req).run { w with script := c.script }).2

inductive Label
  | call (c : Call)
  | tick (seconds : Nat)
  | account (s : Stripe)

def next (lib : Lib) (w : World) : Label → World
  | .call c => serve lib w c
  | .tick n => { w with now := w.now + n }
  | .account s => { w with stripe := s }

/-- No reset token is outstanding and none was recorded yet. -/
def Fresh (w : World) : Prop := (∀ r ∈ w.db.users.rows, r.resetPasswordToken = none) ∧ w.resets = []

def system (lib : Lib) : LTS World Label := LTS.ofFn Fresh fun w l => some (next lib w l)

theorem system_step {lib : Lib} {w w' : World} {l : Label} :
    (system lib).step w l w' ↔ w' = next lib w l := by
  simp [system, LTS.ofFn, eq_comm]

/-- A step is a call, or leaves the database. -/
theorem step_cases {lib : Lib} {w w' : World} {l : Label} (h : (system lib).step w l w') :
    (∃ c, l = .call c ∧ w' = serve lib w c) ∨ w'.db = w.db := by
  rw [system_step.1 h]
  cases l with
  | call c => exact .inl ⟨c, rfl, rfl⟩
  | tick n => exact .inr rfl
  | account s => exact .inr rfl

/-! ## Delivered events -/

def EventType.ofSubscription : EventType → Bool
  | .subscriptionCreated | .subscriptionUpdated | .subscriptionDeleted => true
  | _ => false

def EventType.ofProduct : EventType → Bool
  | .productCreated | .productUpdated | .productDeleted => true
  | _ => false

/-- `invoice.payment_succeeded`: its object has a customer and no items. -/
def invoicePaid (id customer : String) : Event :=
  ⟨.invoicePaymentSucceeded, { id := id, customer := customer }⟩

/-- The account after it stored `k` and queued an event about it. -/
def putSubscription (a : Stripe) (k : StripeSubscription) (type : EventType) : Stripe :=
  { a with
    subscriptions := k :: a.subscriptions.filter fun x => x.id != k.id
    outbox := a.outbox ++ [⟨type, k.snapshot⟩] }

/-- The user and product the event is stored for, if it is stored. -/
def storedFor (w : World) (type : EventType) (k : StripeSubscription) : Option (UserRow × ProductRow) :=
  if EventType.syncs type then eventTarget w k.snapshot else none

theorem storedFor_some {w : World} {type : EventType} {k : StripeSubscription} {user : UserRow}
    {product : ProductRow} (h : storedFor w type k = some (user, product)) :
    EventType.syncs type = true ∧ eventTarget w k.snapshot = some (user, product) ∧
      product ∈ w.db.products.rows ∧ product.stripeProductId = some k.product := by
  unfold storedFor at h
  split at h
  · rename_i hs
    obtain ⟨p, ps, -, hi, hx⟩ := eventTarget_eq_some_iff.1 h
    cases hi
    exact ⟨hs, h, productOf_mem hx⟩
  · cases h

theorem serve_stored (lib : Lib) {w : World} {type : EventType} {k : StripeSubscription} {user : UserRow}
    {product : ProductRow} (h : storedFor w type k = some (user, product)) :
    ∃ t, upsertSubscription w.db.subscriptions user product k.snapshot = some t ∧
      (serve lib w ⟨none, .webhooksStripe (some ⟨type, k.snapshot⟩), []⟩).db =
        { w.db with subscriptions := t } := by
  obtain ⟨hs, ht, -⟩ := storedFor_some h
  obtain ⟨t, hup, hrun⟩ := syncSubscription_of_target (w := { w with script := [] }) ht
  refine ⟨t, hup, ?_⟩
  show ((webhooksStripe lib (some ⟨type, k.snapshot⟩)).run { w with script := [] }).2.db = _
  rw [webhooksStripe_of_syncs lib (e := ⟨type, k.snapshot⟩) hs, hrun]
  rfl

theorem serve_not_stored (lib : Lib) {w : World} {type : EventType} {k : StripeSubscription}
    (hsub : EventType.ofSubscription type = true) (h : storedFor w type k = none) :
    (serve lib w ⟨none, .webhooksStripe (some ⟨type, k.snapshot⟩), []⟩).db = w.db := by
  show ((webhooksStripe lib (some ⟨type, k.snapshot⟩)).run { w with script := [] }).2.db = _
  cases hs : EventType.syncs type with
  | true =>
    have ht : eventTarget w k.snapshot = none := by unfold storedFor at h; rwa [if_pos hs] at h
    rw [webhooksStripe_of_syncs lib (e := ⟨type, k.snapshot⟩) hs,
      syncSubscription_of_no_target (w := { w with script := [] }) ht]
  | false =>
    have hdel : type = .subscriptionDeleted := by
      cases type <;> simp_all [EventType.syncs, EventType.ofSubscription]
    rw [webhooksStripe_of_subscriptionDeleted lib (e := ⟨type, k.snapshot⟩) hdel]

/-! ## A small installation -/

/-- An admin, linked to a Stripe customer; nobody was sent a token. -/
def adminRow : UserRow where
  id := 1
  email := some "admin@example.com"
  encryptedPassword := "secret"
  resetPasswordToken := none
  resetPasswordSentAt := none
  username := some "admin1"
  role := .admin
  slug := some "admin1"
  stripeCustomerId := some "cus_1"
  createdAt := 0

def adminOnly : World where
  db := { users := ⟨[adminRow], 2, List.pairwise_singleton _ _, List.pairwise_singleton _ _, by decide⟩ }
  stripe := { customers := [{ id := "cus_1", name := some "admin1", email := some "admin@example.com" }] }

theorem adminOnly_fresh : Fresh adminOnly := by
  refine ⟨fun r hr => ?_, rfl⟩
  rw [List.mem_singleton.1 hr]
  rfl

def inviteToken : Hex 10 := ⟨"00112233445566778899", by decide⟩

def aliceRow : UserRow :=
  { adminRow with
    email := some "alice@example.com", username := some "alice", role := .user, slug := some "alice" }

def planRow (id : Nat) (stripeProductId name : String) : ProductRow where
  id := id
  stripeProductId := some stripeProductId
  name := some name
  description := none
  price := some 5
  currency := some "usd"
  active := some true
  stripePriceId := none
  image := none

/-- One user, linked to a Stripe customer, and two plans; no subscriptions. -/
def shop : World where
  db :=
    { users := ⟨[aliceRow], 2, List.pairwise_singleton _ _, List.pairwise_singleton _ _, by decide⟩
      products := ⟨[planRow 1 "prod_2" "#2 Posts", planRow 2 "prod_5" "#5 Posts"], 3,
        by simp [rowId, planRow], by simp [clash], by simp [rowId, planRow]⟩ }
  stripe := { customers := [{ id := "cus_1", name := some "alice", email := some "alice@example.com" }] }

def bobRow : UserRow where
  id := 2
  email := some "bob@example.com"
  encryptedPassword := "hunter2"
  resetPasswordToken := none
  resetPasswordSentAt := none
  username := some "bob"
  role := .user
  slug := some "bob"
  stripeCustomerId := some "cus_2"
  createdAt := 0

def firstPost : PostRow := ⟨1, some "a.png", some "first", some "text", 1, some "first", 0, 0⟩

def firstPosts : Table PostRow :=
  ⟨[firstPost], 2, List.pairwise_singleton _ _, List.pairwise_singleton _ _, by decide⟩

/-- Two users, each linked to a customer, and a post of the first one. -/
def neighbours : World where
  db := { users := ⟨[aliceRow, bobRow], 3, by decide, by decide, by decide⟩, posts := firstPosts }
  stripe :=
    { customers := [{ id := "cus_1", name := some "alice", email := some "alice@example.com" },
        { id := "cus_2", name := some "bob", email := some "bob@example.com" }] }

/-- An account with one customer and its `customer.created`; no users. -/
def oneCustomer (name : Option String) : World where
  stripe :=
    { customers := [{ id := "cus_1", name := name, email := some "bob@example.com" }]
      outbox := [⟨.customerCreated, { id := "cus_1" }⟩] }

end Insta.Web
