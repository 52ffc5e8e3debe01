import Mathlib.Algebra.Order.BigOperators.Group.List
import Mathlib.Algebra.Order.Ring.Nat
import Insta.L1Store.Schema

/-!
# The world a request runs in

The local database, the Stripe account, the job queue and the mails sent,
the clock, and the script that says which of the request's external calls
fail. A transaction covers the database only: what was done at Stripe, the
queued jobs and the sent mails stay when it is rolled back.

`Lib` holds the functions of Ruby and of the gems that the repository calls
and does not define. They are parameters: every result holds for any of
them. `resets` is a ghost record of the reset tokens the model issued and of
the resets that succeeded.
-/
namespace Insta.Store

open Insta.Core

/-- Library functions.
* `downcase`, `strip`: `String#downcase`, `String#strip`; `blank`: `blank?`
  of a string; `emailRegexp`: a match of `URI::MailTo::EMAIL_REGEXP`;
  `numeric`: what `numericality: true` accepts.
* `digest password salt`, `compare encrypted password`: `Devise::Encryptor`.
* `tokenDigest`: `Devise.token_generator.digest` of a raw reset token.
* `slugFor base taken`: the slug `friendly_id` generates from `base` while
  the slugs `taken` are in use.
* `freshId taken`: an id Stripe gives a new object; ids are never reused. -/
structure Lib where
  downcase : String → String
  strip : String → String
  blank : String → Bool
  emailRegexp : String → Bool
  numeric : String → Bool
  digest : String → Nat → String
  compare : String → String → Bool
  tokenDigest : String → Hex 32
  slugFor : Option String → List String → String
  slugFor_fresh : ∀ base taken, slugFor base taken ∉ taken
  freshId : List String → String
  freshId_fresh : ∀ taken, freshId taken ∉ taken

/-- `present?` of a nullable string. -/
def Lib.present (lib : Lib) : Option String → Bool
  | none => false
  | some s => !lib.blank s

/-- A string longer than all of `taken`. -/
def freshName (taken : List String) : String :=
  String.ofList (List.replicate ((taken.map String.length).sum + 1) 'x')

theorem append_freshName_fresh (base : String) (taken : List String) :
    base ++ freshName taken ∉ taken := by
  intro h
  have hle := List.single_le_sum (fun _ _ => Nat.zero_le _) _ (List.mem_map_of_mem (f := String.length) h)
  simp only [freshName, String.length_append, String.length_ofList, List.length_replicate] at hle
  omega

/-- A library to evaluate the model with: strings are stored as they are,
and new names are longer than those in use. -/
def plainLib : Lib where
  downcase s := s
  strip s := s
  blank s := s == ""
  emailRegexp _ := true
  numeric _ := true
  digest password _ := password
  compare encrypted password := encrypted == password
  tokenDigest _ := ⟨String.ofList (List.replicate 64 '0'), by rw [String.length_ofList, List.length_replicate]⟩
  slugFor base taken := base.getD "" ++ freshName taken
  slugFor_fresh _ taken := append_freshName_fresh _ taken
  freshId taken := "cus_" ++ freshName taken
  freshId_fresh taken := append_freshName_fresh _ taken

/-! ## Stripe -/

structure Customer where
  id : String
  name : Option String
  email : Option String
  deleted : Bool := false
  deriving DecidableEq, Repr

structure Price where
  id : String
  unitAmount : Option Int
  currency : String
  deriving DecidableEq, Repr

structure StripeProduct where
  id : String
  name : String
  description : Option String
  active : Bool
  images : List String := []
  prices : List Price
  deriving DecidableEq, Repr

structure StripeSubscription where
  id : String
  customer : String
  status : String
  product : String
  deriving DecidableEq, Repr

/-- `event.data.object`, as far as a handler reads it. `items` is the list
of the items' `price.product`; an object without that field (an invoice)
has `none`. -/
structure StripeObject where
  id : String
  customer : String := ""
  items : Option (List String) := none
  status : String := ""
  deriving DecidableEq, Repr

/-- `event.type`; `other` stands for every type the handler does not name.
mirrors app/controllers/webhooks_controller.rb:25-56 -/
inductive EventType
  | customerCreated | customerUpdated | customerDeleted
  | productCreated | productUpdated | productDeleted
  | subscriptionCreated | subscriptionUpdated | subscriptionDeleted
  | invoicePaymentSucceeded
  | other
  deriving DecidableEq, Repr

structure Event where
  type : EventType
  object : StripeObject
  deriving DecidableEq, Repr

/-- The Stripe account; `outbox` is the events not delivered yet. -/
structure Stripe where
  customers : List Customer := []
  products : List StripeProduct := []
  subscriptions : List StripeSubscription := []
  outbox : List Event := []
  deriving DecidableEq, Repr

/-- The object of an event about `s`, as Stripe generates it. -/
def StripeSubscription.snapshot (s : StripeSubscription) : StripeObject :=
  { id := s.id, customer := s.customer, items := some [s.product], status := s.status }

/-- The account after `Stripe::Customer.create`: it queues
`customer.created`. -/
def Stripe.addCustomer (a : Stripe) (k : Customer) : Stripe :=
  { a with
    customers := a.customers ++ [k]
    outbox := a.outbox ++ [⟨.customerCreated, { id := k.id }⟩] }

/-- What `Stripe::Customer.update` does to the account: a change of name or
email queues `customer.updated`. -/
def Stripe.setCustomer (s : Stripe) (k : Customer) (email name : Option String) : Stripe :=
  if k.name = name ∧ k.email = email then s
  else { s with
    customers := s.customers.map fun x => if x.id = k.id then { x with name, email } else x
    outbox := s.outbox ++ [⟨.customerUpdated, { id := k.id }⟩] }

/-- Stripe's subscription `s`. -/
def Stripe.subscription? (a : Stripe) (s : String) : Option StripeSubscription :=
  a.subscriptions.find? (·.id == s)

/-- The account after `s` was cancelled, by whoever: it queues
`customer.subscription.deleted`. -/
def Stripe.cancel (a : Stripe) (k : StripeSubscription) : Stripe :=
  { a with
    subscriptions := a.subscriptions.map fun x =>
      if x.id = k.id then { k with status := "canceled" } else x
    outbox := a.outbox ++ [⟨.subscriptionDeleted, { k with status := "canceled" : StripeSubscription }.snapshot⟩] }

/-! ## The world -/

/-- How an external call fails: `Stripe::InvalidRequestError`, or anything
else (connection, authentication, rate limit, mail delivery). -/
inductive Fault
  | invalidRequest | other
  deriving DecidableEq, Repr

inductive Raise
  | recordNotFound | recordInvalid | recordNotUnique | notNullViolation | invalidForeignKey
  | argumentError | noMethodError | parameterMissing
  | accessDenied | unauthenticated
  | unsafeRedirect
  | fault (f : Fault)
  deriving DecidableEq, Repr

inductive Mail
  | invite (user : Nat) (token : Option String)
  deriving DecidableEq, Repr

/-- Ghost record: a token stored by `generate_reset_password_token!` at a
time, and a successful reset. -/
inductive ResetEvent
  | issued (user : Nat) (token : String) (at_ : Nat)
  | reset (user : Nat)
  deriving DecidableEq, Repr

def ResetEvent.user : ResetEvent → Nat
  | .issued u _ _ => u
  | .reset u => u

structure World where
  db : Db := {}
  /-- ghost, newest first -/
  resets : List ResetEvent := []
  stripe : Stripe := {}
  jobs : List Nat := []
  mails : List Mail := []
  now : Nat := 0
  script : List (Option Fault) := []
  deriving DecidableEq

instance : Rollback World where
  rollback w w' := { w' with db := w.db, resets := w.resets }

abbrev App (α : Type) := Act World Raise α

def World.setUsers (w : World) (t : Table UserRow) : World := { w with db := { w.db with users := t } }

@[simp] theorem setUsers_users (w : World) (t : Table UserRow) : (w.setUsers t).db.users = t := rfl
@[simp] theorem setUsers_db (w : World) (t : Table UserRow) :
    (w.setUsers t).db = { w.db with users := t } := rfl
@[simp] theorem setUsers_resets (w : World) (t : Table UserRow) : (w.setUsers t).resets = w.resets := rfl
@[simp] theorem setUsers_stripe (w : World) (t : Table UserRow) : (w.setUsers t).stripe = w.stripe := rfl
@[simp] theorem setUsers_script (w : World) (t : Table UserRow) : (w.setUsers t).script = w.script := rfl
@[simp] theorem setUsers_now (w : World) (t : Table UserRow) : (w.setUsers t).now = w.now := rfl

def World.addCustomer (w : World) (k : Customer) : World := { w with stripe := w.stripe.addCustomer k }

@[simp] theorem addCustomer_stripe (w : World) (k : Customer) :
    (w.addCustomer k).stripe = w.stripe.addCustomer k := rfl

/-- Nothing changes but the Stripe account and the script. -/
def stripeOnly : Frame World where
  rel w w' := ∃ st sc, w' = { w with stripe := st, script := sc }
  refl w := ⟨w.stripe, w.script, rfl⟩
  trans := by rintro a b c ⟨_, _, rfl⟩ ⟨st, sc, rfl⟩; exact ⟨st, sc, rfl⟩

namespace App

open Act

/-- The value of a lookup, or `RecordNotFound`. -/
def orNotFound {α : Type} : Option α → App α
  | some a => pure a
  | none => raise .recordNotFound

/-- An external call: the script says whether this one fails. -/
def external : App Unit where
  run w :=
    match w.script with
    | [] => (.ok (), w)
    | none :: rest => (.ok (), { w with script := rest })
    | some f :: rest => (.error (.fault f), { w with script := rest })

/-- The customer `c`, if Stripe has it and it is not deleted. -/
def customer? (w : World) (c : String) : Option Customer :=
  w.stripe.customers.find? fun k => k.id == c && !k.deleted

/-- Every customer id in use, at Stripe or in a local row. -/
def knownIds (w : World) : List String :=
  w.stripe.customers.map Customer.id ++ w.db.users.rows.filterMap UserRow.stripeCustomerId

/-- The customer Stripe creates next for this name and email. -/
def newCustomer (lib : Lib) (w : World) (email name : Option String) : Customer :=
  { id := lib.freshId (knownIds w), name := name, email := email }

/-- `Stripe::Customer.create(email:, name:)`; returns the new id. -/
def customerCreate (lib : Lib) (email name : Option String) : App String := do
  external
  let w ← get
  let k := newCustomer lib w email name
  modify (·.addCustomer k)
  pure k.id

/-- `Stripe::Customer.update(c, email:, name:)`; an id that is null or that
Stripe does not know is an invalid request. -/
def customerUpdate (c : Option String) (email name : Option String) : App Unit := do
  external
  let w ← get
  match c.bind (customer? w) with
  | none => raise (.fault .invalidRequest)
  | some k => modify fun w => { w with stripe := w.stripe.setCustomer k email name }

/-- `Stripe::Customer.retrieve(c)`, read for its name and email; a deleted
customer has neither. -/
def customerRetrieve (c : String) : App Customer := do
  external
  let w ← get
  match w.stripe.customers.find? (·.id == c) with
  | none => raise (.fault .invalidRequest)
  | some k => if k.deleted then raise .noMethodError else pure k

/-- `Stripe::Customer.delete(c)`. -/
def customerDelete (c : String) : App Unit := do
  external
  let w ← get
  match customer? w c with
  | none => raise (.fault .invalidRequest)
  | some _ => modify fun w => { w with stripe := { w.stripe with
      customers := w.stripe.customers.map fun k => if k.id = c then { k with deleted := true } else k
      outbox := w.stripe.outbox ++ [⟨.customerDeleted, { id := c }⟩] } }

/-- `Stripe::Product.retrieve(p)`; it raises for a deleted product. -/
def productRetrieve (p : String) : App StripeProduct := do
  external
  let w ← get
  match w.stripe.products.find? (·.id == p) with
  | none => raise (.fault .invalidRequest)
  | some k => pure k

/-- `Stripe::Price.list(product: p).data`. -/
def priceList (p : StripeProduct) : App (List Price) := do
  external
  pure p.prices

/-- `Stripe::Subscription.cancel(s)`; cancelling twice is an invalid
request. -/
def subscriptionCancel (s : String) : App Unit := do
  external
  let w ← get
  match w.stripe.subscription? s with
  | none => raise (.fault .invalidRequest)
  | some k =>
    if k.status = "canceled" then raise (.fault .invalidRequest)
    else modify fun w => { w with stripe := w.stripe.cancel k }

/-! ## What the calls can change -/

theorem external_stripeOnly (w : World) : stripeOnly.Holds external w := by
  unfold Frame.Holds external
  simp only
  split
  · exact stripeOnly.refl w
  · exact ⟨w.stripe, _, rfl⟩
  · exact ⟨w.stripe, _, rfl⟩

/-- An external call uses up its line of the script. -/
theorem external_snd (w : World) : (external.run w).2 = { w with script := (external.run w).2.script } := by
  unfold external
  simp only
  split <;> rfl

theorem external_of_none {w : World} {rest : List (Option Fault)} (h : w.script = none :: rest) :
    external.run w = (.ok (), { w with script := rest }) := by
  unfold external; simp only; rw [h]

theorem external_of_fault {w : World} {f : Fault} {rest : List (Option Fault)} (h : w.script = some f :: rest) :
    external.run w = (.error (.fault f), { w with script := rest }) := by
  unfold external; simp only; rw [h]

theorem external_of_nil {w : World} (h : w.script = []) : external.run w = (.ok (), w) := by
  unfold external; simp only; rw [h]

theorem customerCreate_stripeOnly (lib : Lib) (email name : Option String) (w : World) :
    stripeOnly.Holds (customerCreate lib email name) w :=
  (external_stripeOnly w).bind fun _ w' _ => ⟨_, w'.script, rfl⟩

theorem customerUpdate_stripeOnly (c email name : Option String) (w : World) :
    stripeOnly.Holds (customerUpdate c email name) w := by
  refine (external_stripeOnly w).bind fun _ w' _ => .get_bind ?_
  split
  · exact .raise _ _
  · exact ⟨_, w'.script, rfl⟩

theorem customerRetrieve_stripeOnly (c : String) (w : World) :
    stripeOnly.Holds (customerRetrieve c) w := by
  refine (external_stripeOnly w).bind fun _ w' _ => .get_bind ?_
  split
  · exact .raise _ _
  · exact .ite (fun _ => .raise _ _) (fun _ => .pure _ _)

theorem customerDelete_stripeOnly (c : String) (w : World) :
    stripeOnly.Holds (customerDelete c) w := by
  refine (external_stripeOnly w).bind fun _ w' _ => .get_bind ?_
  split
  · exact .raise _ _
  · exact ⟨_, w'.script, rfl⟩

theorem productRetrieve_stripeOnly (p : String) (w : World) :
    stripeOnly.Holds (productRetrieve p) w := by
  refine (external_stripeOnly w).bind fun _ w' _ => .get_bind ?_
  split
  · exact .raise _ _
  · exact .pure _ _

theorem priceList_stripeOnly (p : StripeProduct) (w : World) : stripeOnly.Holds (priceList p) w :=
  (external_stripeOnly w).bind fun _ w' _ => .pure _ w'

theorem subscriptionCancel_stripeOnly (s : String) (w : World) :
    stripeOnly.Holds (subscriptionCancel s) w := by
  refine (external_stripeOnly w).bind fun _ w' _ => .get_bind ?_
  split
  · exact .raise _ _
  · exact .ite (fun _ => .raise _ _) fun _ => ⟨_, w'.script, rfl⟩

/-- A call fails when the script says so. -/
theorem external_error_iff {w : World} :
    (∃ err, (external.run w).1 = .error err) ↔ ∃ f, w.script.head? = some (some f) := by
  unfold external
  simp only
  rcases w.script with _ | ⟨_ | f, rest⟩ <;> simp

/-- When `Stripe::Customer.update` succeeds. -/
theorem customerUpdate_ok_iff {c e n : Option String} {w : World} :
    (∃ w', (customerUpdate c e n).run w = (.ok (), w')) ↔
    (∀ f, w.script.head? ≠ some (some f)) ∧ (c.bind (customer? w)).isSome = true := by
  rw [← not_exists, ← external_error_iff]
  have hw := external_snd w
  unfold customerUpdate
  rcases hx : external.run w with ⟨err | ⟨⟩, w₁⟩
  · rw [bind_of_error hx]
    simp
  · rw [hx] at hw
    dsimp only at hw
    rw [bind_of_ok hx, run_get_bind, hw]
    have hsame : customer? { w with script := w₁.script } = customer? w := rfl
    rw [hsame]
    cases c.bind (customer? w) <;> simp

/-- What a creation that returned did: a customer with a new id. -/
theorem customerCreate_ok {lib : Lib} {email name : Option String} {w w' : World} {c : String}
    (h : (customerCreate lib email name).run w = (.ok c, w')) :
    c = lib.freshId (knownIds w) ∧
      ∃ sc, w' = { w.addCustomer (newCustomer lib w email name) with script := sc } := by
  unfold customerCreate at h
  obtain ⟨_, w₁, hx, h⟩ := bind_ok h
  have hw := external_snd w
  rw [hx] at hw
  cases h
  generalize w₁.script = sc at hw
  subst hw
  exact ⟨rfl, sc, rfl⟩

/-! ## The calls when the script has a line for them -/

section Scripted

variable {w : World} {rest : List (Option Fault)}

theorem customerCreate_of_none (hs : w.script = none :: rest) (lib : Lib) (email name : Option String) :
    (customerCreate lib email name).run w =
      (.ok (newCustomer lib w email name).id, { w.addCustomer (newCustomer lib w email name) with script := rest }) := by
  unfold customerCreate
  rw [bind_of_ok (external_of_none hs)]
  rfl

theorem customerCreate_of_fault {f : Fault} (hs : w.script = some f :: rest) (lib : Lib) (email name : Option String) :
    (customerCreate lib email name).run w = (.error (.fault f), { w with script := rest }) := by
  unfold customerCreate
  rw [bind_of_error (external_of_fault hs)]

theorem customerUpdate_of_none (hs : w.script = none :: rest) {c : Option String} {k : Customer}
    (hk : c.bind (customer? w) = some k) (email name : Option String) :
    (customerUpdate c email name).run w =
      (.ok (), { w with stripe := w.stripe.setCustomer k email name, script := rest }) := by
  unfold customerUpdate
  rw [bind_of_ok (external_of_none hs), run_get_bind]
  rw [show c.bind (customer? { w with script := rest }) = some k from hk]
  rfl

theorem customerUpdate_of_fault {f : Fault} (hs : w.script = some f :: rest) (c email name : Option String) :
    (customerUpdate c email name).run w = (.error (.fault f), { w with script := rest }) := by
  unfold customerUpdate
  rw [bind_of_error (external_of_fault hs)]

end Scripted

/-! ## The calls when no fault is scripted -/

theorem customerUpdate_of_nil {w : World} (hs : w.script = []) (c email name : Option String) :
    (customerUpdate c email name).run w =
      match c.bind (customer? w) with
      | none => (.error (.fault .invalidRequest), w)
      | some k => (.ok (), { w with stripe := w.stripe.setCustomer k email name }) := by
  unfold customerUpdate
  rw [bind_of_ok (external_of_nil hs), run_get_bind]
  cases c.bind (customer? w) <;> rfl

theorem customerRetrieve_of_nil {w : World} (hs : w.script = []) (c : String) :
    (customerRetrieve c).run w =
      match w.stripe.customers.find? (·.id == c) with
      | none => (.error (.fault .invalidRequest), w)
      | some k => if k.deleted then (.error .noMethodError, w) else (.ok k, w) := by
  unfold customerRetrieve
  rw [bind_of_ok (external_of_nil hs), run_get_bind]
  cases w.stripe.customers.find? (·.id == c) with
  | none => rfl
  | some k => cases hd : k.deleted <;> simp [hd]

theorem customerCreate_of_nil {w : World} (hs : w.script = []) (lib : Lib) (email name : Option String) :
    (customerCreate lib email name).run w =
      (.ok (newCustomer lib w email name).id, w.addCustomer (newCustomer lib w email name)) := by
  unfold customerCreate
  rw [bind_of_ok (external_of_nil hs)]
  rfl

/-- A new customer is found under its id. -/
theorem customer?_newCustomer (lib : Lib) (w : World) (email name : Option String) :
    customer? (w.addCustomer (newCustomer lib w email name)) (newCustomer lib w email name).id =
      some (newCustomer lib w email name) := by
  have hfresh : ∀ x ∈ w.stripe.customers, x.id ≠ (newCustomer lib w email name).id := by
    intro x hx he
    exact lib.freshId_fresh (knownIds w) (List.mem_append.2 (.inl (List.mem_map.2 ⟨x, hx, he⟩)))
  have hnone : w.stripe.customers.find?
      (fun x => x.id == (newCustomer lib w email name).id && !x.deleted) = none := by
    rw [List.find?_eq_none]
    intro x hx
    simp [hfresh x hx]
  unfold customer?
  rw [addCustomer_stripe]
  simp only [Stripe.addCustomer, List.find?_append, hnone]
  simp [newCustomer]

/-- Pushing what the account has changes nothing. -/
theorem setCustomer_self (a : Stripe) (k : Customer) : a.setCustomer k k.email k.name = a := by
  simp [Stripe.setCustomer]

/-- A cancellation raises and does nothing, or cancels. -/
theorem subscriptionCancel_cases (s : String) (w : World) : ∃ sc,
    (∃ e, (subscriptionCancel s).run w = (.error e, { w with script := sc })) ∨
    ∃ k, w.stripe.subscription? s = some k ∧ k.status ≠ "canceled" ∧
      (subscriptionCancel s).run w = (.ok (), { w with stripe := w.stripe.cancel k, script := sc }) := by
  unfold subscriptionCancel
  have hw := external_snd w
  rcases hx : external.run w with ⟨e | ⟨⟩, w₁⟩ <;> rw [hx] at hw <;> dsimp only at hw
  · exact ⟨w₁.script, .inl ⟨e, by rw [bind_of_error hx, ← hw]⟩⟩
  · refine ⟨w₁.script, ?_⟩
    generalize w₁.script = sc at hw
    subst hw
    rw [bind_of_ok hx, run_get_bind]
    dsimp only
    split
    · exact .inl ⟨_, rfl⟩
    · rename_i k hk
      split
      · exact .inl ⟨_, rfl⟩
      · rename_i hst
        exact .inr ⟨k, hk, hst, rfl⟩

end App

end Insta.Store
