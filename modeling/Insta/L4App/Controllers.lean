import Insta.L3Service.Billing

/-!
# The controllers

Every action that writes, with the filters in front of it and the
parameters its whitelist lets through. A request comes from a session
(`actor`, a user id or a guest); a user that no longer exists is nobody.
Devise's own registration and password endpoints are here as
`ApplicationController` configures them. Pages that only read are left out,
except `passwords#edit`, which shows what `passwords#update` does not check.
-/
namespace Insta.Web

open Insta.Core Insta.Store Insta.Store.App Insta.Model Insta.Service

/-! ## Filters and parameters -/

def currentUser (w : World) (actor : Option Nat) : Option UserRow := actor.bind w.db.users.find

/-- `before_action :authenticate_user!`. -/
def authenticate (actor : Option Nat) : App UserRow := do
  let w ← Act.get
  match currentUser w actor with
  | none => Act.raise .unauthenticated
  | some r => pure r

/-- Devise's `require_no_authentication`: a signed-in user is sent away. -/
def ifGuest (actor : Option Nat) (x : App Unit) : App Unit := do
  let w ← Act.get
  match currentUser w actor with
  | some _ => pure ()
  | none => x

/-- A `role` parameter: not sent, null or blank, one of the enum's keys or
values, or anything else. -/
inductive RoleParam
  | absent | null | key (r : Role) | invalid
  deriving DecidableEq, Repr

/-- Assigning the parameter; the enum raises on a value it does not have. -/
def assignRole : RoleParam → App (Option (Option Role))
  | .absent => pure none
  | .null => pure (some none)
  | .key r => pure (some (some r))
  | .invalid => Act.raise .argumentError

/-- The role the parameter assigns, unless it raises. -/
def RoleParam.assigned : RoleParam → Option (Option Role)
  | .absent | .invalid => none
  | .null => some none
  | .key r => some (some r)

/-- What `user_params` and the Devise sanitizers permit, and the salt bcrypt
draws should the password be stored.
mirrors app/controllers/users_controller.rb:84-86,
app/controllers/application_controller.rb:26-29 -/
structure UserParams where
  username : Option (Option String) := none
  email : Option (Option String) := none
  password : Option String := none
  passwordConfirmation : Option String := none
  role : RoleParam := .absent
  stripeCustomerId : Option (Option String) := none
  salt : Nat := 0
  deriving DecidableEq, Repr

def UserParams.attrs (p : UserParams) (skip : Bool) : PasswordAttrs :=
  { password := p.password, passwordConfirmation := p.passwordConfirmation, salt := p.salt,
    skipPasswordValidation := skip }

def UserParams.patch (lib : Lib) (p : UserParams) (role : Option (Option Role)) : UserPatch :=
  withPassword lib (p.attrs false)
    { username := p.username, email := p.email, role := role, stripeCustomerId := p.stripeCustomerId }

/-- Parameters other than the password are assigned as they are. -/
theorem patch_eq (lib : Lib) (p : UserParams) (role : Option (Option Role)) :
    ∃ digest, p.patch lib role =
      { username := p.username, email := p.email, encryptedPassword := digest, role := role,
        stripeCustomerId := p.stripeCustomerId } := by
  unfold UserParams.patch withPassword
  split
  · exact ⟨none, rfl⟩
  · split
    · exact ⟨_, rfl⟩
    · exact ⟨_, rfl⟩

/-! ## Devise: registrations -/

/-- `POST /users`. -/
def signUp (lib : Lib) (actor : Option Nat) (p : UserParams) : App Unit :=
  ifGuest actor do
    let role ← assignRole p.role
    let _ ← create lib (p.patch lib role) (p.attrs false)

/-- `update_with_password` drops a blank password, and the confirmation
with it when that is blank too. -/
def dropBlankPassword (lib : Lib) (p : UserParams) : UserParams :=
  if lib.present p.password then p
  else { p with
    password := none
    passwordConfirmation := if lib.present p.passwordConfirmation then p.passwordConfirmation else none }

/-- `PUT /users`. -/
def accountUpdate (lib : Lib) (actor : Option Nat) (currentPassword : String) (p : UserParams) :
    App Unit := do
  let me ← authenticate actor
  let role ← assignRole p.role
  if lib.compare me.encryptedPassword currentPassword then do
    let _ ← update lib me ((dropBlankPassword lib p).patch lib role) ((dropBlankPassword lib p).attrs false)

/-- `DELETE /users`. -/
def accountDestroy (lib : Lib) (actor : Option Nat) : App Unit := do
  let me ← authenticate actor
  destroyUser lib me

/-! ## Devise: its own password endpoints -/

/-- The record with a digest stored as its token; `save(validate: false)`. -/
def withDigest (lib : Lib) (w : World) (r : UserRow) (digest : Hex 32) : UserRow :=
  withSlug lib w.db.users (some r)
    { r with resetPasswordToken := some digest.1, resetPasswordSentAt := some w.now }

/-- `POST /users/password`: the digest of a new raw token is stored. -/
def forgotPassword (lib : Lib) (actor : Option Nat) (email : Option String) (raw : String) : App Unit :=
  ifGuest actor do
    let w ← Act.get
    if lib.present email then
      match findUserBy w fun r => r.email == deviseEmail lib email with
      | none => pure ()
      | some r => Act.atomically (saveUpdate r (withDigest lib w r (lib.tokenDigest raw)))

/-- `config.reset_password_within = 6.hours`.
mirrors config/initializers/devise.rb:227 -/
def sixHours : Nat := 21600

/-- `reset_password_period_valid?`. -/
def resetPasswordPeriodValid (r : UserRow) (now : Nat) : Bool :=
  match r.resetPasswordSentAt with
  | none => false
  | some t => decide (now ≤ t + sixHours)

/-- `PUT /users/password`: the submitted token is digested before the
lookup. -/
def devisePasswordUpdate (lib : Lib) (actor : Option Nat) (raw : Option String) (a : PasswordAttrs) :
    App Unit :=
  ifGuest actor do
    let w ← Act.get
    match raw with
    | none => pure ()
    | some t =>
      if lib.blank t then pure ()
      else
        match findUserBy w fun r => r.resetPasswordToken == some (lib.tokenDigest t).1 with
        | none => pure ()
        | some r =>
          if resetPasswordPeriodValid r w.now && lib.present a.password then do
            let _ ← update lib r (withPassword lib a {}) { a with skipPasswordValidation := false }

/-! ## PasswordsController -/

/-- `params[:user][:reset_password_token]`. A JSON body can send null and
arrays as well as strings. -/
inductive TokenParam
  | absent | null
  | text (s : String)
  | list (l : List (Option String))
  deriving DecidableEq, Repr

/-- The column values `find_by(reset_password_token: param)` accepts: a
missing or null parameter selects rows whose column is NULL. -/
def TokenParam.values : TokenParam → List (Option String)
  | .absent | .null => [none]
  | .text s => [some s]
  | .list l => l

/-- `params[:user]`; `otherKeys` says whether it has keys the action does
not read. -/
structure ResetParams where
  token : TokenParam := .absent
  password : Option String := none
  passwordConfirmation : Option String := none
  otherKeys : Bool := false
  salt : Nat := 0
  deriving DecidableEq, Repr

/-- `params.require(:user)` refuses an empty hash. -/
def ResetParams.isEmpty (p : ResetParams) : Bool :=
  p.token == .absent && p.password.isNone && p.passwordConfirmation.isNone && !p.otherKeys

def ResetParams.attrs (p : ResetParams) : PasswordAttrs :=
  { password := p.password, passwordConfirmation := p.passwordConfirmation, salt := p.salt }

def userOfToken (w : World) (t : TokenParam) : Option UserRow :=
  findUserBy w fun r => t.values.contains r.resetPasswordToken

/-- Whether the form is shown.
mirrors app/controllers/passwords_controller.rb:5-12 -/
def passwordsEdit (t : TokenParam) : App Bool := do
  let w ← Act.get
  match userOfToken w t with
  | none => pure false
  | some r => pure (!resetPasswordTokenExpired r w.now)

/-- Ghost: a reset that changed the stored password is recorded. -/
def logReset (r : UserRow) : App Unit :=
  Act.modify fun w =>
    if (w.db.users.find r.id).any fun x => x.encryptedPassword != r.encryptedPassword then
      { w with resets := .reset r.id :: w.resets }
    else w

/-- The record as the row is stored now. -/
def reload (r : UserRow) : App UserRow := do
  let w ← Act.get
  pure ((w.db.users.find r.id).getD r)

/-- The part of `update` for the user found.
mirrors app/controllers/passwords_controller.rb:27-34 -/
def resetFor (lib : Lib) (r : UserRow) (p : ResetParams) : App Unit := do
  if p.isEmpty then Act.raise .parameterMissing
  let ok ← update lib r (withPassword lib p.attrs {}) p.attrs
  if ok then do
    logReset r
    let r' ← reload r
    let _ ← clearResetPasswordToken lib r' p.attrs

/-- mirrors app/controllers/passwords_controller.rb:14-35 -/
def passwordsUpdate (lib : Lib) (params : Option ResetParams) : App Unit := do
  match params with
  | none => Act.raise .noMethodError
  | some p => do
    let w ← Act.get
    match userOfToken w p.token with
    | none => pure ()
    | some r => resetFor lib r p

theorem passwordsUpdate_of_no_user (lib : Lib) {p : ResetParams} {w : World}
    (h : userOfToken w p.token = none) : (passwordsUpdate lib (some p)).run w = (.ok (), w) := by
  unfold passwordsUpdate
  rw [Act.run_get_bind, h]
  rfl

theorem passwordsUpdate_of_user (lib : Lib) {p : ResetParams} {w : World} {r : UserRow}
    (h : userOfToken w p.token = some r) :
    (passwordsUpdate lib (some p)).run w = (resetFor lib r p).run w := by
  unfold passwordsUpdate
  rw [Act.run_get_bind, h]

/-! ## UsersController -/

/-- The invitation of a user an admin created: the token is issued and
mailed, stored or not.
mirrors app/controllers/users_controller.rb:38-41 -/
def invite (lib : Lib) (r : UserRow) (token : Hex 10) (a : PasswordAttrs) : App Unit := do
  let r' ← reload r
  generateResetPasswordToken lib r' token a
  external
  Act.modify fun w => { w with mails := w.mails ++ [.invite r.id (some token.1)] }

/-- No filter but the sign-in stands before `create`.
mirrors app/controllers/users_controller.rb:29-46 -/
def usersCreate (lib : Lib) (actor : Option Nat) (p : UserParams) (token : Hex 10) : App Unit := do
  let me ← authenticate actor
  let role ← assignRole p.role
  let created ← create lib (p.patch lib role) (p.attrs (me.role == .admin))
  match created with
  | none => Act.raise .recordInvalid
  | some r => if me.role = .admin then invite lib r token (p.attrs true) else pure ()

/-- No filter but the sign-in stands before `update`.
mirrors app/controllers/users_controller.rb:48-55 -/
def usersUpdate (lib : Lib) (actor : Option Nat) (id : IdParam) (p : UserParams) : App Unit := do
  let _ ← authenticate actor
  let w ← Act.get
  let r ← orNotFound (friendlyFind UserRow.slug w.db.users id)
  let role ← assignRole p.role
  let _ ← update lib r (p.patch lib role) (p.attrs false)

/-- `@user.profile&.destroy`. -/
def dropProfile (db : Db) (u : Nat) : Db :=
  match profileOf db u with
  | none => db
  | some p => destroyProfile db p.id

/-- The profile goes first, in a transaction of its own. -/
def destroyWithProfile (lib : Lib) (r : UserRow) : App Unit := do
  Act.modify fun w => { w with db := dropProfile w.db r.id }
  destroyUser lib r

/-- mirrors app/controllers/users_controller.rb:57-75 -/
def usersDestroy (lib : Lib) (actor : Option Nat) (id : IdParam) : App Unit := do
  let me ← authenticate actor
  authorize (some me) .destroy (.class_ .user)
  if me.role = .admin then do
    let w ← Act.get
    let r ← orNotFound (friendlyFind UserRow.slug w.db.users id)
    destroyWithProfile lib r
  else destroyWithProfile lib me

/-! ## ProfilesController, PostsController, TagsController, LikesController -/

/-- mirrors app/controllers/profiles_controller.rb:22-31 -/
def profilesCreate (lib : Lib) (actor : Option Nat) (p : ProfileParams) : App Unit := do
  let me ← authenticate actor
  authorize (some me) .create (.class_ .profile)
  let ok ← saveProfile lib me.id none p
  if !ok then Act.raise .recordInvalid

/-- mirrors app/controllers/profiles_controller.rb:33-41 -/
def profilesUpdate (lib : Lib) (actor : Option Nat) (p : ProfileParams) : App Unit := do
  let me ← authenticate actor
  authorize (some me) .update (.class_ .profile)
  let w ← Act.get
  match profileOf w.db me.id with
  | none => Act.raise .noMethodError
  | some r => do
    let _ ← saveProfile lib me.id (some r) p

/-- mirrors app/controllers/profiles_controller.rb:43-48 -/
def profilesDestroy (actor : Option Nat) : App Unit := do
  let me ← authenticate actor
  authorize (some me) .destroy (.class_ .profile)
  let w ← Act.get
  match profileOf w.db me.id with
  | none => Act.raise .noMethodError
  | some r => Act.modify fun w => { w with db := destroyProfile w.db r.id }

/-- The filters in front of `posts#create`: the sign-in, and `authorize_user`,
which is where `Ability` counts the user's posts.
mirrors app/controllers/posts_controller.rb:4-6 -/
def postsCreateFilters (actor : Option Nat) : App UserRow := do
  let me ← authenticate actor
  authorize (some me) .create (.class_ .post)
  pure me

/-- mirrors app/controllers/posts_controller.rb:25-32 -/
def postsCreate (lib : Lib) (actor : Option Nat) (p : PostParams) : App Unit := do
  let me ← postsCreateFilters actor
  savePost lib me.id p

/-- mirrors app/controllers/posts_controller.rb:34-42 -/
def postsUpdate (lib : Lib) (actor : Option Nat) (id : IdParam) (p : PostParams) : App Unit := do
  let me ← authenticate actor
  let w ← Act.get
  let r ← orNotFound (friendlyFind PostRow.slug w.db.posts id)
  authorize (some me) .update (.post r)
  let _ ← updatePost lib r p

/-- The filters in front of `posts#destroy`; returns the post they loaded. -/
def postsDestroyFilters (actor : Option Nat) (id : IdParam) : App PostRow := do
  let me ← authenticate actor
  let w ← Act.get
  let r ← orNotFound (friendlyFind PostRow.slug w.db.posts id)
  authorize (some me) .destroy (.post r)
  pure r

/-- mirrors app/controllers/posts_controller.rb:44-53 -/
def postsDestroy (actor : Option Nat) (id : IdParam) : App Unit := do
  let r ← postsDestroyFilters actor id
  Act.modify fun w => { w with db := destroyPost w.db r.id }

/-- mirrors app/controllers/tags_controller.rb:23-31 -/
def tagsCreate (lib : Lib) (actor : Option Nat) (name : Option (Option String)) : App Unit := do
  let _ ← authenticate actor
  let _ ← saveTag lib none name

/-- mirrors app/controllers/tags_controller.rb:33-41 -/
def tagsUpdate (lib : Lib) (actor : Option Nat) (id : IdParam) (name : Option (Option String)) :
    App Unit := do
  let _ ← authenticate actor
  let w ← Act.get
  let r ← orNotFound (friendlyFind TagRow.slug w.db.tags id)
  let _ ← saveTag lib (some r) name

/-- mirrors app/controllers/tags_controller.rb:43-49 -/
def tagsDestroy (actor : Option Nat) (id : IdParam) : App Unit := do
  let _ ← authenticate actor
  let w ← Act.get
  let r ← orNotFound (friendlyFind TagRow.slug w.db.tags id)
  Act.modify fun w => { w with db := destroyTag w.db r.id }

/-- The user is whoever the parameter names.
mirrors app/controllers/likes_controller.rb:4-12 -/
def likesCreate (actor : Option Nat) (post user : Nat) : App Unit := do
  let _ ← authenticate actor
  let w ← Act.get
  let p ← orNotFound (w.db.posts.find post)
  Act.modify fun w => { w with db := createLike w.db p.id user }

/-- mirrors app/controllers/likes_controller.rb:14-23 -/
def likesDestroy (actor : Option Nat) (id : Nat) : App Unit := do
  let _ ← authenticate actor
  let w ← Act.get
  let l ← orNotFound (w.db.likes.find id)
  Act.modify fun w => { w with db := destroyLike w.db l }

/-! ## SubscriptionsController -/

/-- The checkout session is Stripe's; nothing is stored here.
mirrors app/controllers/subscriptions_controller.rb:8-39 -/
def subscriptionsCreate (actor : Option Nat) (product : String) : App Unit := do
  let _ ← authenticate actor
  let w ← Act.get
  match productOf w.db product with
  | none => pure ()
  | some _ => Act.rescue external fun e => if e = .fault .invalidRequest then some () else none

/-- `current_user.subscriptions.find_by(stripe_subscription_id: s)`. -/
def ownSubscription (db : Db) (u : Nat) (s : String) : Option SubscriptionRow :=
  db.subscriptions.first fun r => r.userId == u && r.stripeSubscriptionId == some s

/-- `update!(status: 'canceled', active: false)`. -/
def cancelRow (i : Nat) : App Unit := do
  let w ← Act.get
  match w.db.subscriptions.modify i fun r =>
      { r with status := some "canceled", active := some false } with
  | none => Act.raise .recordNotUnique
  | some t => Act.modify (setSubscriptions · t)

/-- mirrors app/controllers/subscriptions_controller.rb:41-54 -/
def subscriptionsDestroy (actor : Option Nat) (s : String) : App Unit := do
  let me ← authenticate actor
  let w ← Act.get
  match ownSubscription w.db me.id s with
  | none => pure ()
  | some r => do
    subscriptionCancel s
    cancelRow r.id

/-! ## WebhooksController -/

/-- mirrors app/controllers/webhooks_controller.rb:23-32 -/
def handleCustomer (lib : Lib) (e : Event) : App Unit :=
  match e.type with
  | .customerCreated | .customerUpdated => getCustomerFromStripe lib e.object.id
  | .customerDeleted => do
    let w ← Act.get
    match userOf w e.object.id with
    | none => pure ()
    | some r => destroyUser lib r
  | _ => pure ()

/-- `Product.find_by(stripe_product_id: p)&.destroy`. -/
def dropProduct (db : Db) (p : String) : Db :=
  match productOf db p with
  | none => db
  | some x => destroyProduct db x.id

/-- mirrors app/controllers/webhooks_controller.rb:34-43 -/
def handleProduct (e : Event) : App Unit :=
  match e.type with
  | .productCreated | .productUpdated => syncProductFromStripe e.object.id
  | .productDeleted => Act.modify fun w => { w with db := dropProduct w.db e.object.id }
  | _ => pure ()

/-- A deleted subscription is looked up, and that is all.
mirrors app/controllers/webhooks_controller.rb:45-56 -/
def handleSubscription (e : Event) : App Unit :=
  match e.type with
  | .subscriptionCreated | .subscriptionUpdated | .invoicePaymentSucceeded =>
    syncSubscriptionFromStripe e.object
  | .subscriptionDeleted => do
    let w ← Act.get
    let _ := w.db.subscriptions.first fun r => r.stripeSubscriptionId == some e.object.id
    pure ()
  | _ => pure ()

/-- A payload that does not parse or whose signature does not match
(`none`) is answered with an error and does nothing.
mirrors app/controllers/webhooks_controller.rb:6-57 -/
def webhooksStripe (lib : Lib) (payload : Option Event) : App Unit :=
  match payload with
  | none => pure ()
  | some e => do
    handleCustomer lib e
    handleProduct e
    handleSubscription e

/-- The events the subscription service gets. -/
def EventType.syncs : EventType → Bool
  | .subscriptionCreated | .subscriptionUpdated | .invoicePaymentSucceeded => true
  | _ => false

theorem webhooksStripe_of_syncs (lib : Lib) {e : Event} (h : EventType.syncs e.type = true) :
    webhooksStripe lib (some e) = syncSubscriptionFromStripe e.object := by
  obtain ⟨type, object⟩ := e
  cases type <;> first | rfl | cases h

/-- A handler after which the others have nothing to do. -/
theorem run_bind_pure (x : App Unit) (w : World) : (x >>= fun _ => pure ()).run w = x.run w := by
  rcases hx : x.run w with ⟨err | ⟨⟩, w'⟩
  · exact Act.bind_of_error hx
  · exact Act.bind_of_ok hx

/-- An event about a customer is the customer handler's alone. -/
theorem webhooksStripe_of_customer (lib : Lib) {e : Event}
    (h : e.type = .customerCreated ∨ e.type = .customerUpdated ∨ e.type = .customerDeleted) (w : World) :
    (webhooksStripe lib (some e)).run w = (handleCustomer lib e).run w := by
  rw [← run_bind_pure (handleCustomer lib e)]
  obtain ⟨type, object⟩ := e
  rcases h with h | h | h <;> cases h <;> rfl

/-- The events the customer service gets. -/
def EventType.imports : EventType → Bool
  | .customerCreated | .customerUpdated => true
  | _ => false

theorem webhooksStripe_of_imports (lib : Lib) {e : Event} (h : EventType.imports e.type = true) (w : World) :
    (webhooksStripe lib (some e)).run w = (getCustomerFromStripe lib e.object.id).run w := by
  obtain ⟨type, object⟩ := e
  cases type with
  | customerCreated => exact webhooksStripe_of_customer lib (.inl rfl) w
  | customerUpdated => exact webhooksStripe_of_customer lib (.inr (.inl rfl)) w
  | _ => cases h

/-- A deleted subscription changes nothing. -/
theorem webhooksStripe_of_subscriptionDeleted (lib : Lib) {e : Event} (h : e.type = .subscriptionDeleted)
    (w : World) : (webhooksStripe lib (some e)).run w = (.ok (), w) := by
  obtain ⟨type, object⟩ := e
  cases h
  rfl

/-! ## What the filters leave -/

theorem authenticate_ok {actor : Option Nat} {w w' : World} {r : UserRow}
    (h : (authenticate actor).run w = (.ok r, w')) :
    w' = w ∧ currentUser w actor = some r ∧ r ∈ w.db.users.rows := by
  unfold authenticate at h
  rw [Act.run_get_bind] at h
  split at h
  · cases h
  · rename_i x hx
    cases h
    obtain ⟨i, -, hi⟩ := Option.bind_eq_some_iff.1 hx
    exact ⟨rfl, hx, (Table.mem_of_find hi).1⟩

theorem authenticate_of_user {actor : Option Nat} {w : World} {r : UserRow} (h : currentUser w actor = some r) :
    (authenticate actor).run w = (.ok r, w) := by
  unfold authenticate
  rw [Act.run_get_bind, h]
  rfl

theorem authenticate_snd (actor : Option Nat) (w : World) : ((authenticate actor).run w).2 = w := by
  unfold authenticate; rw [Act.run_get_bind]; split <;> rfl

theorem assignRole_ok {p : RoleParam} {role : Option (Option Role)} {w w' : World}
    (h : (assignRole p).run w = (.ok role, w')) :
    w' = w ∧ (role = some (some .admin) → p = .key .admin) := by
  unfold assignRole at h
  split at h <;> cases h <;> simp

theorem orNotFound_ok {α : Type} {o : Option α} {a : α} {w w' : World}
    (h : (orNotFound o).run w = (.ok a, w')) : w' = w ∧ o = some a := by
  unfold orNotFound at h
  split at h <;> cases h
  exact ⟨rfl, rfl⟩

theorem orNotFound_snd {α : Type} (o : Option α) (w : World) : ((orNotFound o).run w).2 = w := by
  unfold orNotFound; split <;> rfl

section Frames

variable {F : Frame World} {α β : Type}

theorem holds_of_snd {x : App α} {w : World} (h : (x.run w).2 = w) : F.Holds x w := by
  unfold Frame.Holds; rw [h]; exact F.refl w

/-- After the sign-in filter the state is the same and the user is a row. -/
theorem holds_authenticate {actor : Option Nat} {f : UserRow → App β} {w : World}
    (h : ∀ r, currentUser w actor = some r → r ∈ w.db.users.rows → F.Holds (f r) w) :
    F.Holds (authenticate actor >>= f) w :=
  (holds_of_snd (authenticate_snd actor w)).bind fun r w' hr => by
    obtain ⟨rfl, hc, hm⟩ := authenticate_ok hr
    exact h r hc hm

theorem holds_assignRole {p : RoleParam} {f : Option (Option Role) → App β} {w : World}
    (h : ∀ role, (role = some (some .admin) → p = .key .admin) → F.Holds (f role) w) :
    F.Holds (assignRole p >>= f) w :=
  (holds_of_snd (by unfold assignRole; split <;> rfl)).bind fun role w' hr => by
    obtain ⟨rfl, hp⟩ := assignRole_ok hr
    exact h role hp

theorem holds_orNotFound {o : Option α} {f : α → App β} {w : World}
    (h : ∀ a, o = some a → F.Holds (f a) w) : F.Holds (orNotFound o >>= f) w :=
  (holds_of_snd (orNotFound_snd o w)).bind fun a w' ha => by
    obtain ⟨rfl, ho⟩ := orNotFound_ok ha
    exact h a ho

theorem holds_authorize {u : Option UserRow} {v : Verb} {s : Subject} {f : Unit → App β} {w : World}
    (h : F.Holds (f ()) w) : F.Holds (authorize u v s >>= f) w :=
  (holds_of_snd (authorize_snd u v s w)).bind fun a w' ha => by
    have hw := authorize_snd u v s w
    rw [ha] at hw
    cases hw
    exact h

theorem holds_ifGuest {actor : Option Nat} {x : App Unit} {w : World} (h : F.Holds x w) :
    F.Holds (ifGuest actor x) w := by
  refine .get_bind ?_
  split
  · exact .pure _ w
  · exact h

theorem postsCreateFilters_snd (actor : Option Nat) (w : World) :
    ((postsCreateFilters actor).run w).2 = w := by
  have h : (Frame.same id).Holds (postsCreateFilters actor) w :=
    holds_authenticate fun _ _ _ => holds_authorize (.pure _ w)
  exact h

theorem postsDestroyFilters_snd (actor : Option Nat) (id : IdParam) (w : World) :
    ((postsDestroyFilters actor id).run w).2 = w := by
  have h : (Frame.same (fun w => w)).Holds (postsDestroyFilters actor id) w :=
    holds_authenticate fun _ _ _ => .get_bind <| holds_orNotFound fun _ _ => holds_authorize (.pure _ w)
  exact h

/-- A result that is not used. -/
theorem holds_ignore {x : App α} {w : World} (h : F.Holds x w) :
    F.Holds (x >>= fun _ => pure ()) w := h.bind fun _ w' _ => .pure _ w'

end Frames

end Insta.Web
