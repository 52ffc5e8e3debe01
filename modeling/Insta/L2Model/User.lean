import Insta.L1Store.World

/-!
# The `User` model

`app/models/user.rb` with the Devise and friendly_id behaviour it switches
on: what a `save` or `update` of a user does to the database and to Stripe,
callback by callback.

A loaded record is the row it was loaded from. Attributes assigned to it
give the in-memory row; `UPDATE` writes only the columns that differ from
the loaded ones (`UserRow.diff`), into whatever the row is by then.

The spec lemmas say once what each operation can do:
* `update_cases`: `update` returns false, raises, or writes the one row;
* `insertUser_ok`, `create_cases`: a creation that does not return a row
  leaves the database alone; one that does appended the row and, when the
  nested `update` was valid, linked it to its new customer.
-/
namespace Insta.Model

open Insta.Core Insta.Store Insta.Store.App

/-! ## friendly_id -/

/-- mirrors config/initializers/friendly_id.rb:21-22 -/
def reservedWords : List String :=
  ["new", "edit", "index", "session", "login", "logout", "users", "admin",
   "stylesheets", "assets", "javascripts", "images"]

/-- `set_slug` with the models' `should_generate_new_friendly_id?`: a new
slug when the base changed, or when there is a base and no slug yet.
mirrors app/models/user.rb:37-39, app/models/post.rb:21-23 -/
def setSlug (lib : Lib) (changed : Bool) (base slug : Option String) (taken : List String) :
    Option String :=
  if changed || (slug.isNone && base.isSome) then some (lib.slugFor base taken) else slug

/-- `validates_exclusion_of :friendly_id` of the `:reserved` module. -/
def slugAllowed (slug : Option String) : Bool := !(slug.any fun s => reservedWords.contains s)

/-- `params[:id]`: its text, and the primary key it may be read as. -/
structure IdParam where
  text : String
  key : Option Nat
  deriving DecidableEq, Repr

/-- `Model.friendly.find(params[:id])`: by slug, else by primary key. -/
def friendlyFind {R : Type} [Row R] (slug : R → Option String) (t : Table R) (p : IdParam) : Option R :=
  (t.first fun r => slug r == some p.text).orElse fun _ => p.key.bind t.find

theorem mem_of_friendlyFind {R : Type} [Row R] {slug : R → Option String} {t : Table R} {p : IdParam}
    {r : R} (h : friendlyFind slug t p = some r) : r ∈ t.rows := by
  unfold friendlyFind at h
  cases hf : t.first fun r => slug r == some p.text with
  | some x => rw [hf] at h; cases h; exact (Table.mem_of_first hf).1
  | none =>
    rw [hf] at h
    obtain ⟨k, -, hk⟩ := Option.bind_eq_some_iff.1 h
    exact (Table.mem_of_find hk).1

/-! ## Attributes -/

/-- Assigned attributes, or the columns an `UPDATE` sets; `none` is a column
left alone. A null role can be assigned and not stored. -/
structure UserPatch where
  email : Option (Option String) := none
  encryptedPassword : Option String := none
  resetPasswordToken : Option (Option String) := none
  resetPasswordSentAt : Option (Option Nat) := none
  username : Option (Option String) := none
  role : Option (Option Role) := none
  slug : Option (Option String) := none
  stripeCustomerId : Option (Option String) := none
  deriving DecidableEq, Repr

def UserPatch.apply (p : UserPatch) (r : UserRow) : UserRow :=
  { r with
    email := p.email.getD r.email
    encryptedPassword := p.encryptedPassword.getD r.encryptedPassword
    resetPasswordToken := p.resetPasswordToken.getD r.resetPasswordToken
    resetPasswordSentAt := p.resetPasswordSentAt.getD r.resetPasswordSentAt
    username := p.username.getD r.username
    role := (p.role.getD none).getD r.role
    slug := p.slug.getD r.slug
    stripeCustomerId := p.stripeCustomerId.getD r.stripeCustomerId }

/-- A column that changed, with its new value. -/
def changed {α : Type} [DecidableEq α] (old new : α) : Option α := if new = old then none else some new

@[simp] theorem changed_getD {α : Type} [DecidableEq α] (old new : α) :
    (changed old new).getD old = new := by
  unfold changed; split <;> simp_all

theorem changed_isSome {α : Type} [DecidableEq α] {old new : α} :
    (changed old new).isSome = true ↔ new ≠ old := by
  unfold changed; split <;> simp_all

/-- The columns in which the in-memory row differs from the loaded one. -/
def userDiff (old new : UserRow) : UserPatch where
  email := changed old.email new.email
  encryptedPassword := changed old.encryptedPassword new.encryptedPassword
  resetPasswordToken := changed old.resetPasswordToken new.resetPasswordToken
  resetPasswordSentAt := changed old.resetPasswordSentAt new.resetPasswordSentAt
  username := changed old.username new.username
  role := (changed old.role new.role).map some
  slug := changed old.slug new.slug
  stripeCustomerId := changed old.stripeCustomerId new.stripeCustomerId

/-- The virtual attributes of a record: the password pair and the salt
bcrypt draws for it, and `@skip_password_validation`. -/
structure PasswordAttrs where
  password : Option String := none
  passwordConfirmation : Option String := none
  salt : Nat := 0
  skipPasswordValidation : Bool := false
  deriving DecidableEq, Repr

/-- `password=` stores a digest when the password is present. -/
def withPassword (lib : Lib) (a : PasswordAttrs) (p : UserPatch) : UserPatch :=
  match a.password with
  | none => p
  | some pw => if lib.blank pw then p else { p with encryptedPassword := some (lib.digest pw a.salt) }

/-! ## Validation -/

/-- `password_required?`, the model's override around Devise's.
mirrors app/models/user.rb:24-27 -/
def passwordRequired (persisted : Bool) (a : PasswordAttrs) : Bool :=
  if a.skipPasswordValidation then false
  else !persisted || a.password.isSome || a.passwordConfirmation.isSome

/-- The password validations of the model and of Devise's `:validatable`
(`config.password_length = 6..128`).
mirrors app/models/user.rb:20-21 -/
def passwordValid (lib : Lib) (persisted : Bool) (a : PasswordAttrs) : Bool :=
  let required := passwordRequired persisted a
  let given := lib.present a.password
  (!required || given) &&
  (!(required || given) || a.passwordConfirmation.isNone || a.passwordConfirmation == a.password) &&
  (!given || a.password.all fun pw => 6 ≤ pw.length && pw.length ≤ 128) &&
  (!given || lib.present a.passwordConfirmation)

/-- Devise's `downcase_keys` and `strip_whitespace` for
`case_insensitive_keys = strip_whitespace_keys = [:email]`. -/
def deviseEmail (lib : Lib) (email : Option String) : Option String :=
  email.map fun e => lib.strip (lib.downcase e)

/-- mirrors app/models/user.rb:119-123 -/
def normalizeEmail (lib : Lib) (email : Option String) : Option String :=
  if lib.present email then email.map lib.downcase else email

/-- The slugs of the other users. -/
def takenSlugs (users : Table UserRow) (self : Option Nat) : List String :=
  (users.rows.filter fun x => some x.id != self).filterMap UserRow.slug

/-- `set_slug` for a record loaded as `old` (or new) whose in-memory row is
`m`. -/
def withSlug (lib : Lib) (users : Table UserRow) (old : Option UserRow) (m : UserRow) : UserRow :=
  { m with
    slug := setSlug lib (decide (m.username ≠ old.bind UserRow.username)) m.username m.slug
      (takenSlugs users (old.map UserRow.id)) }

/-- A named new record gets a slug. -/
theorem withSlug_slug (lib : Lib) (users : Table UserRow) (m : UserRow) :
    (withSlug lib users none m).slug = none → (withSlug lib users none m).username = none := by
  unfold withSlug setSlug
  cases hn : m.username with
  | none => intro _; rfl
  | some n => intro h; simp at h

/-- The `before_validation` callbacks. -/
def beforeValidation (lib : Lib) (users : Table UserRow) (old : Option UserRow) (m : UserRow) : UserRow :=
  withSlug lib users old { m with email := normalizeEmail lib (deviseEmail lib m.email) }

/-- Some other row has `p`. -/
def taken (users : Table UserRow) (self : Option Nat) (p : UserRow → Bool) : Bool :=
  users.rows.any fun x => some x.id != self && p x

/-- Among the others a new last row is not. -/
theorem taken_append {users t : Table UserRow} {r : UserRow} (hrows : t.rows = users.rows ++ [r])
    (hid : r.id = users.nextId) (p : UserRow → Bool) : taken t (some r.id) p = taken users none p := by
  unfold taken
  rw [hrows, List.any_append]
  have hself : [r].any (fun x => some x.id != some r.id && p x) = false := by simp
  rw [hself, Bool.or_false, Bool.eq_iff_iff, List.any_eq_true, List.any_eq_true]
  refine exists_congr fun x => and_congr_right fun hx => ?_
  have hne : x.id ≠ r.id := by rw [hid]; exact Nat.ne_of_lt (users.below x hx)
  simp [hne]

/-- The validations; Devise's own checks of the email are implied by the
model's.
mirrors app/models/user.rb:18-21 -/
def validUser (lib : Lib) (users : Table UserRow) (self : Option Nat) (m : UserRow) (a : PasswordAttrs) : Bool :=
  lib.present m.username && !taken users self (fun x => x.username == m.username) &&
  lib.present m.email && !taken users self (fun x => x.email == m.email) &&
  m.email.all lib.emailRegexp &&
  slugAllowed m.slug &&
  passwordValid lib self.isSome a

/-! ## Saving -/

/-- Devise's `clear_reset_password_token` before an update that changes the
email or the password. -/
def clearOnChange (d : UserPatch) : UserPatch :=
  if d.email.isSome || d.encryptedPassword.isSome then
    { d with resetPasswordToken := some none, resetPasswordSentAt := some none }
  else d

/-- mirrors app/models/user.rb:98-106 -/
def updateStripeCustomer (r : UserRow) : App Unit := customerUpdate r.stripeCustomerId r.email r.username

/-- The `UPDATE` of one user. -/
def writeUser (i : Nat) (d : UserPatch) : App Unit := do
  let w ← Act.get
  match w.db.users.modify i d.apply with
  | none => Act.raise .recordNotUnique
  | some t => Act.modify (·.setUsers t)

/-- The columns a save of the in-memory row `m` of the record `r` writes. -/
def writtenColumns (r m : UserRow) : UserPatch := clearOnChange (userDiff r m)

/-- `UPDATE` and the `after_update` callback. -/
def saveUpdate (r m : UserRow) : App Unit := do
  writeUser r.id (writtenColumns r m)
  updateStripeCustomer ((writtenColumns r m).apply r)

/-- `update(attrs)` on the loaded record `r`. -/
def update (lib : Lib) (r : UserRow) (p : UserPatch) (a : PasswordAttrs) : App Bool := do
  let w ← Act.get
  let m := beforeValidation lib w.db.users (some r) (p.apply r)
  if validUser lib w.db.users (some r.id) m a then
    Act.atomically (do
      if p.role = some none then Act.raise .notNullViolation
      saveUpdate r m)
    pure true
  else pure false

def linkPatch (c : String) : UserPatch := { stripeCustomerId := some (some c) }

/-- mirrors app/models/user.rb:89-96 -/
def createStripeCustomer (lib : Lib) (r : UserRow) (a : PasswordAttrs) : App Unit := do
  let c ← customerCreate lib r.email r.username
  let _ ← update lib r (linkPatch c) a

/-- `after_create :send_welcome_email, unless: :skip_welcome_email?`: the
job is queued at once, whatever becomes of the transaction.
mirrors app/models/user.rb:42-52 -/
def sendWelcomeEmail (r : UserRow) (a : PasswordAttrs) : App Unit :=
  if a.skipPasswordValidation then pure () else Act.modify fun w => { w with jobs := w.jobs ++ [r.id] }

/-- The row an `INSERT` of `m` stores. -/
def insertedRow (w : World) (m : UserRow) : UserRow := { m with id := w.db.users.nextId, createdAt := w.now }

/-- `INSERT` and the `after_create` callbacks; returns the inserted row. -/
def insertUser (lib : Lib) (m : UserRow) (a : PasswordAttrs) : App UserRow := do
  let w ← Act.get
  match w.db.users.insert (insertedRow w m) with
  | none => Act.raise .recordNotUnique
  | some t => do
    Act.modify (·.setUsers t)
    sendWelcomeEmail (insertedRow w m) a
    createStripeCustomer lib (insertedRow w m) a
    pure (insertedRow w m)

/-- A record before its attributes are assigned: the column defaults. -/
def newUser : UserRow where
  id := 0
  email := none
  encryptedPassword := ""
  resetPasswordToken := none
  resetPasswordSentAt := none
  username := none
  role := .user
  slug := none
  stripeCustomerId := none
  createdAt := 0

/-- `User.new(attrs)` and `save`: the row, or `none` when it is invalid. -/
def create (lib : Lib) (p : UserPatch) (a : PasswordAttrs) : App (Option UserRow) := do
  let w ← Act.get
  let m := beforeValidation lib w.db.users none (p.apply newUser)
  if validUser lib w.db.users none m a then
    let r ← Act.atomically (do
      if p.role = some none then Act.raise .notNullViolation
      insertUser lib m a)
    pure (some r)
  else pure none

/-! ## What a save leaves in the row -/

/-- The row after the record `r` was saved as `m`. -/
def written (r m : UserRow) : UserRow := (writtenColumns r m).apply r

/-- A save that changes the email or the password drops the reset token. -/
theorem written_eq (r m : UserRow) : written r m =
    if m.email ≠ r.email ∨ m.encryptedPassword ≠ r.encryptedPassword then
      { m with id := r.id, createdAt := r.createdAt, resetPasswordToken := none, resetPasswordSentAt := none }
    else { m with id := r.id, createdAt := r.createdAt } := by
  have hrole : ((Option.map some (changed r.role m.role)).getD none).getD r.role = m.role := by
    unfold changed; split <;> simp_all
  unfold written writtenColumns clearOnChange
  simp only [userDiff, Bool.or_eq_true, changed_isSome]
  split <;> simp [UserPatch.apply, hrole]

theorem written_role (r m : UserRow) : (written r m).role = m.role := by
  rw [written_eq]; split <;> rfl

theorem written_encryptedPassword (r m : UserRow) :
    (written r m).encryptedPassword = m.encryptedPassword := by
  rw [written_eq]; split <;> rfl

theorem written_email (r m : UserRow) : (written r m).email = m.email := by
  rw [written_eq]; split <;> rfl

theorem written_stripeCustomerId (r m : UserRow) : (written r m).stripeCustomerId = m.stripeCustomerId := by
  rw [written_eq]; split <;> rfl

/-- The token columns after a save: null, or those of the in-memory row. -/
theorem written_token (r m : UserRow) : (written r m).resetPasswordToken = none ∨
    (written r m).resetPasswordToken = m.resetPasswordToken ∧
    (written r m).resetPasswordSentAt = m.resetPasswordSentAt := by
  rw [written_eq]; split
  · exact .inl rfl
  · exact .inr ⟨rfl, rfl⟩

theorem written_token_of_password {r m : UserRow} (h : m.encryptedPassword ≠ r.encryptedPassword) :
    (written r m).resetPasswordToken = none := by
  rw [written_eq, if_pos (.inr h)]

/-- The rows after the save of a loaded record. -/
theorem mem_saved {t t' : Table UserRow} {r m x : UserRow} (hr : r ∈ t.rows)
    (h : t.modify r.id (writtenColumns r m).apply = some t') :
    x ∈ t'.rows ↔ (x ∈ t.rows ∧ x.id ≠ r.id) ∨ x = written r m := by
  rw [Table.mem_modify h]
  refine or_congr Iff.rfl ⟨?_, ?_⟩
  · rintro ⟨y, hy, hid, rfl⟩
    rw [t.eq_of_rowId hy hr hid]
    rfl
  · rintro rfl
    exact ⟨r, hr, rfl, rfl⟩

/-- A save of a row that was appended leaves the rows before it alone. -/
theorem rows_modify_last {t t' : Table UserRow} {l : List UserRow} {r : UserRow} {f : UserRow → UserRow}
    (hrows : t.rows = l ++ [r]) (h : t.modify r.id f = some t') (hf : (f r).id = r.id) :
    t'.rows = l ++ [f r] := by
  have hne : ∀ x ∈ l, x.id ≠ r.id := by
    intro x hx he
    have hs := t.sorted
    rw [hrows, List.pairwise_append] at hs
    exact absurd he (Nat.ne_of_lt (hs.2.2 x hx r (List.mem_singleton.2 rfl)))
  rw [Table.rows_modify h, hrows, List.map_append]
  congr 1
  · conv_rhs => rw [← List.map_id l]
    exact List.map_congr_left fun x hx => if_neg (hne x hx)
  · have hid : withId r.id (f r) = f r := by rw [← hf]; exact Row.withId_rowId (f r)
    simp only [List.map_cons, List.map_nil]
    rw [if_pos (show rowId r = r.id from rfl), hid]

/-! ## What a save can do to the database -/

/-- The in-memory row `update` validates and saves. -/
def updated (lib : Lib) (users : Table UserRow) (r : UserRow) (p : UserPatch) : UserRow :=
  beforeValidation lib users (some r) (p.apply r)

theorem writeUser_of_none {i : Nat} {d : UserPatch} {w : World}
    (h : w.db.users.modify i d.apply = none) : (writeUser i d).run w = (.error .recordNotUnique, w) := by
  unfold writeUser; rw [Act.run_get_bind, h]; rfl

theorem writeUser_of_some {i : Nat} {d : UserPatch} {w : World} {t : Table UserRow}
    (h : w.db.users.modify i d.apply = some t) :
    (writeUser i d).run w = (.ok (), w.setUsers t) := by
  unfold writeUser; rw [Act.run_get_bind, h]; rfl

/-- A save writes the one row, or raises: in the `UPDATE`, or after it in
the call to Stripe. -/
theorem saveUpdate_cases (r m : UserRow) (w : World) : ∃ st sc,
    (∃ e t, (saveUpdate r m).run w =
      (.error e, { w.setUsers t with stripe := st, script := sc })) ∨
    ∃ t, w.db.users.modify r.id (writtenColumns r m).apply = some t ∧ (saveUpdate r m).run w =
      (.ok (), { w.setUsers t with stripe := st, script := sc }) := by
  unfold saveUpdate
  cases ht : w.db.users.modify r.id (writtenColumns r m).apply with
  | none =>
    exact ⟨w.stripe, w.script, .inl ⟨_, w.db.users, Act.bind_of_error (writeUser_of_none ht)⟩⟩
  | some t =>
    rw [Act.bind_of_ok (writeUser_of_some ht)]
    obtain ⟨st, sc, hs⟩ := customerUpdate_stripeOnly ((writtenColumns r m).apply r).stripeCustomerId
      ((writtenColumns r m).apply r).email ((writtenColumns r m).apply r).username
      (w.setUsers t)
    refine ⟨st, sc, ?_⟩
    rcases h : (updateStripeCustomer ((writtenColumns r m).apply r)).run
      (w.setUsers t) with ⟨e | u, w'⟩
    · left; exact ⟨e, t, by rw [← hs]; simp only [updateStripeCustomer] at h; rw [h]⟩
    · right; exact ⟨t, rfl, by rw [← hs]; simp only [updateStripeCustomer] at h; rw [h]⟩

theorem saveUpdate_of_none {r m : UserRow} {w : World}
    (ht : w.db.users.modify r.id (writtenColumns r m).apply = none) :
    (saveUpdate r m).run w = (.error .recordNotUnique, w) := by
  unfold saveUpdate
  rw [Act.bind_of_error (writeUser_of_none ht)]

/-- A save without faults: the row is written and pushed to its customer. -/
theorem saveUpdate_of_some {r m : UserRow} {w : World} {t : Table UserRow} {k : Customer}
    (hs : w.script = []) (ht : w.db.users.modify r.id (writtenColumns r m).apply = some t)
    (hk : (written r m).stripeCustomerId.bind (customer? w) = some k) :
    (saveUpdate r m).run w = (.ok (), { w.setUsers t with
      stripe := w.stripe.setCustomer k (written r m).email (written r m).username }) := by
  unfold saveUpdate
  rw [Act.bind_of_ok (writeUser_of_some ht)]
  have hpush := customerUpdate_of_nil (w := w.setUsers t) hs (written r m).stripeCustomerId
    (written r m).email (written r m).username
  rw [show (written r m).stripeCustomerId.bind (customer? (w.setUsers t)) = some k from hk] at hpush
  exact hpush

theorem update_of_invalid {lib : Lib} {r : UserRow} {p : UserPatch} {a : PasswordAttrs} {w : World}
    (hv : validUser lib w.db.users (some r.id) (updated lib w.db.users r p) a = false) :
    (update lib r p a).run w = (.ok false, w) := by
  show (if validUser lib w.db.users (some r.id) (updated lib w.db.users r p) a = true then _
    else pure false : App Bool).run w = _
  rw [hv]
  rfl

/-- A valid `update` is its save, in a transaction. -/
theorem update_of_valid {lib : Lib} {r : UserRow} {p : UserPatch} {a : PasswordAttrs} {w : World}
    (hv : validUser lib w.db.users (some r.id) (updated lib w.db.users r p) a = true) :
    (update lib r p a).run w = (do
      Act.atomically (do
        if p.role = some none then Act.raise .notNullViolation
        saveUpdate r (updated lib w.db.users r p))
      pure true : App Bool).run w := by
  show (if validUser lib w.db.users (some r.id) (updated lib w.db.users r p) a = true then _
    else pure false : App Bool).run w = _
  rw [if_pos hv]
  rfl

/-- `update` returns false and does nothing, raises and leaves the database
alone, or returns true and has written the one row. -/
theorem update_cases (lib : Lib) (r : UserRow) (p : UserPatch) (a : PasswordAttrs) (w : World) :
    (validUser lib w.db.users (some r.id) (updated lib w.db.users r p) a = false ∧
      (update lib r p a).run w = (.ok false, w)) ∨
    validUser lib w.db.users (some r.id) (updated lib w.db.users r p) a = true ∧ ∃ st sc,
      ((∃ e, (update lib r p a).run w = (.error e, { w with stripe := st, script := sc })) ∨
      ∃ t, p.role ≠ some none ∧
        w.db.users.modify r.id (writtenColumns r (updated lib w.db.users r p)).apply = some t ∧
        (update lib r p a).run w =
          (.ok true, { w.setUsers t with stripe := st, script := sc })) := by
  cases hv : validUser lib w.db.users (some r.id) (updated lib w.db.users r p) a with
  | false => exact .inl ⟨rfl, update_of_invalid hv⟩
  | true =>
    right
    refine ⟨rfl, ?_⟩
    rw [update_of_valid hv]
    by_cases hp : p.role = some none
    · rw [if_pos hp]
      exact ⟨w.stripe, w.script, .inl ⟨_, Act.bind_of_error (Act.atomically_of_error rfl)⟩⟩
    · rw [if_neg hp]
      obtain ⟨st, sc, ⟨e, t, h⟩ | ⟨t, ht, h⟩⟩ := saveUpdate_cases r (updated lib w.db.users r p) w
      · exact ⟨st, sc, .inl ⟨e, Act.bind_of_error (Act.atomically_of_error h)⟩⟩
      · exact ⟨st, sc, .inr ⟨t, hp, ht, Act.bind_of_ok (Act.atomically_of_ok h)⟩⟩

/-- The nested `update` of `create_stripe_customer` for the inserted row `r`
and its new customer `c`: refused, or the row is linked. -/
inductive Linking (lib : Lib) (t : Table UserRow) (r : UserRow) (a : PasswordAttrs) (c : String) :
    Table UserRow → Prop
  | refused (hv : validUser lib t (some r.id) (updated lib t r (linkPatch c)) a = false) :
    Linking lib t r a c t
  | linked {t' : Table UserRow}
    (hv : validUser lib t (some r.id) (updated lib t r (linkPatch c)) a = true)
    (ht : t.modify r.id (writtenColumns r (updated lib t r (linkPatch c))).apply = some t') :
    Linking lib t r a c t'

/-- A returned `create_stripe_customer` created a customer and linked the row
to it, unless the nested `update` was refused. -/
theorem createStripeCustomer_ok {lib : Lib} {r : UserRow} {a : PasswordAttrs} {w w' : World}
    (h : (createStripeCustomer lib r a).run w = (.ok (), w')) :
    ∃ t' c, c = lib.freshId (knownIds w) ∧ Linking lib w.db.users r a c t' ∧
      w'.db = { w.db with users := t' } ∧ w'.resets = w.resets ∧ w'.now = w.now := by
  unfold createStripeCustomer at h
  obtain ⟨c, w₁, hc, h⟩ := Act.bind_ok h
  obtain ⟨hfresh, sc, hw₁⟩ := customerCreate_ok hc
  obtain ⟨b, w₂, hup, h⟩ := Act.bind_ok h
  cases h
  have hdb : w₁.db = w.db ∧ w₁.resets = w.resets ∧ w₁.now = w.now := by rw [hw₁]; exact ⟨rfl, rfl, rfl⟩
  obtain ⟨hdb, hlog, hnow⟩ := hdb
  rcases update_cases lib r (linkPatch c) a w₁ with
    ⟨hv, hu⟩ | ⟨hv, st, sc, ⟨e, hu⟩ | ⟨t', -, ht', hu⟩⟩
  · rw [hu] at hup
    cases hup
    rw [hdb] at hv
    exact ⟨_, c, hfresh, .refused hv, by rw [hdb], hlog, hnow⟩
  · rw [hu] at hup
    cases hup
  · rw [hu] at hup
    cases hup
    rw [hdb] at hv ht'
    exact ⟨t', c, hfresh, .linked hv ht', by simp [hdb], hlog, hnow⟩

/-- A returned `insertUser` appended the row, created a customer, and linked
the two unless the nested `update` was refused. -/
theorem insertUser_spec {lib : Lib} {m r : UserRow} {a : PasswordAttrs} {w w' : World}
    (h : (insertUser lib m a).run w = (.ok r, w')) :
    r = insertedRow w m ∧ ∃ t t' c, w.db.users.insert r = some t ∧ c = lib.freshId (knownIds (w.setUsers t)) ∧
      Linking lib t r a c t' ∧
      w'.db = { w.db with users := t' } ∧ w'.resets = w.resets ∧ w'.now = w.now := by
  unfold insertUser at h
  rw [Act.run_get_bind] at h
  split at h
  · cases h
  · rename_i t ht
    rw [Act.run_modify_bind] at h
    obtain ⟨_, w₁, hmail, h⟩ := Act.bind_ok h
    obtain ⟨_, w₃, hcreate, h⟩ := Act.bind_ok h
    cases h
    have hw₁ : w₁.db = { w.db with users := t } ∧ w₁.stripe = w.stripe ∧ w₁.resets = w.resets ∧
        w₁.now = w.now := by
      unfold sendWelcomeEmail at hmail
      split at hmail <;> cases hmail <;> exact ⟨rfl, rfl, rfl, rfl⟩
    obtain ⟨hdb, hst, hlog, hnow⟩ := hw₁
    have hids : knownIds w₁ = knownIds (w.setUsers t) := by
      unfold knownIds
      rw [hdb, hst]
      rfl
    obtain ⟨t', c, hfresh, hlink, hdb', hlog', hnow'⟩ := createStripeCustomer_ok hcreate
    rw [hids] at hfresh
    rw [hdb] at hlink hdb'
    exact ⟨rfl, t, t', c, ht, hfresh, hlink, hdb', hlog'.trans hlog, hnow'.trans hnow⟩

/-- A returned `insertUser` appended the row and, when the nested `update`
of `create_stripe_customer` was valid, linked it to its new customer. -/
theorem insertUser_ok {lib : Lib} {m r : UserRow} {a : PasswordAttrs} {w w' : World}
    (h : (insertUser lib m a).run w = (.ok r, w')) :
    r = insertedRow w m ∧ ∃ t t', w.db.users.insert r = some t ∧
      (t' = t ∨ ∃ c, t.modify r.id (writtenColumns r (updated lib t r (linkPatch c))).apply = some t') ∧
      w'.db = { w.db with users := t' } ∧ w'.resets = w.resets ∧ w'.now = w.now := by
  obtain ⟨hr, t, t', c, ht, -, hlink, hrest⟩ := insertUser_spec h
  refine ⟨hr, t, t', ht, ?_, hrest⟩
  cases hlink with
  | refused hv => exact .inl rfl
  | linked hv ht' => exact .inr ⟨c, ht'⟩

/-- `create` leaves the database alone, or returns the row it inserted. -/
theorem create_cases (lib : Lib) (p : UserPatch) (a : PasswordAttrs) (w : World) :
    (((create lib p a).run w).2.db = w.db ∧ ((create lib p a).run w).2.resets = w.resets ∧
      ∀ r, ((create lib p a).run w).1 ≠ .ok (some r)) ∨
    ∃ r w', (create lib p a).run w = (.ok (some r), w') ∧ p.role ≠ some none ∧
      validUser lib w.db.users none (beforeValidation lib w.db.users none (p.apply newUser)) a = true ∧
      (insertUser lib (beforeValidation lib w.db.users none (p.apply newUser)) a).run w = (.ok r, w') := by
  unfold create
  rw [Act.run_get_bind]
  dsimp only
  split
  · rename_i hv
    by_cases hp : p.role = some none
    · left
      rw [if_pos hp, Act.bind_of_error (Act.atomically_of_error rfl)]
      exact ⟨rfl, rfl, by simp⟩
    · rw [if_neg hp]
      rcases h : (insertUser lib (beforeValidation lib w.db.users none (p.apply newUser)) a).run w
        with ⟨e | r, w'⟩
      · left
        rw [Act.bind_of_error (Act.atomically_of_error h)]
        exact ⟨rfl, rfl, by simp⟩
      · right
        exact ⟨r, w', Act.bind_of_ok (Act.atomically_of_ok h), hp, hv, rfl⟩
  · exact .inl ⟨rfl, rfl, by simp⟩

/-! ## When an update goes through -/

/-- A slug is kept, or is one that is not taken. -/
theorem setSlug_cases (lib : Lib) (b : Bool) (base slug : Option String) (taken : List String) :
    setSlug lib b base slug taken = slug ∨ ∃ s, setSlug lib b base slug taken = some s ∧ s ∉ taken := by
  unfold setSlug
  split
  · exact .inr ⟨_, rfl, lib.slugFor_fresh base taken⟩
  · exact .inl rfl

theorem mem_takenSlugs {users : Table UserRow} {self : Option Nat} {x : UserRow} {s : String}
    (hx : x ∈ users.rows) (hne : some x.id ≠ self) (hs : x.slug = some s) : s ∈ takenSlugs users self :=
  List.mem_filterMap.2 ⟨x, List.mem_filter.2 ⟨hx, by simpa using hne⟩, hs⟩

/-- The slug a save sets is nobody else's. -/
theorem withSlug_free (lib : Lib) {users : Table UserRow} {old : Option UserRow} {m x : UserRow}
    (hx : x ∈ users.rows) (hne : some x.id ≠ old.map UserRow.id) (hold : sameKey x.slug m.slug = false) :
    sameKey x.slug (withSlug lib users old m).slug = false := by
  unfold withSlug
  dsimp only
  rcases setSlug_cases lib (decide (m.username ≠ old.bind UserRow.username)) m.username m.slug
    (takenSlugs users (old.map UserRow.id)) with h | ⟨s, h, hfresh⟩
  · rw [h]; exact hold
  · rw [h]
    refine sameKey_of_ne fun he => ?_
    exact hfresh (mem_takenSlugs hx hne he)

/-- A save goes through when name, slug and token are nobody else's. -/
theorem modify_of_free {users : Table UserRow} {r m : UserRow} (hr : r ∈ users.rows)
    (hname : ∀ y ∈ users.rows, y.id ≠ r.id → sameKey y.username m.username = false)
    (hslug : ∀ y ∈ users.rows, y.id ≠ r.id → sameKey y.slug m.slug = false)
    (htok : ∀ y ∈ users.rows, y.id ≠ r.id → sameKey y.resetPasswordToken m.resetPasswordToken = false) :
    ∃ t, users.modify r.id (writtenColumns r m).apply = some t := by
  refine Table.modify_eq_some_of fun x hx y hy hxi hyi => ?_
  obtain rfl : x = r := users.eq_of_rowId hx hr hxi
  have hnew : clash y (written x m) = false := by
    rw [written_eq]
    simp only [clash, Bool.or_eq_false_iff]
    split
    · exact ⟨⟨hname y hy hyi, hslug y hy hyi⟩, by rw [sameKey_comm]; rfl⟩
    · exact ⟨⟨hname y hy hyi, hslug y hy hyi⟩, htok y hy hyi⟩
  rw [Row.clash_comm]
  exact hnew

/-- The keys of a stored row are nobody else's. -/
theorem free_of_mem {users : Table UserRow} {r y : UserRow} (hr : r ∈ users.rows) (hy : y ∈ users.rows)
    (hne : y.id ≠ r.id) : sameKey y.username r.username = false ∧ sameKey y.slug r.slug = false ∧
      sameKey y.resetPasswordToken r.resetPasswordToken = false := by
  have hold := users.clash_false hy hr hne
  simp only [clash, Bool.or_eq_false_iff] at hold
  exact ⟨hold.1.1, hold.1.2, hold.2⟩

/-- A save goes through when name and slug are nobody else's and the token is
the loaded one. -/
theorem modify_written {users : Table UserRow} {r m : UserRow} (hr : r ∈ users.rows)
    (hname : ∀ y ∈ users.rows, y.id ≠ r.id → sameKey y.username m.username = false)
    (hslug : ∀ y ∈ users.rows, y.id ≠ r.id → sameKey y.slug m.slug = false)
    (htok : m.resetPasswordToken = r.resetPasswordToken) :
    ∃ t, users.modify r.id (writtenColumns r m).apply = some t :=
  modify_of_free hr hname hslug fun y hy hne => by rw [htok]; exact (free_of_mem hr hy hne).2.2

/-- The slug of another row stays free when the loaded slug is kept or a new
one is generated. -/
theorem slug_free {lib : Lib} {users : Table UserRow} {r m : UserRow} (hr : r ∈ users.rows)
    (hm : m.slug = r.slug) : ∀ y ∈ users.rows, y.id ≠ r.id →
      sameKey y.slug (withSlug lib users (some r) m).slug = false := by
  intro y hy hne
  exact withSlug_free lib hy (fun he => hne (Option.some.inj he)) (hm ▸ (free_of_mem hr hy hne).2.1)

/-- A valid row with the loaded token runs into no index. -/
theorem modify_of_valid {lib : Lib} {users : Table UserRow} {r : UserRow} {p : UserPatch} {a : PasswordAttrs}
    (hr : r ∈ users.rows) (htok : p.resetPasswordToken = none) (hslug : p.slug = none)
    (hv : validUser lib users (some r.id) (updated lib users r p) a = true) :
    ∃ t, users.modify r.id (writtenColumns r (updated lib users r p)).apply = some t := by
  refine modify_written hr (fun y hy hne => ?_) (slug_free hr ?_) ?_
  · unfold validUser at hv
    simp only [Bool.and_eq_true, Bool.not_eq_true'] at hv
    have hfree := List.any_eq_false.1 hv.1.1.1.1.1.2 y hy
    refine sameKey_of_ne fun he => hfree ?_
    simp only [Bool.and_eq_true, bne_iff_ne, ne_eq, Option.some.injEq, beq_iff_eq]
    exact ⟨hne, he⟩
  · simp [UserPatch.apply, hslug]
  · simp [updated, beforeValidation, withSlug, UserPatch.apply, htok]

/-- The push to Stripe after an update of the row `r` succeeds. -/
def Pushes (w : World) (r : UserRow) : Prop :=
  (∀ f, w.script.head? ≠ some (some f)) ∧ (r.stripeCustomerId.bind (customer? w)).isSome = true

theorem saveUpdate_ok_iff {r m : UserRow} {w : World} : (∃ w', (saveUpdate r m).run w = (.ok (), w')) ↔
    (∃ t, w.db.users.modify r.id (writtenColumns r m).apply = some t) ∧ Pushes w (written r m) := by
  unfold saveUpdate
  cases ht : w.db.users.modify r.id (writtenColumns r m).apply with
  | none =>
    rw [Act.bind_of_error (writeUser_of_none ht)]
    simp
  | some t =>
    rw [Act.bind_of_ok (writeUser_of_some ht)]
    have hpush := customerUpdate_ok_iff (c := (written r m).stripeCustomerId) (e := (written r m).email)
      (n := (written r m).username) (w := w.setUsers t)
    exact hpush.trans ⟨fun h => ⟨⟨t, rfl⟩, h⟩, fun h => h.2⟩

/-- When `update` returns true. -/
theorem update_ok_iff {lib : Lib} {r : UserRow} {p : UserPatch} {a : PasswordAttrs} {w : World} :
    (∃ w', (update lib r p a).run w = (.ok true, w')) ↔
    validUser lib w.db.users (some r.id) (updated lib w.db.users r p) a = true ∧ p.role ≠ some none ∧
      (∃ t, w.db.users.modify r.id (writtenColumns r (updated lib w.db.users r p)).apply = some t) ∧
      Pushes w (written r (updated lib w.db.users r p)) := by
  cases hv : validUser lib w.db.users (some r.id) (updated lib w.db.users r p) a with
  | false => rw [update_of_invalid hv]; simp
  | true =>
    rw [update_of_valid hv]
    by_cases hp : p.role = some none
    · rw [if_pos hp, Act.bind_of_error (Act.atomically_of_error rfl)]
      simp [hp]
    · rw [if_neg hp, ← saveUpdate_ok_iff]
      simp only [ne_eq, hp, not_false_eq_true, true_and]
      rcases h : (saveUpdate r (updated lib w.db.users r p)).run w with ⟨e | u, w'⟩
      · rw [Act.bind_of_error (Act.atomically_of_error h)]
        simp
      · rw [Act.bind_of_ok (Act.atomically_of_ok h)]
        simp

/-! ## An update when the script has a line for its push -/

section Scripted

variable {lib : Lib} {r : UserRow} {p : UserPatch} {a : PasswordAttrs} {w : World} {t : Table UserRow}
  {rest : List (Option Fault)}

theorem update_of_none {k : Customer}
    (hv : validUser lib w.db.users (some r.id) (updated lib w.db.users r p) a = true) (hp : p.role ≠ some none)
    (hs : w.script = none :: rest)
    (ht : w.db.users.modify r.id (writtenColumns r (updated lib w.db.users r p)).apply = some t)
    (hk : (written r (updated lib w.db.users r p)).stripeCustomerId.bind (customer? w) = some k) :
    (update lib r p a).run w = (.ok true, { w.setUsers t with
      stripe := w.stripe.setCustomer k (written r (updated lib w.db.users r p)).email
        (written r (updated lib w.db.users r p)).username
      script := rest }) := by
  have hsave : (saveUpdate r (updated lib w.db.users r p)).run w = _ :=
    (Act.bind_of_ok (writeUser_of_some ht)).trans
      (customerUpdate_of_none (w := w.setUsers t) hs hk (written r (updated lib w.db.users r p)).email
        (written r (updated lib w.db.users r p)).username)
  rw [update_of_valid hv, if_neg hp]
  exact Act.bind_of_ok (Act.atomically_of_ok hsave)

theorem update_of_fault {f : Fault}
    (hv : validUser lib w.db.users (some r.id) (updated lib w.db.users r p) a = true) (hp : p.role ≠ some none)
    (hs : w.script = some f :: rest)
    (ht : w.db.users.modify r.id (writtenColumns r (updated lib w.db.users r p)).apply = some t) :
    (update lib r p a).run w = (.error (.fault f), { w with script := rest }) := by
  have hsave : (saveUpdate r (updated lib w.db.users r p)).run w = _ :=
    (Act.bind_of_ok (writeUser_of_some ht)).trans (customerUpdate_of_fault (w := w.setUsers t) hs _ _ _)
  rw [update_of_valid hv, if_neg hp]
  exact Act.bind_of_error (Act.atomically_of_error hsave)

end Scripted

/-! ## Linking a new row to its customer -/

/-- A name that did not change keeps its slug. -/
theorem setSlug_of_kept (lib : Lib) {r : UserRow} (hslug : r.slug = none → r.username = none) (l : List String) :
    setSlug lib false r.username r.slug l = r.slug := by
  unfold setSlug
  cases hs : r.slug with
  | none => simp [hslug hs]
  | some s => simp

/-- What the nested `update` of `create_stripe_customer` assigns and its
callbacks change: the link, and the spelling of the email. -/
theorem updated_link (lib : Lib) (users : Table UserRow) {r : UserRow} (c : String)
    (hslug : r.slug = none → r.username = none) :
    updated lib users r (linkPatch c) =
      { r with stripeCustomerId := some c, email := normalizeEmail lib (deviseEmail lib r.email) } := by
  simp [updated, beforeValidation, withSlug, UserPatch.apply, linkPatch, setSlug_of_kept lib hslug]

/-- Linking a stored row does not run into a unique index. -/
theorem modify_link (lib : Lib) {t : Table UserRow} {r : UserRow} (hr : r ∈ t.rows) (c : String)
    (hslug : r.slug = none → r.username = none) :
    ∃ t', t.modify r.id (writtenColumns r (updated lib t r (linkPatch c))).apply = some t' := by
  rw [updated_link lib t c hslug]
  exact modify_written hr (fun y hy hne => (free_of_mem hr hy hne).1) (fun y hy hne => (free_of_mem hr hy hne).2.1) rfl

theorem written_link (lib : Lib) (users : Table UserRow) {r : UserRow} (c : String)
    (hslug : r.slug = none → r.username = none) :
    (written r (updated lib users r (linkPatch c))).stripeCustomerId = some c ∧
    (written r (updated lib users r (linkPatch c))).username = r.username := by
  rw [written_eq, updated_link lib users c hslug]
  split <;> exact ⟨rfl, rfl⟩

section CreateStripeCustomer

variable {lib : Lib} {r m : UserRow} {a : PasswordAttrs} {w : World} {k : Customer}

/-- `create_stripe_customer` when the nested `update` is invalid: a customer
is created, and nothing remembers it. -/
theorem createStripeCustomer_of_invalid (hs : w.script = []) (hk : k = newCustomer lib w r.email r.username)
    (hm : m = updated lib w.db.users r (linkPatch k.id))
    (hv : validUser lib w.db.users (some r.id) m a = false) :
    (createStripeCustomer lib r a).run w = (.ok (), w.addCustomer k) := by
  subst hm
  unfold createStripeCustomer
  rw [Act.bind_of_ok (customerCreate_of_nil hs lib r.email r.username), ← hk]
  have hup : (update lib r (linkPatch k.id) a).run (w.addCustomer k) = (.ok false, w.addCustomer k) :=
    update_of_invalid hv
  rw [Act.bind_of_ok hup]
  rfl

/-- When it is valid, the row is linked to the new customer, and the
spelling of its email pushed there. -/
theorem createStripeCustomer_of_valid (hs : w.script = []) (hr : r ∈ w.db.users.rows)
    (hslug : r.slug = none → r.username = none) (hk : k = newCustomer lib w r.email r.username)
    (hm : m = updated lib w.db.users r (linkPatch k.id))
    (hv : validUser lib w.db.users (some r.id) m a = true) :
    ∃ t, w.db.users.modify r.id (writtenColumns r m).apply = some t ∧
      (createStripeCustomer lib r a).run w = (.ok (), { (w.addCustomer k).setUsers t with
        stripe := (w.stripe.addCustomer k).setCustomer k (written r m).email r.username }) := by
  subst hm
  obtain ⟨t, ht⟩ := modify_link lib hr k.id hslug
  obtain ⟨hlink, hname⟩ := written_link lib w.db.users k.id hslug
  refine ⟨t, ht, ?_⟩
  have hfound : (written r (updated lib w.db.users r (linkPatch k.id))).stripeCustomerId.bind
      (customer? (w.addCustomer k)) = some k := by
    rw [hlink, hk]
    exact customer?_newCustomer lib w r.email r.username
  have hsave := saveUpdate_of_some (w := w.addCustomer k) hs ht hfound
  rw [hname] at hsave
  have hup : (update lib r (linkPatch k.id) a).run (w.addCustomer k) =
      (.ok true, { (w.addCustomer k).setUsers t with
        stripe := (w.stripe.addCustomer k).setCustomer k
          (written r (updated lib w.db.users r (linkPatch k.id))).email r.username }) := by
    rw [update_of_valid (w := w.addCustomer k) hv]
    exact Act.bind_of_ok (Act.atomically_of_ok hsave)
  unfold createStripeCustomer
  rw [Act.bind_of_ok (customerCreate_of_nil hs lib r.email r.username), ← hk, Act.bind_of_ok hup]
  rfl

end CreateStripeCustomer

/-- A created record is a row of the table. -/
theorem find_created {lib : Lib} {m r : UserRow} {a : PasswordAttrs} {w w' : World}
    (h : (insertUser lib m a).run w = (.ok r, w')) : ∃ x, w'.db.users.find r.id = some x := by
  obtain ⟨rfl, t, t', ht, hlink, hdb, -, -⟩ := insertUser_ok h
  have hmem : insertedRow w m ∈ t.rows := (Table.mem_insert ht).2 (.inr rfl)
  rw [show w'.db.users = t' by rw [hdb]]
  rcases hlink with rfl | ⟨c, hlink⟩
  · exact ⟨_, Table.find_of_mem hmem⟩
  · exact ⟨_, Table.find_eq_some_iff.2 ⟨(mem_saved hmem hlink).2 (.inr rfl), rfl⟩⟩

/-! ## Reset tokens, subscription, Stripe deletion -/

/-- `User.find_by(...)` under the default scope `order(created_at: :desc)`.
mirrors app/models/user.rb:30 -/
def findUserBy (w : World) (p : UserRow → Bool) : Option UserRow :=
  w.db.users.newest UserRow.createdAt p

def issuePatch (token : Hex 10) (now : Nat) : UserPatch :=
  { resetPasswordToken := some (some token.1), resetPasswordSentAt := some (some now) }

/-- mirrors app/models/user.rb:65-68 -/
def generateResetPasswordToken (lib : Lib) (r : UserRow) (token : Hex 10) (a : PasswordAttrs) : App Unit := do
  let w ← Act.get
  let ok ← update lib r (issuePatch token w.now) a
  if ok then Act.modify fun w' => { w' with resets := .issued r.id token.1 w.now :: w'.resets }

/-- `2.hours`. -/
def twoHours : Nat := 7200

/-- mirrors app/models/user.rb:71-74 -/
def resetPasswordTokenExpired (r : UserRow) (now : Nat) : Bool :=
  match r.resetPasswordSentAt with
  | none => true
  | some t => decide (t + twoHours < now)

/-- mirrors app/models/user.rb:77-79 -/
def clearResetPasswordToken (lib : Lib) (r : UserRow) (a : PasswordAttrs) : App Bool :=
  update lib r { resetPasswordToken := some none, resetPasswordSentAt := some none } a

/-- `subscriptions.where(active: true).first`.
mirrors app/models/user.rb:55-57 -/
def currentSubscription (db : Db) (u : Nat) : Option SubscriptionRow :=
  db.subscriptions.first fun s => s.userId == u && s.active == some true

/-- mirrors app/models/user.rb:108-116 -/
def deleteStripeCustomer (lib : Lib) (r : UserRow) : App Unit :=
  if lib.present r.stripeCustomerId then
    Act.rescue (customerDelete (r.stripeCustomerId.getD "")) fun e =>
      if e = .fault .invalidRequest then some () else none
  else pure ()

end Insta.Model
