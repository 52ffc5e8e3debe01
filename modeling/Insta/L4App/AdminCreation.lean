import Insta.L4App.System

/-!
# What a failed call leaves of a user an admin creates

`users#create` by an admin makes four external calls: `save!` creates the
Stripe customer and, in the nested update of the link, pushes to it, both
inside the transaction; `generate_reset_password_token!` pushes once more,
in a transaction of its own; then the invite is delivered. Nothing undoes
what was done at Stripe.

`created_or_nothing_iff`: when one of the calls raises, the request leaves
nothing behind exactly when it is the first; a request that is refused
before makes no call, and one in which no call raises leaves a linked user
with a token and a sent invite.

Assumed of `String#downcase` and `String#strip` (`EmailLib`): each does
nothing the second time, and their order does not matter. Assumed of
`SecureRandom`: the token is nobody else's.
-/
namespace Insta.Web

open Insta.Core Insta.Store Insta.Store.App Insta.Model Insta.Service

/-! ## Normalised emails -/

structure EmailLib (lib : Lib) : Prop where
  downcase_downcase : ∀ s, lib.downcase (lib.downcase s) = lib.downcase s
  strip_strip : ∀ s, lib.strip (lib.strip s) = lib.strip s
  downcase_strip : ∀ s, lib.downcase (lib.strip s) = lib.strip (lib.downcase s)

/-- What Devise makes of an email, `normalize_email` leaves. -/
theorem EmailLib.normalizeEmail_eq {lib : Lib} (h : EmailLib lib) (e : Option String) :
    normalizeEmail lib (deviseEmail lib e) = deviseEmail lib e := by
  unfold normalizeEmail
  split
  · cases e with
    | none => rfl
    | some s => simp [deviseEmail, h.downcase_strip, h.downcase_downcase]
  · rfl

theorem EmailLib.deviseEmail_eq {lib : Lib} (h : EmailLib lib) (e : Option String) :
    deviseEmail lib (deviseEmail lib e) = deviseEmail lib e := by
  cases e with
  | none => rfl
  | some s => simp [deviseEmail, h.downcase_strip, h.downcase_downcase, h.strip_strip]

/-! ## The record and its validity -/

/-- The record `User.new(user_params)` saves. -/
def UserParams.record (lib : Lib) (users : Table UserRow) (p : UserParams) : UserRow :=
  beforeValidation lib users none ((p.patch lib p.role.assigned).apply newUser)

/-- The request is refused before anything is stored: a role that is none, or
a record that is not valid. -/
def refused (lib : Lib) (users : Table UserRow) (p : UserParams) : Bool :=
  p.role == .invalid || p.role == .null || !validUser lib users none (p.record lib users) (p.attrs true)

theorem refused_eq_false_iff {lib : Lib} {users : Table UserRow} {p : UserParams} :
    refused lib users p = false ↔ p.role ≠ .invalid ∧ p.role ≠ .null ∧
      validUser lib users none (p.record lib users) (p.attrs true) = true := by
  simp [refused, and_assoc]

/-- A record as it is after the first save: its email is normalised and it
has a slug. -/
structure Settled (lib : Lib) (r : UserRow) : Prop where
  email : normalizeEmail lib (deviseEmail lib r.email) = r.email
  slug : r.slug = none → r.username = none

theorem settled_record {lib : Lib} (hlib : EmailLib lib) (users : Table UserRow) (p : UserParams) :
    Settled lib (p.record lib users) := by
  refine ⟨?_, withSlug_slug lib users _⟩
  show normalizeEmail lib (deviseEmail lib (normalizeEmail lib (deviseEmail lib _))) =
    normalizeEmail lib (deviseEmail lib _)
  simp only [hlib.normalizeEmail_eq, hlib.deviseEmail_eq]

/-- What an update of columns other than name, email and slug makes of a
settled record. -/
theorem Settled.updated {lib : Lib} {r : UserRow} (h : Settled lib r) (users : Table UserRow) {p : UserPatch}
    (hname : p.username = none) (hemail : p.email = none) (hslug : p.slug = none) :
    updated lib users r p = p.apply r := by
  unfold Model.updated beforeValidation withSlug
  simp [UserPatch.apply, hname, hemail, hslug, setSlug_of_kept lib h.slug, h.email]

/-- The validations of a stored record ask what they asked before the
insert. -/
theorem validUser_append {lib : Lib} {users t : Table UserRow} {r m x : UserRow} {a : PasswordAttrs}
    (hrows : t.rows = users.rows ++ [r]) (hid : r.id = users.nextId) (hskip : a.skipPasswordValidation = true)
    (hname : x.username = m.username) (hemail : x.email = m.email) (hslug : x.slug = m.slug) :
    validUser lib t (some r.id) x a = validUser lib users none m a := by
  have hpassword : passwordValid lib true a = passwordValid lib false a := by
    simp [passwordValid, passwordRequired, hskip]
  unfold validUser
  rw [taken_append hrows hid, taken_append hrows hid, hname, hemail, hslug]
  exact congrArg _ hpassword

/-- Only the name of a valid record could run into an index. -/
theorem insert_record {lib : Lib} {w : World} {p : UserParams} {a : PasswordAttrs}
    (hv : validUser lib w.db.users none (p.record lib w.db.users) a = true) :
    ∃ t, w.db.users.insert (insertedRow w (p.record lib w.db.users)) = some t := by
  unfold Table.insert
  rw [dif_pos]
  · exact ⟨_, rfl⟩
  · intro x hx
    obtain ⟨digest, hpatch⟩ := patch_eq lib p p.role.assigned
    have htoken : (p.record lib w.db.users).resetPasswordToken = none := by
      unfold UserParams.record
      rw [hpatch]
      rfl
    have hslug : sameKey x.slug (p.record lib w.db.users).slug = false := by
      refine withSlug_free lib hx (by simp) ?_
      rw [hpatch, sameKey_comm]
      rfl
    have hname : sameKey x.username (p.record lib w.db.users).username = false := by
      unfold validUser at hv
      simp only [Bool.and_eq_true, Bool.not_eq_true'] at hv
      refine sameKey_of_ne fun he => ?_
      have hfree := List.any_eq_false.1 hv.1.1.1.1.1.2 x hx
      simp [he] at hfree
    simp only [clash, withId, insertedRow, Bool.or_eq_false_iff]
    refine ⟨⟨hname, hslug⟩, ?_⟩
    rw [htoken, sameKey_comm]
    rfl

/-! ## `save!` -/

/-- The row and the customer a creation makes, and the users table with the
row linked. -/
structure Account (lib : Lib) (w : World) (p : UserParams) (r : UserRow) (k : Customer) (t : Table UserRow) :
    Prop where
  row : r = insertedRow w (p.record lib w.db.users)
  rows : t.rows = w.db.users.rows ++ [{ r with stripeCustomerId := some k.id }]
  email : k.email = r.email
  name : k.name = r.username
  found : ∀ v : World, v.stripe = w.stripe.addCustomer k → customer? v k.id = some k
  fresh : k.id ∉ knownIds w

section Save

variable {lib : Lib} {w : World} {p : UserParams}

/-- The part of a valid creation that can raise. -/
theorem create_of_valid (lib : Lib) {q : UserPatch} {a : PasswordAttrs} {t : Table UserRow}
    (hrole : q.role ≠ some none) (hskip : a.skipPasswordValidation = true)
    (hv : validUser lib w.db.users none (beforeValidation lib w.db.users none (q.apply newUser)) a = true)
    (ht : w.db.users.insert (insertedRow w (beforeValidation lib w.db.users none (q.apply newUser))) = some t) :
    (create lib q a).run w = (do
      let r ← Act.atomically (insertUser lib (beforeValidation lib w.db.users none (q.apply newUser)) a)
      pure (some r) : App (Option UserRow)).run w ∧
    (insertUser lib (beforeValidation lib w.db.users none (q.apply newUser)) a).run w = (do
      createStripeCustomer lib (insertedRow w (beforeValidation lib w.db.users none (q.apply newUser))) a
      pure (insertedRow w (beforeValidation lib w.db.users none (q.apply newUser)))).run (w.setUsers t) := by
  constructor
  · unfold create
    rw [Act.run_get_bind]
    dsimp only
    rw [if_pos hv, if_neg hrole]
  · unfold insertUser
    rw [Act.run_get_bind, ht]
    unfold sendWelcomeEmail
    rw [if_pos hskip]
    rfl

/-- Writing a column other than email and password leaves the reset token. -/
theorem written_apply {r : UserRow} {q : UserPatch} (hemail : q.email = none)
    (hpassword : q.encryptedPassword = none) :
    written r (q.apply r) = q.apply r := by
  rw [written_eq, if_neg (by simp [UserPatch.apply, hemail, hpassword])]
  rfl

/-- An update that assigns neither of what Stripe is sent, nor the slug, the
password or the role. -/
structure Unsent (q : UserPatch) : Prop where
  username : q.username = none
  email : q.email = none
  slug : q.slug = none
  encryptedPassword : q.encryptedPassword = none
  role : q.role = none

/-- Such an update of the row that was appended last, when its customer has
the row's name and email: the push changes nothing at Stripe, and when it
raises, nothing at all has changed. -/
theorem Settled.update_run {a : PasswordAttrs} {r : UserRow} {l : List UserRow} {k : Customer} {q : UserPatch}
    {t : Table UserRow} (hset : Settled lib r) (hq : Unsent q) (hrow : w.db.users.rows = l ++ [r])
    (hv : validUser lib w.db.users (some r.id) (q.apply r) a = true)
    (ht : w.db.users.modify r.id (writtenColumns r (q.apply r)).apply = some t)
    (hlink : (q.apply r).stripeCustomerId = some k.id) (hfound : customer? w k.id = some k)
    (hemail : k.email = r.email) (hname : k.name = r.username) :
    t.rows = l ++ [q.apply r] ∧
      (∀ f rest, (update lib r q a).run { w with script := some f :: rest } =
        (.error (.fault f), { w with script := rest })) ∧
      ∀ rest, (update lib r q a).run { w with script := none :: rest } =
        (.ok true, { w.setUsers t with script := rest }) := by
  have hupd : Model.updated lib w.db.users r q = q.apply r := hset.updated w.db.users hq.username hq.email hq.slug
  have hwritten : written r (q.apply r) = q.apply r := written_apply hq.email hq.encryptedPassword
  have hrole : q.role ≠ some none := by rw [hq.role]; simp
  rw [← hupd] at hv ht
  refine ⟨?_, fun f rest => ?_, fun rest => ?_⟩
  · rw [rows_modify_last hrow ht rfl]
    show _ ++ [written r (Model.updated lib w.db.users r q)] = _
    rw [hupd, hwritten]
  · exact update_of_fault (w := { w with script := some f :: rest }) hv hrole rfl ht
  · have hcustomer : (written r (Model.updated lib w.db.users r q)).stripeCustomerId.bind
        (customer? { w with script := none :: rest }) = some k := by
      rw [hupd, hwritten, hlink]
      exact hfound
    -- the push sends what the customer has
    have hpush : w.stripe.setCustomer k (q.apply r).email (q.apply r).username = w.stripe := by
      rw [show (q.apply r).email = k.email by rw [hemail]; simp [UserPatch.apply, hq.email],
        show (q.apply r).username = k.name by rw [hname]; simp [UserPatch.apply, hq.username]]
      exact setCustomer_self _ _
    rw [update_of_none (w := { w with script := none :: rest }) hv hrole rfl ht hcustomer, hupd, hwritten]
    dsimp only
    rw [hpush]
    rfl

/-- `create_stripe_customer` of a stored record, by its two calls. -/
theorem createStripeCustomer_scripted {a : PasswordAttrs} {r : UserRow} {l : List UserRow} (hset : Settled lib r)
    (hrow : w.db.users.rows = l ++ [r])
    (hvalid : ∀ c, validUser lib w.db.users (some r.id) { r with stripeCustomerId := some c } a = true) :
    ∃ k t, k = newCustomer lib w r.email r.username ∧ t.rows = l ++ [{ r with stripeCustomerId := some k.id }] ∧
      (∀ f rest, (createStripeCustomer lib r a).run { w with script := some f :: rest } =
        (.error (.fault f), { w with script := rest })) ∧
      (∀ f rest, (createStripeCustomer lib r a).run { w with script := none :: some f :: rest } =
        (.error (.fault f), { w.addCustomer k with script := rest })) ∧
      ∀ rest, (createStripeCustomer lib r a).run { w with script := none :: none :: rest } =
        (.ok (), { (w.addCustomer k).setUsers t with script := rest }) := by
  obtain ⟨k, hk⟩ : ∃ k, k = newCustomer lib w r.email r.username := ⟨_, rfl⟩
  obtain ⟨t, ht⟩ := modify_link lib (t := w.db.users) (by rw [hrow]; simp) k.id hset.slug
  rw [hset.updated w.db.users rfl rfl rfl] at ht
  have hfound : customer? (w.addCustomer k) k.id = some k := by
    rw [hk]
    exact customer?_newCustomer lib w r.email r.username
  obtain ⟨hrows, hfault, hnone⟩ := hset.update_run (w := w.addCustomer k) (q := linkPatch k.id)
    ⟨rfl, rfl, rfl, rfl, rfl⟩ hrow (hvalid k.id) ht rfl hfound (by rw [hk]; rfl) (by rw [hk]; rfl)
  have hcreate : ∀ rest, (customerCreate lib r.email r.username).run { w with script := none :: rest } =
      (.ok k.id, { w.addCustomer k with script := rest }) := by
    intro rest
    rw [hk]
    exact customerCreate_of_none (w := { w with script := none :: rest }) rfl lib r.email r.username
  refine ⟨k, t, hk, hrows, fun f rest => ?_, fun f rest => ?_, fun rest => ?_⟩ <;> unfold createStripeCustomer
  · rw [Act.bind_of_error (customerCreate_of_fault (w := { w with script := some f :: rest }) rfl lib _ _)]
  · rw [Act.bind_of_ok (hcreate (some f :: rest)), Act.bind_of_error (hfault f rest)]
  · rw [Act.bind_of_ok (hcreate (none :: rest)), Act.bind_of_ok (hnone rest)]
    rfl

/-- The save of an accepted request, by the first two calls. -/
theorem create_account (hlib : EmailLib lib) (hok : refused lib w.db.users p = false) :
    ∃ r k t, Account lib w p r k t ∧
      (∀ f rest, (create lib (p.patch lib p.role.assigned) (p.attrs true)).run { w with script := some f :: rest } =
        (.error (.fault f), { w with script := rest })) ∧
      (∀ f rest, (create lib (p.patch lib p.role.assigned) (p.attrs true)).run
        { w with script := none :: some f :: rest } =
        (.error (.fault f), { w.addCustomer k with script := rest })) ∧
      ∀ rest, (create lib (p.patch lib p.role.assigned) (p.attrs true)).run
          { w with script := none :: none :: rest } =
        (.ok (some r), { (w.addCustomer k).setUsers t with script := rest }) := by
  obtain ⟨-, hnull, hv⟩ := refused_eq_false_iff.1 hok
  have hrole : (p.patch lib p.role.assigned).role ≠ some none := by
    obtain ⟨digest, hpatch⟩ := patch_eq lib p p.role.assigned
    rw [hpatch]
    cases hp : p.role <;> simp_all [RoleParam.assigned]
  obtain ⟨t₀, ht₀⟩ := insert_record hv
  obtain ⟨r, hr⟩ : ∃ r, r = insertedRow w (p.record lib w.db.users) := ⟨_, rfl⟩
  have hset : Settled lib r := by
    rw [hr]
    exact ⟨(settled_record hlib w.db.users p).email, (settled_record hlib w.db.users p).slug⟩
  have hrow : t₀.rows = w.db.users.rows ++ [r] := by rw [Table.rows_insert ht₀, hr]; rfl
  have hvalid : ∀ c, validUser lib t₀ (some r.id) { r with stripeCustomerId := some c } (p.attrs true) = true := by
    intro c
    subst hr
    exact (validUser_append (x := { insertedRow w (p.record lib w.db.users) with stripeCustomerId := some c })
      hrow rfl rfl rfl rfl rfl).trans hv
  obtain ⟨k, t, hk, hrows, hfirst, hsecond, hboth⟩ :=
    createStripeCustomer_scripted (w := w.setUsers t₀) (a := p.attrs true) hset hrow hvalid
  have hsave := fun sc => create_of_valid lib (w := { w with script := sc }) hrole rfl hv ht₀
  subst hr
  refine ⟨_, k, t, ⟨rfl, hrows, by rw [hk]; rfl, by rw [hk]; rfl, fun v hstripe => ?_, ?_⟩,
    fun f rest => ?_, fun f rest => ?_, fun rest => ?_⟩
  · have hnew := customer?_newCustomer lib (w.setUsers t₀) (p.record lib w.db.users).email
      (p.record lib w.db.users).username
    unfold customer? at hnew ⊢
    rw [hstripe, hk]
    exact hnew
  · intro hknown
    rw [hk] at hknown
    exact lib.freshId_fresh _ (knownIds_afterInsert hrow hknown)
  · obtain ⟨hcreate, hinsert⟩ := hsave (some f :: rest)
    rw [hcreate, Act.bind_of_error (Act.atomically_of_error (hinsert.trans (Act.bind_of_error (hfirst f rest))))]
    rfl
  · obtain ⟨hcreate, hinsert⟩ := hsave (none :: some f :: rest)
    rw [hcreate, Act.bind_of_error (Act.atomically_of_error (hinsert.trans (Act.bind_of_error (hsecond f rest))))]
    rfl
  · obtain ⟨hcreate, hinsert⟩ := hsave (none :: none :: rest)
    rw [hcreate, Act.bind_of_ok (Act.atomically_of_ok (hinsert.trans (Act.bind_of_ok (hboth rest))))]
    rfl

end Save

/-! ## The invite -/

section Invite

variable {lib : Lib} {w : World} {p : UserParams} {r : UserRow} {k : Customer} {t : Table UserRow} {token : Hex 10}

/-- The row with its token. -/
def invitedRow (r : UserRow) (k : Customer) (token : Hex 10) (now : Nat) : UserRow :=
  { r with
    stripeCustomerId := some k.id, resetPasswordToken := some token.1, resetPasswordSentAt := some now }

theorem Account.linked_mem (h : Account lib w p r k t) : { r with stripeCustomerId := some k.id } ∈ t.rows := by
  rw [h.rows]
  simp

theorem Account.settled (hlib : EmailLib lib) (h : Account lib w p r k t) :
    Settled lib { r with stripeCustomerId := some k.id } := by
  have hrecord := settled_record hlib w.db.users p
  rw [h.row]
  exact ⟨hrecord.email, hrecord.slug⟩

/-- The record the invite is for, as it is stored. -/
theorem Account.reload_run (h : Account lib w p r k t) (sc : List (Option Fault)) :
    (reload r).run { (w.addCustomer k).setUsers t with script := sc } =
      (.ok { r with stripeCustomerId := some k.id }, { (w.addCustomer k).setUsers t with script := sc }) := by
  have hfind : t.find r.id = some { r with stripeCustomerId := some k.id } :=
    Table.find_of_mem (r := { r with stripeCustomerId := some k.id }) h.linked_mem
  unfold reload
  rw [Act.run_get_bind]
  show (pure ((t.find r.id).getD r) : App UserRow).run _ = _
  rw [hfind]
  rfl

/-- Storing the token: the table with it, and what the push makes of the
update. -/
theorem Account.token_run (hlib : EmailLib lib) (hok : refused lib w.db.users p = false) (h : Account lib w p r k t)
    (hfree : ∀ x ∈ w.db.users.rows, x.resetPasswordToken ≠ some token.1) : ∃ t',
      t'.rows = w.db.users.rows ++ [invitedRow r k token w.now] ∧
      (∀ f rest, (update lib { r with stripeCustomerId := some k.id } (issuePatch token w.now) (p.attrs true)).run
        { (w.addCustomer k).setUsers t with script := some f :: rest } =
        (.error (.fault f), { (w.addCustomer k).setUsers t with script := rest })) ∧
      ∀ rest, (update lib { r with stripeCustomerId := some k.id } (issuePatch token w.now) (p.attrs true)).run
        { (w.addCustomer k).setUsers t with script := none :: rest } =
        (.ok true, { (w.addCustomer k).setUsers t' with script := rest }) := by
  obtain ⟨x, hx⟩ : ∃ x, x = { r with stripeCustomerId := some k.id } := ⟨_, rfl⟩
  have hrows : t.rows = w.db.users.rows ++ [x] := by rw [hx]; exact h.rows
  have hmem : x ∈ t.rows := by rw [hrows]; simp
  have hid : x.id = w.db.users.nextId := by rw [hx, h.row]; rfl
  have hset : Settled lib x := by rw [hx]; exact h.settled hlib
  have hv : validUser lib t (some x.id) ((issuePatch token w.now).apply x) (p.attrs true) = true := by
    obtain ⟨-, -, hvalid⟩ := refused_eq_false_iff.1 hok
    refine (validUser_append hrows hid rfl ?_ ?_ ?_).trans hvalid <;> rw [hx, h.row] <;> rfl
  obtain ⟨t', ht'⟩ : ∃ t', t.modify x.id (writtenColumns x ((issuePatch token w.now).apply x)).apply = some t' := by
    refine modify_of_free hmem (fun y hy hne => (free_of_mem hmem hy hne).1)
      (fun y hy hne => (free_of_mem hmem hy hne).2.1) fun y hy hne => sameKey_of_ne ?_
    rw [hrows] at hy
    rcases List.mem_append.1 hy with hy | hy
    · exact hfree y hy
    · exact absurd (congrArg UserRow.id (List.mem_singleton.1 hy)) hne
  have hinvited : (issuePatch token w.now).apply x = invitedRow r k token w.now := by rw [hx]; rfl
  have hrun := hset.update_run (w := (w.addCustomer k).setUsers t) (k := k) ⟨rfl, rfl, rfl, rfl, rfl⟩ hrows hv ht'
    (by rw [hx]; rfl) (h.found _ rfl) (by rw [h.email, hx]) (by rw [h.name, hx])
  rw [hinvited, hx] at hrun
  exact ⟨t', hrun⟩

/-- The invite of a created user, by its two calls. -/
theorem invite_account (hlib : EmailLib lib) (hok : refused lib w.db.users p = false) (h : Account lib w p r k t)
    (hfree : ∀ x ∈ w.db.users.rows, x.resetPasswordToken ≠ some token.1) : ∃ t',
      t'.rows = w.db.users.rows ++ [invitedRow r k token w.now] ∧
      (∀ f rest, (invite lib r token (p.attrs true)).run
          { (w.addCustomer k).setUsers t with script := some f :: rest } =
        (.error (.fault f), { (w.addCustomer k).setUsers t with script := rest })) ∧
      (∀ f rest, ∃ w', (invite lib r token (p.attrs true)).run
        { (w.addCustomer k).setUsers t with script := none :: some f :: rest } = (.error (.fault f), w') ∧
          w'.db.users = t' ∧ w'.stripe = w.stripe.addCustomer k) ∧
      ∀ rest, ∃ w', (invite lib r token (p.attrs true)).run
        { (w.addCustomer k).setUsers t with script := none :: none :: rest } = (.ok (), w') ∧
          w'.db.users = t' ∧ w'.stripe = w.stripe.addCustomer k ∧
          w'.mails = w.mails ++ [.invite r.id (some token.1)] := by
  obtain ⟨t', hrows, hfault, hnone⟩ := h.token_run hlib hok hfree
  have hissue : ∀ rest,
      (generateResetPasswordToken lib { r with stripeCustomerId := some k.id } token (p.attrs true)).run
      { (w.addCustomer k).setUsers t with script := none :: rest } =
      (.ok (), { (w.addCustomer k).setUsers t' with
        script := rest, resets := .issued r.id token.1 w.now :: w.resets }) := by
    intro rest
    unfold generateResetPasswordToken
    rw [Act.run_get_bind]
    exact Act.bind_of_ok (hnone rest)
  have hraise : ∀ f rest, (generateResetPasswordToken lib { r with stripeCustomerId := some k.id } token
      (p.attrs true)).run { (w.addCustomer k).setUsers t with script := some f :: rest } =
      (.error (.fault f), { (w.addCustomer k).setUsers t with script := rest }) := by
    intro f rest
    unfold generateResetPasswordToken
    rw [Act.run_get_bind]
    exact Act.bind_of_error (hfault f rest)
  refine ⟨t', hrows, fun f rest => ?_, fun f rest => ?_, fun rest => ?_⟩ <;> unfold invite <;>
    rw [Act.bind_of_ok (h.reload_run _)]
  · exact Act.bind_of_error (hraise f rest)
  · rw [Act.bind_of_ok (hissue (some f :: rest))]
    exact ⟨_, Act.bind_of_error (external_of_fault rfl), rfl, rfl⟩
  · rw [Act.bind_of_ok (hissue (none :: rest))]
    exact ⟨_, Act.bind_of_ok (external_of_none rfl), rfl, rfl, rfl⟩

end Invite

/-! ## The request -/

/-- The script in which the `n`-th external call raises `f`. -/
def failsAt (n : Nat) (f : Fault) : List (Option Fault) := List.replicate n none ++ [some f]

/-- The request succeeded: there is a new user, linked to the one new
customer, with a token that was mailed. Or it failed, and there is neither. -/
def CreatedOrNothing (token : Hex 10) (w : World) (out : Except Raise Unit × World) : Prop :=
  (out.1 = .ok () ∧ ∃ x k, out.2.db.users.rows = w.db.users.rows ++ [x] ∧
    out.2.stripe.customers = w.stripe.customers ++ [k] ∧ x.stripeCustomerId = some k.id ∧ k.id ∉ knownIds w ∧
    x.resetPasswordToken = some token.1 ∧ out.2.mails = w.mails ++ [.invite x.id (some token.1)]) ∨
  ∃ e, out.1 = .error e ∧ out.2.db.users.rows = w.db.users.rows ∧ out.2.stripe.customers = w.stripe.customers

section Request

variable {lib : Lib} {w : World} {actor : Option Nat} {me : UserRow} {p : UserParams} {token : Hex 10}

/-- What comes after the save. -/
def inviteCreated (lib : Lib) (token : Hex 10) (a : PasswordAttrs) : Option UserRow → App Unit
  | none => Act.raise .recordInvalid
  | some r => invite lib r token a

/-- An admin's request with a role that can be assigned. -/
theorem usersCreate_of_role (hme : currentUser w actor = some me) (hadmin : me.role = .admin)
    (hrole : p.role ≠ .invalid) : (usersCreate lib actor p token).run w =
      (create lib (p.patch lib p.role.assigned) (p.attrs true) >>=
        inviteCreated lib token (p.attrs true)).run w := by
  have hassign : (assignRole p.role).run w = (.ok p.role.assigned, w) := by
    cases hp : p.role <;> first | rfl | exact absurd hp hrole
  have hskip : (me.role == Role.admin) = true := by rw [hadmin]; rfl
  unfold usersCreate
  rw [Act.bind_of_ok (authenticate_of_user hme), Act.bind_of_ok hassign, hskip]
  simp only [if_pos hadmin]
  rfl

/-- A request in which no call raises leaves a linked user, with a token that
was mailed. -/
theorem create_invite_of_calls (hlib : EmailLib lib) (hr : refused lib w.db.users p = false)
    (hfree : ∀ x ∈ w.db.users.rows, x.resetPasswordToken ≠ some token.1) (rest : List (Option Fault)) :
    ∃ w' x k, (create lib (p.patch lib p.role.assigned) (p.attrs true) >>= inviteCreated lib token (p.attrs true)).run
      { w with script := none :: none :: none :: none :: rest } = (.ok (), w') ∧
      (w'.db.users.rows = w.db.users.rows ++ [x] ∧ w'.stripe.customers = w.stripe.customers ++ [k] ∧
        x.stripeCustomerId = some k.id ∧ k.id ∉ knownIds w ∧ x.resetPasswordToken = some token.1 ∧
        w'.mails = w.mails ++ [.invite x.id (some token.1)]) ∧
      x.resetPasswordSentAt = some w.now := by
  obtain ⟨r, k, t, hacc, -, -, hboth⟩ := create_account hlib hr
  obtain ⟨t', hrows, -, -, hall⟩ := invite_account hlib hr hacc hfree
  obtain ⟨w', hrun, husers, hstripe, hmails⟩ := hall rest
  refine ⟨w', invitedRow r k token w.now, k, ?_, ⟨?_, ?_, rfl, hacc.fresh, rfl, hmails⟩, rfl⟩
  · rw [Act.bind_of_ok (hboth (none :: none :: rest))]
    exact hrun
  · rw [husers]
    exact hrows
  · rw [hstripe]
    rfl

/-- A refused request makes no external call. -/
theorem usersCreate_refused (lib : Lib) (token : Hex 10) (hme : currentUser w actor = some me)
    (hadmin : me.role = .admin) (hno : refused lib w.db.users p = true) :
    ∃ e, (usersCreate lib actor p token).run w = (.error e, w) := by
  by_cases hinvalid : p.role = .invalid
  · unfold usersCreate
    rw [Act.bind_of_ok (authenticate_of_user hme), hinvalid]
    exact ⟨_, rfl⟩
  · rw [usersCreate_of_role hme hadmin hinvalid]
    unfold create
    rw [Act.bind_assoc, Act.run_get_bind]
    dsimp only
    split
    · rename_i hv
      have hv : validUser lib w.db.users none (p.record lib w.db.users) (p.attrs true) = true := hv
      have hnull : p.role = .null := by
        unfold refused at hno
        simpa [hinvalid, hv] using hno
      have hpatch : (p.patch lib p.role.assigned).role = some none := by
        obtain ⟨digest, hpatch⟩ := patch_eq lib p p.role.assigned
        rw [hpatch, hnull]
        rfl
      rw [if_pos hpatch]
      exact ⟨_, rfl⟩
    · exact ⟨_, rfl⟩

/-- A request that raised after the customer was created leaves it behind. -/
theorem not_createdOrNothing_of_customer {w' : World} {k : Customer} {e : Raise}
    (hstripe : w'.stripe = w.stripe.addCustomer k) : ¬ CreatedOrNothing token w (.error e, w') := by
  rintro (⟨h, -⟩ | ⟨e', -, -, hcust⟩)
  · cases h
  · rw [hstripe] at hcust
    simp [Stripe.addCustomer] at hcust

end Request

theorem created_or_nothing_iff (lib : Lib) (hlib : EmailLib lib) (w : World) (actor : Option Nat) (me : UserRow)
    (p : UserParams) (token : Hex 10) (n : Nat) (f : Fault) (hme : currentUser w actor = some me)
    (hadmin : me.role = .admin) (hfree : ∀ x ∈ w.db.users.rows, x.resetPasswordToken ≠ some token.1) :
    CreatedOrNothing token w ((usersCreate lib actor p token).run { w with script := failsAt n f }) ↔
      refused lib w.db.users p = true ∨ n = 0 ∨ 4 ≤ n := by
  cases hr : refused lib w.db.users p with
  | true =>
    obtain ⟨e, he⟩ := usersCreate_refused lib token (w := { w with script := failsAt n f }) hme hadmin hr
    rw [he]
    exact ⟨fun _ => .inl rfl, fun _ => .inr ⟨e, rfl, rfl, rfl⟩⟩
  | false =>
    obtain ⟨hrole, -, -⟩ := refused_eq_false_iff.1 hr
    rw [usersCreate_of_role (w := { w with script := failsAt n f }) hme hadmin hrole]
    obtain ⟨r, k, t, hacc, hfirst, hsecond, hboth⟩ := create_account hlib hr
    obtain ⟨t', hrows, hthird, hfourth, hall⟩ := invite_account hlib hr hacc hfree
    by_cases hn : 4 ≤ n
    · obtain ⟨m, rfl⟩ := Nat.exists_eq_add_of_le' hn
      rw [show failsAt (m + 4) f = none :: none :: none :: none :: failsAt m f from rfl]
      obtain ⟨w', x, k', hrun, hdone⟩ := create_invite_of_calls hlib hr hfree (failsAt m f)
      rw [hrun]
      exact ⟨fun _ => .inr (.inr hn), fun _ => .inl ⟨rfl, x, k', hdone.1⟩⟩
    · obtain rfl | rfl | rfl | rfl : n = 0 ∨ n = 1 ∨ n = 2 ∨ n = 3 := by omega
      · rw [show failsAt 0 f = [some f] from rfl, Act.bind_of_error (hfirst f [])]
        exact ⟨fun _ => .inr (.inl rfl), fun _ => .inr ⟨_, rfl, rfl, rfl⟩⟩
      · rw [show failsAt 1 f = [none, some f] from rfl, Act.bind_of_error (hsecond f [])]
        exact iff_of_false (not_createdOrNothing_of_customer rfl) (by simp)
      · rw [show failsAt 2 f = [none, none, some f] from rfl, Act.bind_of_ok (hboth [some f])]
        show CreatedOrNothing token w ((invite lib r token (p.attrs true)).run _) ↔ _
        rw [hthird f []]
        exact iff_of_false (not_createdOrNothing_of_customer rfl) (by simp)
      · rw [show failsAt 3 f = [none, none, none, some f] from rfl, Act.bind_of_ok (hboth [none, some f])]
        show CreatedOrNothing token w ((invite lib r token (p.attrs true)).run _) ↔ _
        obtain ⟨w', hrun, -, hstripe⟩ := hfourth f []
        rw [hrun]
        exact iff_of_false (not_createdOrNothing_of_customer hstripe) (by simp)

/-! ## The admin creates a user -/

def bobParams : UserParams := { username := some (some "bob"), email := some (some "bob@example.com") }

/-- The request in which the `n`-th call raises. -/
def bobCreated (n : Nat) : Except Raise Unit × World :=
  (usersCreate plainLib (some 1) bobParams inviteToken).run { adminOnly with script := failsAt n .other }

/-- `Stripe::Customer.create` raises; and no call does. -/
theorem bob_created_or_nothing :
    EmailLib plainLib ∧ currentUser adminOnly (some 1) = some adminRow ∧ adminRow.role = .admin ∧
    (∀ x ∈ adminOnly.db.users.rows, x.resetPasswordToken ≠ some inviteToken.1) ∧
    refused plainLib adminOnly.db.users bobParams = false ∧
    CreatedOrNothing inviteToken adminOnly (bobCreated 0) ∧
      CreatedOrNothing inviteToken adminOnly (bobCreated 4) := by
  have hlib : EmailLib plainLib := ⟨fun _ => rfl, fun _ => rfl, fun _ => rfl⟩
  have hfree : ∀ x ∈ adminOnly.db.users.rows, x.resetPasswordToken ≠ some inviteToken.1 := by decide
  have h := fun n => created_or_nothing_iff plainLib hlib adminOnly (some 1) adminRow bobParams inviteToken n .other
    rfl rfl hfree
  exact ⟨hlib, rfl, rfl, hfree, by decide, (h 0).2 (.inr (.inl rfl)), (h 4).2 (.inr (.inr le_rfl))⟩

/-- The first push raises: no user, but a customer. The invite is not
delivered: both, and a failed request. -/
theorem bob_left_behind :
    ((bobCreated 1).1.isOk = false ∧ (bobCreated 1).2.db.users.rows.length = 1 ∧
      (bobCreated 1).2.stripe.customers.length = 2 ∧ ¬ CreatedOrNothing inviteToken adminOnly (bobCreated 1)) ∧
    (bobCreated 3).1.isOk = false ∧ (bobCreated 3).2.db.users.rows.length = 2 ∧
      (bobCreated 3).2.stripe.customers.length = 2 ∧ ¬ CreatedOrNothing inviteToken adminOnly (bobCreated 3) := by
  have hleft : ∀ n, (bobCreated n).1.isOk = false → (bobCreated n).2.stripe.customers.length = 2 →
      ¬ CreatedOrNothing inviteToken adminOnly (bobCreated n) := by
    rintro n hfail hcust (⟨hok, -⟩ | ⟨e, -, -, hsame⟩)
    · rw [hok] at hfail
      cases hfail
    · rw [hsame] at hcust
      exact absurd hcust (by decide)
  have h1 : (bobCreated 1).1.isOk = false ∧ (bobCreated 1).2.db.users.rows.length = 1 ∧
    (bobCreated 1).2.stripe.customers.length = 2 := by decide
  have h3 : (bobCreated 3).1.isOk = false ∧ (bobCreated 3).2.db.users.rows.length = 2 ∧
    (bobCreated 3).2.stripe.customers.length = 2 := by decide
  exact ⟨⟨h1.1, h1.2.1, h1.2.2, hleft 1 h1.1 h1.2.2⟩, h3.1, h3.2.1, h3.2.2, hleft 3 h3.1 h3.2.2⟩

end Insta.Web
