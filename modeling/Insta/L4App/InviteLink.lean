import Insta.L4App.AdminCreation

/-!
# The link in the invite

`users#create` stores the token it issues as it is and mails a link to
Devise's own password endpoint (`edit_user_password_url`). That endpoint
looks for the row that holds the digest of the token it is sent: issuer and
acceptor are two protocols that share a column.

* `created_user_holds_token`: after `users#create` the row holds the token
  itself, which is no digest: 20 characters, not 64.
* `invite_link_iff`: the link selects its user and sets the password exactly
  when the row holds the digest of the mailed token, and the push of the
  update reaches Stripe. For a row as `users#create` stores it that is never
  so, whatever happens to the rest of the database.

Of the endpoint's other conditions all are met (`InviteUsed`): nobody is
signed in, the token is not blank, both expiry tests pass, and the record
with the new password is valid.
-/
namespace Insta.Web

open Insta.Core Insta.Store Insta.Store.App Insta.Model Insta.Service

/-- The row Devise looks for when `token` is submitted. -/
def holderOfDigest (lib : Lib) (w : World) (token : String) : Option UserRow :=
  findUserBy w fun r => r.resetPasswordToken == some (lib.tokenDigest token).1

/-- Devise clears `skip_password_validation`: the record is a loaded one. -/
def submitted (a : PasswordAttrs) : PasswordAttrs := { a with skipPasswordValidation := false }

/-- The record with the new password, as it is validated and saved. -/
def withNewPassword (lib : Lib) (w : World) (r : UserRow) (a : PasswordAttrs) : UserRow :=
  updated lib w.db.users r (withPassword lib a {})

/-- The link that was mailed to `r` is used in time, with a valid password. -/
structure InviteUsed (lib : Lib) (w : World) (actor : Option Nat) (r : UserRow) (token : Hex 10) (a : PasswordAttrs) :
    Prop where
  user : r ∈ w.db.users.rows
  mailed : .invite r.id (some token.1) ∈ w.mails
  guest : currentUser w actor = none
  notBlank : lib.blank token.1 = false
  withinSixHours : resetPasswordPeriodValid r w.now = true
  withinTwoHours : resetPasswordTokenExpired r w.now = false
  present : lib.present a.password = true
  valid : validUser lib w.db.users (some r.id) (withNewPassword lib w r a) (submitted a) = true

/-- The submitted link selects `r` and sets the password. -/
def LinkWorks (lib : Lib) (w : World) (actor : Option Nat) (r : UserRow) (token : String)
    (a : PasswordAttrs) : Prop :=
  holderOfDigest lib w token = some r ∧
  ∃ w', (devisePasswordUpdate lib actor (some token) a).run w = (.ok (), w') ∧
    ∃ x ∈ w'.db.users.rows, x.id = r.id ∧ ∃ pw, a.password = some pw ∧ x.encryptedPassword = lib.digest pw a.salt

section Link

variable {lib : Lib} {w : World} {actor : Option Nat} {r : UserRow} {token : Hex 10} {a : PasswordAttrs}

/-- The index on the column leaves one row to select. -/
theorem holderOfDigest_eq_some_iff {t : String} : holderOfDigest lib w t = some r ↔
    r ∈ w.db.users.rows ∧ r.resetPasswordToken = some (lib.tokenDigest t).1 := by
  constructor
  · intro h
    obtain ⟨hr, htok⟩ := Table.mem_of_newest h
    exact ⟨hr, beq_iff_eq.1 htok⟩
  · rintro ⟨hr, htok⟩
    refine Table.newest_of_unique hr (beq_iff_eq.2 htok) fun x hx hxtok => ?_
    by_contra hne
    have hid : x.id ≠ r.id := fun he => hne (w.db.users.eq_of_rowId hx hr he)
    have hfree := (free_of_mem hr hx hid).2.2
    rw [beq_iff_eq.1 hxtok, htok] at hfree
    simp [sameKey] at hfree

/-- With the row found, the request is its update. -/
theorem InviteUsed.run_eq (h : InviteUsed lib w actor r token a) (hfound : holderOfDigest lib w token.1 = some r) :
    (devisePasswordUpdate lib actor (some token.1) a).run w = (do
      let _ ← update lib r (withPassword lib a {}) (submitted a)
      pure () : App Unit).run w := by
  unfold holderOfDigest at hfound
  unfold devisePasswordUpdate ifGuest
  rw [Act.run_get_bind, h.guest]
  dsimp only
  rw [Act.run_get_bind, h.notBlank, hfound]
  simp only [Bool.false_eq_true, if_false, h.withinSixHours, h.present, Bool.and_self, if_true]
  rfl

/-- The update stores the password, if its push reaches Stripe. -/
theorem InviteUsed.update_run (h : InviteUsed lib w actor r token a)
    (hpush : Pushes w (written r (withNewPassword lib w r a))) :
    ∃ w', (update lib r (withPassword lib a {}) (submitted a)).run w = (.ok true, w') ∧
      ∃ x ∈ w'.db.users.rows, x.id = r.id ∧
        ∃ pw, a.password = some pw ∧ x.encryptedPassword = lib.digest pw a.salt := by
  obtain ⟨pw, hpw, hpatch⟩ : ∃ pw, a.password = some pw ∧
      withPassword lib a {} = { encryptedPassword := some (lib.digest pw a.salt) } := by
    have hpres := h.present
    cases hpw : a.password with
    | none => rw [hpw] at hpres; cases hpres
    | some pw =>
      rw [hpw] at hpres
      simp only [Lib.present, Bool.not_eq_true'] at hpres
      exact ⟨pw, rfl, by simp [withPassword, hpw, hpres]⟩
  have hvalid := h.valid
  unfold withNewPassword at hvalid hpush
  rw [hpatch] at hvalid hpush ⊢
  obtain ⟨w', hup⟩ := update_ok_iff.2 ⟨hvalid, by simp, modify_of_valid h.user rfl rfl hvalid, hpush⟩
  refine ⟨w', hup, ?_⟩
  rcases update_cases lib r { encryptedPassword := some (lib.digest pw a.salt) } (submitted a) w with
    ⟨-, hno⟩ | ⟨-, st, sc, ⟨e, he⟩ | ⟨t, -, ht, hw⟩⟩
  · cases hno.symm.trans hup
  · cases he.symm.trans hup
  · cases hw.symm.trans hup
    exact ⟨_, (mem_saved h.user ht).2 (.inr rfl), rfl, pw, hpw, written_encryptedPassword _ _⟩

end Link

/-- After `users#create` the row holds the mailed token itself, and both
windows are open. -/
theorem created_user_holds_token {lib : Lib} (hlib : EmailLib lib) {w : World} {actor : Option Nat} {me : UserRow}
    {p : UserParams} {token : Hex 10} (hme : currentUser w actor = some me) (hadmin : me.role = .admin)
    (hok : refused lib w.db.users p = false) (hfree : ∀ x ∈ w.db.users.rows, x.resetPasswordToken ≠ some token.1)
    (rest : List (Option Fault)) :
    ∃ w' x, (usersCreate lib actor p token).run { w with script := none :: none :: none :: none :: rest } =
        (.ok (), w') ∧ x ∈ w'.db.users.rows ∧ x ∉ w.db.users.rows ∧ .invite x.id (some token.1) ∈ w'.mails ∧
      x.resetPasswordToken = some token.1 ∧
      ∀ now, now ≤ w.now + twoHours →
        resetPasswordPeriodValid x now = true ∧ resetPasswordTokenExpired x now = false := by
  obtain ⟨hrole, -, -⟩ := refused_eq_false_iff.1 hok
  obtain ⟨w', x, k, hrun, ⟨hrows, -, -, -, htok, hmails⟩, hsent⟩ := create_invite_of_calls hlib hok hfree rest
  refine ⟨w', x, ?_, by rw [hrows]; simp, fun hx => hfree x hx htok, by rw [hmails]; simp, htok, fun now hnow => ?_⟩
  · rw [usersCreate_of_role (w := { w with script := none :: none :: none :: none :: rest }) hme hadmin hrole]
    exact hrun
  · unfold resetPasswordPeriodValid resetPasswordTokenExpired
    rw [hsent]
    exact ⟨decide_eq_true (hnow.trans (Nat.add_le_add_left (by decide) _)), decide_eq_false hnow.not_gt⟩

/-- A row that holds the token is not the one that is looked for. -/
theorem not_linkWorks_of_token {lib : Lib} {w : World} {actor : Option Nat} {r : UserRow} {token : Hex 10}
    {a : PasswordAttrs} (htok : r.resetPasswordToken = some token.1) : ¬ LinkWorks lib w actor r token.1 a := by
  intro hl
  have hdigest := (holderOfDigest_eq_some_iff.1 hl.1).2
  have hlen := congrArg String.length (Option.some.inj (htok.symm.trans hdigest))
  rw [token.2, (lib.tokenDigest token.1).2] at hlen
  omega

theorem invite_link_iff (lib : Lib) (w : World) (actor : Option Nat) (r : UserRow) (token : Hex 10)
    (a : PasswordAttrs) (h : InviteUsed lib w actor r token a) :
    (LinkWorks lib w actor r token.1 a ↔ r.resetPasswordToken = some (lib.tokenDigest token.1).1 ∧
      Pushes w (written r (withNewPassword lib w r a))) ∧
    (r.resetPasswordToken = some token.1 → ¬ LinkWorks lib w actor r token.1 a) ∧
    ∀ (w₀ : World) (admin : Option Nat) (me : UserRow) (p : UserParams) (rest : List (Option Fault)), EmailLib lib →
      currentUser w₀ admin = some me → me.role = .admin → refused lib w₀.db.users p = false →
      (∀ x ∈ w₀.db.users.rows, x.resetPasswordToken ≠ some token.1) →
      ∃ w₁ x, (usersCreate lib admin p token).run { w₀ with script := none :: none :: none :: none :: rest } =
          (.ok (), w₁) ∧ x ∈ w₁.db.users.rows ∧ x ∉ w₀.db.users.rows ∧ .invite x.id (some token.1) ∈ w₁.mails ∧
        (∀ now, now ≤ w₀.now + twoHours →
          resetPasswordPeriodValid x now = true ∧ resetPasswordTokenExpired x now = false) ∧
        ∀ w₂ guest b, ¬ LinkWorks lib w₂ guest x token.1 b := by
  refine ⟨⟨fun hl => ⟨(holderOfDigest_eq_some_iff.1 hl.1).2, ?_⟩, ?_⟩, not_linkWorks_of_token, ?_⟩
  · obtain ⟨hfound, w', hrun, -⟩ := hl
    rw [h.run_eq hfound] at hrun
    obtain ⟨ok, w₁, hup, -⟩ := Act.bind_ok hrun
    rcases update_cases lib r (withPassword lib a {}) (submitted a) w with
      ⟨hv, -⟩ | ⟨-, st, sc, ⟨e, he⟩ | ⟨t, -, -, ht⟩⟩
    · cases hv.symm.trans h.valid
    · cases he.symm.trans hup
    · exact (update_ok_iff.1 ⟨_, ht⟩).2.2.2
  · rintro ⟨htok, hpush⟩
    have hfound := holderOfDigest_eq_some_iff.2 ⟨h.user, htok⟩
    obtain ⟨w', hup, hx⟩ := h.update_run hpush
    refine ⟨hfound, w', ?_, hx⟩
    rw [h.run_eq hfound, Act.bind_of_ok hup]
    rfl
  · intro w₀ admin me p rest hlib hme hadmin hok hfree
    obtain ⟨w₁, x, hrun, hx, hnew, hmail, htok, htime⟩ := created_user_holds_token hlib hme hadmin hok hfree rest
    exact ⟨w₁, x, hrun, hx, hnew, hmail, htime, fun _ _ _ => not_linkWorks_of_token htok⟩

/-! ## Bob follows the link -/

def bobsPassword : PasswordAttrs :=
  { password := some "new-password", passwordConfirmation := some "new-password" }

/-- The admin has created Bob. -/
def bobInvited : World := { (bobCreated 4).2 with script := [] }

/-- Bob's row. -/
def invitedBob (w : World) : UserRow := (w.db.users.find 2).getD bobRow

/-- The link finds nobody. -/
theorem bobs_link_fails :
    InviteUsed plainLib bobInvited none (invitedBob bobInvited) inviteToken bobsPassword ∧
    holderOfDigest plainLib bobInvited inviteToken.1 = none ∧
    ((devisePasswordUpdate plainLib none (some inviteToken.1) bobsPassword).run bobInvited).2.db.users =
      bobInvited.db.users :=
  ⟨⟨by decide, by decide, by decide, by decide, by decide, by decide, by decide, by decide⟩, by decide, by decide⟩

/-- Had Devise drawn the same token for a request of Bob's own, it would have
stored the digest. -/
def bobForgot : World := ((forgotPassword plainLib none (some "bob@example.com") inviteToken.1).run bobInvited).2

theorem devises_link_works :
    InviteUsed plainLib bobForgot none (invitedBob bobForgot) inviteToken bobsPassword ∧
    LinkWorks plainLib bobForgot none (invitedBob bobForgot) inviteToken.1 bobsPassword := by
  have hused : InviteUsed plainLib bobForgot none (invitedBob bobForgot) inviteToken bobsPassword :=
    ⟨by decide, by decide, by decide, by decide, by decide, by decide, by decide, by decide⟩
  exact ⟨hused, (invite_link_iff plainLib bobForgot none _ inviteToken bobsPassword hused).1.2
    ⟨by decide, fun f => by rw [show bobForgot.script = [] by decide]; simp, by decide⟩⟩

end Insta.Web
