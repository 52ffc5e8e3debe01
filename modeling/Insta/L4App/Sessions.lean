import Insta.L4App.PostOwnership

/-!
# Sessions

So far a request came with the id of its user. Here it comes with a cookie:
Warden keeps in it the user's key and Devise's `authenticatable_salt`, the
part of the bcrypt digest that holds the salt, and the user is the one with
that key and that salt. The sessions are in the cookies alone, so a browser
can send any cookie it was ever given, also after it signed out; it cannot
make one, since they are encrypted. (The remember-me cookie carries the same
pair and is refused in more cases.)

* `respond`: the user whose session a response opens. Registrations and
  Devise's own password page sign in whom they saved; `respond_snd`: apart
  from that it is `handle`.
* `respond_proven`: such a user has a password that came with the request,
  or is the one who sent it and has the password they had.
* `accepted_knows_password`: in every run, whatever others do (edit the
  user, reset the password, import them again), a browser that is taken for
  a user has sent the password that the user has now.
* `post_texts_authentic`: so for every text of a post there is the visit that
  put it there, by a browser that had sent its author's password before.

Assumed of bcrypt: a password matches its digest, and no salt is drawn twice
for a user.
-/
namespace Insta.Web

open Insta.Core Insta.Store Insta.Store.App Insta.Model Insta.Service

/-! ## Cookies -/

structure Ticket where
  user : Nat
  salt : String
  deriving DecidableEq, Repr

/-- Devise's `authenticatable_salt`: version, cost and salt of the digest. -/
def authenticatableSalt (r : UserRow) : String := String.ofList (r.encryptedPassword.toList.take 29)

def serializeIntoSession (r : UserRow) : Ticket := ⟨r.id, authenticatableSalt r⟩

def serializeFromSession (db : Db) (t : Ticket) : Option UserRow :=
  (db.users.find t.user).filter fun r => authenticatableSalt r == t.salt

theorem serializeFromSession_eq_some_iff {db : Db} {t : Ticket} {r : UserRow} :
    serializeFromSession db t = some r ↔ r ∈ db.users.rows ∧ serializeIntoSession r = t := by
  obtain ⟨user, salt⟩ := t
  simp only [serializeFromSession, serializeIntoSession, Option.filter_eq_some_iff, Table.find_eq_some_iff,
    beq_iff_eq, Ticket.mk.injEq, and_assoc]
  rfl

/-! ## Whom a response signs in -/

/-- `POST /users/sign_in`: Devise looks for the normalised email and compares
the password; nothing is written. -/
def sessionsCreate (lib : Lib) (w : World) (actor : Option Nat) (email password : Option String) :
    Option UserRow :=
  match currentUser w actor, password with
  | none, some pw =>
    if lib.present email && !lib.blank pw then
      (findUserBy w fun r => r.email == deviseEmail lib email).filter fun r => lib.compare r.encryptedPassword pw
    else none
  | _, _ => none

/-- `registrations#create` signs in the user it saved. -/
def registrationsCreate (lib : Lib) (actor : Option Nat) (p : UserParams) : App (Option UserRow) := do
  let w ← Act.get
  match currentUser w actor with
  | some _ => pure none
  | none => do
    let role ← assignRole p.role
    create lib (p.patch lib role) (p.attrs false)

/-- An `update` after which the user is signed in. -/
def updateAndSignIn (lib : Lib) (r : UserRow) (p : UserPatch) (a : PasswordAttrs) : App (Option UserRow) := do
  let ok ← update lib r p a
  let r' ← reload r
  pure (if ok then some r' else none)

/-- `registrations#update`: `bypass_sign_in`, since a new password has a new
salt. -/
def registrationsUpdate (lib : Lib) (actor : Option Nat) (currentPassword : String) (p : UserParams) :
    App (Option UserRow) := do
  let me ← authenticate actor
  let role ← assignRole p.role
  if lib.compare me.encryptedPassword currentPassword then
    updateAndSignIn lib me ((dropBlankPassword lib p).patch lib role) ((dropBlankPassword lib p).attrs false)
  else pure none

/-- Devise's `passwords#update`: `sign_in_after_reset_password`. -/
def devisePasswordsUpdate (lib : Lib) (actor : Option Nat) (raw : Option String) (a : PasswordAttrs) :
    App (Option UserRow) := do
  let w ← Act.get
  match currentUser w actor, raw with
  | none, some t =>
    if lib.blank t then pure none
    else
      match findUserBy w fun r => r.resetPasswordToken == some (lib.tokenDigest t).1 with
      | none => pure none
      | some r =>
        if resetPasswordPeriodValid r w.now && lib.present a.password then
          updateAndSignIn lib r (withPassword lib a {}) { a with skipPasswordValidation := false }
        else pure none
  | _, _ => pure none

/-- A request, and the user its response signs in. -/
def respond (lib : Lib) (actor : Option Nat) : Request → App (Option UserRow)
  | .signUp p => registrationsCreate lib actor p
  | .accountUpdate pw p => registrationsUpdate lib actor pw p
  | .devisePasswordUpdate raw a => devisePasswordsUpdate lib actor raw a
  | q => do
    handle lib actor q
    pure none

theorem updateAndSignIn_snd (lib : Lib) (r : UserRow) (p : UserPatch) (a : PasswordAttrs) (w : World) :
    ((updateAndSignIn lib r p a).run w).2 = ((do let _ ← update lib r p a : App Unit).run w).2 := by
  unfold updateAndSignIn
  rcases h : (update lib r p a).run w with ⟨e | b, w'⟩
  · rw [Act.bind_of_error h, Act.bind_of_error h]
  · rw [Act.bind_of_ok h, Act.bind_of_ok h]
    rfl

theorem respond_snd (lib : Lib) (actor : Option Nat) (q : Request) (w : World) :
    ((respond lib actor q).run w).2 = ((handle lib actor q).run w).2 := by
  unfold respond
  split
  case h_1 p =>
    show ((registrationsCreate lib actor p).run w).2 = ((signUp lib actor p).run w).2
    unfold registrationsCreate signUp ifGuest
    rw [Act.run_get_bind, Act.run_get_bind]
    cases currentUser w actor with
    | some me => rfl
    | none =>
      rcases h : (assignRole p.role).run w with ⟨e | role, w'⟩
      · simp only [Act.bind_of_error h]
      · simp only [Act.bind_of_ok h]
        exact (Act.bind_pure_snd _ _ _).symm
  case h_2 pw p =>
    show ((registrationsUpdate lib actor pw p).run w).2 = ((accountUpdate lib actor pw p).run w).2
    unfold registrationsUpdate accountUpdate
    rcases hme : (authenticate actor).run w with ⟨e | me, w₁⟩
    · simp only [Act.bind_of_error hme]
    · simp only [Act.bind_of_ok hme]
      rcases h : (assignRole p.role).run w₁ with ⟨e | role, w₂⟩
      · simp only [Act.bind_of_error h]
      · simp only [Act.bind_of_ok h]
        split
        · exact updateAndSignIn_snd ..
        · rfl
  case h_3 raw a =>
    show ((devisePasswordsUpdate lib actor raw a).run w).2 = ((devisePasswordUpdate lib actor raw a).run w).2
    unfold devisePasswordsUpdate devisePasswordUpdate ifGuest
    rw [Act.run_get_bind, Act.run_get_bind]
    cases currentUser w actor with
    | some me => rfl
    | none =>
      cases raw with
      | none => rfl
      | some t =>
        simp only [Act.run_get_bind]
        split
        · rfl
        · cases findUserBy w fun r => r.resetPasswordToken == some (lib.tokenDigest t).1 with
          | none => rfl
          | some r =>
            dsimp only
            split
            · exact updateAndSignIn_snd ..
            · rfl
  case h_4 => exact Act.bind_pure_snd _ _ _

/-! ## The password of whom a response signs in -/

/-- The passwords a request sets. -/
def Request.passwords : Request → List String
  | .signUp p => p.password.toList
  | .accountUpdate _ p => p.password.toList
  | .devisePasswordUpdate _ a => a.password.toList
  | _ => []

/-- `password=` stores the digest of a present password. -/
theorem withPassword_digest (lib : Lib) (a : PasswordAttrs) (p : UserPatch) (hp : p.encryptedPassword = none)
    (r : UserRow) :
    (lib.present a.password = false ∧
      ((withPassword lib a p).apply r).encryptedPassword = r.encryptedPassword) ∨
    ∃ pw, a.password = some pw ∧
      ((withPassword lib a p).apply r).encryptedPassword = lib.digest pw a.salt := by
  unfold withPassword
  split
  · rename_i hnone
    exact .inl ⟨by rw [hnone]; rfl, by simp [UserPatch.apply, hp]⟩
  · rename_i pw hpw
    split
    · rename_i hblank
      exact .inl ⟨by simp [hpw, Lib.present, hblank], by simp [UserPatch.apply, hp]⟩
    · exact .inr ⟨pw, hpw, rfl⟩

theorem patch_digest (lib : Lib) (p : UserParams) (role : Option (Option Role)) (r : UserRow) :
    (lib.present p.password = false ∧ ((p.patch lib role).apply r).encryptedPassword = r.encryptedPassword) ∨
    ∃ pw, p.password = some pw ∧ ((p.patch lib role).apply r).encryptedPassword = lib.digest pw p.salt :=
  withPassword_digest lib (p.attrs false) _ rfl r

theorem present_of_validUser {lib : Lib} {users : Table UserRow} {m : UserRow} {p : UserParams}
    (h : validUser lib users none m (p.attrs false) = true) : lib.present p.password = true := by
  unfold validUser at h
  simp only [Bool.and_eq_true] at h
  have hpassword := h.2
  simp only [passwordValid, passwordRequired, UserParams.attrs, Bool.and_eq_true] at hpassword
  simpa using hpassword.1.1.1

theorem updateAndSignIn_ok {lib : Lib} {r₀ r : UserRow} {p : UserPatch} {a : PasswordAttrs} {w w' : World}
    (hr₀ : r₀ ∈ w.db.users.rows) (h : (updateAndSignIn lib r₀ p a).run w = (.ok (some r), w')) :
    r ∈ w'.db.users.rows ∧ r.id = r₀.id ∧ r.encryptedPassword = (p.apply r₀).encryptedPassword := by
  unfold updateAndSignIn at h
  obtain ⟨b, w₁, hup, h⟩ := Act.bind_ok h
  obtain ⟨x, w₂, hreload, h⟩ := Act.bind_ok h
  obtain ⟨rfl, rfl⟩ := reload_ok hreload
  cases b with
  | false => cases h
  | true =>
    cases h
    rcases update_cases lib r₀ p a w with ⟨-, hu⟩ | ⟨-, st, sc, ⟨e, hu⟩ | ⟨t, -, ht, hu⟩⟩ <;> rw [hu] at hup <;>
      cases hup
    have hfind := find_saved hr₀ ht
    simp only [setUsers_users, hfind, Option.getD_some]
    exact ⟨(Table.mem_of_find hfind).1, (Table.mem_of_find hfind).2, written_encryptedPassword ..⟩

/-- The row of a new user has the password of the record. -/
theorem create_ok_row {lib : Lib} {p : UserPatch} {a : PasswordAttrs} {w w' : World} {r : UserRow}
    (h : (create lib p a).run w = (.ok (some r), w')) :
    (∃ x ∈ w'.db.users.rows, x.id = r.id ∧ x.encryptedPassword = r.encryptedPassword) ∧
      r.encryptedPassword = (p.apply newUser).encryptedPassword ∧
      validUser lib w.db.users none (beforeValidation lib w.db.users none (p.apply newUser)) a = true := by
  rcases create_cases lib p a w with ⟨-, -, hnone⟩ | ⟨r', w₁, hrun, -, hv, hins⟩
  · exact absurd (congrArg Prod.fst h) (hnone r)
  · rw [hrun] at h
    cases h
    obtain ⟨hr, t, t', ht, hlink, hdb, -, -⟩ := insertUser_ok hins
    have hmem : r ∈ t.rows := by
      refine (Table.mem_insert ht).2 (.inr ?_)
      rw [hr]
      rfl
    refine ⟨?_, by rw [hr]; rfl, hv⟩
    rw [hdb]
    rcases hlink with rfl | ⟨c, ht'⟩
    · exact ⟨r, hmem, rfl, rfl⟩
    · exact ⟨_, (mem_saved hmem ht').2 (.inr rfl), rfl, written_encryptedPassword ..⟩

/-- The user is stored with a password out of `pws`, or sent the request and
keeps the password they had. -/
structure Proven (lib : Lib) (actor : Option Nat) (pws : List String) (w w' : World) (r : UserRow) : Prop where
  stored : ∃ x ∈ w'.db.users.rows, x.id = r.id ∧ x.encryptedPassword = r.encryptedPassword
  knows : (∃ pw ∈ pws, lib.compare r.encryptedPassword pw = true) ∨
    ∃ me, currentUser w actor = some me ∧ r.id = me.id ∧ r.encryptedPassword = me.encryptedPassword

section Proven

variable {lib : Lib} (hbcrypt : ∀ pw salt, lib.compare (lib.digest pw salt) pw = true)
include hbcrypt

variable {actor : Option Nat} {w w' : World} {r : UserRow}

theorem registrationsCreate_proven {p : UserParams}
    (h : (registrationsCreate lib actor p).run w = (.ok (some r), w')) :
    Proven lib actor p.password.toList w w' r := by
  unfold registrationsCreate at h
  rw [Act.run_get_bind] at h
  split at h
  · cases h
  · obtain ⟨role, w₁, hrole, hcreate⟩ := Act.bind_ok h
    rw [(assignRole_ok hrole).1] at hcreate
    obtain ⟨hrow, hdigest, hv⟩ := create_ok_row hcreate
    refine ⟨hrow, .inl ?_⟩
    rcases patch_digest lib p role newUser with ⟨habsent, -⟩ | ⟨pw, hpw, hset⟩
    · rw [present_of_validUser hv] at habsent
      cases habsent
    · exact ⟨pw, Option.mem_toList.2 hpw, by rw [hdigest, hset]; exact hbcrypt pw _⟩

theorem registrationsUpdate_proven {current : String} {p : UserParams}
    (h : (registrationsUpdate lib actor current p).run w = (.ok (some r), w')) :
    Proven lib actor p.password.toList w w' r := by
  unfold registrationsUpdate at h
  obtain ⟨me, w₁, hme, h₁⟩ := Act.bind_ok h
  obtain ⟨hw₁, hcurrent, hmem⟩ := authenticate_ok hme
  obtain ⟨role, w₂, hrole, h₂⟩ := Act.bind_ok h₁
  rw [(assignRole_ok hrole).1, hw₁] at h₂
  split at h₂
  · obtain ⟨hrow, hid, hdigest⟩ := updateAndSignIn_ok hmem h₂
    refine ⟨⟨r, hrow, rfl, rfl⟩, ?_⟩
    rcases patch_digest lib (dropBlankPassword lib p) role me with ⟨-, hkept⟩ | ⟨pw, hpw, hset⟩
    · exact .inr ⟨me, hcurrent, hid, hdigest.trans hkept⟩
    · refine .inl ⟨pw, Option.mem_toList.2 ?_, by rw [hdigest, hset]; exact hbcrypt pw _⟩
      unfold dropBlankPassword at hpw
      split at hpw
      · exact hpw
      · cases hpw
  · cases h₂

theorem devisePasswordsUpdate_proven {raw : Option String} {a : PasswordAttrs}
    (h : (devisePasswordsUpdate lib actor raw a).run w = (.ok (some r), w')) :
    Proven lib actor a.password.toList w w' r := by
  unfold devisePasswordsUpdate at h
  rw [Act.run_get_bind] at h
  split at h
  · split at h
    · cases h
    · split at h
      · cases h
      · rename_i x hx
        split at h
        · rename_i hcond
          obtain ⟨hrow, -, hdigest⟩ := updateAndSignIn_ok (Table.mem_of_newest hx).1 h
          refine ⟨⟨r, hrow, rfl, rfl⟩, .inl ?_⟩
          rcases withPassword_digest lib a {} rfl x with ⟨habsent, -⟩ | ⟨pw, hpw, hset⟩
          · rw [habsent, Bool.and_false] at hcond
            cases hcond
          · exact ⟨pw, Option.mem_toList.2 hpw, by rw [hdigest, hset]; exact hbcrypt pw _⟩
        · cases h
  · cases h

theorem respond_proven {q : Request} (h : (respond lib actor q).run w = (.ok (some r), w')) :
    Proven lib actor q.passwords w w' r := by
  unfold respond at h
  split at h
  case h_1 => exact registrationsCreate_proven hbcrypt h
  case h_2 => exact registrationsUpdate_proven hbcrypt h
  case h_3 => exact devisePasswordsUpdate_proven hbcrypt h
  case h_4 =>
    obtain ⟨_, _, -, hnone⟩ := Act.bind_ok h
    cases hnone

end Proven

/-! ## Browsers -/

/-- The application with the cookies each browser was given. -/
structure Front where
  world : World
  tickets : List (Nat × Ticket)

inductive Visit
  | signIn (browser : Nat) (cookie : Option Ticket) (email password : Option String)
  | visit (browser : Nat) (cookie : Option Ticket) (req : Request) (script : List (Option Fault))
  | tick (seconds : Nat)
  | account (s : Stripe)

def Visit.browser : Visit → Option Nat
  | .signIn b .. | .visit b .. => some b
  | _ => none

def Visit.passwords : Visit → List String
  | .signIn _ _ _ password => password.toList
  | .visit _ _ q _ => q.passwords
  | _ => []

/-- The user of a cookie. -/
def cookieActor (db : Db) (cookie : Option Ticket) : Option Nat :=
  (cookie.bind (serializeFromSession db)).map UserRow.id

/-- A browser sends no cookie, or one that it was given. -/
def Front.holds (s : Front) (b : Nat) (cookie : Option Ticket) : Bool := cookie.all fun t => s.tickets.contains (b, t)

def Front.give (s : Front) (b : Nat) : Option UserRow → List (Nat × Ticket)
  | none => s.tickets
  | some r => (b, serializeIntoSession r) :: s.tickets

def visitNext (lib : Lib) (s : Front) : Visit → Option Front
  | .signIn b cookie email password =>
    if s.holds b cookie then
      some ⟨s.world, s.give b (sessionsCreate lib s.world (cookieActor s.world.db cookie) email password)⟩
    else none
  | .visit b cookie q script =>
    if s.holds b cookie then
      let answer := (respond lib (cookieActor s.world.db cookie) q).run { s.world with script := script }
      some ⟨answer.2, s.give b (answer.1.toOption.bind id)⟩
    else none
  | .tick n => some { s with world := next lib s.world (.tick n) }
  | .account a => some { s with world := next lib s.world (.account a) }

def front (lib : Lib) : LTS Front Visit := LTS.ofFn (fun s => s.tickets = []) (visitNext lib)

/-- Equal salts of a user are those of one digest. -/
def SaltsApart (db db' : Db) : Prop :=
  ∀ x ∈ db.users.rows, ∀ y ∈ db'.users.rows, x.id = y.id → authenticatableSalt x = authenticatableSalt y →
    x.encryptedPassword = y.encryptedPassword

instance (db db' : Db) : Decidable (SaltsApart db db') :=
  decidable_of_iff ((db.users.rows.all fun x => db'.users.rows.all fun y => decide (x.id = y.id →
    authenticatableSalt x = authenticatableSalt y → x.encryptedPassword = y.encryptedPassword)) = true)
    (by simp only [SaltsApart, List.all_eq_true, decide_eq_true_eq])

/-- bcrypt draws no salt twice for a user. -/
def SaltsFresh (lib : Lib) (s₀ : Front) (vs : List Visit) : Prop :=
  ∀ x ∈ LTS.states (visitNext lib) s₀ vs, ∀ y ∈ LTS.states (visitNext lib) s₀ vs, SaltsApart x.world.db y.world.db

instance (lib : Lib) (s₀ : Front) (vs : List Visit) : Decidable (SaltsFresh lib s₀ vs) :=
  decidable_of_iff (((LTS.states (visitNext lib) s₀ vs).all fun x => (LTS.states (visitNext lib) s₀ vs).all fun y =>
    decide (SaltsApart x.world.db y.world.db)) = true)
    (by simp only [SaltsFresh, List.all_eq_true, decide_eq_true_eq])

/-! ## Who is taken for a user -/

theorem serializeIntoSession_congr {x y : UserRow} (hid : x.id = y.id)
    (hdigest : x.encryptedPassword = y.encryptedPassword) : serializeIntoSession x = serializeIntoSession y := by
  simp only [serializeIntoSession, authenticatableSalt, hid, hdigest]

theorem sessionsCreate_some {lib : Lib} {w : World} {actor : Option Nat} {email password : Option String}
    {r : UserRow} (h : sessionsCreate lib w actor email password = some r) :
    r ∈ w.db.users.rows ∧ ∃ pw, password = some pw ∧ lib.compare r.encryptedPassword pw = true := by
  unfold sessionsCreate at h
  split at h
  · rename_i pw _
    obtain ⟨-, h⟩ := Option.ite_none_right_eq_some.1 h
    obtain ⟨hfind, hcompare⟩ := Option.filter_eq_some_iff.1 h
    exact ⟨(Table.mem_of_newest hfind).1, pw, rfl, hcompare⟩
  · cases h

theorem ok_of_toOption {α : Type} {x : Except Raise (Option α) × World} {a : α}
    (h : x.1.toOption.bind id = some a) : x = (.ok (some a), x.2) := by
  obtain ⟨e | o, w⟩ := x
  · cases h
  · cases h
    rfl

theorem mem_give {s : Front} {b b' : Nat} {o : Option UserRow} {t : Ticket} (h : (b, t) ∈ s.give b' o)
    (hold : (b, t) ∉ s.tickets) : b' = b ∧ ∃ r, o = some r ∧ serializeIntoSession r = t := by
  cases o with
  | none => exact absurd h hold
  | some r =>
    rcases List.mem_cons.1 h with he | h
    · cases he
      exact ⟨rfl, r, rfl, rfl⟩
    · exact absurd h hold

/-- A cookie that is accepted for a user is the one the user would get. -/
theorem holds_ticket {s : Front} {b : Nat} {cookie : Option Ticket} {me : UserRow} (hh : s.holds b cookie = true)
    (hme : currentUser s.world (cookieActor s.world.db cookie) = some me) :
    (b, serializeIntoSession me) ∈ s.tickets := by
  cases cookie with
  | none => cases hme
  | some t =>
    cases hr : serializeFromSession s.world.db t with
    | none => simp [cookieActor, hr, currentUser] at hme
    | some r =>
      obtain ⟨hmem, rfl⟩ := serializeFromSession_eq_some_iff.1 hr
      have hfind : s.world.db.users.find r.id = some me := by simpa [cookieActor, hr, currentUser] using hme
      cases hfind.symm.trans (Table.find_of_mem hmem)
      simpa [Front.holds] using hh

/-- A step that gives a browser a cookie it did not have: the browser has just
sent the password of its user. -/
theorem given_knows {lib : Lib} (hbcrypt : ∀ pw salt, lib.compare (lib.digest pw salt) pw = true) {s s' : Front}
    {l : Visit} (hs : (front lib).step s l s') {b : Nat} {t : Ticket} (hold : (b, t) ∉ s.tickets)
    (hnew : (b, t) ∈ s'.tickets) : l.browser = some b ∧ ∃ x ∈ s'.world.db.users.rows,
      serializeIntoSession x = t ∧ ∃ pw ∈ l.passwords, lib.compare x.encryptedPassword pw = true := by
  change visitNext lib s l = some s' at hs
  cases l with
  | signIn b' cookie email password =>
    obtain ⟨-, hs⟩ := Option.ite_none_right_eq_some.1 hs
    cases hs
    obtain ⟨rfl, r, hr, rfl⟩ := mem_give hnew hold
    obtain ⟨hmem, pw, hpw, hcompare⟩ := sessionsCreate_some hr
    exact ⟨rfl, r, hmem, rfl, pw, Option.mem_toList.2 hpw, hcompare⟩
  | visit b' cookie q script =>
    obtain ⟨hh, hs⟩ := Option.ite_none_right_eq_some.1 hs
    cases hs
    obtain ⟨rfl, r, hr, rfl⟩ := mem_give hnew hold
    have hrun := ok_of_toOption hr
    obtain ⟨⟨x, hx, hid, hdigest⟩, hknows⟩ := respond_proven hbcrypt hrun
    rcases hknows with ⟨pw, hpw, hcompare⟩ | ⟨me, hme, hrid, hrdigest⟩
    · refine ⟨rfl, x, hx, ?_, pw, hpw, hdigest ▸ hcompare⟩
      rw [serializeIntoSession_congr hid hdigest]
    · -- the cookie would be the one the request was sent with
      rw [serializeIntoSession_congr hrid hrdigest] at hold
      exact absurd (holds_ticket hh hme) hold
  | tick n | account a =>
    cases hs
    exact absurd hnew hold

/-- Every cookie a browser holds was given to it for a password of its user. -/
theorem ticket_knows {lib : Lib} (hbcrypt : ∀ pw salt, lib.compare (lib.digest pw salt) pw = true) {s₀ s : Front}
    {vs : List Visit} (h₀ : s₀.tickets = []) (h : (front lib).Run s₀ vs s) {b : Nat} {t : Ticket}
    (ht : (b, t) ∈ s.tickets) : ∃ c ∈ LTS.states (visitNext lib) s₀ vs, ∃ x ∈ c.world.db.users.rows,
      serializeIntoSession x = t ∧ ∃ v ∈ vs, v.browser = some b ∧ ∃ pw ∈ v.passwords,
        lib.compare x.encryptedPassword pw = true := by
  obtain ⟨a, l, c, hof, ha, hc⟩ := h.exists_step (P := fun x => (b, t) ∈ x.tickets)
    (by rw [h₀]; exact List.not_mem_nil) ht
  obtain ⟨hbrowser, x, hx, hxt, pw, hpw, hcompare⟩ := given_knows hbcrypt hof.step ha hc
  obtain ⟨l₁, l₂, rfl, hr₁, hst, hr₂⟩ := hof
  have hc : c ∈ LTS.states (visitNext lib) s₀ ((l₁ ++ [l]) ++ l₂) :=
    LTS.mem_states_append (hr₁.append (.cons hst (.nil _))).mem_states l₂
  rw [List.append_assoc] at hc
  exact ⟨c, hc, x, hx, hxt, l, List.mem_append_right _ List.mem_cons_self, hbrowser, pw, hpw, hcompare⟩

theorem SaltsFresh.digest {lib : Lib} {s₀ : Front} {vs : List Visit} (h : SaltsFresh lib s₀ vs) {c s : Front}
    (hc : c ∈ LTS.states (visitNext lib) s₀ vs) (hs : s ∈ LTS.states (visitNext lib) s₀ vs) {x r : UserRow}
    (hx : x ∈ c.world.db.users.rows) (hr : r ∈ s.world.db.users.rows)
    (hsame : serializeIntoSession x = serializeIntoSession r) : x.encryptedPassword = r.encryptedPassword := by
  obtain ⟨hid, hsalt⟩ := Ticket.mk.inj hsame
  exact h c hc s hs x hx r hr hid hsalt

/-- A cookie is accepted only from a browser that has sent the user's current
password. -/
theorem accepted_knows_password (lib : Lib) (hbcrypt : ∀ pw salt, lib.compare (lib.digest pw salt) pw = true)
    (s₀ s : Front) (vs : List Visit) (h₀ : s₀.tickets = []) (h : (front lib).Run s₀ vs s)
    (hsalts : SaltsFresh lib s₀ vs) (b : Nat) (t : Ticket) (ht : (b, t) ∈ s.tickets) (r : UserRow)
    (hr : serializeFromSession s.world.db t = some r) :
    ∃ v ∈ vs, v.browser = some b ∧ ∃ pw ∈ v.passwords, lib.compare r.encryptedPassword pw = true := by
  obtain ⟨c, hc, x, hx, hxt, v, hv, hbrowser, pw, hpw, hcompare⟩ := ticket_knows hbcrypt h₀ h ht
  obtain ⟨hmem, hrt⟩ := serializeFromSession_eq_some_iff.1 hr
  rw [hsalts.digest hc h.mem_states hx hmem (hxt.trans hrt.symm)] at hcompare
  exact ⟨v, hv, hbrowser, pw, hpw, hcompare⟩

/-- Two browsers sign in as Alice, and the first changes the password. -/
def passwordChanged : List Visit :=
  [.signIn 1 none (some "alice@example.com") (some "secret"),
   .signIn 2 none (some "alice@example.com") (some "secret"),
   .visit 1 (some ⟨1, "secret"⟩) (.accountUpdate "secret"
     { password := some "changed!", passwordConfirmation := some "changed!" }) []]

theorem second_browser_refused : ∃ s r, (front plainLib).Run ⟨neighbours, []⟩ passwordChanged s ∧
    (2, ⟨1, "secret"⟩) ∈ s.tickets ∧ serializeFromSession s.world.db ⟨1, "secret"⟩ = none ∧
    (1, ⟨1, "changed!"⟩) ∈ s.tickets ∧ serializeFromSession s.world.db ⟨1, "changed!"⟩ = some r ∧
    ∃ v ∈ passwordChanged, v.browser = some 1 ∧
      ∃ pw ∈ v.passwords, plainLib.compare r.encryptedPassword pw = true := by
  have hrun : (front plainLib).Run ⟨neighbours, []⟩ passwordChanged _ :=
    .cons rfl (.cons rfl (.cons rfl (.nil _)))
  refine ⟨_, _, hrun, by decide, by decide, by decide, rfl, ?_⟩
  exact accepted_knows_password plainLib (fun pw _ => beq_self_eq_true pw) _ _ _ rfl hrun (by decide +kernel) 1
    ⟨1, "changed!"⟩ (by decide) _ rfl

/-! ## Who writes in whose name -/

/-- Every post stands as it did in `w₀`, or is the actor's. -/
def TextsKept (w₀ : World) (actor : Option Nat) (db : Db) : Prop :=
  ∀ x ∈ db.posts.rows, (∃ p ∈ w₀.db.posts.rows, SamePost p x) ∨
    ∃ me, currentUser w₀ actor = some me ∧ x.userId = me.id

theorem SamePost.trans {p x y : PostRow} (h : SamePost p x) (h' : SamePost x y) : SamePost p y :=
  ⟨h'.id.trans h.id, h'.title.trans h.title, h'.description.trans h.description, h'.image.trans h.image,
    h'.userId.trans h.userId⟩

section Texts

variable {w₀ w w' : World} {actor : Option Nat} {q : Request} {db db' : Db}

theorem TextsKept.refl (w₀ : World) (actor : Option Nat) : TextsKept w₀ actor w₀.db :=
  fun x hx => .inl ⟨x, hx, rfl, rfl, rfl, rfl, rfl⟩

theorem TextsKept.recounted (h : TextsKept w₀ actor db)
    (hrows : ∀ x ∈ db'.posts.rows, ∃ y ∈ db.posts.rows, SamePost y x) : TextsKept w₀ actor db' := by
  intro x hx
  obtain ⟨y, hy, hsame⟩ := hrows x hx
  rcases h y hy with ⟨p, hp, hpy⟩ | ⟨me, hme, hu⟩
  · exact .inl ⟨p, hp, hpy.trans hsame⟩
  · exact .inr ⟨me, hme, hsame.userId.trans hu⟩

theorem TextsKept.countLikes (h : TextsKept w₀ actor db) {i : Nat} {n : Int}
    (hdb : db'.posts = countLikes db.posts i n) : TextsKept w₀ actor db' := by
  refine h.recounted fun x hx => ?_
  rw [hdb, rows_countLikes] at hx
  obtain ⟨y, hy, rfl⟩ := List.mem_map.1 hx
  refine ⟨y, hy, ?_⟩
  split <;> exact ⟨rfl, rfl, rfl, rfl, rfl⟩

theorem TextsKept.content (h : TextsKept w₀ actor db) (hw : ContentWrite w₀ actor q db db') :
    TextsKept w₀ actor db' := by
  cases hw with
  | postAdded hdb hm hu hid huser htags ht =>
    intro x hx
    rcases (Table.mem_insert ht).1 hx with hx | rfl
    · exact h x hx
    · exact .inr ⟨_, hm, hu⟩
  | @postSaved me r m t tags hdb hm hr hown htags ht =>
    intro x hx
    rcases (Table.mem_modify ht).1 hx with ⟨hx, -⟩ | ⟨y, hy, hid, rfl⟩
    · exact h x hx
    · obtain rfl : y = r := db.posts.eq_of_rowId hy hr hid
      exact .inr ⟨me, hm, hown⟩
  | postDropped hdb hm hr hby =>
    exact h.recounted fun x hx => ⟨x, (Table.mem_delete.1 hx).1, rfl, rfl, rfl, rfl, rfl⟩
  | @liked me post user hm hq =>
    rcases createLike_cases db post user with he | ⟨t, -, -, -, -, he⟩ <;> rw [he]
    · exact h
    · exact h.countLikes rfl
  | unliked hm hl hq => exact h.countLikes rfl
  | _ => exact h

theorem TextsKept.effect {lib : Lib} (h : TextsKept w₀ actor w.db) (he : Effect lib w₀ actor q w w') :
    TextsKept w₀ actor w'.db := by
  rcases he.db_cases with ⟨t, hdb⟩ | ⟨r, -, -, -, hdb⟩ | hw
  · rw [hdb]
    exact h
  · rw [hdb]
    refine h.recounted fun x hx => ?_
    rw [(destroyUserCascade_spec w.db r.id).posts] at hx
    obtain ⟨y, hy, rfl⟩ := List.mem_map.1 hx
    exact ⟨y, (List.mem_filter.1 hy).1, rfl, rfl, rfl, rfl, rfl⟩
  · exact h.content hw

end Texts

/-- A visit leaves the posts as they are, but for those of the user whose
cookie it sends. -/
theorem front_texts {lib : Lib} {s s' : Front} {v : Visit} (hs : (front lib).step s v s') {y : PostRow}
    (hy : y ∈ s'.world.db.posts.rows) (hnew : ∀ p ∈ s.world.db.posts.rows, ¬ SamePost p y) :
    ∃ b me, v.browser = some b ∧ (b, serializeIntoSession me) ∈ s.tickets ∧ me ∈ s.world.db.users.rows ∧
      y.userId = me.id := by
  change visitNext lib s v = some s' at hs
  have hkept : ∀ p ∈ s.world.db.posts.rows, p ≠ y := fun p hp he => hnew p hp (he ▸ ⟨rfl, rfl, rfl, rfl, rfl⟩)
  cases v with
  | signIn b cookie email password =>
    obtain ⟨-, hs⟩ := Option.ite_none_right_eq_some.1 hs
    cases hs
    exact absurd rfl (hkept y hy)
  | visit b cookie q script =>
    obtain ⟨hh, hs⟩ := Option.ite_none_right_eq_some.1 hs
    cases hs
    dsimp only at hy
    rw [respond_snd] at hy
    have htexts : TextsKept { s.world with script := script } (cookieActor s.world.db cookie)
        (serve lib s.world ⟨cookieActor s.world.db cookie, q, script⟩).db :=
      serve_keeps (I := fun x => TextsKept { s.world with script := script } (cookieActor s.world.db cookie) x.db)
        (fun _ _ he h => h.effect he) (.refl _ _)
    rcases htexts y hy with ⟨p, hp, hsame⟩ | ⟨me, hme, hu⟩
    · exact absurd hsame (hnew p hp)
    · refine ⟨b, me, rfl, holds_ticket hh hme, ?_, hu⟩
      obtain ⟨i, -, hfind⟩ := Option.bind_eq_some_iff.1 hme
      exact (Table.mem_of_find hfind).1
  | tick n | account a =>
    cases hs
    exact absurd rfl (hkept y hy)

/-- A post that stands as it did not at the start got its text in a visit of a
browser that had sent the password its author then had. -/
theorem post_texts_authentic (lib : Lib) (hbcrypt : ∀ pw salt, lib.compare (lib.digest pw salt) pw = true)
    (s₀ s : Front) (vs : List Visit) (h₀ : s₀.tickets = []) (h : (front lib).Run s₀ vs s)
    (hsalts : SaltsFresh lib s₀ vs) (x : PostRow) (hx : x ∈ s.world.db.posts.rows)
    (hnew : ∀ p ∈ s₀.world.db.posts.rows, ¬ SamePost p x) :
    ∃ us v ws a c author b, vs = us ++ v :: ws ∧ (front lib).Run s₀ us a ∧ (front lib).step a v c ∧
      (front lib).Run c ws s ∧ (∀ p ∈ a.world.db.posts.rows, ¬ SamePost p x) ∧
      (∃ y ∈ c.world.db.posts.rows, SamePost y x) ∧ v.browser = some b ∧
      author ∈ a.world.db.users.rows ∧ author.id = x.userId ∧
      ∃ u ∈ us, u.browser = some b ∧ ∃ pw ∈ u.passwords, lib.compare author.encryptedPassword pw = true := by
  obtain ⟨a, v, c, ⟨us, ws, rfl, hr₁, hst, hr₂⟩, ha, y, hy, hyx⟩ :=
    h.exists_step (P := fun s => ∃ y ∈ s.world.db.posts.rows, SamePost y x)
      (fun ⟨p, hp, hsame⟩ => hnew p hp hsame) ⟨x, hx, rfl, rfl, rfl, rfl, rfl⟩
  obtain ⟨b, me, hbrowser, hticket, hme, hu⟩ := front_texts hst hy fun p hp hsame => ha ⟨p, hp, hsame.trans hyx⟩
  obtain ⟨c', hc', z, hz, hzt, u, hmem, hub, pw, hpw, hcompare⟩ := ticket_knows hbcrypt h₀ hr₁ hticket
  rw [hsalts.digest (LTS.mem_states_append hc' _) (LTS.mem_states_append hr₁.mem_states _) hz hme hzt] at hcompare
  exact ⟨us, v, ws, a, c, me, b, rfl, hr₁, hst, hr₂, fun p hp hsame => ha ⟨p, hp, hsame⟩, ⟨y, hy, hyx⟩, hbrowser, hme,
    hu.symm.trans hyx.userId.symm, u, hmem, hub, pw, hpw, hcompare⟩

/-- The first browser goes on to rename Alice's post. -/
def renamedLater : List Visit :=
  passwordChanged ++
    [.visit 1 (some ⟨1, "changed!"⟩) (.postsUpdate ⟨"first", none⟩ { title := some (some "renamed") }) []]

theorem renamed_by_owner : ∃ s x, (front plainLib).Run ⟨neighbours, []⟩ renamedLater s ∧
    x ∈ s.world.db.posts.rows ∧ x.title = some "renamed" ∧ ∃ us v ws a c author b, renamedLater = us ++ v :: ws ∧
      (front plainLib).Run ⟨neighbours, []⟩ us a ∧ (front plainLib).step a v c ∧ (front plainLib).Run c ws s ∧
      (∀ p ∈ a.world.db.posts.rows, ¬ SamePost p x) ∧ (∃ y ∈ c.world.db.posts.rows, SamePost y x) ∧
      v.browser = some b ∧ author ∈ a.world.db.users.rows ∧ author.id = x.userId ∧
      ∃ u ∈ us, u.browser = some b ∧ ∃ pw ∈ u.passwords, plainLib.compare author.encryptedPassword pw = true := by
  obtain ⟨s, hrun, hany⟩ : ∃ s, (front plainLib).Run ⟨neighbours, []⟩ renamedLater s ∧
      (s.world.db.posts.rows.any fun x => x.title == some "renamed") = true :=
    ⟨_, .cons rfl (.cons rfl (.cons rfl (.cons rfl (.nil _)))), by decide +kernel⟩
  obtain ⟨x, hx, htitle⟩ := List.any_eq_true.1 hany
  refine ⟨s, x, hrun, hx, eq_of_beq htitle, ?_⟩
  refine post_texts_authentic plainLib (fun pw _ => beq_self_eq_true pw) _ _ _ rfl hrun (by decide +kernel) x hx ?_
  intro p hp hsame
  rw [List.mem_singleton.1 hp] at hsame
  exact absurd (hsame.title.symm.trans (eq_of_beq htitle)) (by decide)

end Insta.Web
