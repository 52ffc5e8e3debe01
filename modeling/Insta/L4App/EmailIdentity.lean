import Insta.L4App.UserWrites

/-!
# Emails as identities

A user's email is normalised in `before_validation` and checked to be
present and unused by a validation; no index stands behind it. The import of
a Stripe customer saves with `validate: false` and skips both, except in the
nested `update` of `create_stripe_customer`.

* `FreeEmail`: what a written row must bring with it; `RowWrite.freeEmail`:
  every write does, but for imports.
* `email_identity`: emails stay present, downcased and unique in every run in
  which an imported customer's email is so itself, or a new user made of the
  customer is valid.
* `import_duplicates_email`: the email of a customer is changed at Stripe to
  that of another user.

Assumed of `String#downcase`: applied twice it does what it does once.
-/
namespace Insta.Web

open Insta.Core Insta.Store Insta.Store.App Insta.Model Insta.Service

/-- Every email is there, in lower case, and no two users share one. -/
structure EmailIdentity (lib : Lib) (db : Db) : Prop where
  present : ∀ r ∈ db.users.rows, lib.present r.email = true
  downcased : ∀ r ∈ db.users.rows, r.email.map lib.downcase = r.email
  unique : ∀ a ∈ db.users.rows, ∀ b ∈ db.users.rows, a.email = b.email → a = b

/-- Emails that differ in letter case only are the same. -/
theorem EmailIdentity.unique_downcase {lib : Lib} {db : Db} (h : EmailIdentity lib db) {a b : UserRow}
    (ha : a ∈ db.users.rows) (hb : b ∈ db.users.rows) (he : a.email.map lib.downcase = b.email.map lib.downcase) :
    a = b :=
  h.unique a ha b hb ((h.downcased a ha).symm.trans (he.trans (h.downcased b hb)))

/-- An email that the user `u`, or a new one, may have. -/
structure FreeEmail (lib : Lib) (users : Table UserRow) (u : Option Nat) (email : Option String) : Prop where
  present : lib.present email = true
  downcased : email.map lib.downcase = email
  free : ∀ x ∈ users.rows, some x.id ≠ u → x.email ≠ email

/-- The email a customer event brings is free, or brings a valid new user. -/
def EmailGuard (lib : Lib) (w : World) : Label → Prop
  | .call call => ∀ e k, call.req = .webhooksStripe (some e) → EventType.imports e.type = true → Known w k →
    k.id = e.object.id → FreeEmail lib w.db.users ((userOf w k.id).map UserRow.id) k.email ∨
      (userOf w k.id = none ∧ importValid lib w.db.users k = true)
  | _ => True

section Written

variable {lib : Lib} (hdown : ∀ s, lib.downcase (lib.downcase s) = lib.downcase s)
include hdown

/-- What the callbacks and validations make of an email. -/
theorem freeEmail_of_valid {users : Table UserRow} {u : Option Nat} {m : UserRow} {a : PasswordAttrs}
    {email : Option String} (hm : m.email = normalizeEmail lib (deviseEmail lib email))
    (hv : validUser lib users u m a = true) : FreeEmail lib users u m.email := by
  unfold validUser at hv
  simp only [Bool.and_eq_true, Bool.not_eq_true'] at hv
  obtain ⟨⟨⟨⟨⟨⟨-, -⟩, hpresent⟩, hfree⟩, -⟩, -⟩, -⟩ := hv
  refine ⟨hpresent, ?_, fun x hx hne he => ?_⟩
  · rw [hm] at hpresent ⊢
    unfold normalizeEmail at hpresent ⊢
    split
    · rw [Option.map_map]
      congr 1
      exact funext hdown
    · rename_i habsent
      rw [if_neg habsent] at hpresent
      exact absurd hpresent habsent
  · have := List.any_eq_false.1 hfree x hx
    simp only [Bool.and_eq_true, bne_iff_ne, ne_eq, beq_iff_eq, not_and] at this
    exact this hne he

variable {w₀ w : World} {actor : Option Nat} {q : Request}

theorem RowWrite.freeEmail {y : UserRow} (h : RowWrite lib w₀ actor q w y)
    (hguard : EmailGuard lib w₀ (.call ⟨actor, q, []⟩)) (hI : EmailIdentity lib w.db) :
    FreeEmail lib w.db.users (some y.id) y.email := by
  -- a valid row is saved
  have hsaved : ∀ (r : UserRow) (p : UserPatch) {a : PasswordAttrs},
      validUser lib w.db.users (some r.id) (Model.updated lib w.db.users r p) a = true →
      FreeEmail lib w.db.users (some r.id) (written r (Model.updated lib w.db.users r p)).email := by
    intro r p a hv
    rw [written_email]
    exact freeEmail_of_valid hdown rfl hv
  -- an email that is free for a new row stays free for that row
  have hnew : ∀ {email : Option String} {i : Nat}, FreeEmail lib w.db.users none email →
      FreeEmail lib w.db.users (some i) email :=
    fun hf => ⟨hf.present, hf.downcased, fun x hx _ => hf.free x hx (by simp)⟩
  cases h with
  | @unlinked m a t c hn hw ht hv =>
    rw [hw] at hnew ⊢
    cases hn with
    | signedUp hp hm hvm => exact hnew (freeEmail_of_valid hdown (by rw [hm]; rfl) hvm)
    | added hp hm hvm => exact hnew (freeEmail_of_valid hdown (by rw [hm]; rfl) hvm)
    | @imported e k he hk hid hnone hm ha =>
      subst ha
      rcases hguard e k rfl he hk hid with hf | ⟨-, hvalid⟩
      · rw [hnone] at hf
        rw [show (insertedRow w m).email = k.email by rw [hm]; rfl]
        exact hnew hf
      · rw [← hw] at hm hvalid
        subst hm
        rw [← validUser_link lib c ht] at hvalid
        cases hv.symm.trans hvalid
  | @linked m a t c hn hw ht hc hv =>
    have hf := freeEmail_of_valid hdown rfl hv
    rw [written_email]
    refine ⟨hf.present, hf.downcased, fun x hx hne => hf.free x ((Table.mem_insert ht).2 (.inl hx)) hne⟩
  | @updated r p a hr hby hw hv => exact hsaved r p hv
  | @digested r digest hr =>
    rw [written_email]
    refine ⟨hI.present r hr, hI.downcased r hr, fun x hx hne he => hne ?_⟩
    rw [hI.unique x hx r hr he]
    rfl
  | overwritten hq he hk hid hr hw =>
    rcases hguard _ _ hq he hk hid with hf | ⟨hnone, -⟩
    · rw [hr] at hf
      rw [written_email, hw]
      exact hf
    · cases hnone.symm.trans hr
  | @issued r token a hr hv => exact hsaved r (issuePatch token w.now) hv

theorem Effect.emailIdentity {w' : World} (he : Effect lib w₀ actor q w w')
    (hguard : EmailGuard lib w₀ (.call ⟨actor, q, []⟩)) (hI : EmailIdentity lib w.db) :
    EmailIdentity lib w'.db := by
  rcases he.rows with hrows | ⟨y, hy, hrows⟩
  · exact ⟨fun r hr => hI.present r (hrows r hr), fun r hr => hI.downcased r (hrows r hr),
      fun a ha b hb => hI.unique a (hrows a ha) b (hrows b hb)⟩
  · have hf := hy.freeEmail hdown hguard hI
    refine ⟨fun r hr => ?_, fun r hr => ?_, hrows.unique (fun h => h.symm) hI.unique fun b hb hne => ?_⟩
    · rcases hrows r hr with rfl | ⟨hr, -⟩
      · exact hf.present
      · exact hI.present r hr
    · rcases hrows r hr with rfl | ⟨hr, -⟩
      · exact hf.downcased
      · exact hI.downcased r hr
    · exact hf.free b hb fun h => hne (Option.some.inj h)

end Written

theorem email_identity (lib : Lib) (hdown : ∀ s, lib.downcase (lib.downcase s) = lib.downcase s)
    (w₀ w : World) (ls : List Label) (h₀ : EmailIdentity lib w₀.db)
    (h : ((system lib).guard (EmailGuard lib)).Run w₀ ls w) : EmailIdentity lib w.db := by
  refine h.keeps (I := fun x => EmailIdentity lib x.db) (fun a l b hI hs => ?_) h₀
  obtain ⟨hs, hguard⟩ := hs
  refine step_keeps hs (fun c hc _ _ he hI => ?_) hI
  subst hc
  exact he.emailIdentity hdown (fun e k hq himp hk => hguard e k hq himp ⟨hk.found, hk.live⟩) hI

/-! ## A customer is given another email -/

theorem neighbours_emailIdentity : EmailIdentity plainLib neighbours.db where
  present := by decide
  downcased := by decide
  unique := by decide

/-- The account of `neighbours` after the first customer's email was changed
to `e`. -/
def accountWith (e : String) : Stripe where
  customers :=
    [{ id := "cus_1", name := some "alice", email := some e },
      { id := "cus_2", name := some "bob", email := some "bob@example.com" }]

def aliceUpdated : Call := ⟨none, .webhooksStripe (some ⟨.customerUpdated, { id := "cus_1" }⟩), []⟩

/-- The email is changed and the event delivered. -/
def emailChanged (e : String) : List Label := [.account (accountWith e), .call aliceUpdated]

def afterEmailChanged (e : String) : World := serve plainLib { neighbours with stripe := accountWith e } aliceUpdated

theorem import_new_email :
    EmailIdentity plainLib neighbours.db ∧
    ((system plainLib).guard (EmailGuard plainLib)).Run neighbours (emailChanged "alice@example.org")
      (afterEmailChanged "alice@example.org") ∧
    ((afterEmailChanged "alice@example.org").db.users.find 1).map UserRow.email =
      some (some "alice@example.org") ∧
    EmailIdentity plainLib (afterEmailChanged "alice@example.org").db := by
  have huser : (userOf { neighbours with stripe := accountWith "alice@example.org" } "cus_1").map UserRow.id =
      some 1 := by decide
  have hrun : ((system plainLib).guard (EmailGuard plainLib)).Run neighbours (emailChanged "alice@example.org")
      (afterEmailChanged "alice@example.org") := by
    refine .cons ⟨system_step.2 rfl, trivial⟩ (.cons ⟨system_step.2 rfl, fun e k hq _ hk hid => .inl ?_⟩ (.nil _))
    cases hq
    have hfound := hk.found
    rw [hid] at hfound
    cases hfound
    rw [show (userOf (next plainLib neighbours (.account (accountWith "alice@example.org"))) "cus_1").map
      UserRow.id = some 1 from huser]
    exact ⟨rfl, rfl, by decide⟩
  exact ⟨neighbours_emailIdentity, hrun, by decide,
    email_identity plainLib (fun _ => rfl) _ _ _ neighbours_emailIdentity hrun⟩

/-- Two users have one email. -/
theorem import_duplicates_email :
    EmailIdentity plainLib neighbours.db ∧
    (system plainLib).Run neighbours (emailChanged "bob@example.com") (afterEmailChanged "bob@example.com") ∧
    (afterEmailChanged "bob@example.com").db.users.rows.map (fun r => (r.id, r.email)) =
      [(1, some "bob@example.com"), (2, some "bob@example.com")] ∧
    ¬ EmailIdentity plainLib (afterEmailChanged "bob@example.com").db := by
  refine ⟨neighbours_emailIdentity, LTS.ofFn_run_iff.2 rfl, by decide, fun h => ?_⟩
  exact absurd h.unique (by decide)

end Insta.Web
