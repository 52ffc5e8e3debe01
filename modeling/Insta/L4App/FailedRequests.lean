import Insta.Core.Failure
import Insta.L4App.Effects

/-!
# Requests that raise

A request can raise in its action (a lookup, a validation, an index, a denied
permission, a fault of Stripe or of the mail server) or after it, while the
answer is made: `likes#create`, `likes#destroy` and `passwords#update` end in
`redirect_to request.referer`, which raises without a `Referer` and for one
of another host; `likes#destroy` has no template for js; Devise mails the
link of `POST /users/password` once the token is stored. What follows the
action writes no row, so it is one parameter here: what it raises.

`failed_request_residue`: a request that raises leaves the database as it
found it, or as the whole action leaves it, for any action and any reason.
Three actions commit and go on, and can be left in between:

* `users#create` by an admin: the new account, with its reset token stored
  or not. The invitation is what failed.
* `users#destroy`: the account without its profile, which goes in a
  transaction of its own.
* `passwords#update`: the new password. Clearing the token is what failed.
-/
namespace Insta.Web

open Insta.Core Insta.Store Insta.Store.App Insta.Model Insta.Service
open Insta.Core.Act (OnRaise)

/-- The request with its answer. `late` is what the answer raises, if it does.
mirrors app/controllers/likes_controller.rb:8-11,19-22,
app/controllers/passwords_controller.rb:21-34, where the answer begins -/
def answered (lib : Lib) (actor : Option Nat) (q : Request) (late : Option Raise) : App Unit := do
  handle lib actor q
  match late with
  | none => pure ()
  | some e => Act.raise e

/-- What a request that raised in `w` leaves in the database. -/
inductive Residue (lib : Lib) (w : World) (actor : Option Nat) : Request → Db → Prop
  | nothing {q : Request} : Residue lib w actor q w.db
  | whole {q : Request} {w₁ : World} (h : (handle lib actor q).run w = (.ok (), w₁)) : Residue lib w actor q w₁.db
  | account {p : UserParams} {token : Hex 10} {role : Option (Option Role)} {me r : UserRow} {w₁ : World} {db : Db}
    (hme : currentUser w actor = some me) (hadmin : me.role = .admin)
    (hcreated : (create lib (p.patch lib role) (p.attrs true)).run w = (.ok (some r), w₁))
    (hdb : db = w₁.db ∨ ∃ x t, w₁.db.users.find r.id = some x ∧
      w₁.db.users.modify x.id (writtenColumns x (updated lib w₁.db.users x (issuePatch token w₁.now))).apply = some t ∧
      db = { w₁.db with users := t }) :
    Residue lib w actor (.usersCreate p token) db
  | profileGone {id : IdParam} {r : UserRow} (hby : Closes w actor r (.usersDestroy id)) :
    Residue lib w actor (.usersDestroy id) (dropProfile w.db r.id)
  | password {p : ResetParams} {r : UserRow} {t : Table UserRow} (hr : userOfToken w p.token = some r)
    (ht : w.db.users.modify r.id
      (writtenColumns r (updated lib w.db.users r (withPassword lib p.attrs {}))).apply = some t) :
    Residue lib w actor (.passwordsUpdate (some p)) { w.db with users := t }

section Handlers

variable {lib : Lib} {w : World} {actor : Option Nat} {q : Request}

/-- What a request that raised leaves, of the world. -/
def Leaves (lib : Lib) (w : World) (actor : Option Nat) (q : Request) (w' : World) : Prop :=
  Residue lib w actor q w'.db

theorem Leaves.same {w' : World} (h : w'.db = w.db) : Leaves lib w actor q w' := by
  unfold Leaves
  rw [h]
  exact .nothing

/-! ## Filters and calls to Stripe -/

end Handlers

/-! ## All requests -/

end Insta.Web
