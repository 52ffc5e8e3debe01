import Insta.Core.Act
import Insta.Core.Table

/-!
# The local database

The tables of db/schema.rb as far as the application code reads or writes
them. Columns of the same name keep their nullability. Left out: the
timestamps that no query orders by, the Devise columns of modules the app
does not enable (`confirmation_token`, `unconfirmed_email`, ...),
`remember_created_at`, and the Active Storage tables (an attached image is
its file name).

`Row.clash` is the table's unique indexes: username, slug and reset token
of users, slug of posts and of profiles. No index covers an email, a Stripe
id of any table, or the pair of a like.
-/
namespace Insta.Store

open Insta.Core

/-- `SecureRandom.hex(n)` and hex digests: strings of `2 * n` characters. -/
def Hex (n : Nat) : Type := { s : String // s.length = 2 * n }

instance (n : Nat) : DecidableEq (Hex n) := inferInstanceAs (DecidableEq { s : String // s.length = 2 * n })

/-- `enum role: { user: 0, admin: 1 }`.
mirrors app/models/user.rb:8 -/
inductive Role
  | user | admin
  deriving DecidableEq, Repr

/-- Equal and not null: what a unique index over a nullable column forbids. -/
def sameKey (a b : Option String) : Bool := a.isSome && a == b

theorem sameKey_comm (a b : Option String) : sameKey a b = sameKey b a := by
  cases a <;> cases b <;> simp [sameKey, Bool.beq_comm]

theorem sameKey_iff {a b : Option String} : sameKey a b = true ↔ ∃ s, a = some s ∧ b = some s := by
  cases a with
  | none => simp [sameKey]
  | some x =>
    simp only [sameKey, Option.isSome_some, Bool.true_and, beq_iff_eq, Option.some.injEq]
    exact ⟨fun h => ⟨x, rfl, h.symm⟩, fun ⟨s, hx, hb⟩ => by rw [hb, hx]⟩

theorem sameKey_of_ne {a b : Option String} (h : a ≠ b) : sameKey a b = false := by
  cases a <;> cases b <;> simp_all [sameKey]

/-- mirrors db/schema.rb:131-151 -/
structure UserRow where
  id : Nat
  email : Option String
  encryptedPassword : String
  resetPasswordToken : Option String
  resetPasswordSentAt : Option Nat
  username : Option String
  role : Role
  slug : Option String
  stripeCustomerId : Option String
  createdAt : Nat
  deriving DecidableEq, Repr

instance : Row UserRow where
  rowId := UserRow.id
  withId n r := { r with id := n }
  clash a b := sameKey a.username b.username || sameKey a.slug b.slug ||
    sameKey a.resetPasswordToken b.resetPasswordToken
  rowId_withId _ _ := rfl
  withId_rowId _ := rfl
  clash_comm a b := by
    rw [sameKey_comm a.username, sameKey_comm a.slug, sameKey_comm a.resetPasswordToken]

/-- mirrors db/schema.rb:94-105 -/
structure ProfileRow where
  id : Nat
  firstName : Option String
  lastName : Option String
  phone : Option String
  address : Option String
  userId : Nat
  slug : Option String
  deriving DecidableEq, Repr

instance : Row ProfileRow where
  rowId := ProfileRow.id
  withId n r := { r with id := n }
  clash a b := sameKey a.slug b.slug
  rowId_withId _ _ := rfl
  withId_rowId _ := rfl
  clash_comm _ _ := sameKey_comm _ _

/-- mirrors db/schema.rb:62-73; `image` is the attached file. -/
structure PostRow where
  id : Nat
  image : Option String
  title : Option String
  description : Option String
  userId : Nat
  slug : Option String
  likesCount : Int
  createdAt : Nat
  deriving DecidableEq, Repr

instance : Row PostRow where
  rowId := PostRow.id
  withId n r := { r with id := n }
  clash a b := sameKey a.slug b.slug
  rowId_withId _ _ := rfl
  withId_rowId _ := rfl
  clash_comm _ _ := sameKey_comm _ _

/-- mirrors db/schema.rb:53-60 -/
structure LikeRow where
  id : Nat
  userId : Nat
  postId : Nat
  deriving DecidableEq, Repr

instance : Row LikeRow where
  rowId := LikeRow.id
  withId n r := { r with id := n }
  clash _ _ := false
  rowId_withId _ _ := rfl
  withId_rowId _ := rfl
  clash_comm _ _ := rfl

/-- mirrors db/schema.rb:124-129 -/
structure TagRow where
  id : Nat
  name : Option String
  slug : Option String
  deriving DecidableEq, Repr

instance : Row TagRow where
  rowId := TagRow.id
  withId n r := { r with id := n }
  clash _ _ := false
  rowId_withId _ _ := rfl
  withId_rowId _ := rfl
  clash_comm _ _ := rfl

/-- mirrors db/schema.rb:82-92; `image` is the attached file. -/
structure ProductRow where
  id : Nat
  stripeProductId : Option String
  name : Option String
  description : Option String
  price : Option Int
  currency : Option String
  active : Option Bool
  stripePriceId : Option String
  image : Option String
  deriving DecidableEq, Repr

instance : Row ProductRow where
  rowId := ProductRow.id
  withId n r := { r with id := n }
  clash _ _ := false
  rowId_withId _ _ := rfl
  withId_rowId _ := rfl
  clash_comm _ _ := rfl

/-- mirrors db/schema.rb:107-122 -/
structure SubscriptionRow where
  id : Nat
  userId : Nat
  stripeSubscriptionId : Option String
  productId : Nat
  stripeCustomerId : Option String
  status : Option String
  active : Option Bool
  productName : Option String
  stripeProductId : Option String
  stripePriceId : Option String
  username : Option String
  deriving DecidableEq, Repr

instance : Row SubscriptionRow where
  rowId := SubscriptionRow.id
  withId n r := { r with id := n }
  clash _ _ := false
  rowId_withId _ _ := rfl
  withId_rowId _ := rfl
  clash_comm _ _ := rfl

/-- A row of the join table.
mirrors db/schema.rb:75-80 -/
structure PostTag where
  postId : Nat
  tagId : Nat
  deriving DecidableEq, Repr

structure Db where
  users : Table UserRow := default
  profiles : Table ProfileRow := default
  posts : Table PostRow := default
  postsTags : List PostTag := []
  likes : Table LikeRow := default
  tags : Table TagRow := default
  products : Table ProductRow := default
  subscriptions : Table SubscriptionRow := default
  deriving DecidableEq

/-- No row of `t` conflicts with any row: what holds of a table without a
unique index. -/
theorem insert_of_no_index {R : Type} [Row R] (hc : ∀ a b : R, clash a b = false) (t : Table R)
    (r : R) : ∃ t', t.insert r = some t' := by
  unfold Table.insert; rw [dif_pos fun x _ => hc x _]; exact ⟨_, rfl⟩

end Insta.Store
