import Insta.L2Model.Cascade
import Insta.L4App.System

/-!
# Deleting an account

`users#destroy` destroys the profile of the user, in a transaction of its
own, and then the user; `customer.deleted` destroys the user. The destroy of
a user runs five `dependent: :destroy` associations, deletes the row and
then the Stripe customer, all in one transaction.

* `WithoutUser`: the database without a user and all that hangs on the user.
  `deletion_removes_closure`: that is what a deletion that succeeds leaves,
  from either path, in any state.
* `failed_deletion_iff`: a `users#destroy` that `Stripe::Customer.delete`
  makes fail leaves every table as it was exactly when the user has no
  profile.
-/
namespace Insta.Web

open Insta.Core Insta.Store Insta.Store.App Insta.Model Insta.Service

/-! ## What a deletion removes -/

/-- `db'` is `db` without user `v`: the user's row, profile, subscriptions and
posts are gone, with the likes and tags of these posts, and the user's own
likes, which the posts that stay are counted down for. -/
structure WithoutUser (db : Db) (v : Nat) (db' : Db) : Prop where
  users : db'.users = db.users.delete fun x => x.id == v
  profiles : db'.profiles = db.profiles.delete fun x => x.userId == v
  subscriptions : db'.subscriptions = db.subscriptions.delete fun x => x.userId == v
  posts : db'.posts.rows = (db.posts.rows.filter fun p => p.userId != v).map fun p =>
    { p with likesCount := p.likesCount -
      (db.likes.rows.countP fun l => l.userId == v && l.postId == p.id : Nat) }
  likes : db'.likes = db.likes.delete fun l => owns db v l.postId || l.userId == v
  postsTags : db'.postsTags = db.postsTags.filter fun g => !owns db v g.postId
  tags : db'.tags = db.tags
  products : db'.products = db.products

section Removed

variable {db db' : Db} {v : Nat}

/-- A cascade after which no profile refers to the user has removed the
user's only one. -/
theorem profiles_of_cascaded (h : Cascaded db v db') (href : referred db' v = false) :
    db'.profiles = db.profiles.delete fun x => x.userId == v := by
  have hnone : ∀ x ∈ db'.profiles.rows, x.userId ≠ v := by
    unfold referred at href
    simp only [Bool.or_eq_false_iff, List.any_eq_false, beq_iff_eq] at href
    exact href.1.1.2
  rcases h.profiles with ⟨heq, hno⟩ | ⟨p, hp, heq⟩
  · rw [heq, Table.delete_none fun x hx => Table.first_eq_none_iff.1 hno x hx]
  · obtain ⟨hpm, hpv⟩ := Table.mem_of_first hp
    rw [heq]
    refine Table.delete_congr fun x hx => ?_
    by_cases hid : x.id = p.id
    · rw [db.profiles.eq_of_rowId hx hpm hid, hpv, beq_self_eq_true]
    · have hstays : x ∈ db'.profiles.rows := by
        rw [heq]
        exact Table.mem_delete.2 ⟨hx, beq_eq_false_iff_ne.2 hid⟩
      rw [beq_eq_false_iff_ne.2 hid, beq_eq_false_iff_ne.2 (hnone x hstays)]

theorem withoutUser_of_cascaded (h : Cascaded db v db') (href : referred db' v = false) :
    WithoutUser db v { db' with users := db.users.delete fun x => x.id == v } :=
  ⟨rfl, (profiles_of_cascaded h href :), h.subscriptions, h.posts, h.likes, h.postsTags, h.tags, h.products⟩

/-- A profile that went before makes no difference. -/
theorem WithoutUser.of_dropProfile (h : WithoutUser (dropProfile db v) v db') : WithoutUser db v db' := by
  unfold dropProfile at h
  cases hp : profileOf db v with
  | none => rw [hp] at h; exact h
  | some p =>
    rw [hp] at h
    obtain ⟨hpm, hpv⟩ := Table.mem_of_first hp
    refine ⟨h.users, ?_, h.subscriptions, h.posts, h.likes, h.postsTags, h.tags, h.products⟩
    rw [h.profiles]
    show (db.profiles.delete _).delete _ = _
    rw [Table.delete_delete]
    refine Table.delete_congr fun x hx => ?_
    by_cases hid : x.id = p.id
    · rw [db.profiles.eq_of_rowId hx hpm hid, hpv, Bool.or_true]
    · rw [beq_eq_false_iff_ne.2 hid, Bool.false_or]

end Removed

theorem destroyUser_withoutUser {lib : Lib} {r : UserRow} {w w' : World}
    (h : (destroyUser lib r).run w = (.ok (), w')) : WithoutUser w.db r.id w'.db := by
  obtain ⟨-, href, hdb⟩ := destroyUser_ok h
  rw [hdb]
  exact withoutUser_of_cascaded (destroyUserCascade_spec w.db r.id) href

theorem destroyWithProfile_run (lib : Lib) (r : UserRow) (w : World) :
    (destroyWithProfile lib r).run w = (destroyUser lib r).run { w with db := dropProfile w.db r.id } :=
  Act.run_modify_bind _ _ w

/-! ## `users#destroy` -/

/-- The user `users#destroy` destroys: an admin's `params[:id]`, anyone else
themself. -/
def destroyTarget (w : World) (me : UserRow) (id : IdParam) : Option UserRow :=
  if me.role = .admin then friendlyFind UserRow.slug w.db.users id else some me

section Requests

variable {lib : Lib} {w w' : World} {actor : Option Nat} {id : IdParam} {me v : UserRow}

/-- `authorize! :destroy, User` raises nothing of Stripe's. -/
theorem allowed_destroy_user (db : Db) (me : UserRow) :
    allowed db (some me) .destroy (.class_ .user) = .ok true ∨
    allowed db (some me) .destroy (.class_ .user) = .error .noMethodError := by
  unfold allowed ability
  dsimp only
  by_cases hadmin : me.role = .admin
  · rw [if_pos hadmin]
    exact .inl rfl
  · rw [if_neg hadmin]
    cases hsub : subscriptionRules db me with
    | error e => exact .inr (by rw [subscriptionRules_error hsub])
    | ok rules =>
      obtain ⟨plan, count, rfl⟩ := subscriptionRules_ok hsub
      left
      cases plan with
      | unlimited => rfl
      | unknown => rfl
      | upTo n =>
        by_cases h : count < n
        · simp only [planRules, if_pos h]
          rfl
        · simp only [planRules, if_neg h]
          rfl

theorem usersDestroy_run (hme : currentUser w actor = some me)
    (hok : allowed w.db (some me) .destroy (.class_ .user) = .ok true) :
    (usersDestroy lib actor id).run w = (orNotFound (destroyTarget w me id) >>= destroyWithProfile lib).run w := by
  unfold usersDestroy destroyTarget
  rw [Act.bind_of_ok (authenticate_of_user hme), Act.bind_of_ok (authorize_ok_iff.2 hok)]
  by_cases hadmin : me.role = .admin
  · rw [if_pos hadmin, if_pos hadmin, Act.run_get_bind]
  · rw [if_neg hadmin, if_neg hadmin]
    rfl

/-- A request that got past the filters. -/
theorem usersDestroy_cases (lib : Lib) (w : World) (actor : Option Nat) (id : IdParam) :
    (∃ e, (usersDestroy lib actor id).run w = (.error e, w) ∧ ∀ f, e ≠ .fault f) ∨
    ∃ me v, currentUser w actor = some me ∧ destroyTarget w me id = some v ∧
      (usersDestroy lib actor id).run w = (destroyWithProfile lib v).run w := by
  cases hme : currentUser w actor with
  | none =>
    left
    have hauth : (authenticate actor).run w = (.error .unauthenticated, w) := by
      unfold authenticate
      rw [Act.run_get_bind, hme]
      rfl
    exact ⟨_, Act.bind_of_error hauth, by simp⟩
  | some me =>
    rcases allowed_destroy_user w.db me with hok | herr
    · rw [usersDestroy_run hme hok]
      cases hv : destroyTarget w me id with
      | none => exact .inl ⟨_, rfl, by simp⟩
      | some v => exact .inr ⟨me, v, rfl, hv, rfl⟩
    · left
      have hauth : (authorize (some me) .destroy (.class_ .user)).run w = (.error .noMethodError, w) := by
        unfold authorize
        rw [Act.run_get_bind, herr]
        rfl
      unfold usersDestroy
      rw [Act.bind_of_ok (authenticate_of_user hme), Act.bind_of_error hauth]
      exact ⟨_, rfl, by simp⟩

end Requests

theorem deletion_removes_closure (lib : Lib) (w w' : World) :
    (∀ actor id, (usersDestroy lib actor id).run w = (.ok (), w') →
      ∃ me v, currentUser w actor = some me ∧ destroyTarget w me id = some v ∧ WithoutUser w.db v.id w'.db) ∧
    ∀ o v, userOf w o.id = some v → (webhooksStripe lib (some ⟨.customerDeleted, o⟩)).run w = (.ok (), w') →
      WithoutUser w.db v.id w'.db := by
  constructor
  · intro actor id h
    rcases usersDestroy_cases lib w actor id with ⟨e, he, -⟩ | ⟨me, v, hme, hv, hrun⟩
    · cases he.symm.trans h
    · rw [hrun, destroyWithProfile_run] at h
      exact ⟨me, v, hme, hv, (destroyUser_withoutUser h).of_dropProfile⟩
  · intro o v hv h
    rw [webhooksStripe_of_customer lib (.inr (.inr rfl))] at h
    unfold handleCustomer at h
    rw [Act.run_get_bind, hv] at h
    exact destroyUser_withoutUser h

/-- Bob likes Alice's post. -/
def likedNeighbours : World := { neighbours with db := createLike neighbours.db 1 2 }

/-- `DELETE /users/bob`, sent by Bob. -/
def bobLeaves : App Unit := usersDestroy plainLib (some 2) ⟨"bob", none⟩

/-- Bob's customer is deleted at Stripe. -/
def bobDeleted : App Unit := webhooksStripe plainLib (some ⟨.customerDeleted, { id := "cus_2" }⟩)

theorem bob_removed :
    likedNeighbours.db.likes.rows = [⟨1, 2, 1⟩] ∧
    (bobLeaves.run likedNeighbours).1 = .ok () ∧ (bobDeleted.run likedNeighbours).1 = .ok () ∧
    WithoutUser likedNeighbours.db 2 (bobLeaves.run likedNeighbours).2.db ∧
    WithoutUser likedNeighbours.db 2 (bobDeleted.run likedNeighbours).2.db := by
  refine ⟨by decide, by decide, by decide, ?_, ?_⟩
  · obtain ⟨me, v, hme, hv, h⟩ := (deletion_removes_closure plainLib likedNeighbours _).1 (some 2) ⟨"bob", none⟩
      (Prod.ext (by decide) rfl)
    have hbob : currentUser likedNeighbours (some 2) = some bobRow := by decide
    cases hbob.symm.trans hme
    cases hv
    exact h
  · exact (deletion_removes_closure plainLib likedNeighbours _).2 { id := "cus_2" } bobRow (by decide)
      (Prod.ext (by decide) rfl)

theorem failed_deletion_iff (lib : Lib) (w w' : World) (actor : Option Nat) (id : IdParam) (me v : UserRow)
    (f : Fault) (hme : currentUser w actor = some me) (hv : destroyTarget w me id = some v)
    (h : (usersDestroy lib actor id).run w = (.error (.fault f), w')) :
    w'.db = w.db ↔ profileOf w.db v.id = none := by
  rcases usersDestroy_cases lib w actor id with ⟨e, he, hno⟩ | ⟨me', v', hme', hv', hrun⟩
  · cases he.symm.trans h
    exact absurd rfl (hno f)
  · cases hme.symm.trans hme'
    cases hv.symm.trans hv'
    rw [hrun, destroyWithProfile_run] at h
    have hdb : w'.db = dropProfile w.db v.id := (destroyUser_error h).1
    rw [hdb]
    unfold dropProfile
    cases hp : profileOf w.db v.id with
    | none => simp
    | some p =>
      simp only [reduceCtorEq, iff_false]
      intro heq
      have hgone : p ∉ (destroyProfile w.db p.id).profiles.rows := fun hm => by
        simpa using (Table.mem_delete.1 hm).2
      rw [heq] at hgone
      exact hgone (Table.mem_of_first hp).1

/-! ## Stripe refuses to delete Bob's customer -/

def bobProfile : ProfileRow where
  id := 1
  firstName := some "Bob"
  lastName := none
  phone := none
  address := none
  userId := 2
  slug := some "bob"

def bobsWorld (profiles : List ProfileRow) : World :=
  { neighbours with
    db := { neighbours.db with profiles := (profiles.foldlM Table.insert default).getD default }
    script := [some .other] }

theorem bob_without_profile :
    currentUser (bobsWorld []) (some 2) = some bobRow ∧
      destroyTarget (bobsWorld []) bobRow ⟨"bob", none⟩ = some bobRow ∧
    (bobLeaves.run (bobsWorld [])).1 = .error (.fault .other) ∧
    (bobLeaves.run (bobsWorld [])).2.db = (bobsWorld []).db :=
  ⟨by decide, rfl, by decide,
    (failed_deletion_iff plainLib (bobsWorld []) _ (some 2) ⟨"bob", none⟩ bobRow bobRow .other (by decide) rfl
      (Prod.ext (by decide) rfl)).2 (by decide)⟩

/-- The profile is gone, the account is not. -/
theorem bob_loses_profile :
    (bobsWorld [bobProfile]).db.profiles.rows = [bobProfile] ∧
    (bobLeaves.run (bobsWorld [bobProfile])).1 = .error (.fault .other) ∧
    (bobLeaves.run (bobsWorld [bobProfile])).2.db.profiles.rows = [] ∧
    (bobLeaves.run (bobsWorld [bobProfile])).2.db.users.rows = [aliceRow, bobRow] := by
  decide

end Insta.Web
