import Insta.L2Model.User

/-!
# Profiles, posts, tags, likes and products; what a destroy takes along

The other models of app/models, as far as the controllers write them, and
the cascades of `dependent: :destroy`. A cascade is a function on the
database; the models' callbacks run in declaration order.

`destroyUser_users`: of the users table a destroy of `r` removes the row of
`r` or, when it raises, nothing.
-/
namespace Insta.Model

open Insta.Core Insta.Store Insta.Store.App

/-! ## Posts -/

/-- `post_params`; an absent key is `none`.
mirrors app/controllers/posts_controller.rb:65-67 -/
structure PostParams where
  image : Option (Option String) := none
  title : Option (Option String) := none
  description : Option (Option String) := none
  tagIds : Option (List Nat) := none
  deriving DecidableEq, Repr

def slugsOf {R : Type} (slug : R → Option String) (rows : List R) : List String := rows.filterMap slug

/-- `user.posts.count`. -/
def postsCount (db : Db) (u : Nat) : Nat := db.posts.rows.countP fun p => p.userId == u

/-- mirrors app/models/post.rb:4,11-13 -/
def validPost (lib : Lib) (db : Db) (m : PostRow) : Bool :=
  (db.users.find m.userId).isSome && lib.present m.image && lib.present m.title &&
  lib.present m.description && slugAllowed m.slug

/-- `tag_ids=` looks every tag up. -/
def tagsExist (db : Db) (ids : List Nat) : Bool := ids.all fun t => (db.tags.find t).isSome

/-- The row `current_user.posts.new(post_params)` would insert. -/
def newPost (lib : Lib) (w : World) (u : Nat) (p : PostParams) : PostRow where
  id := w.db.posts.nextId
  image := p.image.getD none
  title := p.title.getD none
  description := p.description.getD none
  userId := u
  slug := setSlug lib (p.title.getD none).isSome (p.title.getD none) none
    (slugsOf PostRow.slug w.db.posts.rows)
  likesCount := 0
  createdAt := w.now

/-- `current_user.posts.new(post_params)` and `save!`.
mirrors app/controllers/posts_controller.rb:26-27 -/
def savePost (lib : Lib) (u : Nat) (p : PostParams) : App Unit := do
  let w ← Act.get
  if !tagsExist w.db (p.tagIds.getD []) then Act.raise .recordNotFound
  if !validPost lib w.db (newPost lib w u p) then Act.raise .recordInvalid
  match w.db.posts.insert (newPost lib w u p) with
  | none => Act.raise .recordNotUnique
  | some t => Act.modify fun w => { w with db := { w.db with
      posts := t
      postsTags := w.db.postsTags ++ (p.tagIds.getD []).map fun g => ⟨(newPost lib w u p).id, g⟩ } }

/-- The row after `post_params` are assigned to the record `r`. -/
def assignPost (lib : Lib) (posts : Table PostRow) (r : PostRow) (p : PostParams) : PostRow :=
  let title := p.title.getD r.title
  { r with
    image := p.image.getD r.image
    title := title
    description := p.description.getD r.description
    slug := setSlug lib (decide (title ≠ r.title)) title r.slug
      (slugsOf PostRow.slug (posts.rows.filter fun x => x.id != r.id)) }

/-- `@post.update(post_params)`; given `tag_ids` replace the post's tags.
mirrors app/controllers/posts_controller.rb:37 -/
def updatePost (lib : Lib) (r : PostRow) (p : PostParams) : App Bool := do
  let w ← Act.get
  if !tagsExist w.db (p.tagIds.getD []) then Act.raise .recordNotFound
  let m := assignPost lib w.db.posts r p
  if validPost lib w.db m then
    match w.db.posts.modify r.id fun c =>
        { c with image := m.image, title := m.title, description := m.description, slug := m.slug } with
    | none => Act.raise .recordNotUnique
    | some t => do
      Act.modify fun w => { w with db := { w.db with
        posts := t
        postsTags := match p.tagIds with
          | none => w.db.postsTags
          | some ids => w.db.postsTags.filter (fun g => g.postId != r.id) ++ ids.map fun g => ⟨r.id, g⟩ } }
      pure true
  else pure false

/-- Destroying a post: its join rows, its likes (which do not count down a
post that goes with them), its row.
mirrors app/models/post.rb:5-7 -/
def destroyPost (db : Db) (i : Nat) : Db :=
  { db with
    postsTags := db.postsTags.filter fun g => g.postId != i
    likes := db.likes.delete fun l => l.postId == i
    posts := db.posts.delete fun p => p.id == i }

/-! ## Likes -/

/-- Add `n` to the `likes_count` of post `i`. -/
def countLikes (posts : Table PostRow) (i : Nat) (n : Int) : Table PostRow :=
  (posts.modify i fun p => { p with likesCount := p.likesCount + n }).getD posts

/-- `@post.likes.create(user_id:)`: the user and the post exist and the
pair is new, else nothing happens.
mirrors app/models/like.rb:4-7, app/controllers/likes_controller.rb:6 -/
def createLike (db : Db) (post user : Nat) : Db :=
  if (db.users.find user).isSome && (db.posts.find post).isSome &&
      !(db.likes.rows.any fun l => l.userId == user && l.postId == post) then
    match db.likes.insert ⟨db.likes.nextId, user, post⟩ with
    | none => db
    | some t => { db with likes := t, posts := countLikes db.posts post 1 }
  else db

/-- What was checked when a like was stored. -/
theorem createLike_cases (db : Db) (post user : Nat) :
    createLike db post user = db ∨
    ∃ t, (db.users.find user).isSome = true ∧ (db.posts.find post).isSome = true ∧
      (∀ l ∈ db.likes.rows, l.userId = user → l.postId ≠ post) ∧
      db.likes.insert ⟨db.likes.nextId, user, post⟩ = some t ∧
      createLike db post user = { db with likes := t, posts := countLikes db.posts post 1 } := by
  unfold createLike
  split
  · rename_i hnew
    simp only [Bool.and_eq_true] at hnew
    split
    · exact .inl rfl
    · rename_i t ht
      exact .inr ⟨t, hnew.1.1, hnew.1.2, by simpa [not_and] using hnew.2, ht, rfl⟩
  · exact .inl rfl

/-- Destroying a like on its own counts its post down. -/
def destroyLike (db : Db) (l : LikeRow) : Db :=
  { db with
    likes := db.likes.delete fun x => x.id == l.id
    posts := countLikes db.posts l.postId (-1) }

/-! ## Tags -/

/-- mirrors app/models/tag.rb:6 -/
def validTag (lib : Lib) (db : Db) (self : Option Nat) (m : TagRow) : Bool :=
  lib.present m.name && !(db.tags.rows.any fun x => some x.id != self && x.name == m.name) &&
  m.name.all (fun n => n.toList.head? == some '#') && slugAllowed m.slug

/-- The record `old` (or a new one) with `tag_params` assigned. -/
def assignTag (lib : Lib) (db : Db) (old : Option TagRow) (name : Option (Option String)) : TagRow :=
  let n := name.getD (old.bind TagRow.name)
  { id := (old.map TagRow.id).getD db.tags.nextId
    name := n
    slug := setSlug lib (decide (n ≠ old.bind TagRow.name)) n (old.bind TagRow.slug)
      (slugsOf TagRow.slug (db.tags.rows.filter fun x => some x.id != old.map TagRow.id)) }

/-- `save` of a new or loaded tag.
mirrors app/controllers/tags_controller.rb:25-26,35-36 -/
def saveTag (lib : Lib) (old : Option TagRow) (name : Option (Option String)) : App Bool := do
  let w ← Act.get
  let m := assignTag lib w.db old name
  if validTag lib w.db (old.map TagRow.id) m then
    match (match old with
      | none => w.db.tags.insert m
      | some r => w.db.tags.modify r.id fun _ => m) with
    | none => Act.raise .recordNotUnique
    | some t => do
      Act.modify fun w => { w with db := { w.db with tags := t } }
      pure true
  else pure false

/-- mirrors app/controllers/tags_controller.rb:46 -/
def destroyTag (db : Db) (i : Nat) : Db :=
  { db with
    postsTags := db.postsTags.filter fun g => g.tagId != i
    tags := db.tags.delete fun t => t.id == i }

/-! ## Profiles -/

/-- `profile_params` without the avatar.
mirrors app/controllers/profiles_controller.rb:59-61 -/
structure ProfileParams where
  firstName : Option (Option String) := none
  lastName : Option (Option String) := none
  phone : Option (Option String) := none
  address : Option (Option String) := none
  deriving DecidableEq, Repr

/-- `@user.profile`. -/
def profileOf (db : Db) (u : Nat) : Option ProfileRow := db.profiles.first fun p => p.userId == u

/-- mirrors app/models/profile.rb:4,12-16 -/
def validProfile (lib : Lib) (db : Db) (self : Option Nat) (m : ProfileRow) : Bool :=
  (db.users.find m.userId).isSome && lib.present m.firstName && lib.present m.lastName &&
  lib.present m.phone && m.phone.all lib.numeric && lib.present m.address &&
  !(db.profiles.rows.any fun x => some x.id != self && x.userId == m.userId) && slugAllowed m.slug

/-- The record `old` (or a new one) of user `u` with the params assigned. -/
def assignProfile (lib : Lib) (db : Db) (u : Nat) (old : Option ProfileRow) (p : ProfileParams) :
    ProfileRow :=
  let first := p.firstName.getD (old.bind ProfileRow.firstName)
  { id := (old.map ProfileRow.id).getD db.profiles.nextId
    firstName := first
    lastName := p.lastName.getD (old.bind ProfileRow.lastName)
    phone := p.phone.getD (old.bind ProfileRow.phone)
    address := p.address.getD (old.bind ProfileRow.address)
    userId := (old.map ProfileRow.userId).getD u
    slug := setSlug lib (decide (first ≠ old.bind ProfileRow.firstName)) first
      (old.bind ProfileRow.slug)
      (slugsOf ProfileRow.slug (db.profiles.rows.filter fun x => some x.id != old.map ProfileRow.id)) }

/-- `save` of a new or loaded profile. -/
def saveProfile (lib : Lib) (u : Nat) (old : Option ProfileRow) (p : ProfileParams) : App Bool := do
  let w ← Act.get
  let m := assignProfile lib w.db u old p
  if validProfile lib w.db (old.map ProfileRow.id) m then
    match (match old with
      | none => w.db.profiles.insert m
      | some r => w.db.profiles.modify r.id fun _ => m) with
    | none => Act.raise .recordNotUnique
    | some t => do
      Act.modify fun w => { w with db := { w.db with profiles := t } }
      pure true
  else pure false

def destroyProfile (db : Db) (i : Nat) : Db :=
  { db with profiles := db.profiles.delete fun p => p.id == i }

/-! ## Products and users -/

/-- mirrors app/models/product.rb:5 -/
def destroyProduct (db : Db) (i : Nat) : Db :=
  { db with
    subscriptions := db.subscriptions.delete fun s => s.productId == i
    products := db.products.delete fun p => p.id == i }

/-- The `before_destroy` cascade of user `u`: subscriptions, the profile,
the posts with what hangs on them, then the likes that are left.
mirrors app/models/user.rb:10-14 -/
def destroyUserCascade (db : Db) (u : Nat) : Db :=
  let db := { db with subscriptions := db.subscriptions.delete fun s => s.userId == u }
  let db := match profileOf db u with
    | none => db
    | some p => destroyProfile db p.id
  let db := (db.posts.rows.filter fun p => p.userId == u).foldl (fun d p => destroyPost d p.id) db
  (db.likes.rows.filter fun l => l.userId == u).foldl destroyLike db

/-- A row still refers to user `u`: the foreign keys refuse the `DELETE`.
mirrors db/schema.rb:156-159 -/
def referred (db : Db) (u : Nat) : Bool :=
  db.subscriptions.rows.any (·.userId == u) || db.profiles.rows.any (·.userId == u) ||
  db.posts.rows.any (·.userId == u) || db.likes.rows.any (·.userId == u)

/-- `destroy` of a user, with `after_destroy`. -/
def destroyUser (lib : Lib) (r : UserRow) : App Unit :=
  Act.atomically do
    Act.modify fun w => { w with db := destroyUserCascade w.db r.id }
    let w ← Act.get
    if referred w.db r.id then Act.raise .invalidForeignKey
    Act.modify fun w => w.setUsers (w.db.users.delete fun x => x.id == r.id)
    deleteStripeCustomer lib r

theorem destroyPost_users (db : Db) (i : Nat) : (destroyPost db i).users = db.users := rfl

theorem destroyLike_users (db : Db) (l : LikeRow) : (destroyLike db l).users = db.users := rfl

theorem foldl_users {α : Type} (f : Db → α → Db) (hf : ∀ d x, (f d x).users = d.users) :
    ∀ (l : List α) (d : Db), (l.foldl f d).users = d.users
  | [], _ => rfl
  | x :: l, d => by rw [List.foldl_cons, foldl_users f hf l, hf]

theorem destroyUserCascade_users (db : Db) (u : Nat) : (destroyUserCascade db u).users = db.users := by
  unfold destroyUserCascade
  have hposts : ∀ (l : List PostRow) (d : Db),
      (l.foldl (fun d p => destroyPost d p.id) d).users = d.users :=
    foldl_users _ fun d p => destroyPost_users d p.id
  rw [foldl_users _ destroyLike_users, hposts]
  split <;> rfl

theorem deleteStripeCustomer_stripeOnly (lib : Lib) (r : UserRow) (w : World) :
    stripeOnly.Holds (deleteStripeCustomer lib r) w := by
  unfold deleteStripeCustomer
  exact .ite (fun _ => .rescue (customerDelete_stripeOnly _ w)) (fun _ => .pure _ w)

/-- A destroy that raises leaves the database alone. -/
theorem destroyUser_error {lib : Lib} {r : UserRow} {w w' : World} {e : Raise}
    (h : (destroyUser lib r).run w = (.error e, w')) : w'.db = w.db ∧ w'.resets = w.resets := by
  unfold destroyUser Act.atomically at h
  dsimp only at h
  split at h <;> cases h
  exact ⟨rfl, rfl⟩

/-- One that returns has run the cascade, after which nothing refers to the
user, and removed the row. -/
theorem destroyUser_ok {lib : Lib} {r : UserRow} {w w' : World} (h : (destroyUser lib r).run w = (.ok (), w')) :
    w'.resets = w.resets ∧ referred (destroyUserCascade w.db r.id) r.id = false ∧
      w'.db = { destroyUserCascade w.db r.id with users := w.db.users.delete fun x => x.id == r.id } := by
  unfold destroyUser at h
  rcases hx : (do
    Act.modify fun w => { w with db := destroyUserCascade w.db r.id }
    let w ← Act.get
    if referred w.db r.id then Act.raise .invalidForeignKey
    Act.modify fun w => w.setUsers (w.db.users.delete fun x => x.id == r.id)
    deleteStripeCustomer lib r : App Unit).run w with ⟨e | u, w''⟩
  · rw [Act.atomically_of_error hx] at h
    cases h
  · rw [Act.atomically_of_ok hx] at h
    cases h
    simp only [Act.run_modify_bind, Act.run_get_bind] at hx
    split at hx
    · cases hx
    · rename_i href
      rw [Act.run_modify_bind] at hx
      obtain ⟨st, sc, hs⟩ := deleteStripeCustomer_stripeOnly lib r
        (({ w with db := destroyUserCascade w.db r.id } : World).setUsers
          ((destroyUserCascade w.db r.id).users.delete fun x => x.id == r.id))
      rw [hx] at hs
      simp only at hs
      subst hs
      exact ⟨rfl, by simpa using href, by simp only [setUsers_db, destroyUserCascade_users]⟩

/-- With no fault scripted, all Stripe can say is that it has no such
customer, and that is rescued. -/
theorem deleteStripeCustomer_of_nil (lib : Lib) (r : UserRow) {w : World} (hs : w.script = []) :
    ∃ w', (deleteStripeCustomer lib r).run w = (.ok (), w') := by
  unfold deleteStripeCustomer
  split
  · have hcall : (∃ w', (customerDelete (r.stripeCustomerId.getD "")).run w = (.ok (), w')) ∨
        (customerDelete (r.stripeCustomerId.getD "")).run w = (.error (.fault .invalidRequest), w) := by
      unfold customerDelete
      rw [Act.bind_of_ok (external_of_nil hs), Act.run_get_bind]
      split
      · exact .inr rfl
      · exact .inl ⟨_, rfl⟩
    unfold Act.rescue
    dsimp only
    rcases hcall with ⟨w', hok⟩ | hno
    · rw [hok]
      exact ⟨w', rfl⟩
    · rw [hno]
      exact ⟨w, rfl⟩
  · exact ⟨w, rfl⟩

/-- With no fault scripted, only a foreign key can refuse the destroy. -/
theorem destroyUser_ok_iff {lib : Lib} {r : UserRow} {w : World} (hs : w.script = []) :
    ((destroyUser lib r).run w).1 = .ok () ↔ referred (destroyUserCascade w.db r.id) r.id = false := by
  constructor
  · intro h
    exact (destroyUser_ok (Prod.ext h rfl)).2.1
  · intro href
    have hrun : ∃ w', (do
        Act.modify fun w => { w with db := destroyUserCascade w.db r.id }
        let w ← Act.get
        if referred w.db r.id then Act.raise .invalidForeignKey
        Act.modify fun w => w.setUsers (w.db.users.delete fun x => x.id == r.id)
        deleteStripeCustomer lib r : App Unit).run w = (.ok (), w') := by
      simp only [Act.run_modify_bind, Act.run_get_bind, href]
      exact deleteStripeCustomer_of_nil lib r hs
    obtain ⟨w', hrun⟩ := hrun
    unfold destroyUser
    rw [Act.atomically_of_ok hrun]

theorem destroyUser_db (lib : Lib) (r : UserRow) (w : World) :
    ((destroyUser lib r).run w).2.resets = w.resets ∧
    (((destroyUser lib r).run w).2.db = w.db ∨ referred (destroyUserCascade w.db r.id) r.id = false ∧
      ((destroyUser lib r).run w).2.db =
        { destroyUserCascade w.db r.id with users := w.db.users.delete fun x => x.id == r.id }) := by
  rcases h : (destroyUser lib r).run w with ⟨e | u, w'⟩
  · exact ⟨(destroyUser_error h).2, .inl (destroyUser_error h).1⟩
  · exact ⟨(destroyUser_ok h).1, .inr (destroyUser_ok h).2⟩

end Insta.Model
