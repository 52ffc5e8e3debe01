import Insta.L4App.Effects

/-!
# Who can change whose posts

`posts_controller.rb` loads the post before `authorize_user`, so `Ability` is
asked about the record, and its rules for a record let the owner pass and, for
`destroy`, an admin.

`post_ownership`: whatever request a signed-in user makes, a post that is
created or changed belongs to that user, and a post that is deleted does, or
the user is an admin who destroyed the post or its owner. A payload that
carries Stripe's signature is Stripe's request, not that of a session.
-/
namespace Insta.Web

open Insta.Core Insta.Store Insta.Model Insta.Service

/-- A webhook whose signature was verified. -/
def Request.signedByStripe : Request → Bool
  | .webhooksStripe (some _) => true
  | _ => false

/-- The columns a user writes, and whose post it is. -/
structure SamePost (p x : PostRow) : Prop where
  id : x.id = p.id
  title : x.title = p.title
  description : x.description = p.description
  image : x.image = p.image
  userId : x.userId = p.userId

/-- The user `me` may delete the post `p` by this request. -/
def MayDelete (w : World) (q : Request) (me : UserRow) (p : PostRow) : Prop :=
  p.userId = me.id ∨ me.role = .admin ∧
    ((∃ id, q = .postsDestroy id ∧ friendlyFind PostRow.slug w.db.posts id = some p) ∨
      ∃ id r, q = .usersDestroy id ∧ friendlyFind UserRow.slug w.db.users id = some r ∧ r.id = p.userId)

/-- What a request of `me` may have made of the posts of `w₀`. -/
structure PostsKept (w₀ : World) (q : Request) (me : UserRow) (db : Db) : Prop where
  rows : ∀ x ∈ db.posts.rows, (∃ p ∈ w₀.db.posts.rows, SamePost p x) ∨
    x.userId = me.id ∧ ∀ p ∈ w₀.db.posts.rows, p.id = x.id → p.userId = me.id
  deleted : ∀ p ∈ w₀.db.posts.rows, db.posts.Has p.id ∨ MayDelete w₀ q me p

theorem PostsKept.refl (w₀ : World) (q : Request) (me : UserRow) : PostsKept w₀ q me w₀.db :=
  ⟨fun x hx => .inl ⟨x, hx, rfl, rfl, rfl, rfl, rfl⟩, fun _ hp => .inl (.of_mem hp)⟩

section Kept

variable {w₀ : World} {q : Request} {me : UserRow} {db db' : Db}

/-- Posts that differ in the counter at most. -/
theorem PostsKept.recounted (h : PostsKept w₀ q me db)
    (hrows : ∀ x ∈ db'.posts.rows, ∃ y ∈ db.posts.rows, SamePost y x)
    (hhas : ∀ i, db.posts.Has i → db'.posts.Has i) : PostsKept w₀ q me db' := by
  refine ⟨fun x hx => ?_, fun p hp => (h.deleted p hp).imp_left (hhas p.id)⟩
  obtain ⟨y, hy, hsame⟩ := hrows x hx
  rcases h.rows y hy with ⟨p, hp, hpy⟩ | ⟨hu, hall⟩
  · exact .inl ⟨p, hp, hsame.id.trans hpy.id, hsame.title.trans hpy.title,
      hsame.description.trans hpy.description, hsame.image.trans hpy.image, hsame.userId.trans hpy.userId⟩
  · exact .inr ⟨hsame.userId.trans hu, fun p hp hid => hall p hp (hid.trans hsame.id)⟩

theorem PostsKept.same (h : PostsKept w₀ q me db) (hdb : db'.posts = db.posts) : PostsKept w₀ q me db' :=
  h.recounted (fun x hx => ⟨x, hdb ▸ hx, rfl, rfl, rfl, rfl, rfl⟩) fun _ hi => hdb ▸ hi

theorem PostsKept.countLikes (h : PostsKept w₀ q me db) {i : Nat} {n : Int}
    (hdb : db'.posts = countLikes db.posts i n) : PostsKept w₀ q me db' := by
  refine h.recounted (fun x hx => ?_) fun j hj => ?_
  · rw [hdb, rows_countLikes] at hx
    obtain ⟨y, hy, rfl⟩ := List.mem_map.1 hx
    refine ⟨y, hy, ?_⟩
    split <;> exact ⟨rfl, rfl, rfl, rfl, rfl⟩
  · rw [hdb]
    exact has_countLikes hj

/-- A post of `db` that was deleted may be deleted, if its owner is one the
request may take posts from. -/
theorem PostsKept.mayDelete (h : PostsKept w₀ q me db) {p y : PostRow} (hp : p ∈ w₀.db.posts.rows)
    (hy : y ∈ db.posts.rows) (hid : y.id = p.id)
    (howner : y.userId = p.userId → MayDelete w₀ q me p) : MayDelete w₀ q me p := by
  rcases h.rows y hy with ⟨x, hx, hsame⟩ | ⟨-, hall⟩
  · have hxp : x = p := w₀.db.posts.eq_of_rowId hx hp (hsame.id.symm.trans hid)
    subst hxp
    exact howner hsame.userId
  · exact .inl (hall p hp hid.symm)

theorem PostsKept.closed {r : UserRow} {actor : Option Nat} (h : PostsKept w₀ q me db)
    (hc : Cascaded db r.id db') (hby : Closes w₀ actor r q) (hme : currentUser w₀ actor = some me)
    (hq : q.signedByStripe = false) : PostsKept w₀ q me db' := by
  have htake : ∀ p : PostRow, r.id = p.userId → MayDelete w₀ q me p := by
    intro p hp
    cases hby with
    | account hr => cases hme.symm.trans hr; exact .inl hp.symm
    | own hr => cases hme.symm.trans hr; exact .inl hp.symm
    | byAdmin hm hadmin hr => cases hme.symm.trans hm; exact .inr ⟨hadmin, .inr ⟨_, r, rfl, hr, hp⟩⟩
    | reported he hr => cases hq
  have hrow : ∀ y ∈ db.posts.rows, y.userId ≠ r.id → db'.posts.Has y.id := by
    intro y hy hne
    unfold Table.Has
    rw [hc.posts]
    exact ⟨_, List.mem_map.2 ⟨y, List.mem_filter.2 ⟨hy, by simpa using hne⟩, rfl⟩, rfl⟩
  refine ⟨fun x hx => ?_, fun p hp => ?_⟩
  · rw [hc.posts] at hx
    obtain ⟨y, hy, rfl⟩ := List.mem_map.1 hx
    rcases h.rows y (List.mem_filter.1 hy).1 with ⟨p, hp, hpy⟩ | hnew
    · exact .inl ⟨p, hp, hpy.id, hpy.title, hpy.description, hpy.image, hpy.userId⟩
    · exact .inr hnew
  · rcases h.deleted p hp with ⟨y, hy, hid⟩ | hd
    · by_cases hown : y.userId = r.id
      · exact .inr (h.mayDelete hp hy hid fun hu => htake p (hown.symm.trans hu))
      · exact .inl (by rw [← show y.id = p.id from hid]; exact hrow y hy hown)
    · exact .inr hd

theorem PostsKept.content {actor : Option Nat} (h : PostsKept w₀ q me db)
    (hme : currentUser w₀ actor = some me) (hw : ContentWrite w₀ actor q db db') : PostsKept w₀ q me db' := by
  cases hw with
  | postAdded hdb hm hu hid huser htags ht =>
    cases hme.symm.trans hm
    subst hdb
    refine ⟨fun x hx => ?_, fun p hp => .inl ((Table.Has.of_mem hp).insert ht)⟩
    rcases (Table.mem_insert ht).1 hx with hx | rfl
    · exact .inl ⟨x, hx, rfl, rfl, rfl, rfl, rfl⟩
    · refine .inr ⟨hu, fun p hp hpid => ?_⟩
      exact absurd hpid (Nat.ne_of_lt (w₀.db.posts.below p hp))
  | @postSaved me' r m t tags hdb hm hr hown htags ht =>
    cases hme.symm.trans hm
    subst hdb
    refine ⟨fun x hx => ?_, fun p hp => .inl ((Table.Has.of_mem hp).modify ht)⟩
    rcases (Table.mem_modify ht).1 hx with ⟨hx, -⟩ | ⟨y, hy, hid, rfl⟩
    · exact .inl ⟨x, hx, rfl, rfl, rfl, rfl, rfl⟩
    · have hyr : y = r := w₀.db.posts.eq_of_rowId hy hr hid
      subst hyr
      refine .inr ⟨hown, fun p hp hpid => ?_⟩
      rw [w₀.db.posts.eq_of_rowId hp hy hpid]
      exact hown
  | @postDropped me' r hdb hm hr hby =>
    cases hme.symm.trans hm
    subst hdb
    obtain ⟨id, rfl, hfind⟩ := hr
    refine ⟨fun x hx => .inl ⟨x, (Table.mem_delete.1 hx).1, rfl, rfl, rfl, rfl, rfl⟩, fun p hp => ?_⟩
    by_cases hid : p.id = r.id
    · have hpr : p = r := w₀.db.posts.eq_of_rowId hp (mem_of_friendlyFind hfind) hid
      subst hpr
      exact .inr (hby.imp_right fun hadmin => ⟨hadmin, .inl ⟨id, rfl, hfind⟩⟩)
    · exact .inl ((Table.Has.of_mem hp).delete fun y _ hy => by
        rw [show y.id = p.id from hy]
        simpa using hid)
  | @liked me post user hm hq =>
    rcases createLike_cases db post user with he | ⟨t, -, -, -, -, he⟩ <;> rw [he]
    · exact h
    · exact h.countLikes rfl
  | unliked hm hl hq => exact h.countLikes rfl
  | _ => exact h.same rfl

theorem PostsKept.effect {lib : Lib} {actor : Option Nat} {w w' : World} (h : PostsKept w₀ q me w.db)
    (hme : currentUser w₀ actor = some me) (hq : q.signedByStripe = false)
    (he : Effect lib w₀ actor q w w') : PostsKept w₀ q me w'.db := by
  rcases he.db_cases with ⟨t, hdb⟩ | ⟨r, hby, -, -, hdb⟩ | hw
  · exact h.same (by rw [hdb])
  · exact (h.closed (destroyUserCascade_spec ..) hby hme hq).same (by rw [hdb])
  · exact h.content hme hw

end Kept

/-- Posts are created and changed by their owners, and deleted by these and by
admins. -/
theorem post_ownership (lib : Lib) (w : World) (c : Call) (me : UserRow)
    (hme : currentUser w c.actor = some me) (hq : c.req.signedByStripe = false) :
    (∀ x ∈ (serve lib w c).db.posts.rows, (∀ p ∈ w.db.posts.rows, p.id ≠ x.id) → x.userId = me.id) ∧
    (∀ p ∈ w.db.posts.rows, ∀ x ∈ (serve lib w c).db.posts.rows, x.id = p.id →
      (x.title ≠ p.title ∨ x.description ≠ p.description ∨ x.image ≠ p.image ∨ x.userId ≠ p.userId) →
      p.userId = me.id ∧ x.userId = me.id) ∧
    ∀ p ∈ w.db.posts.rows, (∀ x ∈ (serve lib w c).db.posts.rows, x.id ≠ p.id) → MayDelete w c.req me p := by
  have hkept : PostsKept { w with script := c.script } c.req me (serve lib w c).db :=
    serve_keeps (I := fun x => PostsKept { w with script := c.script } c.req me x.db)
      (fun _ _ he h => h.effect hme hq he) (.refl _ _ _)
  refine ⟨fun x hx hnew => ?_, fun p hp x hx hid hdiff => ?_, fun p hp hgone => ?_⟩
  · rcases hkept.rows x hx with ⟨p, hp, hsame⟩ | ⟨hu, -⟩
    · exact absurd hsame.id.symm (hnew p hp)
    · exact hu
  · rcases hkept.rows x hx with ⟨y, hy, hsame⟩ | ⟨hu, hall⟩
    · have hyp : y = p := w.db.posts.eq_of_rowId hy hp (hsame.id.symm.trans hid)
      subst hyp
      rcases hdiff with h | h | h | h
      · exact absurd hsame.title h
      · exact absurd hsame.description h
      · exact absurd hsame.image h
      · exact absurd hsame.userId h
    · exact ⟨hall p hp hid.symm, hu⟩
  · rcases hkept.deleted p hp with ⟨x, hx, hid⟩ | hmay
    · exact absurd hid (hgone x hx)
    · exact hmay

/-- The owner renames the post of `neighbours`. -/
def renameOwn : Call := ⟨some 1, .postsUpdate ⟨"first", none⟩ { title := some (some "renamed") }, []⟩

theorem renameOwn_owner :
    (currentUser neighbours renameOwn.actor = some aliceRow ∧ renameOwn.req.signedByStripe = false ∧
      (serve plainLib neighbours renameOwn).db.posts ≠ neighbours.db.posts) ∧
    (∀ x ∈ (serve plainLib neighbours renameOwn).db.posts.rows,
      (∀ p ∈ neighbours.db.posts.rows, p.id ≠ x.id) → x.userId = 1) ∧
    (∀ p ∈ neighbours.db.posts.rows, ∀ x ∈ (serve plainLib neighbours renameOwn).db.posts.rows, x.id = p.id →
      (x.title ≠ p.title ∨ x.description ≠ p.description ∨ x.image ≠ p.image ∨ x.userId ≠ p.userId) →
      p.userId = 1 ∧ x.userId = 1) ∧
    ∀ p ∈ neighbours.db.posts.rows, (∀ x ∈ (serve plainLib neighbours renameOwn).db.posts.rows, x.id ≠ p.id) →
      MayDelete neighbours renameOwn.req aliceRow p :=
  ⟨⟨rfl, rfl, by decide⟩, post_ownership plainLib neighbours renameOwn aliceRow rfl rfl⟩

end Insta.Web
