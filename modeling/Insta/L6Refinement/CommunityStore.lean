import Insta.Core.Community
import Insta.L4App.Integrity
import Insta.L4App.PostOwnership

/-!
# The store refines a community

Users, posts and likes are what the application is about; `Community` says
what is meant by them, without tables, keys of likes, slugs or counters. The
tables represent a community (`Represents`), and every request moves it by
deeds that its session may do.

* `Represents.effect`: each effect of a request is a deed, or none.
* `store_refines_community`: every run of the application is a run of the
  community, whatever fails on the way. Each step takes the community of the
  state before it to that of the state after it, by deeds of the user whose
  session made the request, or of Stripe in a webhook with its signature.
* `keys_keep_meaning`: so in every run a post stays its author's, and a key
  that was given out is never given to another user or post.
-/
namespace Insta.Refinement

open Insta.Core Insta.Store Insta.Model Insta.Service Insta.Web

/-! ## What the tables say -/

/-- Nobody likes a post twice. -/
def LikedOnce (db : Db) : Prop :=
  ∀ a ∈ db.likes.rows, ∀ b ∈ db.likes.rows, a.userId = b.userId → a.postId = b.postId → a = b

structure Represents (db : Db) (c : Community Nat Nat) : Prop where
  members : ∀ i, i ∈ c.members ↔ db.users.Has i
  known : ∀ i, i ∈ c.known ↔ i < db.users.nextId
  author : ∀ i u, c.author i = some u ↔ ∃ p ∈ db.posts.rows, p.id = i ∧ p.userId = u
  used : ∀ i, i ∈ c.used ↔ i < db.posts.nextId
  likes : ∀ i u, (i, u) ∈ c.likes ↔ ∃ l ∈ db.likes.rows, l.postId = i ∧ l.userId = u
  once : LikedOnce db

/-- The community a coherent store is about. -/
def communityOf (db : Db) (h : Coherent db) : Community Nat Nat where
  members := { i | db.users.Has i }
  known := { i | i < db.users.nextId }
  author i := (db.posts.find i).map PostRow.userId
  used := { i | i < db.posts.nextId }
  likes := { x | ∃ l ∈ db.likes.rows, l.postId = x.1 ∧ l.userId = x.2 }
  members_known := by
    rintro _ ⟨r, hr, rfl⟩
    exact db.users.below r hr
  author_mem i u hu := by
    obtain ⟨p, hp, rfl⟩ := Option.map_eq_some_iff.1 hu
    exact h.post_user p (Table.mem_of_find hp).1
  author_used i u hu := by
    obtain ⟨p, hp, rfl⟩ := Option.map_eq_some_iff.1 hu
    obtain ⟨hmem, rfl⟩ := Table.mem_of_find hp
    exact db.posts.below p hmem
  liked_post := by
    rintro _ _ ⟨l, hl, rfl, rfl⟩
    rw [Option.isSome_map]
    exact Table.has_iff_find.1 (h.like_post l hl)
  liker_mem := by
    rintro _ _ ⟨l, hl, rfl, rfl⟩
    exact h.like_user l hl

theorem represents_communityOf {db : Db} (h : Coherent db) (honce : LikedOnce db) :
    Represents db (communityOf db h) where
  members _ := Iff.rfl
  known _ := Iff.rfl
  author i u := by
    show (db.posts.find i).map PostRow.userId = some u ↔ _
    rw [Option.map_eq_some_iff]
    exact exists_congr fun p => by rw [Table.find_eq_some_iff, and_assoc]; rfl
  used _ := Iff.rfl
  likes _ _ := Iff.rfl
  once := honce

theorem Represents.eq_communityOf {db : Db} {c : Community Nat Nat} (hc : Represents db c) (h : Coherent db) :
    c = communityOf db h := by
  have hof := represents_communityOf h hc.once
  ext x y
  · exact (hc.members x).trans (hof.members x).symm
  · exact (hc.known x).trans (hof.known x).symm
  · exact (hc.author x y).trans (hof.author x y).symm
  · exact (hc.used x).trans (hof.used x).symm
  · exact (hc.likes x.1 x.2).trans (hof.likes x.1 x.2).symm

/-- Who a session acts as. -/
def sessionActor (w : World) (actor : Option Nat) : Actor Nat :=
  match currentUser w actor with
  | none => .guest
  | some me => if me.role = .admin then .admin me.id else .member me.id

theorem sessionActor_is {w : World} {actor : Option Nat} {me : UserRow} (h : currentUser w actor = some me) :
    (sessionActor w actor).is me.id := by
  unfold sessionActor
  rw [h]
  dsimp only
  split <;> rfl

theorem sessionActor_admin {w : World} {actor : Option Nat} {me : UserRow} (h : currentUser w actor = some me)
    (hadmin : me.role = .admin) : (sessionActor w actor).isAdmin := by
  unfold sessionActor
  rw [h]
  dsimp only
  rw [if_pos hadmin]
  trivial

/-- Who can be behind what a request does. -/
def ActsFor (w : World) (actor : Option Nat) (q : Request) (a : Actor Nat) : Prop :=
  a = sessionActor w actor ∨ a = .provider ∧ q.signedByStripe = true

/-! ## Rows that stay -/

section Same

variable {db db' : Db} {c : Community Nat Nat}

/-- Nothing happens to the community when its rows are what they were. -/
theorem Represents.same (h : Represents db c) (husers : ∀ i, db'.users.Has i ↔ db.users.Has i)
    (hnext : db'.users.nextId = db.users.nextId)
    (hposts : ∀ i u, (∃ p ∈ db'.posts.rows, p.id = i ∧ p.userId = u) ↔ ∃ p ∈ db.posts.rows, p.id = i ∧ p.userId = u)
    (hnext' : db'.posts.nextId = db.posts.nextId) (hlikes : db'.likes = db.likes) : Represents db' c where
  members i := (h.members i).trans (husers i).symm
  known i := by rw [hnext]; exact h.known i
  author i u := (h.author i u).trans (hposts i u).symm
  used i := by rw [hnext']; exact h.used i
  likes i u := by rw [hlikes]; exact h.likes i u
  once := by unfold LikedOnce; rw [hlikes]; exact h.once

theorem Represents.posts_same (h : Represents db c) (husers : ∀ i, db'.users.Has i ↔ db.users.Has i)
    (hnext : db'.users.nextId = db.users.nextId) (hposts : db'.posts = db.posts) (hlikes : db'.likes = db.likes) :
    Represents db' c :=
  h.same husers hnext (fun i u => by rw [hposts]) (by rw [hposts]) hlikes

/-- Tables the community does not see. -/
theorem Represents.unseen (h : Represents db c) (husers : db'.users = db.users) (hposts : db'.posts = db.posts)
    (hlikes : db'.likes = db.likes) : Represents db' c :=
  h.posts_same (fun i => by rw [husers]) (by rw [husers]) hposts hlikes

theorem has_modify_iff {t t' : Table UserRow} {i j : Nat} {f : UserRow → UserRow} (h : t.modify i f = some t') :
    t'.Has j ↔ t.Has j := by
  refine ⟨?_, fun hj => hj.modify h⟩
  rintro ⟨r, hr, rfl⟩
  rcases (Table.mem_modify h).1 hr with ⟨hr, -⟩ | ⟨y, hy, hid, rfl⟩
  · exact .of_mem hr
  · rw [show rowId (withId i (f y)) = rowId y from hid.symm]
    exact .of_mem hy

theorem Represents.modified (h : Represents db c) {t : Table UserRow} {i : Nat} {f : UserRow → UserRow}
    (ht : db.users.modify i f = some t) : Represents { db with users := t } c :=
  h.posts_same (fun _ => has_modify_iff ht) (Table.nextId_modify ht) rfl rfl

end Same

/-! ## Users -/

section Users

variable {lib : Lib} {db : Db} {c : Community Nat Nat}

theorem Represents.join (h : Represents db c) {r : UserRow} {t : Table UserRow} (ht : db.users.insert r = some t) :
    Represents { db with users := t } (c.join db.users.nextId) := by
  obtain ⟨-, hrows, hnext⟩ := Table.insert_eq_some_iff.1 ht
  refine ⟨fun i => ?_, fun i => ?_, h.author, h.used, h.likes, h.once⟩
  · show (i = db.users.nextId ∨ i ∈ c.members) ↔ ∃ r ∈ t.rows, rowId r = i
    rw [h.members, Table.Has, hrows]
    simp only [List.mem_append, List.mem_singleton, or_and_right, exists_or, exists_eq_left, Row.rowId_withId]
    exact or_comm.trans (or_congr_right eq_comm)
  · show (i = db.users.nextId ∨ i ∈ c.known) ↔ _
    rw [h.known, hnext]
    omega

/-- A new row, linked to its customer or not. -/
theorem Represents.linked {t t' : Table UserRow} {r : UserRow} {a : PasswordAttrs} {k : String}
    (ht : Represents { db with users := t } c) (hlink : Linking lib t r a k t') :
    Represents { db with users := t' } c := by
  cases hlink with
  | refused _ => exact ht
  | linked _ hm => exact ht.modified hm

theorem nextId_countLikes (posts : Table PostRow) (i : Nat) (n : Int) :
    (countLikes posts i n).nextId = posts.nextId := by
  unfold countLikes
  cases h : posts.modify i fun p => { p with likesCount := p.likesCount + n } with
  | none => rfl
  | some t => exact Table.nextId_modify h

theorem nextId_destroyLikes (l : List LikeRow) (db : Db) :
    (l.foldl destroyLike db).posts.nextId = db.posts.nextId := by
  induction l generalizing db with
  | nil => rfl
  | cons x l ih => exact (ih (destroyLike db x)).trans (nextId_countLikes _ _ _)

theorem nextId_destroyPosts (l : List PostRow) (db : Db) :
    (l.foldl (fun d p => destroyPost d p.id) db).posts.nextId = db.posts.nextId := by
  induction l generalizing db with
  | nil => rfl
  | cons x l ih => exact ih (destroyPost db x.id)

theorem nextId_cascade (db : Db) (u : Nat) : (destroyUserCascade db u).posts.nextId = db.posts.nextId := by
  unfold destroyUserCascade
  dsimp only
  rw [nextId_destroyLikes, nextId_destroyPosts]
  split <;> rfl

theorem Represents.leave (h : Represents db c) (u : Nat) :
    Represents { destroyUserCascade db u with users := db.users.delete fun x => x.id == u } (c.leave u) := by
  have hc := destroyUserCascade_spec db u
  have howns : ∀ i, owns db u i = true ↔ c.author i = some u := fun i => by
    rw [owns_iff, h.author]
    exact exists_congr fun p => and_congr_right' and_comm
  refine ⟨fun i => ?_, h.known, fun i x => ?_, fun i => ?_, fun i x => ?_, fun a ha b hb => ?_⟩
  · show (i ∈ c.members ∧ i ≠ u) ↔ _
    rw [h.members]
    constructor
    · rintro ⟨⟨r, hr, rfl⟩, hne⟩
      exact ⟨r, Table.mem_delete.2 ⟨hr, beq_eq_false_iff_ne.2 hne⟩, rfl⟩
    · rintro ⟨r, hr, rfl⟩
      obtain ⟨hr, hne⟩ := Table.mem_delete.1 hr
      exact ⟨.of_mem hr, beq_eq_false_iff_ne.1 hne⟩
  · rw [Community.author_leave, h.author]
    show _ ↔ ∃ p ∈ (destroyUserCascade db u).posts.rows, p.id = i ∧ p.userId = x
    rw [hc.posts]
    simp only [List.mem_map, List.mem_filter, bne_iff_ne]
    constructor
    · rintro ⟨⟨p, hp, rfl, rfl⟩, hne⟩
      exact ⟨_, ⟨p, ⟨hp, hne⟩, rfl⟩, rfl, rfl⟩
    · rintro ⟨_, ⟨p, ⟨hp, hne⟩, rfl⟩, rfl, rfl⟩
      exact ⟨⟨p, hp, rfl, rfl⟩, hne⟩
  · show i ∈ c.used ↔ i < (destroyUserCascade db u).posts.nextId
    rw [nextId_cascade]
    exact h.used i
  · show ((i, x) ∈ c.likes ∧ x ≠ u ∧ c.author i ≠ some u) ↔ ∃ l ∈ (destroyUserCascade db u).likes.rows, _
    rw [hc.likes, h.likes, Ne, Ne, ← howns]
    constructor
    · rintro ⟨⟨l, hl, rfl, rfl⟩, hne, hown⟩
      refine ⟨l, Table.mem_delete.2 ⟨hl, ?_⟩, rfl, rfl⟩
      rw [Bool.or_eq_false_iff]
      exact ⟨Bool.eq_false_iff.2 hown, beq_eq_false_iff_ne.2 hne⟩
    · rintro ⟨l, hl, rfl, rfl⟩
      obtain ⟨hl, hkeep⟩ := Table.mem_delete.1 hl
      rw [Bool.or_eq_false_iff] at hkeep
      exact ⟨⟨l, hl, rfl, rfl⟩, beq_eq_false_iff_ne.1 hkeep.2, Bool.eq_false_iff.1 hkeep.1⟩
  · have hsub : ∀ l ∈ (destroyUserCascade db u).likes.rows, l ∈ db.likes.rows := fun l hl => by
      rw [hc.likes] at hl
      exact (Table.mem_delete.1 hl).1
    exact h.once a (hsub a ha) b (hsub b hb)

end Users

/-! ## Posts and likes -/

section Posts

variable {db : Db} {c : Community Nat Nat}

theorem Represents.publish (h : Represents db c) {m : PostRow} {t : Table PostRow} {tags : List PostTag}
    (ht : db.posts.insert m = some t) (hm : m.userId ∈ c.members) :
    Represents { db with posts := t, postsTags := tags } (c.publish db.posts.nextId m.userId hm) := by
  obtain ⟨-, hrows, hnext⟩ := Table.insert_eq_some_iff.1 ht
  refine ⟨h.members, h.known, fun i u => ?_, fun i => ?_, h.likes, h.once⟩
  · rw [Community.author_publish, h.author]
    show _ ↔ ∃ p ∈ t.rows, p.id = i ∧ p.userId = u
    rw [hrows]
    constructor
    · rintro (⟨rfl, rfl⟩ | ⟨-, p, hp, rfl, rfl⟩)
      · exact ⟨_, List.mem_append_right _ (List.mem_singleton_self _), rfl, rfl⟩
      · exact ⟨p, List.mem_append_left _ hp, rfl, rfl⟩
    · rintro ⟨p, hp, rfl, rfl⟩
      rcases List.mem_append.1 hp with hp | hp
      · exact .inr ⟨Nat.ne_of_lt (db.posts.below p hp), p, hp, rfl, rfl⟩
      · rw [List.mem_singleton.1 hp]
        exact .inl ⟨rfl, rfl⟩
  · show (i = db.posts.nextId ∨ i ∈ c.used) ↔ i < t.nextId
    rw [h.used, hnext]
    omega

theorem Represents.retract (h : Represents db c) (i : Nat) : Represents (destroyPost db i) (c.retract i) := by
  refine ⟨h.members, h.known, fun j u => ?_, h.used, fun j u => ?_, fun a ha b hb => ?_⟩
  · rw [Community.author_retract, h.author]
    show _ ↔ ∃ p ∈ (db.posts.delete fun p => p.id == i).rows, p.id = j ∧ p.userId = u
    constructor
    · rintro ⟨hne, p, hp, rfl, rfl⟩
      exact ⟨p, Table.mem_delete.2 ⟨hp, beq_eq_false_iff_ne.2 hne⟩, rfl, rfl⟩
    · rintro ⟨p, hp, rfl, rfl⟩
      obtain ⟨hp, hne⟩ := Table.mem_delete.1 hp
      exact ⟨beq_eq_false_iff_ne.1 hne, p, hp, rfl, rfl⟩
  · show ((j, u) ∈ c.likes ∧ j ≠ i) ↔ ∃ l ∈ (db.likes.delete fun l => l.postId == i).rows, _
    rw [h.likes]
    constructor
    · rintro ⟨⟨l, hl, rfl, rfl⟩, hne⟩
      exact ⟨l, Table.mem_delete.2 ⟨hl, beq_eq_false_iff_ne.2 hne⟩, rfl, rfl⟩
    · rintro ⟨l, hl, rfl, rfl⟩
      obtain ⟨hl, hne⟩ := Table.mem_delete.1 hl
      exact ⟨⟨l, hl, rfl, rfl⟩, beq_eq_false_iff_ne.1 hne⟩
  · exact h.once a (Table.mem_delete.1 ha).1 b (Table.mem_delete.1 hb).1

/-- Counting does not move posts. -/
theorem posts_countLikes (posts : Table PostRow) (i : Nat) (n : Int) (j u : Nat) :
    (∃ p ∈ (countLikes posts i n).rows, p.id = j ∧ p.userId = u) ↔ ∃ p ∈ posts.rows, p.id = j ∧ p.userId = u := by
  rw [rows_countLikes]
  constructor
  · rintro ⟨p, hp, rfl, rfl⟩
    obtain ⟨q, hq, rfl⟩ := List.mem_map.1 hp
    refine ⟨q, hq, ?_⟩
    split <;> exact ⟨rfl, rfl⟩
  · rintro ⟨q, hq, rfl, rfl⟩
    refine ⟨_, List.mem_map.2 ⟨q, hq, rfl⟩, ?_⟩
    split <;> exact ⟨rfl, rfl⟩

theorem Represents.counted (h : Represents db c) (i : Nat) (n : Int) :
    Represents { db with posts := countLikes db.posts i n } c :=
  h.same (fun _ => Iff.rfl) rfl (posts_countLikes db.posts i n) (nextId_countLikes _ _ _) rfl

theorem Represents.liked (h : Represents db c) {post user : Nat} {t : Table LikeRow}
    (ht : db.likes.insert ⟨db.likes.nextId, user, post⟩ = some t)
    (hnew : ∀ l ∈ db.likes.rows, l.userId = user → l.postId ≠ post) (hp : (c.author post).isSome)
    (hm : user ∈ c.members) :
    Represents { db with likes := t, posts := countLikes db.posts post 1 } (c.like post user hp hm) := by
  obtain ⟨-, hrows, -⟩ := Table.insert_eq_some_iff.1 ht
  have hadded : Represents { db with likes := t } (c.like post user hp hm) := by
    refine ⟨h.members, h.known, h.author, h.used, fun i u => ?_, fun a ha b hb => ?_⟩
    · show ((i, u) = (post, user) ∨ (i, u) ∈ c.likes) ↔ ∃ l ∈ t.rows, _
      rw [hrows, h.likes]
      simp only [List.mem_append, List.mem_singleton, or_and_right, exists_or, exists_eq_left, Prod.mk.injEq]
      exact or_comm.trans (or_congr_right (and_congr eq_comm eq_comm))
    · have hcases : ∀ l ∈ t.rows, l ∈ db.likes.rows ∨ l = ⟨db.likes.nextId, user, post⟩ := fun l hl => by
        rw [hrows] at hl
        exact (List.mem_append.1 hl).imp_right List.mem_singleton.1
      intro hu hpost
      rcases hcases a ha with ha | rfl <;> rcases hcases b hb with hb | rfl
      · exact h.once a ha b hb hu hpost
      · exact absurd hpost (hnew a ha hu)
      · exact absurd hpost.symm (hnew b hb hu.symm)
      · rfl
  exact hadded.counted post 1

theorem Represents.unliked (h : Represents db c) {l : LikeRow} (hl : l ∈ db.likes.rows) :
    Represents (destroyLike db l) (c.unlike l.postId l.userId) := by
  have hgone : Represents { db with likes := db.likes.delete fun x => x.id == l.id }
      (c.unlike l.postId l.userId) := by
    refine ⟨h.members, h.known, h.author, h.used, fun i u => ?_, fun a ha b hb => ?_⟩
    · show ((i, u) ∈ c.likes ∧ (i, u) ≠ (l.postId, l.userId)) ↔ ∃ x ∈ (db.likes.delete fun x => x.id == l.id).rows, _
      rw [h.likes]
      constructor
      · rintro ⟨⟨x, hx, rfl, rfl⟩, hne⟩
        refine ⟨x, Table.mem_delete.2 ⟨hx, beq_eq_false_iff_ne.2 fun hid => ?_⟩, rfl, rfl⟩
        exact hne (by rw [db.likes.eq_of_rowId hx hl hid])
      · rintro ⟨x, hx, rfl, rfl⟩
        obtain ⟨hx, hid⟩ := Table.mem_delete.1 hx
        refine ⟨⟨x, hx, rfl, rfl⟩, fun he => beq_eq_false_iff_ne.1 hid ?_⟩
        obtain ⟨hpost, huser⟩ := Prod.mk.inj he
        rw [h.once x hx l hl huser hpost]
    · exact h.once a (Table.mem_delete.1 ha).1 b (Table.mem_delete.1 hb).1
  exact hgone.counted l.postId (-1)

end Posts

/-! ## Effects are deeds -/

section Effects

variable {lib : Lib} {w₀ w w' : World} {actor : Option Nat} {q : Request} {db' : Db} {c : Community Nat Nat}

/-- A run of the community that a request of `actor` is behind. -/
def Moves (w₀ : World) (actor : Option Nat) (q : Request) (c : Community Nat Nat) (db : Db) : Prop :=
  ∃ ks d, (Community.machine Nat Nat).Run c ks d ∧ Represents db d ∧ ∀ k ∈ ks, ActsFor w₀ actor q k.1

theorem Moves.none (h : Represents db' c) : Moves w₀ actor q c db' :=
  ⟨[], c, .nil c, h, fun _ hk => absurd hk List.not_mem_nil⟩

theorem Moves.one {a : Actor Nat} {d : Deed Nat Nat} {c' : Community Nat Nat} (hs : c.Step (a, d) c')
    (h : Represents db' c') (ha : ActsFor w₀ actor q a) : Moves w₀ actor q c db' :=
  ⟨[(a, d)], c', .cons hs (.nil _), h, fun k hk => by rw [List.mem_singleton.1 hk]; exact ha⟩

/-- Who closes an account may. -/
theorem closes_may {r : UserRow} (h : Closes w₀ actor r q) :
    ∃ a, ActsFor w₀ actor q a ∧ (a.is r.id ∨ a.isAdmin ∨ a = .provider) := by
  cases h with
  | account hme => exact ⟨_, .inl rfl, .inl (sessionActor_is hme)⟩
  | own hme => exact ⟨_, .inl rfl, .inl (sessionActor_is hme)⟩
  | byAdmin hme hadmin hr => exact ⟨_, .inl rfl, .inr (.inl (sessionActor_admin hme hadmin))⟩
  | reported he hr => exact ⟨.provider, .inr ⟨rfl, rfl⟩, .inr (.inr rfl)⟩

theorem Represents.content (h : Represents w.db c) (hw : ContentWrite w₀ actor q w.db db') :
    Moves w₀ actor q c db' := by
  cases hw with
  | postAdded hdb hme hm hid huser htags ht =>
    have hmember := (h.members _).2 (Table.has_iff_find.2 huser)
    refine .one (.publish (hm ▸ sessionActor_is hme) hmember fun hused => ?_) (h.publish ht hmember) (.inl rfl)
    exact Nat.lt_irrefl _ ((h.used _).1 hused)
  | @postSaved me r m t tags hdb hme hr hown htags ht =>
    refine .none (h.same (fun _ => Iff.rfl) rfl (fun i u => ?_) (Table.nextId_modify ht) rfl)
    constructor
    · rintro ⟨p, hp, rfl, rfl⟩
      rcases (Table.mem_modify ht).1 hp with ⟨hp, -⟩ | ⟨y, hy, hid, rfl⟩
      · exact ⟨p, hp, rfl, rfl⟩
      · exact ⟨y, hy, hid, rfl⟩
    · rintro ⟨p, hp, rfl, rfl⟩
      by_cases hid : p.id = r.id
      · exact ⟨_, (Table.mem_modify ht).2 (.inr ⟨p, hp, hid, rfl⟩), hid.symm, rfl⟩
      · exact ⟨p, (Table.mem_modify ht).2 (.inl ⟨hp, hid⟩), rfl, rfl⟩
  | @postDropped me r hdb hme hr hby =>
    obtain ⟨id, -, hfind⟩ := hr
    have hauthor : c.author r.id = some r.userId := (h.author _ _).2 ⟨r, mem_of_friendlyFind hfind, rfl, rfl⟩
    refine .one (.retract ?_) (h.retract r.id) (.inl rfl)
    rcases hby with hown | hadmin
    · exact .inl ⟨_, hauthor, hown ▸ sessionActor_is hme⟩
    · exact .inr (sessionActor_admin hme hadmin)
  | @liked me post user hme hq =>
    rcases createLike_cases w.db post user with he | ⟨t, huser, hpost, hnew, ht, he⟩ <;> rw [he]
    · exact .none h
    · have hmember : user ∈ c.members := (h.members _).2 (Table.has_iff_find.2 huser)
      have hauthor : (c.author post).isSome := by
        obtain ⟨p, hp, hid⟩ := Table.has_iff_find.2 hpost
        rw [(h.author _ _).2 ⟨p, hp, hid, rfl⟩]
        rfl
      exact .one (.like ⟨_, sessionActor_is hme⟩ hauthor hmember) (h.liked ht hnew hauthor hmember) (.inl rfl)
  | unliked hme hl hq => exact .one (.unlike ⟨_, sessionActor_is hme⟩) (h.unliked hl) (.inl rfl)
  | _ => exact .none (h.unseen rfl rfl rfl)

theorem Represents.effect (h : Represents w.db c) (he : Effect lib w₀ actor q w w') : Moves w₀ actor q c w'.db := by
  cases he with
  | outside hdb => exact .none (hdb ▸ h)
  | created hnew hw ht hc hlink hdb =>
    have hnext : w.db.users.nextId ∉ c.known := fun hk => Nat.lt_irrefl _ ((h.known _).1 hk)
    rw [hdb]
    exact .one (.join hnext) ((h.join ht).linked hlink) (.inl rfl)
  | updated hr hby hw hv ht hdb => rw [hdb]; exact .none (h.modified ht)
  | digested hq hr ht hdb => rw [hdb]; exact .none (h.modified ht)
  | overwritten hq he hk hid hr hw ht hdb => rw [hdb]; exact .none (h.modified ht)
  | issued hq hnew hr hv ht hdb => rw [hdb]; exact .none (h.modified ht)
  | consumed hdb => exact .none (hdb ▸ h)
  | @closed r hby hposts href hdb =>
    obtain ⟨a, ha, hmay⟩ := closes_may hby
    rw [hdb]
    exact .one (.leave hmay) (h.leave r.id) ha
  | content hdb => exact h.content hdb

end Effects

/-! ## Runs -/

theorem Moves.effect {lib : Lib} {w₀ w w' : World} {actor : Option Nat} {q : Request} {c : Community Nat Nat}
    (h : Moves w₀ actor q c w.db) (he : Effect lib w₀ actor q w w') : Moves w₀ actor q c w'.db := by
  obtain ⟨ks, d, hrun, hd, hks⟩ := h
  obtain ⟨ks', d', hrun', hd', hks'⟩ := hd.effect he
  refine ⟨ks ++ ks', d', hrun.append hrun', hd', fun k hk => ?_⟩
  exact (List.mem_append.1 hk).elim (hks k) (hks' k)

theorem serve_moves (lib : Lib) {w : World} {c : Community Nat Nat} (h : Represents w.db c) (call : Call) :
    Moves w call.actor call.req c (serve lib w call).db :=
  serve_keeps (I := fun x => Moves { w with script := call.script } call.actor call.req c x.db)
    (fun _ _ he hI => hI.effect he) (.none h)

theorem step_refines {lib : Lib} {a b : World} {l : Label} {c : Community Nat Nat} (hc : Represents a.db c)
    (hs : (system lib).step a l b) : ∃ ks d, (Community.machine Nat Nat).Run c ks d ∧ Represents b.db d ∧
      ∀ k ∈ ks, ∃ call, l = .call call ∧ ActsFor a call.actor call.req k.1 := by
  rcases step_cases hs with ⟨call, rfl, rfl⟩ | hdb
  · obtain ⟨ks, d, hrun, hd, hks⟩ := serve_moves lib hc call
    exact ⟨ks, d, hrun, hd, fun k hk => ⟨call, rfl, hks k hk⟩⟩
  · exact ⟨[], c, .nil c, hdb ▸ hc, fun k hk => absurd hk List.not_mem_nil⟩

/-- Every run is one of the community. -/
theorem run_refines {lib : Lib} {w₀ w : World} {ls : List Label} {c₀ : Community Nat Nat}
    (h₀ : Represents w₀.db c₀) (h : (system lib).Run w₀ ls w) :
    ∃ ks c, (Community.machine Nat Nat).Run c₀ ks c ∧ Represents w.db c ∧
      ∀ k ∈ ks, ∃ a call b, (system lib).StepOf w₀ ls w a (.call call) b ∧ ActsFor a call.actor call.req k.1 := by
  obtain ⟨ks, c, hrun, hc, hks⟩ := LTS.Run.simulates (fun _ _ _ _ hc hs => step_refines hc hs) h h₀
  refine ⟨ks, c, hrun, hc, fun k hk => ?_⟩
  obtain ⟨a, _, b, hof, call, rfl, hacts⟩ := hks k hk
  exact ⟨a, call, b, hof, hacts⟩

theorem coherent_run {lib : Lib} {w₀ w : World} {ls : List Label} (h₀ : Coherent w₀.db)
    (h : (system lib).Run w₀ ls w) : Coherent w.db :=
  h.keeps (I := fun w => Coherent w.db) (fun _ _ _ ha hs => step_keeps hs (fun _ _ _ _ he hc => hc.effect he) ha) h₀

theorem store_refines_community (lib : Lib) (w₀ w : World) (ls : List Label) (h₀ : Coherent w₀.db)
    (honce : LikedOnce w₀.db) (h : (system lib).Run w₀ ls w) :
    ∃ (hw : Coherent w.db) (ks : List (Actor Nat × Deed Nat Nat)),
      (Community.machine Nat Nat).Run (communityOf w₀.db h₀) ks (communityOf w.db hw) ∧
      (∀ k ∈ ks, ∃ a call b, (system lib).StepOf w₀ ls w a (.call call) b ∧ ActsFor a call.actor call.req k.1) ∧
      ∀ a l b, (system lib).StepOf w₀ ls w a l b → ∃ (ha : Coherent a.db) (hb : Coherent b.db) (deeds : _),
        (Community.machine Nat Nat).Run (communityOf a.db ha) deeds (communityOf b.db hb) ∧
        ∀ k ∈ deeds, ∃ call, l = .call call ∧ ActsFor a call.actor call.req k.1 := by
  have hstart := represents_communityOf h₀ honce
  have hw := coherent_run h₀ h
  obtain ⟨ks, c, hrun, hc, hks⟩ := run_refines hstart h
  rw [hc.eq_communityOf hw] at hrun
  refine ⟨hw, ks, hrun, hks, ?_⟩
  rintro a l b ⟨ls₁, ls₂, rfl, hbefore, hs, -⟩
  have ha := coherent_run h₀ hbefore
  have hb := coherent_run ha (.cons hs (.nil b))
  obtain ⟨-, x, -, hx, -⟩ := run_refines hstart hbefore
  obtain ⟨deeds, y, hdeeds, hy, hacts⟩ := step_refines hx hs
  rw [hx.eq_communityOf ha, hy.eq_communityOf hb] at hdeeds
  exact ⟨ha, hb, deeds, hdeeds, hacts⟩

theorem neighbours_coherent : Coherent neighbours.db := by
  have hpost : ∀ p ∈ neighbours.db.posts.rows, neighbours.db.users.Has p.userId := by
    intro p hp
    rw [List.mem_singleton.1 hp]
    exact ⟨aliceRow, List.mem_cons_self, rfl⟩
  constructor
  case post_user => exact hpost
  all_goals exact fun x hx => absurd hx List.not_mem_nil

/-- Bob likes the post of Alice, who leaves. -/
theorem likes_and_leaves : ∃ w, (system plainLib).Run neighbours
      [.call ⟨some 2, .likesCreate 1 2, []⟩, .call ⟨some 1, .accountDestroy, []⟩] w ∧
    w.db.users.rows.map UserRow.id = [2] ∧ w.db.posts.rows = [] ∧ w.db.likes.rows = [] ∧
    ∃ hw ks, (Community.machine Nat Nat).Run (communityOf neighbours.db neighbours_coherent) ks
      (communityOf w.db hw) ∧ ∀ k ∈ ks, ∃ a call b, (system plainLib).StepOf neighbours
        [.call ⟨some 2, .likesCreate 1 2, []⟩, .call ⟨some 1, .accountDestroy, []⟩] w a (.call call) b ∧
        ActsFor a call.actor call.req k.1 := by
  have hrun : (system plainLib).Run neighbours
      [.call ⟨some 2, .likesCreate 1 2, []⟩, .call ⟨some 1, .accountDestroy, []⟩] _ := .cons rfl (.cons rfl (.nil _))
  obtain ⟨hw, ks, hks, hacts, -⟩ := store_refines_community plainLib neighbours _ _ neighbours_coherent
    (fun _ ha => absurd ha List.not_mem_nil) hrun
  exact ⟨_, hrun, by decide, by decide, by decide, hw, ks, hks, hacts⟩

theorem keys_keep_meaning (lib : Lib) (w₀ w : World) (ls : List Label) (h₀ : Coherent w₀.db)
    (honce : LikedOnce w₀.db) (h : (system lib).Run w₀ ls w) :
    (∀ p ∈ w.db.posts.rows, p.id < w₀.db.posts.nextId →
      ∃ x ∈ w₀.db.posts.rows, x.id = p.id ∧ x.userId = p.userId) ∧
    (∀ r ∈ w.db.users.rows, r.id < w₀.db.users.nextId → w₀.db.users.Has r.id) := by
  have h₀ := represents_communityOf h₀ honce
  obtain ⟨ks, c, hrun, hc, -⟩ := run_refines h₀ h
  have hfollows := Community.follows_of_run hrun
  refine ⟨fun p hp hlt => ?_, fun r hr hlt => ?_⟩
  · have hauthor : c.author p.id = some p.userId := (hc.author _ _).2 ⟨p, hp, rfl, rfl⟩
    exact (h₀.author _ _).1 (hfollows.author p.id ((h₀.used _).2 hlt) p.userId hauthor)
  · have hmember : r.id ∈ c.members := (hc.members _).2 (.of_mem hr)
    exact (h₀.members _).1 (hfollows.member r.id ((h₀.known _).2 hlt) hmember)

def carolSignsUp : UserParams :=
  { aliceSignsUp with username := some (some "carol"), email := some (some "carol@example.com") }

/-- Bob leaves, and Carol gets a new key. -/
theorem carol_new_key : ∃ w, (system plainLib).Run neighbours
      [.call ⟨some 2, .accountDestroy, []⟩, .call ⟨none, .signUp carolSignsUp, []⟩] w ∧
    w.db.users.rows.map UserRow.id = [1, 3] ∧
    ∀ r ∈ w.db.users.rows, r.id < neighbours.db.users.nextId → neighbours.db.users.Has r.id := by
  have hrun : (system plainLib).Run neighbours
      [.call ⟨some 2, .accountDestroy, []⟩, .call ⟨none, .signUp carolSignsUp, []⟩] _ :=
    .cons rfl (.cons rfl (.nil _))
  exact ⟨_, hrun, by decide, (keys_keep_meaning plainLib neighbours _ _ neighbours_coherent
    (fun _ ha => absurd ha List.not_mem_nil) hrun).2⟩

end Insta.Refinement
