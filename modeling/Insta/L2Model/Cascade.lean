import Insta.L2Model.Content

/-!
# What the cascades remove

`destroyPost` and `destroyLike` are applied row after row by
`destroyUserCascade`; here is what is left when all of them have run.

* `destroyUserCascade_spec`: the cascade of user `u` removes the
  subscriptions, the posts and the likes of `u` and everything that hangs on
  these posts, and counts down the posts `u` had liked.
-/
namespace Insta.Model

open Insta.Core Insta.Store Insta.Store.App

/-! ## Counting likes -/

/-- An update of the counter runs into no index. -/
theorem rows_countLikes (posts : Table PostRow) (i : Nat) (n : Int) : (countLikes posts i n).rows =
    posts.rows.map fun p => if p.id = i then { p with likesCount := p.likesCount + n } else p := by
  obtain ⟨t, ht⟩ : ∃ t, posts.modify i (fun p => { p with likesCount := p.likesCount + n }) = some t :=
    Table.modify_eq_some_of fun x hx y hy hxi hyi => by
      have hold : clash x y = false := posts.clash_false hx hy fun he => hyi (he ▸ hxi)
      exact hold
  unfold countLikes
  rw [ht, Option.getD_some, Table.rows_modify ht]
  refine List.map_congr_left fun p _ => ?_
  by_cases h : p.id = i
  · subst h; rfl
  · rw [if_neg h, if_neg (show ¬ rowId p = i from h)]

theorem has_countLikes {posts : Table PostRow} {i j : Nat} {n : Int} (hj : posts.Has j) :
    (countLikes posts i n).Has j := by
  obtain ⟨p, hp, hid⟩ := hj
  unfold Table.Has
  rw [rows_countLikes]
  refine ⟨_, List.mem_map.2 ⟨p, hp, rfl⟩, ?_⟩
  split <;> exact hid

/-- The likes of post `i`. -/
def likesOf (likes : Table LikeRow) (i : Nat) : Nat := likes.rows.countP fun l => l.postId == i

/-! ## The posts of a user -/

/-- Post `i` is one of `u`'s. -/
def owns (db : Db) (u i : Nat) : Bool := db.posts.rows.any fun p => p.userId == u && p.id == i

theorem owns_iff {db : Db} {u i : Nat} : owns db u i = true ↔ ∃ p ∈ db.posts.rows, p.userId = u ∧ p.id = i := by
  simp [owns]

theorem foldl_destroyPost : ∀ (l : List PostRow) (db : Db),
    l.foldl (fun d p => destroyPost d p.id) db =
      { db with
        postsTags := db.postsTags.filter fun g => !l.any fun p => p.id == g.postId
        likes := db.likes.delete fun x => l.any fun p => p.id == x.postId
        posts := db.posts.delete fun x => l.any fun p => p.id == x.id }
  | [], db => by
    simp only [List.foldl_nil, List.any_nil, Bool.not_false, List.filter_true]
    rw [Table.delete_none fun _ _ => rfl, Table.delete_none fun _ _ => rfl]
  | p :: l, db => by
    rw [List.foldl_cons, foldl_destroyPost l]
    simp only [destroyPost, Table.delete_delete, List.filter_filter, List.any_cons]
    have hflip : ∀ x, (p.id == x) = (x == p.id) := fun x => Bool.beq_comm
    simp only [hflip, Bool.not_or, bne, Bool.and_comm]

/-! ## The likes of a user -/

/-- The posts after the likes `l` were counted down. -/
theorem foldl_destroyLike : ∀ (l : List LikeRow) (db : Db), ∃ posts : Table PostRow,
    posts.rows = (db.posts.rows.map fun p =>
      { p with likesCount := p.likesCount - (l.countP fun x => x.postId == p.id : Nat) }) ∧
    l.foldl destroyLike db =
      { db with likes := db.likes.delete fun x => l.any fun y => y.id == x.id, posts := posts }
  | [], db => by
    refine ⟨db.posts, ?_, ?_⟩
    · simp
    · simp only [List.foldl_nil, List.any_nil]
      rw [Table.delete_none fun _ _ => rfl]
  | y :: l, db => by
    obtain ⟨posts, hrows, hfold⟩ := foldl_destroyLike l (destroyLike db y)
    refine ⟨posts, ?_, ?_⟩
    · rw [hrows]
      simp only [destroyLike, rows_countLikes, List.map_map]
      refine List.map_congr_left fun p _ => ?_
      simp only [Function.comp, List.countP_cons]
      by_cases h : p.id = y.postId
      · simp [h, Int.sub_eq_add_neg]; omega
      · simp [h, Ne.symm h]
    · rw [List.foldl_cons, hfold]
      simp only [destroyLike, Table.delete_delete, List.any_cons]
      congr 1
      exact Table.delete_congr fun x _ => by rw [Bool.beq_comm]

/-! ## The cascade of a user -/

/-- What is left of the tables after the cascade of user `u`. -/
structure Cascaded (db : Db) (u : Nat) (db' : Db) : Prop where
  users : db'.users = db.users
  tags : db'.tags = db.tags
  products : db'.products = db.products
  subscriptions : db'.subscriptions = db.subscriptions.delete fun s => s.userId == u
  profiles : db'.profiles = db.profiles ∧ profileOf db u = none ∨
    ∃ p, profileOf db u = some p ∧ db'.profiles = db.profiles.delete fun x => x.id == p.id
  postsTags : db'.postsTags = db.postsTags.filter fun g => !owns db u g.postId
  likes : db'.likes = db.likes.delete fun l => owns db u l.postId || l.userId == u
  posts : db'.posts.rows = (db.posts.rows.filter fun p => p.userId != u).map fun p =>
    { p with likesCount := p.likesCount -
      (db.likes.rows.countP fun l => l.userId == u && l.postId == p.id : Nat) }

/-- The posts of `u` with what hangs on them, then the likes of `u` that are
left. -/
def destroyPostsAndLikes (db : Db) (u : Nat) : Db :=
  let db := (db.posts.rows.filter fun p => p.userId == u).foldl (fun d p => destroyPost d p.id) db
  (db.likes.rows.filter fun l => l.userId == u).foldl destroyLike db

/-- Keys being distinct, the posts of `u` go and no others. -/
theorem owns_of_mem {db : Db} {p : PostRow} (hp : p ∈ db.posts.rows) (u : Nat) :
    owns db u p.id = (p.userId == u) := by
  rw [Bool.eq_iff_iff, owns_iff, beq_iff_eq]
  constructor
  · rintro ⟨q, hq, hu, hid⟩
    rw [← db.posts.eq_of_rowId hq hp hid, hu]
  · exact fun hu => ⟨p, hp, hu, rfl⟩

/-- A like is among those still found when its user is `u`. -/
theorem any_likes_of {db : Db} {u : Nat} {x : LikeRow} (hx : x ∈ db.likes.rows)
    (hkept : owns db u x.postId = false) :
    (((db.likes.delete fun x => owns db u x.postId).rows.filter fun l => l.userId == u).any
      fun y => y.id == x.id) = (x.userId == u) := by
  rw [Bool.eq_iff_iff, List.any_eq_true, beq_iff_eq]
  constructor
  · rintro ⟨y, hy, hid⟩
    obtain ⟨hy, hu⟩ := List.mem_filter.1 hy
    rw [← db.likes.eq_of_rowId (Table.mem_delete.1 hy).1 hx (beq_iff_eq.1 hid)]
    simpa using hu
  · intro hu
    exact ⟨x, List.mem_filter.2 ⟨Table.mem_delete.2 ⟨hx, hkept⟩, by simpa using hu⟩, by simp⟩

theorem destroyPostsAndLikes_spec (db : Db) (u : Nat) : ∃ posts : Table PostRow,
    (posts.rows = (db.posts.rows.filter fun p => p.userId != u).map fun p =>
      { p with likesCount := p.likesCount -
        (db.likes.rows.countP fun l => l.userId == u && l.postId == p.id : Nat) }) ∧
    destroyPostsAndLikes db u = { db with
      postsTags := db.postsTags.filter fun g => !owns db u g.postId
      likes := db.likes.delete fun l => owns db u l.postId || l.userId == u
      posts := posts } := by
  have howns : ∀ i, ((db.posts.rows.filter fun p => p.userId == u).any fun p => p.id == i) = owns db u i := by
    intro i
    simp only [owns, List.any_filter]
  unfold destroyPostsAndLikes
  rw [foldl_destroyPost]
  simp only [howns]
  obtain ⟨posts, hrows, hfold⟩ := foldl_destroyLike
    ((db.likes.delete fun x => owns db u x.postId).rows.filter fun l => l.userId == u)
    { db with
      postsTags := db.postsTags.filter fun g => !owns db u g.postId
      likes := db.likes.delete fun x => owns db u x.postId
      posts := db.posts.delete fun x => owns db u x.id }
  refine ⟨posts, ?_, ?_⟩
  · have hleft : (db.posts.delete fun x => owns db u x.id).rows =
        db.posts.rows.filter fun p => p.userId != u :=
      List.filter_congr fun p hp => congrArg Bool.not (owns_of_mem hp u)
    rw [hrows, hleft]
    refine List.map_congr_left fun p hp => ?_
    obtain ⟨hmem, hne⟩ := List.mem_filter.1 hp
    have hkept : owns db u p.id = false := by rw [owns_of_mem hmem]; simpa using hne
    -- of the likes of a post that stays, none went with a post
    congr 3
    rw [Table.delete, List.countP_filter, List.countP_filter]
    refine List.countP_congr fun l _ => ?_
    by_cases hl : l.postId = p.id
    · simp [hl, hkept]
    · simp [hl]
  · rw [hfold, Table.delete_delete]
    congr 1
    refine Table.delete_congr fun x hx => ?_
    cases hx' : owns db u x.postId with
    | true => rfl
    | false => exact any_likes_of hx hx'

theorem destroyUserCascade_spec (db : Db) (u : Nat) : Cascaded db u (destroyUserCascade db u) := by
  have hrest : ∀ d : Db, d.users = db.users → d.tags = db.tags → d.products = db.products →
      d.subscriptions = (db.subscriptions.delete fun s => s.userId == u) → d.postsTags = db.postsTags →
      d.likes = db.likes → d.posts = db.posts →
      (d.profiles = db.profiles ∧ profileOf db u = none ∨
        ∃ p, profileOf db u = some p ∧ d.profiles = db.profiles.delete fun x => x.id == p.id) →
      Cascaded db u (destroyPostsAndLikes d u) := by
    intro d hu ht hpr hs hg hl hp hprof
    obtain ⟨posts, hrows, heq⟩ := destroyPostsAndLikes_spec d u
    have howns : ∀ i, owns d u i = owns db u i := fun i => by unfold owns; rw [hp]
    simp only [howns, hg, hl, hp] at hrows heq
    rw [heq]
    exact ⟨hu, ht, hpr, hs, hprof, rfl, rfl, hrows⟩
  unfold destroyUserCascade
  have hprof : profileOf { db with subscriptions := db.subscriptions.delete fun s => s.userId == u } u =
    profileOf db u := rfl
  dsimp only
  rw [hprof]
  cases hp : profileOf db u with
  | none => exact hrest _ rfl rfl rfl rfl rfl rfl rfl (.inl ⟨rfl, hp⟩)
  | some p => exact hrest _ rfl rfl rfl rfl rfl rfl rfl (.inr ⟨p, hp, rfl⟩)

/-- What may still refer to the user is a second profile. -/
theorem referred_cascade_iff (db : Db) (u : Nat) : referred (destroyUserCascade db u) u = false ↔
    ∀ a ∈ db.profiles.rows, ∀ b ∈ db.profiles.rows, a.userId = u → b.userId = u → a = b := by
  have h := destroyUserCascade_spec db u
  have hrest : referred (destroyUserCascade db u) u =
      (destroyUserCascade db u).profiles.rows.any (·.userId == u) := by
    have hsubs : (destroyUserCascade db u).subscriptions.rows.any (·.userId == u) = false := by
      rw [h.subscriptions]
      exact List.any_eq_false.2 fun s hs => by simp [(Table.mem_delete.1 hs).2]
    have hposts : (destroyUserCascade db u).posts.rows.any (·.userId == u) = false := by
      rw [h.posts]
      simp
    have hlikes : (destroyUserCascade db u).likes.rows.any (·.userId == u) = false := by
      rw [h.likes]
      exact List.any_eq_false.2 fun l hl => by
        have := (Table.mem_delete.1 hl).2
        simp_all
    unfold referred
    rw [hsubs, hposts, hlikes, Bool.false_or, Bool.or_false, Bool.or_false]
  rw [hrest]
  rcases h.profiles with ⟨heq, hno⟩ | ⟨p, hp, heq⟩
  · have hnone : ∀ x ∈ db.profiles.rows, (x.userId == u) = false := Table.first_eq_none_iff.1 hno
    rw [heq, List.any_eq_false]
    exact ⟨fun _ a ha _ _ hau => absurd (beq_iff_eq.2 hau) (by simp [hnone a ha]),
      fun _ x hx => by simp [hnone x hx]⟩
  · obtain ⟨hpm, hpu⟩ := Table.mem_of_first hp
    rw [heq, List.any_eq_false]
    constructor
    · intro hgone a ha b hb hau hbu
      have hfirst : ∀ x ∈ db.profiles.rows, x.userId = u → x = p := fun x hx hxu => by
        by_contra hne
        have hid : (x.id == p.id) = false := beq_eq_false_iff_ne.2 fun he => hne (db.profiles.eq_of_rowId hx hpm he)
        exact hgone x (Table.mem_delete.2 ⟨hx, hid⟩) (beq_iff_eq.2 hxu)
      rw [hfirst a ha hau, hfirst b hb hbu]
    · intro hsame x hx hxu
      obtain ⟨hx, hid⟩ := Table.mem_delete.1 hx
      rw [hsame x hx p hpm (beq_iff_eq.1 hxu) (beq_iff_eq.1 hpu)] at hid
      simp at hid

end Insta.Model
