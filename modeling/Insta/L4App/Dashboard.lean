import Insta.Core.Paging
import Insta.L4App.Effects

/-!
# Reading the dashboard

`users#dashboard` shows all posts, newest first and two on a page, and every
page is a query of its own. Whoever reads page after page does so while
others write, edit, like and delete.

* `PostsMoved`: of the posts a request leaves, each keeps its key and its
  time, and those that are new have keys of their own.
* `dashboard_misses_le`: in every run, a reader who has come to the last page
  has missed, of the posts that were there all the time, no more than there
  were posts deleted meanwhile, and so none when no post was deleted.
* `slips_past`: the bound is reached.
-/
namespace Insta.Web

open Insta.Core Insta.Core.Paging Insta.Store Insta.Store.App Insta.Model Insta.Service

/-! ## Pages of posts -/

/-- `Post.all` under its `default_scope`: newest first, and SQLite leaves
those of one time in the order of their keys.
mirrors app/models/post.rb:15 -/
def dashboardPosts (db : Db) : List PostRow := db.posts.rows.insertionSort fun a b => b.createdAt ≤ a.createdAt

/-- `Post.page(num).per(2)`: Kaminari's `page` sets an offset for its default
of 25 to a page, from which `per` computes its own. `num` is
`params[:page].to_i`.
mirrors app/controllers/users_controller.rb:12 -/
def dashboardPage (db : Db) (num : Int) : List PostRow :=
  ((dashboardPosts db).drop (25 * (num - 1).toNat / 25 * 2)).take 2

/-- The keys of all posts as they are listed. -/
def listing (db : Db) : List Nat := (dashboardPosts db).map PostRow.id

theorem dashboardPage_ids (db : Db) (k : Nat) :
    (dashboardPage db (k + 1 : Nat)).map PostRow.id = page 2 k (listing db) := by
  have hoffset : 25 * (((k + 1 : Nat) : Int) - 1).toNat / 25 * 2 = 2 * k := by
    rw [Nat.mul_div_cancel_left _ (by decide)]
    omega
  rw [dashboardPage, hoffset, listing, page, List.map_take, List.map_drop]

/-! ## Posts that stay keep their place -/

/-- The key and the time of a post. -/
def stampOf (p : PostRow) : Nat × Nat := (p.id, p.createdAt)

def Later (a b : Nat × Nat) : Prop := b.2 ≤ a.2

instance : DecidableRel Later := fun a b => inferInstanceAs (Decidable (b.2 ≤ a.2))

instance : Std.Total Later := ⟨fun a b => Nat.le_total b.2 a.2⟩

instance : IsTrans (Nat × Nat) Later := ⟨fun _ _ _ hab hbc => Nat.le_trans hbc hab⟩

theorem listing_eq (db : Db) : listing db = ((db.posts.rows.map stampOf).insertionSort Later).map Prod.fst := by
  have hsort : (dashboardPosts db).map stampOf = (db.posts.rows.map stampOf).insertionSort Later :=
    List.map_insertionSort _ _ _ _ fun _ _ _ _ => Iff.rfl
  rw [← hsort, List.map_map]
  rfl

theorem mem_listing {db : Db} {i : Nat} : i ∈ listing db ↔ ∃ p ∈ db.posts.rows, p.id = i := by
  simp [listing, dashboardPosts]

theorem length_listing (db : Db) : (listing db).length = db.posts.rows.length := by
  rw [listing, List.length_map, dashboardPosts, List.length_insertionSort]

theorem nodup_listing (db : Db) : (listing db).Nodup := by
  have hperm : (listing db).Perm (db.posts.rows.map PostRow.id) := (List.perm_insertionSort _ _).map _
  exact hperm.nodup_iff.2 db.posts.nodup_rowId

/-- A post of `t'` is one of `t`, as far as its place goes, or has a key that
is not in `t`. -/
def PostsMoved (t t' : Table PostRow) : Prop :=
  ∀ x ∈ t'.rows, (∃ p ∈ t.rows, stampOf p = stampOf x) ∨ ∀ p ∈ t.rows, p.id ≠ x.id

theorem stamps_sorted (t : Table PostRow) :
    (t.rows.map stampOf).Pairwise fun a b : Nat × Nat => a.1 < b.1 :=
  List.pairwise_map.2 t.sorted

theorem kept_listing {db db' : Db} (h : PostsMoved db.posts db'.posts) : Kept (listing db) (listing db') := by
  have hanti : Std.Antisymm fun a b : Nat × Nat => a.1 < b.1 := ⟨fun a b hab hba => absurd hab (Nat.lt_asymm hba)⟩
  have hstay : ((db.posts.rows.map stampOf).filter fun a => a ∈ db'.posts.rows.map stampOf).Sublist
      (db'.posts.rows.map stampOf) := by
    refine List.sublist_of_subperm_of_pairwise (List.subperm_of_subset ?_ fun a ha => ?_)
      ((stamps_sorted db.posts).filter _) (stamps_sorted db'.posts)
    · exact ((stamps_sorted db.posts).imp fun hab heq => by rw [heq] at hab; exact Nat.lt_irrefl _ hab).filter _
    · exact of_decide_eq_true (List.mem_filter.1 ha).2
  refine ⟨(((db.posts.rows.map stampOf).filter fun a => a ∈ db'.posts.rows.map stampOf).insertionSort Later).map
    Prod.fst, ?_, ?_, fun i hi hi' => ?_⟩
  · rw [listing_eq]
    exact (insertionSort_sublist List.filter_sublist).map _
  · rw [listing_eq]
    exact (insertionSort_sublist hstay).map _
  · obtain ⟨p, hp, rfl⟩ := mem_listing.1 hi
    obtain ⟨x, hx, hid⟩ := mem_listing.1 hi'
    rcases h x hx with ⟨y, hy, hstamp⟩ | hnew
    · have hyx : y.id = x.id := congrArg Prod.fst hstamp
      obtain rfl : y = p := db.posts.eq_of_rowId hy hp (hyx.trans hid)
      refine List.mem_map.2 ⟨stampOf y, (List.mem_insertionSort _).2 (List.mem_filter.2 ⟨?_, ?_⟩), rfl⟩
      · exact List.mem_map_of_mem hy
      · exact decide_eq_true (hstamp ▸ List.mem_map_of_mem hx)
    · exact absurd hid.symm (hnew p hp)

/-! ## What requests do to the posts -/

section Moves

variable {t₀ t t' : Table PostRow} {w₀ w w' : World} {actor : Option Nat} {q : Request}

theorem PostsMoved.refl (t : Table PostRow) : PostsMoved t t := fun x hx => .inl ⟨x, hx, rfl⟩

theorem PostsMoved.fewer (h : PostsMoved t₀ t) (hrows : ∀ x ∈ t'.rows, ∃ y ∈ t.rows, stampOf y = stampOf x) :
    PostsMoved t₀ t' := by
  intro x hx
  obtain ⟨y, hy, hstamp⟩ := hrows x hx
  have hid : y.id = x.id := congrArg Prod.fst hstamp
  rw [← hstamp, ← hid]
  exact h y hy

theorem PostsMoved.countLikes (h : PostsMoved t₀ t) (i : Nat) (n : Int) : PostsMoved t₀ (countLikes t i n) := by
  refine h.fewer fun x hx => ?_
  rw [rows_countLikes] at hx
  obtain ⟨y, hy, rfl⟩ := List.mem_map.1 hx
  refine ⟨y, hy, ?_⟩
  split <;> rfl

theorem PostsMoved.content (h : PostsMoved w₀.db.posts w.db.posts) {db : Db}
    (hw : ContentWrite w₀ actor q w.db db) : PostsMoved w₀.db.posts db.posts := by
  cases hw with
  | postAdded hdb hm hu hid huser htags ht =>
    rw [← hdb]
    intro x hx
    rcases (Table.mem_insert ht).1 hx with hx | rfl
    · exact .inl ⟨x, hx, rfl⟩
    · exact .inr fun p hp => Nat.ne_of_lt (w.db.posts.below p hp)
  | postSaved hdb hm hr hown htags ht =>
    refine h.fewer fun x hx => ?_
    rcases (Table.mem_modify ht).1 hx with ⟨hx, -⟩ | ⟨y, hy, hid, rfl⟩
    · exact ⟨x, hx, rfl⟩
    · exact ⟨y, hy, Prod.ext hid rfl⟩
  | postDropped hdb hm hr hby => exact h.fewer fun x hx => ⟨x, (Table.mem_delete.1 hx).1, rfl⟩
  | @liked me post user hm hq =>
    rcases createLike_cases w.db post user with he | ⟨t, -, -, -, -, he⟩ <;> rw [he]
    · exact h
    · exact h.countLikes post 1
  | unliked hm hl hq => exact h.countLikes _ _
  | _ => exact h

theorem PostsMoved.effect {lib : Lib} (he : Effect lib w₀ actor q w w')
    (h : PostsMoved w₀.db.posts w.db.posts) : PostsMoved w₀.db.posts w'.db.posts := by
  rcases he.db_cases with ⟨t, hdb⟩ | ⟨r, -, -, -, hdb⟩ | hw
  · rw [hdb]
    exact h
  · rw [hdb]
    refine h.fewer fun x hx => ?_
    rw [(destroyUserCascade_spec w.db r.id).posts] at hx
    obtain ⟨y, hy, rfl⟩ := List.mem_map.1 hx
    exact ⟨y, (List.mem_filter.1 hy).1, rfl⟩
  · exact h.content hw

end Moves

theorem postsMoved_next (lib : Lib) (w : World) (l : Label) : PostsMoved w.db.posts (next lib w l).db.posts := by
  refine step_keeps (I := fun db => PostsMoved w.db.posts db.posts) (system_step.2 rfl) (fun _ _ _ _ he ha => ?_)
    (.refl _)
  have hmoved := PostsMoved.effect he ha
  exact hmoved

/-! ## A reader -/

inductive Browse
  | app (l : Label)
  | turn

/-- The application goes on, or the reader asks for the next page. -/
def browse (lib : Lib) (s : World × Reading Nat) : Browse → World × Reading Nat
  | .app l => (next lib s.1 l, s.2.change (listing (next lib s.1 l).db))
  | .turn => (s.1, s.2.turn ((dashboardPage s.1.db (s.2.turned + 1 : Nat)).map PostRow.id))

def browsing (lib : Lib) : LTS (World × Reading Nat) Browse :=
  .ofFn (fun s => s.2 = .start (listing s.1.db)) fun s b => some (browse lib s b)

structure BrowsingInv (s : World × Reading Nat) : Prop where
  list : s.2.list = listing s.1.db
  reading : s.2.Inv 2

theorem BrowsingInv.step {lib : Lib} {s : World × Reading Nat} (h : BrowsingInv s) (b : Browse) :
    BrowsingInv (browse lib s b) := by
  cases b with
  | app l =>
    refine ⟨rfl, h.reading.change (nodup_listing _) ?_⟩
    rw [h.list]
    exact kept_listing (postsMoved_next lib s.1 l)
  | turn =>
    refine ⟨h.list, ?_⟩
    show (s.2.turn ((dashboardPage s.1.db (s.2.turned + 1 : Nat)).map PostRow.id)).Inv 2
    rw [dashboardPage_ids, ← h.list]
    exact h.reading.turn

/-- Of the posts that were there while the reader came to the last page, no
more were on no page than posts were deleted. -/
theorem dashboard_misses_le (lib : Lib) (w₀ w : World) (r : Reading Nat) (bs : List Browse)
    (h : (browsing lib).Run (w₀, .start (listing w₀.db)) bs (w, r))
    (hlast : w.db.posts.rows.length ≤ 2 * r.turned) : (r.stayed.countP fun i => i ∉ r.seen) ≤ r.removed := by
  have hinv : BrowsingInv (w, r) := by
    refine h.keeps (fun s b s' hI hs => ?_) ⟨rfl, .start (nodup_listing _)⟩
    cases hs
    exact hI.step b
  have hlist : r.list = listing w.db := hinv.list
  refine hinv.reading.missed_le ?_
  rw [hlist, length_listing]
  exact hlast

def postNo (n : Nat) : PostRow := ⟨n, some "a.png", some "title", some "text", 1, some n.repr, 0, n⟩

def threePosts : World :=
  { neighbours with
    db := { neighbours.db with posts := ⟨[postNo 1, postNo 2, postNo 3], 4, by decide, by decide, by decide⟩ } }

/-- Page 1 shows posts 3 and 2. When 3 is deleted, page 2 is empty: post 1
has moved to page 1, and the reader never sees it. -/
theorem slips_past : ∃ s,
    (browsing plainLib).Run (threePosts, .start (listing threePosts.db))
      [.turn, .app (.call ⟨some 1, .postsDestroy ⟨"3", some 3⟩, []⟩), .turn] s ∧
    s.2.seen = [3, 2] ∧ s.2.stayed = [2, 1] ∧ s.2.removed = 1 ∧ (s.2.stayed.countP fun i => i ∉ s.2.seen) ≤ 1 := by
  have hrun : (browsing plainLib).Run (threePosts, .start (listing threePosts.db))
      [.turn, .app (.call ⟨some 1, .postsDestroy ⟨"3", some 3⟩, []⟩), .turn] _ :=
    .cons rfl (.cons rfl (.cons rfl (.nil _)))
  exact ⟨_, hrun, by decide, by decide, by decide,
    dashboard_misses_le plainLib threePosts _ _ _ hrun (by decide)⟩

end Insta.Web
