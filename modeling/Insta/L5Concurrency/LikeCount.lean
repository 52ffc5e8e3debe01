import Insta.Core.Threads
import Insta.L2Model.Cascade
import Insta.L4App.System

/-!
# Likes and their counters when requests overlap

A like goes away on its own, with its post, with the user who gave it, with
the owner of its post, or when Stripe reports the customer of one of these
deleted. Each of these paths has to keep `likes_count`, and none of them
holds a lock between what it loaded and what it destroys.

Threads are such requests, with every read of a controller and every save or
destroy as a step of its own (`serial`: without overlap the steps are the
controller's action). Records are as they were loaded: by the time of the
destroy the row may be gone, or its post, or its user.

`likes_counted`: in every state of every schedule the counters are the
numbers of likes and no user likes a post twice.
-/
namespace Insta.Concurrency

open Insta.Core Insta.Store Insta.Store.App Insta.Model Insta.Service Insta.Web

/-- The requests of a session that write likes or remove what they hang on. -/
inductive LikeRequest
  | likesCreate (post user : Nat)
  | likesDestroy (id : Nat)
  | postsDestroy (id : IdParam)
  | usersDestroy (id : IdParam)
  | accountDestroy

def LikeRequest.toRequest : LikeRequest → Request
  | .likesCreate post user => .likesCreate post user
  | .likesDestroy id => .likesDestroy id
  | .postsDestroy id => .postsDestroy id
  | .usersDestroy id => .usersDestroy id
  | .accountDestroy => .accountDestroy

def customerDeletedRequest (c : String) : Request := .webhooksStripe (some ⟨.customerDeleted, { id := c }⟩)

/-- Where a request is; the arguments are the records it has loaded.
* `begun`, `signedIn`: before and after the sign-in filter;
* `delivered`: a `customer.deleted` before its lookup;
* `liking`, `unliking`: before the save and the destroy of a like;
* `postSet`, `postAllowed`, `postFound`: `posts#destroy` after `set_post`,
  after `authorize_user`, and after its own second lookup;
* `allowed`, `found`, `profiled`: `users#destroy` after `authorize_user`,
  with the user, and with the user's profile;
* `closing`: before the destroy of a user. -/
inductive LikeThread
  | begun (actor : Option Nat) (q : LikeRequest)
  | delivered (customer : String)
  | signedIn (me : UserRow) (q : LikeRequest)
  | liking (post : PostRow) (user : Nat)
  | unliking (l : LikeRow)
  | postSet (me : UserRow) (id : IdParam) (r : PostRow)
  | postAllowed (id : IdParam)
  | postFound (r : PostRow)
  | allowed (me : UserRow) (id : IdParam)
  | found (r : UserRow)
  | profiled (r : UserRow) (p : Option ProfileRow)
  | closing (r : UserRow)
  | done

/-- `@like.destroy` of a record loaded earlier: the post is counted down
when a row was deleted. -/
def destroyLoadedLike (db : Db) (l : LikeRow) : Db :=
  if (db.likes.find l.id).isSome then destroyLike db l else db

/-- The next phase once a lookup or a filter has passed; a request that does
not pass is over. -/
def proceed {α : Type} (o : Option α) (next : α → LikeThread) : LikeThread :=
  match o with
  | none => .done
  | some a => next a

/-- What a filter that only reads returned. -/
def passed {α : Type} (x : App α) (w : World) : Option α := (x.run w).1.toOption

/-- The step after the sign-in.
mirrors app/controllers/likes_controller.rb:4-23,
app/controllers/posts_controller.rb:4-11, app/controllers/users_controller.rb:57-75 -/
def firstRead (w : World) (me : UserRow) : LikeRequest → LikeThread
  | .likesCreate post user => proceed (w.db.posts.find post) fun p => .liking p user
  | .likesDestroy id => proceed (w.db.likes.find id) .unliking
  | .postsDestroy id => proceed (friendlyFind PostRow.slug w.db.posts id) (.postSet me id)
  | .usersDestroy id =>
    proceed (passed (authorize (some me) .destroy (.class_ .user)) w) fun _ => .allowed me id
  | .accountDestroy => .closing me

/-- One atomic step of a request. -/
def likeStep (lib : Lib) (w : World) : LikeThread → Option (World × LikeThread)
  | .begun actor q => some (w, proceed (currentUser w actor) fun me => .signedIn me q)
  | .delivered c => some (w, proceed (userOf w c) .closing)
  | .signedIn me q => some (w, firstRead w me q)
  | .liking p user => some ({ w with db := createLike w.db p.id user }, .done)
  | .unliking l => some ({ w with db := destroyLoadedLike w.db l }, .done)
  | .postSet me id r =>
    some (w, proceed (passed (authorize (some me) .destroy (.post r)) w) fun _ => .postAllowed id)
  | .postAllowed id => some (w, proceed (friendlyFind PostRow.slug w.db.posts id) .postFound)
  | .postFound r => some ({ w with db := destroyPost w.db r.id }, .done)
  | .allowed me id =>
    if me.role = .admin then some (w, proceed (friendlyFind UserRow.slug w.db.users id) .found)
    else some (w, .found me)
  | .found r => some (w, .profiled r (profileOf w.db r.id))
  | .profiled r none => some (w, .closing r)
  | .profiled r (some p) => some ({ w with db := destroyProfile w.db p.id }, .closing r)
  | .closing r => some (((destroyUser lib r).run w).2, .done)
  | .done => none

/-- The counters are the numbers of likes, and nobody likes a post twice. -/
structure LikesCounted (db : Db) : Prop where
  counts : ∀ p ∈ db.posts.rows, p.likesCount = likesOf db.likes p.id
  once : ∀ a ∈ db.likes.rows, ∀ b ∈ db.likes.rows, a.userId = b.userId → a.postId = b.postId → a = b

/-- Any database in which the counters are right, and any number of requests
that have not begun. -/
structure LikesStart (s : Sys World LikeThread) : Prop where
  counted : LikesCounted s.shared.db
  threads : ∀ t ∈ s.threads, (∃ actor q, t = .begun actor q) ∨ ∃ c, t = .delivered c

def likeSystem (lib : Lib) : LTS (Sys World LikeThread) Nat := interleave LikesStart (likeStep lib)

/-! ## The steps are the controllers' actions -/

section Serial

variable {lib : Lib} {w : World}

/-- A request runs by itself to its end. -/
abbrev Serial (lib : Lib) (w : World) (t : LikeThread) (w' : World) : Prop :=
  Alone (likeStep lib) .done w t w'

theorem serial_closing (r : UserRow) : Serial lib w (.closing r) ((destroyUser lib r).run w).2 :=
  .step rfl (.done _)

theorem serial_found (r : UserRow) : Serial lib w (.found r) ((destroyWithProfile lib r).run w).2 := by
  unfold destroyWithProfile
  rw [Act.run_modify_bind]
  refine .step rfl ?_
  unfold dropProfile
  cases profileOf w.db r.id with
  | none =>
    refine .step rfl ?_
    exact serial_closing r
  | some p =>
    refine .step rfl ?_
    exact serial_closing r

theorem passed_authenticate (actor : Option Nat) : passed (authenticate actor) w = currentUser w actor := by
  unfold passed authenticate
  rw [Act.run_get_bind]
  cases currentUser w actor <;> rfl

theorem passed_orNotFound {α : Type} (o : Option α) : passed (orNotFound o) w = o := by
  cases o <;> rfl

/-- A filter or lookup and what comes after it. -/
theorem serial_filter {α : Type} {x : App α} {f : α → App Unit} {o : Option α} {next : α → LikeThread}
    (hx : (x.run w).2 = w) (ho : passed x w = o)
    (hrest : ∀ a, x.run w = (.ok a, w) → Serial lib w (next a) ((f a).run w).2) :
    Serial lib w (proceed o next) ((x >>= f).run w).2 := by
  subst ho
  rcases h : x.run w with ⟨e | a, w'⟩ <;> rw [h] at hx <;> cases hx
  · rw [Act.bind_of_error h, passed, h]
    exact .done _
  · rw [Act.bind_of_ok h, passed, h]
    exact hrest a h

theorem serial_delivered (c : String) :
    Serial lib w (.delivered c) ((handle lib none (customerDeletedRequest c)).run w).2 := by
  have hrun : ((handle lib none (customerDeletedRequest c)).run w).2 =
      ((orNotFound (userOf w c) >>= destroyUser lib).run w).2 := by
    refine (congrArg Prod.snd (webhooksStripe_of_customer lib (.inr (.inr rfl)) w)).trans ?_
    unfold handleCustomer
    rw [Act.run_get_bind]
    dsimp only
    cases userOf w c <;> rfl
  rw [hrun]
  exact .step rfl (serial_filter (orNotFound_snd _ w) (passed_orNotFound _) fun r _ => serial_closing r)

theorem serial_begun (actor : Option Nat) (q : LikeRequest) :
    Serial lib w (.begun actor q) ((handle lib actor q.toRequest).run w).2 := by
  refine .step rfl ?_
  cases q with
  | likesCreate post user =>
    show Serial lib w _ ((likesCreate actor post user).run w).2
    unfold likesCreate
    refine serial_filter (authenticate_snd actor w) (passed_authenticate actor) fun me _ => .step rfl ?_
    exact serial_filter (orNotFound_snd _ w) (passed_orNotFound _) fun p _ => .step rfl (.done _)
  | likesDestroy id =>
    show Serial lib w _ ((likesDestroy actor id).run w).2
    unfold likesDestroy
    refine serial_filter (authenticate_snd actor w) (passed_authenticate actor) fun me _ => .step rfl ?_
    refine serial_filter (orNotFound_snd _ w) (passed_orNotFound _) fun l hl => .step rfl ?_
    -- nothing came between the lookup and the destroy
    have hfind : w.db.likes.find l.id = some l := Table.find_of_mem (Table.mem_of_find (orNotFound_ok hl).2).1
    rw [destroyLoadedLike, hfind]
    exact .done _
  | postsDestroy id =>
    have haction : postsDestroy actor id = (do
        let me ← authenticate actor
        let w ← Act.get
        let r ← orNotFound (friendlyFind PostRow.slug w.db.posts id)
        authorize (some me) .destroy (.post r)
        Act.modify fun w => { w with db := destroyPost w.db r.id }) := by
      simp only [postsDestroy, postsDestroyFilters, Act.bind_assoc]
      rfl
    show Serial lib w _ ((postsDestroy actor id).run w).2
    rw [haction]
    refine serial_filter (authenticate_snd actor w) (passed_authenticate actor) fun me _ => .step rfl ?_
    refine serial_filter (orNotFound_snd _ w) (passed_orNotFound _) fun r hr => .step rfl ?_
    refine serial_filter (authorize_snd _ _ _ w) rfl fun _ _ => .step rfl ?_
    rw [(orNotFound_ok hr).2]
    exact .step rfl (.done _)
  | usersDestroy id =>
    show Serial lib w _ ((usersDestroy lib actor id).run w).2
    unfold usersDestroy
    refine serial_filter (authenticate_snd actor w) (passed_authenticate actor) fun me _ => .step rfl ?_
    refine serial_filter (authorize_snd _ _ _ w) rfl fun _ _ => ?_
    by_cases hadmin : me.role = .admin
    · refine .step (by simp only [likeStep, if_pos hadmin]; rfl) ?_
      rw [if_pos hadmin]
      exact serial_filter (orNotFound_snd _ w) (passed_orNotFound _) fun r _ => serial_found r
    · refine .step (by simp only [likeStep, if_neg hadmin]; rfl) ?_
      rw [if_neg hadmin]
      exact serial_found me
  | accountDestroy =>
    show Serial lib w _ ((accountDestroy lib actor).run w).2
    unfold accountDestroy
    exact serial_filter (authenticate_snd actor w) (passed_authenticate actor) fun me _ =>
      .step rfl (serial_closing me)

end Serial

/-! ## What keeps the counters -/

section Counted

variable {db : Db}

/-- A like is added and its post counted up, or nothing happens. -/
theorem LikesCounted.createLike (h : LikesCounted db) (post user : Nat) :
    LikesCounted (createLike db post user) := by
  rcases createLike_cases db post user with he | ⟨t, -, -, hpair, ht, he⟩ <;> rw [he]
  · exact h
  · have honce := (Table.writes_insert ht).unique (S := fun a b => a.userId = b.userId ∧ a.postId = b.postId)
      (fun hab => ⟨hab.1.symm, hab.2.symm⟩) (fun a ha b hb hab => h.once a ha b hb hab.1 hab.2)
      (fun b hb _ hab => hpair b hb hab.1 hab.2)
    refine ⟨fun p hp => ?_, fun a ha b hb hu hq => honce a ha b hb ⟨hu, hq⟩⟩
    rw [rows_countLikes] at hp
    obtain ⟨q, hq, rfl⟩ := List.mem_map.1 hp
    have hold := h.counts q hq
    unfold likesOf at hold ⊢
    rw [Table.rows_insert ht, List.countP_append]
    by_cases hid : q.id = post
    · simp [hid, hold, Row.withId]
    · simp [hid, hold, Row.withId, Ne.symm hid]

theorem likesOf_delete (likes : Table LikeRow) (p : LikeRow → Bool) (i : Nat) :
    likesOf likes i = likesOf (likes.delete p) i + likes.rows.countP fun l => p l && l.postId == i :=
  Table.countP_delete likes p _

theorem LikesCounted.once_delete (h : LikesCounted db) (p : LikeRow → Bool) :
    ∀ a ∈ (db.likes.delete p).rows, ∀ b ∈ (db.likes.delete p).rows,
      a.userId = b.userId → a.postId = b.postId → a = b :=
  fun a ha b hb => h.once a (Table.mem_delete.1 ha).1 b (Table.mem_delete.1 hb).1

/-- A like on its own: one row less, one less in the counter of its post. -/
theorem LikesCounted.destroyLike (h : LikesCounted db) {l : LikeRow} (hl : l ∈ db.likes.rows) :
    LikesCounted (destroyLike db l) := by
  refine ⟨fun p hp => ?_, h.once_delete _⟩
  simp only [Model.destroyLike, rows_countLikes] at hp ⊢
  obtain ⟨q, hq, rfl⟩ := List.mem_map.1 hp
  have hold := h.counts q hq
  have hone : likesOf db.likes q.id =
      likesOf (db.likes.delete fun x => x.id == l.id) q.id + if l.postId == q.id then 1 else 0 :=
    Table.countP_delete_row hl _
  rw [hone] at hold
  by_cases hid : q.id = l.postId
  · simp only [if_pos hid, beq_iff_eq.2 hid.symm, if_true] at hold ⊢
    omega
  · simp only [if_neg hid, beq_eq_false_iff_ne.2 (Ne.symm hid), Bool.false_eq_true, if_false] at hold ⊢
    omega

theorem LikesCounted.destroyLoadedLike (h : LikesCounted db) {l : LikeRow} (hl : db.likes.Loaded l) :
    LikesCounted (destroyLoadedLike db l) := by
  unfold Concurrency.destroyLoadedLike
  split
  · rename_i hfound
    obtain ⟨x, hx⟩ := Option.isSome_iff_exists.1 hfound
    obtain ⟨hmem, hid⟩ := Table.mem_of_find hx
    obtain rfl := hl.row x hmem hid
    exact h.destroyLike hmem
  · exact h

theorem LikesCounted.destroyPost (h : LikesCounted db) (i : Nat) : LikesCounted (destroyPost db i) := by
  refine ⟨fun p hp => ?_, h.once_delete _⟩
  obtain ⟨hp, hne⟩ := Table.mem_delete.1 hp
  have hold := h.counts p hp
  rw [likesOf_delete db.likes (fun l => l.postId == i) p.id] at hold
  have hnone : db.likes.rows.countP (fun l => l.postId == i && l.postId == p.id) = 0 := by
    refine List.countP_eq_zero.2 fun l _ => ?_
    simp only [beq_eq_false_iff_ne] at hne
    simp only [Bool.and_eq_true, beq_iff_eq, not_and]
    exact fun hi hl => hne (hl.symm.trans hi)
  rw [hnone] at hold
  exact hold

/-- The cascade of a user: the posts that stay lose the likes of that user. -/
theorem LikesCounted.cascade {db' : Db} {u : Nat} (h : LikesCounted db) (hc : Cascaded db u db') :
    LikesCounted db' := by
  refine ⟨fun p hp => ?_, by rw [hc.likes]; exact h.once_delete _⟩
  rw [hc.posts] at hp
  obtain ⟨q, hq, rfl⟩ := List.mem_map.1 hp
  obtain ⟨hq, hne⟩ := List.mem_filter.1 hq
  have hkept : owns db u q.id = false := by rw [owns_of_mem hq]; simpa using hne
  have hold := h.counts q hq
  rw [likesOf_delete db.likes (fun l => owns db u l.postId || l.userId == u) q.id] at hold
  have hlost : db.likes.rows.countP (fun l => (owns db u l.postId || l.userId == u) && l.postId == q.id) =
      db.likes.rows.countP fun l => l.userId == u && l.postId == q.id := by
    refine List.countP_congr fun l _ => ?_
    by_cases hl : l.postId = q.id
    · simp [hl, hkept]
    · simp [hl]
  rw [hlost] at hold
  simp only [hc.likes]
  omega

end Counted

/-! ## What a step does to the likes -/

theorem createLike_succ (db : Db) (post user : Nat) : db.likes.Succ (createLike db post user).likes := by
  rcases createLike_cases db post user with he | ⟨t, -, -, -, ht, he⟩ <;> rw [he]
  · exact .refl _
  · exact Table.succ_insert ht

theorem destroyLoadedLike_succ (db : Db) (l : LikeRow) : db.likes.Succ (destroyLoadedLike db l).likes := by
  unfold destroyLoadedLike
  split
  · exact Table.succ_delete _ _
  · exact .refl _

theorem destroyUser_likes (lib : Lib) (r : UserRow) {w : World} (h : LikesCounted w.db) :
    LikesCounted ((destroyUser lib r).run w).2.db ∧
      w.db.likes.Succ ((destroyUser lib r).run w).2.db.likes := by
  obtain ⟨-, hdb | ⟨-, hdb⟩⟩ := destroyUser_db lib r w
  · rw [hdb]
    exact ⟨h, .refl _⟩
  · have hc := destroyUserCascade_spec w.db r.id
    rw [hdb]
    refine ⟨⟨(h.cascade hc).counts, (h.cascade hc).once⟩, ?_⟩
    rw [show ({ destroyUserCascade w.db r.id with users := w.db.users.delete fun x => x.id == r.id } : Db).likes =
      (destroyUserCascade w.db r.id).likes from rfl, hc.likes]
    exact Table.succ_delete _ _

/-- The like a thread is about to destroy is as it was loaded. -/
def LikeThread.Sound (db : Db) : LikeThread → Prop
  | .unliking l => db.likes.Loaded l
  | _ => True

theorem LikeThread.Sound.succ {db db' : Db} {t : LikeThread} (h : t.Sound db) (hs : db.likes.Succ db'.likes) :
    t.Sound db' := by
  cases t with
  | unliking l => exact Table.Loaded.succ h hs
  | _ => trivial

theorem sound_proceed {db : Db} {α : Type} {o : Option α} {next : α → LikeThread}
    (h : ∀ a, o = some a → (next a).Sound db) : (proceed o next).Sound db := by
  cases o with
  | none => trivial
  | some a => exact h a rfl

/-- A step keeps the counters and the loaded likes. -/
theorem likeStep_keeps {lib : Lib} {w w' : World} {t t' : LikeThread} (hc : LikesCounted w.db)
    (ht : t.Sound w.db) (h : likeStep lib w t = some (w', t')) :
    LikesCounted w'.db ∧ t'.Sound w'.db ∧ w.db.likes.Succ w'.db.likes := by
  cases t with
  | begun actor q => cases h; exact ⟨hc, sound_proceed fun _ _ => trivial, .refl _⟩
  | delivered c => cases h; exact ⟨hc, sound_proceed fun _ _ => trivial, .refl _⟩
  | signedIn me q =>
    cases h
    refine ⟨hc, ?_, .refl _⟩
    cases q with
    | likesDestroy id => exact sound_proceed fun l hl => .of_mem (Table.mem_of_find hl).1
    | accountDestroy => trivial
    | _ => exact sound_proceed fun _ _ => trivial
  | liking p user => cases h; exact ⟨hc.createLike p.id user, trivial, createLike_succ ..⟩
  | unliking l => cases h; exact ⟨hc.destroyLoadedLike ht, trivial, destroyLoadedLike_succ ..⟩
  | postSet me id r => cases h; exact ⟨hc, sound_proceed fun _ _ => trivial, .refl _⟩
  | postAllowed id => cases h; exact ⟨hc, sound_proceed fun _ _ => trivial, .refl _⟩
  | postFound r => cases h; exact ⟨hc.destroyPost r.id, trivial, Table.succ_delete ..⟩
  | allowed me id =>
    simp only [likeStep] at h
    split at h <;> cases h
    · exact ⟨hc, sound_proceed fun _ _ => trivial, .refl _⟩
    · exact ⟨hc, trivial, .refl _⟩
  | found r => cases h; exact ⟨hc, trivial, .refl _⟩
  | profiled r p =>
    -- a profile has no likes
    cases p with
    | none => cases h; exact ⟨hc, trivial, .refl _⟩
    | some p => cases h; exact ⟨⟨hc.counts, hc.once⟩, trivial, .refl _⟩
  | closing r =>
    cases h
    obtain ⟨hc', hs⟩ := destroyUser_likes lib r hc
    exact ⟨hc', trivial, hs⟩
  | done => cases h

/-! ## Every schedule -/

structure LikesInv (s : Sys World LikeThread) : Prop where
  counted : LikesCounted s.shared.db
  loaded : ∀ t ∈ s.threads, t.Sound s.shared.db

theorem likesInv_step {lib : Lib} {s s' : Sys World LikeThread} {i : Nat} (hi : LikesInv s)
    (h : fire (likeStep lib) s i = some s') : LikesInv s' := by
  obtain ⟨t, w', t', ht, hstep, rfl⟩ := fire_cases h
  obtain ⟨hc, hsound, hsucc⟩ := likeStep_keeps hi.counted (hi.loaded t (List.mem_of_getElem? ht)) hstep
  refine ⟨hc, fun x hx => ?_⟩
  rcases List.mem_or_eq_of_mem_set hx with hx | rfl
  · exact (hi.loaded x hx).succ hsucc
  · exact hsound

theorem likes_counted (lib : Lib) (s : Sys World LikeThread) (h : (likeSystem lib).Reachable s) :
    (∀ p ∈ s.shared.db.posts.rows, p.likesCount = likesOf s.shared.db.likes p.id) ∧
    ∀ a ∈ s.shared.db.likes.rows, ∀ b ∈ s.shared.db.likes.rows,
      a.userId = b.userId → a.postId = b.postId → a = b := by
  have hind : (likeSystem lib).Inductive LikesInv := by
    refine ⟨fun s hs => ⟨hs.counted, fun t ht => ?_⟩, fun s i s' hi hs => likesInv_step hi hs⟩
    rcases hs.threads t ht with ⟨actor, q, rfl⟩ | ⟨c, rfl⟩ <;> trivial
  have hc := (hind.reachable s h).counted
  exact ⟨hc.counts, hc.once⟩

/-! ## Two requests for one like -/

/-- The user of `shop` with one post. -/
def onePost : World := { shop with db := { shop.db with posts := firstPosts } }

def twoLikes : Sys World LikeThread :=
  ⟨onePost, [.begun (some 1) (.likesCreate 1 1), .begun (some 1) (.likesCreate 1 1)]⟩

theorem twoLikes_start : LikesStart twoLikes where
  counted := ⟨by decide, fun _ ha => by cases ha⟩
  threads := by
    intro t ht
    rcases List.mem_cons.1 ht with rfl | ht
    · exact .inl ⟨_, _, rfl⟩
    · rw [List.mem_singleton.1 ht]
      exact .inl ⟨_, _, rfl⟩

/-- Both requests load the post before either saves. -/
def racedLikes : Sys World LikeThread :=
  ([0, 1, 0, 1, 0, 1].foldlM (fire (likeStep plainLib)) twoLikes).getD twoLikes

theorem raced_likes_counted :
    (likeSystem plainLib).Reachable racedLikes ∧ racedLikes.shared.db.likes.rows.length = 1 ∧
    (∀ p ∈ racedLikes.shared.db.posts.rows, p.likesCount = likesOf racedLikes.shared.db.likes p.id) ∧
    ∀ a ∈ racedLikes.shared.db.likes.rows, ∀ b ∈ racedLikes.shared.db.likes.rows,
      a.userId = b.userId → a.postId = b.postId → a = b := by
  have hreach : (likeSystem plainLib).Reachable racedLikes :=
    ⟨twoLikes, [0, 1, 0, 1, 0, 1], twoLikes_start, LTS.ofFn_run_iff.2 rfl⟩
  exact ⟨hreach, by decide, likes_counted plainLib racedLikes hreach⟩

end Insta.Concurrency
