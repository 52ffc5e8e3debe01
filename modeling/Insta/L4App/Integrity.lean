import Insta.L4App.Effects

/-!
# Rows that other rows refer to are there

Only some of the links between the tables are foreign keys of the schema:
none leads from a subscription to its product or from `posts_tags`. The rest
is kept by the validations and by what a destroy takes along.

* `store_coherent`: whatever requests and webhooks are served, one after the
  other, from a coherent database, the links stay intact, and a subscription
  says of its status and its product what it should.
* `ability_defined`: so `Ability.new` finds the product of the current
  subscription, for every user.
-/
namespace Insta.Web

open Insta.Core Insta.Store Insta.Model Insta.Service

structure Coherent (db : Db) : Prop where
  subscription_user : ∀ s ∈ db.subscriptions.rows, db.users.Has s.userId
  subscription_product : ∀ s ∈ db.subscriptions.rows,
    ∃ p ∈ db.products.rows, p.id = s.productId ∧ p.stripeProductId = s.stripeProductId
  subscription_active : ∀ s ∈ db.subscriptions.rows, s.active = some true ↔ s.status = some "active"
  like_user : ∀ l ∈ db.likes.rows, db.users.Has l.userId
  like_post : ∀ l ∈ db.likes.rows, db.posts.Has l.postId
  post_user : ∀ p ∈ db.posts.rows, db.users.Has p.userId
  profile_user : ∀ p ∈ db.profiles.rows, db.users.Has p.userId
  profile_once : ∀ p ∈ db.profiles.rows, ∀ x ∈ db.profiles.rows, p.userId = x.userId → p = x
  tagged_post : ∀ g ∈ db.postsTags, db.posts.Has g.postId
  tagged_tag : ∀ g ∈ db.postsTags, db.tags.Has g.tagId

theorem coherent_empty : Coherent {} := by
  constructor <;> intro x hx <;> cases hx

section Coherent

variable {db : Db}

/-! ## Users -/

/-- Writes to users that keep the rows. -/
theorem Coherent.users (h : Coherent db) {t : Table UserRow} (ht : ∀ i, db.users.Has i → t.Has i) :
    Coherent { db with users := t } :=
  { h with
    subscription_user := fun s hs => ht _ (h.subscription_user s hs)
    like_user := fun l hl => ht _ (h.like_user l hl)
    post_user := fun p hp => ht _ (h.post_user p hp)
    profile_user := fun p hp => ht _ (h.profile_user p hp) }

/-- A linked row is still the row. -/
theorem has_linked {lib : Lib} {t t' : Table UserRow} {r : UserRow} {a : PasswordAttrs} {c : String} {i : Nat}
    (hi : t.Has i) (h : Linking lib t r a c t') : t'.Has i := by
  cases h with
  | refused _ => exact hi
  | linked _ ht => exact hi.modify ht

/-- A post that `u` does not own stays. -/
theorem has_kept_post {db' : Db} {u i : Nat} (hc : Cascaded db u db') (hi : db.posts.Has i)
    (hown : owns db u i = false) : db'.posts.Has i := by
  obtain ⟨p, hp, rfl⟩ := hi
  have hne : p.userId ≠ u := by
    rw [show owns db u (rowId p) = (p.userId == u) from owns_of_mem hp u] at hown
    simpa using hown
  unfold Table.Has
  rw [hc.posts]
  exact ⟨_, List.mem_map.2 ⟨p, List.mem_filter.2 ⟨hp, by simpa using hne⟩, rfl⟩, rfl⟩

/-- Of the users `u` goes; nothing refers to `u` any more. -/
theorem Coherent.closed {db' : Db} {u : Nat} (h : Coherent db) (hc : Cascaded db u db')
    (href : referred db' u = false) :
    Coherent { db' with users := db.users.delete fun x => x.id == u } := by
  simp only [referred, Bool.or_eq_false_iff, List.any_eq_false, beq_iff_eq] at href
  obtain ⟨⟨⟨hsubs, hprofiles⟩, hposts⟩, hlikes⟩ := href
  have huser : ∀ {i}, i ≠ u → db.users.Has i → (db.users.delete fun x => x.id == u).Has i :=
    fun hne hi => hi.delete fun r _ hr => by
      rw [show r.id = _ from hr]
      simpa using hne
  have hsub : ∀ s ∈ db'.subscriptions.rows, s ∈ db.subscriptions.rows := by
    intro s hs
    rw [hc.subscriptions] at hs
    exact (Table.mem_delete.1 hs).1
  have hprofile : ∀ p ∈ db'.profiles.rows, p ∈ db.profiles.rows := by
    intro p hp
    rcases hc.profiles with ⟨he, -⟩ | ⟨x, -, he⟩ <;> rw [he] at hp
    · exact hp
    · exact (Table.mem_delete.1 hp).1
  have hlike : ∀ l ∈ db'.likes.rows, l ∈ db.likes.rows ∧ owns db u l.postId = false := by
    intro l hl
    rw [hc.likes] at hl
    obtain ⟨hl, hp⟩ := Table.mem_delete.1 hl
    exact ⟨hl, (Bool.or_eq_false_iff.1 hp).1⟩
  have htag : ∀ g ∈ db'.postsTags, g ∈ db.postsTags ∧ owns db u g.postId = false := by
    intro g hg
    rw [hc.postsTags] at hg
    obtain ⟨hg, hp⟩ := List.mem_filter.1 hg
    exact ⟨hg, by simpa using hp⟩
  have hpost : ∀ {i}, db.posts.Has i → owns db u i = false → db'.posts.Has i :=
    fun hi hown => has_kept_post hc hi hown
  refine ⟨fun s hs => huser (hsubs s hs) (h.subscription_user s (hsub s hs)), fun s hs => ?_,
    fun s hs => h.subscription_active s (hsub s hs), fun l hl => huser (hlikes l hl) (h.like_user l (hlike l hl).1),
    fun l hl => hpost (h.like_post l (hlike l hl).1) (hlike l hl).2, fun p hp => ?_,
    fun p hp => huser (hprofiles p hp) (h.profile_user p (hprofile p hp)),
    fun p hp x hx => h.profile_once p (hprofile p hp) x (hprofile x hx),
    fun g hg => hpost (h.tagged_post g (htag g hg).1) (htag g hg).2, fun g hg => ?_⟩
  · exact hc.products ▸ h.subscription_product s (hsub s hs)
  · refine huser (hposts p hp) ?_
    rw [hc.posts] at hp
    obtain ⟨x, hx, rfl⟩ := List.mem_map.1 hp
    exact h.post_user x (List.mem_filter.1 hx).1
  · exact hc.tags ▸ h.tagged_tag g (htag g hg).1

/-! ## The other tables -/

theorem Coherent.countLikes (h : Coherent db) (i : Nat) (n : Int) :
    Coherent { db with posts := countLikes db.posts i n } :=
  { h with
    like_post := fun l hl => has_countLikes (h.like_post l hl)
    post_user := fun p hp => by
      have hp' : p ∈ (Model.countLikes db.posts i n).rows := hp
      rw [rows_countLikes] at hp'
      obtain ⟨x, hx, rfl⟩ := List.mem_map.1 hp'
      split <;> exact h.post_user x hx
    tagged_post := fun g hg => has_countLikes (h.tagged_post g hg) }

theorem Coherent.likes_delete (h : Coherent db) (p : LikeRow → Bool) :
    Coherent { db with likes := db.likes.delete p } :=
  { h with
    like_user := fun l hl => h.like_user l (Table.mem_delete.1 hl).1
    like_post := fun l hl => h.like_post l (Table.mem_delete.1 hl).1 }

theorem Coherent.createLike (h : Coherent db) (post user : Nat) : Coherent (createLike db post user) := by
  rcases createLike_cases db post user with he | ⟨t, huser, hpost, -, ht, he⟩ <;> rw [he]
  · exact h
  · have hliked : Coherent { db with likes := t } :=
      { h with
        like_user := fun l hl => by
          rcases (Table.mem_insert ht).1 hl with hl | rfl
          · exact h.like_user l hl
          · exact Table.has_iff_find.2 huser
        like_post := fun l hl => by
          rcases (Table.mem_insert ht).1 hl with hl | rfl
          · exact h.like_post l hl
          · exact Table.has_iff_find.2 hpost }
    exact hliked.countLikes post 1

theorem Coherent.destroyPost (h : Coherent db) (i : Nat) : Coherent (destroyPost db i) := by
  have hkept : ∀ {j}, j ≠ i → db.posts.Has j → (db.posts.delete fun p => p.id == i).Has j :=
    fun hne hj => hj.delete fun r _ hr => by
      rw [show r.id = _ from hr]
      simpa using hne
  exact
    { h with
      like_user := fun l hl => h.like_user l (Table.mem_delete.1 hl).1
      like_post := fun l hl => by
        obtain ⟨hl, hne⟩ := Table.mem_delete.1 hl
        exact hkept (by simpa using hne) (h.like_post l hl)
      post_user := fun p hp => h.post_user p (Table.mem_delete.1 hp).1
      tagged_post := fun g hg => by
        obtain ⟨hg, hne⟩ := List.mem_filter.1 hg
        exact hkept (by simpa using hne) (h.tagged_post g hg)
      tagged_tag := fun g hg => h.tagged_tag g (List.mem_filter.1 hg).1 }

theorem Coherent.destroyTag (h : Coherent db) (i : Nat) : Coherent (destroyTag db i) :=
  { h with
    tagged_post := fun g hg => h.tagged_post g (List.mem_filter.1 hg).1
    tagged_tag := fun g hg => by
      obtain ⟨hg, hne⟩ := List.mem_filter.1 hg
      refine (h.tagged_tag g hg).delete fun t _ ht => ?_
      rw [show t.id = _ from ht]
      simpa using hne }

/-- What `tag_ids=` has looked up. -/
theorem has_tag {ids : List Nat} {i : Nat} (h : tagsExist db ids = true) (hi : i ∈ ids) : db.tags.Has i :=
  Table.has_iff_find.2 (List.all_eq_true.1 h i hi)

theorem Coherent.postAdded (h : Coherent db) {m : PostRow} {tags : List Nat} {t : Table PostRow}
    (hid : m.id = db.posts.nextId) (huser : (db.users.find m.userId).isSome)
    (htags : tagsExist db tags = true) (ht : db.posts.insert m = some t) :
    Coherent { db with posts := t, postsTags := db.postsTags ++ tags.map fun g => ⟨m.id, g⟩ } :=
  { h with
    like_post := fun l hl => (h.like_post l hl).insert ht
    post_user := fun p hp => by
      rcases (Table.mem_insert ht).1 hp with hp | rfl
      · exact h.post_user p hp
      · exact Table.has_iff_find.2 huser
    tagged_post := fun g hg => by
      rcases List.mem_append.1 hg with hg | hg
      · exact (h.tagged_post g hg).insert ht
      · obtain ⟨i, -, rfl⟩ := List.mem_map.1 hg
        exact ⟨_, (Table.mem_insert ht).2 (.inr rfl), hid.symm⟩
    tagged_tag := fun g hg => by
      rcases List.mem_append.1 hg with hg | hg
      · exact h.tagged_tag g hg
      · obtain ⟨i, hi, rfl⟩ := List.mem_map.1 hg
        exact has_tag htags hi }

theorem Coherent.postSaved (h : Coherent db) {r m : PostRow} {t : Table PostRow} {tags : List PostTag}
    (hr : r ∈ db.posts.rows)
    (htags : tags = db.postsTags ∨ ∃ ids, tagsExist db ids = true ∧
      tags = db.postsTags.filter (fun g => g.postId != r.id) ++ ids.map fun g => ⟨r.id, g⟩)
    (ht : db.posts.modify r.id (fun c =>
      { c with image := m.image, title := m.title, description := m.description, slug := m.slug }) = some t) :
    Coherent { db with posts := t, postsTags := tags } := by
  have hsaved : Coherent { db with posts := t } :=
    { h with
      like_post := fun l hl => (h.like_post l hl).modify ht
      post_user := fun p hp => by
        rcases (Table.mem_modify ht).1 hp with ⟨hp, -⟩ | ⟨x, hx, -, rfl⟩
        · exact h.post_user p hp
        · exact h.post_user x hx
      tagged_post := fun g hg => (h.tagged_post g hg).modify ht }
  rcases htags with rfl | ⟨ids, hids, rfl⟩
  · exact hsaved
  · refine { hsaved with tagged_post := fun g hg => ?_, tagged_tag := fun g hg => ?_ }
    all_goals rcases List.mem_append.1 hg with hg | hg
    · exact hsaved.tagged_post g (List.mem_filter.1 hg).1
    · obtain ⟨i, -, rfl⟩ := List.mem_map.1 hg
      exact (Table.Has.of_mem hr).modify ht
    · exact h.tagged_tag g (List.mem_filter.1 hg).1
    · obtain ⟨i, hi, rfl⟩ := List.mem_map.1 hg
      exact has_tag hids hi

/-- A subscription event leaves its user's and product's row, and the status
it reports. -/
theorem Coherent.subscribed (h : Coherent db) {user : UserRow} {product : ProductRow} {o : StripeObject}
    {t : Table SubscriptionRow} (huser : user ∈ db.users.rows) (hproduct : product ∈ db.products.rows)
    (ht : upsertSubscription db.subscriptions user product o = some t) :
    Coherent { db with subscriptions := t } := by
  have hassigned : ∀ x : SubscriptionRow,
      (∃ p ∈ db.products.rows, p.id = (assignSubscription user product o x).productId ∧
        p.stripeProductId = (assignSubscription user product o x).stripeProductId) ∧
      ((assignSubscription user product o x).active = some true ↔
        (assignSubscription user product o x).status = some "active") :=
    fun x => ⟨⟨product, hproduct, rfl, rfl⟩, by simp [assignSubscription]⟩
  -- every row is an old one, or was assigned from the event
  have hrows : ∀ s ∈ t.rows, s ∈ db.subscriptions.rows ∨
      (db.users.Has s.userId ∧ (∃ p ∈ db.products.rows, p.id = s.productId ∧
        p.stripeProductId = s.stripeProductId) ∧ (s.active = some true ↔ s.status = some "active")) := by
    intro s hs
    rcases rows_upsertSubscription ht with ⟨r, -, hrows⟩ | ⟨-, hrows⟩ <;> rw [hrows] at hs
    · obtain ⟨x, hx, rfl⟩ := List.mem_map.1 hs
      split
      · exact .inr ⟨h.subscription_user x hx, hassigned x⟩
      · exact .inl hx
    · rcases List.mem_append.1 hs with hs | hs
      · exact .inl hs
      · rw [List.mem_singleton.1 hs]
        exact .inr ⟨Table.Has.of_mem huser, hassigned (newSubscription user product o)⟩
  exact
    { h with
      subscription_user := fun s hs => (hrows s hs).elim (h.subscription_user s) (·.1)
      subscription_product := fun s hs => (hrows s hs).elim (h.subscription_product s) (·.2.1)
      subscription_active := fun s hs => (hrows s hs).elim (h.subscription_active s) (·.2.2) }

theorem Coherent.cancelled (h : Coherent db) {r : SubscriptionRow} {t : Table SubscriptionRow}
    (ht : db.subscriptions.modify r.id (fun r =>
      { r with status := some "canceled", active := some false }) = some t) :
    Coherent { db with subscriptions := t } :=
  { h with
    subscription_user := fun s hs => by
      rcases (Table.mem_modify ht).1 hs with ⟨hs, -⟩ | ⟨x, hx, -, rfl⟩
      · exact h.subscription_user s hs
      · exact h.subscription_user x hx
    subscription_product := fun s hs => by
      rcases (Table.mem_modify ht).1 hs with ⟨hs, -⟩ | ⟨x, hx, -, rfl⟩
      · exact h.subscription_product s hs
      · exact h.subscription_product x hx
    subscription_active := fun s hs => by
      rcases (Table.mem_modify ht).1 hs with ⟨hs, -⟩ | ⟨x, hx, -, rfl⟩
      · exact h.subscription_active s hs
      · simp [withId] }

theorem Coherent.destroyProduct (h : Coherent db) (i : Nat) : Coherent (destroyProduct db i) :=
  { h with
    subscription_user := fun s hs => h.subscription_user s (Table.mem_delete.1 hs).1
    subscription_product := fun s hs => by
      obtain ⟨hs, hne⟩ := Table.mem_delete.1 hs
      obtain ⟨p, hp, hid, hstripe⟩ := h.subscription_product s hs
      exact ⟨p, Table.mem_delete.2 ⟨hp, by rw [hid]; exact hne⟩, hid, hstripe⟩
    subscription_active := fun s hs => h.subscription_active s (Table.mem_delete.1 hs).1 }

theorem Coherent.content {w₀ : World} {actor : Option Nat} {q : Request} {db' : Db} (h : Coherent db)
    (hw : ContentWrite w₀ actor q db db') : Coherent db' := by
  cases hw with
  | profileAdded hme hm huser hfree ht =>
    refine { h with profile_user := fun p hp => ?_, profile_once := ?_ }
    · rcases (Table.mem_insert ht).1 hp with hp | rfl
      · exact h.profile_user p hp
      · exact Table.has_iff_find.2 huser
    · exact (Table.writes_insert ht).unique (fun hu => hu.symm) h.profile_once fun x hx _ => hfree x hx
  | profileSaved hme hr hown hm ht =>
    -- the saved row is its user's profile, and was before
    have hwrites := Table.writes_modify hr ht
    refine { h with profile_user := fun p hp => ?_, profile_once := ?_ }
    · rcases hwrites p hp with rfl | ⟨hp, -⟩
      · exact hm ▸ h.profile_user _ hr
      · exact h.profile_user p hp
    · refine hwrites.unique (fun hu => hu.symm) h.profile_once fun x hx hne hu => ?_
      have hxr := h.profile_once x hx _ hr (Eq.trans hu hm)
      exact hne (by rw [hxr, Row.rowId_withId])
  | profileDropped hr hby =>
    exact
      { h with
        profile_user := fun p hp => h.profile_user p (Table.mem_delete.1 hp).1
        profile_once := fun p hp x hx => h.profile_once p (Table.mem_delete.1 hp).1 x (Table.mem_delete.1 hx).1 }
  | postAdded hdb hme hm hid huser htags ht => exact h.postAdded hid huser htags ht
  | postSaved hdb hme hr hown htags ht => exact h.postSaved hr htags ht
  | postDropped hdb hme hr hby => exact h.destroyPost _
  | tagsSaved hids =>
    refine { h with tagged_tag := fun g hg => ?_ }
    obtain ⟨x, hx, hid⟩ := h.tagged_tag g hg
    obtain ⟨y, hy, hxy⟩ := hids x hx
    exact ⟨y, hy, hxy.trans hid⟩
  | tagDropped => exact h.destroyTag _
  | liked hme hq => exact h.createLike _ _
  | unliked hme hl hq => exact (h.likes_delete _).countLikes _ _
  | subscribed hq hs huser hproduct ht => exact h.subscribed huser hproduct ht
  | cancelled hme hr hown ht => exact h.cancelled ht
  | productsSaved hq hkept =>
    refine { h with subscription_product := fun s hs => ?_ }
    obtain ⟨p, hp, hid, hstripe⟩ := h.subscription_product s hs
    obtain ⟨y, hy, hy', hys⟩ := hkept p hp
    exact ⟨y, hy, hy'.trans hid, hys.trans hstripe⟩
  | productDropped hq => exact h.destroyProduct _

end Coherent

/-! ## Every run -/

theorem Coherent.effect {lib : Lib} {w₀ w w' : World} {actor : Option Nat} {q : Request}
    (h : Coherent w.db) (he : Effect lib w₀ actor q w w') : Coherent w'.db := by
  cases he with
  | outside hdb _ => rw [hdb]; exact h
  | created hnew hw ht hc hlink hdb hlog =>
    rw [hdb]
    exact h.users fun i hi => has_linked (hi.insert ht) hlink
  | updated hr hby hw hv ht hdb hlog => rw [hdb]; exact h.users fun i hi => hi.modify ht
  | digested hq hr ht hdb hlog => rw [hdb]; exact h.users fun i hi => hi.modify ht
  | overwritten hq he hk hid hr hw ht hdb hlog => rw [hdb]; exact h.users fun i hi => hi.modify ht
  | issued hq hnew hr hv ht hdb hlog => rw [hdb]; exact h.users fun i hi => hi.modify ht
  | consumed hdb hlog htok => rw [hdb]; exact h
  | closed hby hposts href hdb hlog => rw [hdb]; exact h.closed (destroyUserCascade_spec ..) href
  | content hdb hlog => exact h.content hdb

/-- In a coherent database the current subscription has its product. -/
theorem subscriptionRules_defined {db : Db} (h : Coherent db) (u : UserRow) :
    ∃ rules, subscriptionRules db u = .ok rules := by
  unfold subscriptionRules
  cases hs : currentSubscription db u.id with
  | none => exact ⟨_, rfl⟩
  | some s =>
    obtain ⟨p, hp, hid, -⟩ := h.subscription_product s (Table.mem_of_first hs).1
    have hplan : currentPlan db s = .ok (planOf p.name) := by
      unfold currentPlan
      rw [show db.products.find s.productId = some p from Table.find_eq_some_iff.2 ⟨hp, hid⟩]
    exact ⟨planRules (planOf p.name) (postsCount db u.id), by simp only [hplan]⟩

theorem ability_defined {db : Db} (h : Coherent db) (u : Option UserRow) : ∃ rules, ability db u = .ok rules := by
  cases u with
  | none => exact ⟨_, rfl⟩
  | some u =>
    by_cases hadmin : u.role = .admin
    · exact ⟨adminRules u, by simp [ability, hadmin]⟩
    · obtain ⟨rules, hrules⟩ := subscriptionRules_defined h u
      exact ⟨baseRules (some u) ++ rules, by simp [ability, hadmin, hrules]⟩

/-- The store stays coherent in every run of requests and webhooks. -/
theorem store_coherent (lib : Lib) (w₀ w : World) (ls : List Label) (h₀ : Coherent w₀.db)
    (h : (system lib).Run w₀ ls w) :
    Coherent w.db ∧ ∀ u, ∃ rules, ability w.db u = .ok rules := by
  have hc : Coherent w.db := by
    refine h.keeps (I := fun w => Coherent w.db) (fun a l b ha hs => ?_) h₀
    exact step_keeps hs (fun _ _ _ _ he hc => hc.effect he) ha
  exact ⟨hc, ability_defined hc⟩

def aliceSignsUp : UserParams where
  username := some (some "alice")
  email := some (some "alice@example.com")
  password := some "secret"
  passwordConfirmation := some "secret"

def aliceSubscribes : Event :=
  ⟨.subscriptionCreated, { id := "sub_1", customer := "cus_x", items := some ["prod_2"], status := "active" }⟩

/-- A plan is created at Stripe and imported; alice signs up and subscribes. -/
def openingCalls : List Label :=
  [.account { products := [⟨"prod_2", "#2 Posts", none, true, [], [⟨"price_1", some 500, "usd"⟩]⟩] },
   .call ⟨none, .webhooksStripe (some ⟨.productCreated, { id := "prod_2" }⟩), []⟩,
   .call ⟨none, .signUp aliceSignsUp, []⟩,
   .call ⟨none, .webhooksStripe (some aliceSubscribes), []⟩]

def opened : World := openingCalls.foldl (next plainLib) {}

theorem opened_coherent :
    opened.db.subscriptions.rows.length = 1 ∧ Coherent opened.db ∧ ∀ u, ∃ rules, ability opened.db u = .ok rules :=
  ⟨by decide, store_coherent plainLib {} opened openingCalls coherent_empty (LTS.ofFn_run_iff.2 rfl)⟩

end Insta.Web
