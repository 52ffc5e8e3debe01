import Insta.L4App.Effects

/-!
# What is stored passes its validations

Posts, tags and profiles are written by their own actions only, each through
`save`, `save!` or `update`; likes touch the counter of a post, and closing
an account takes content away.

`ContentStep` says it once, with what was checked: every request is a
sequence of such steps (`handle_contents`). From it:

* `stored_content_valid`: in every state of every run from a start in which
  it is so, every post has an image, a title and a description, every tag a
  name that starts with `#`, every profile its names, address and a numeric
  phone, and all of them a slug that is not a reserved word; no two tags have
  one name or one slug, and no user has two profiles.
-/
namespace Insta.Web

open Insta.Core Insta.Store Insta.Store.App Insta.Model Insta.Service

/-! ## Steps -/

/-- The attributes `posts#update` writes. -/
def writePost (m c : PostRow) : PostRow :=
  { c with image := m.image, title := m.title, description := m.description, slug := m.slug }

/-- What a request does to posts, tags and profiles at one time. -/
inductive ContentStep (lib : Lib) (w w' : World) : Prop
  | fewer
    (hposts : ∀ p' ∈ w'.db.posts.rows, ∃ p ∈ w.db.posts.rows, p' = { p with likesCount := p'.likesCount })
    (htags : ∀ g ∈ w'.db.tags.rows, g ∈ w.db.tags.rows)
    (hprofiles : ∀ p ∈ w'.db.profiles.rows, p ∈ w.db.profiles.rows)
  | postAdded {u : Nat} {p : PostParams} (hv : validPost lib w.db (newPost lib w u p) = true)
    (ht : w.db.posts.insert (newPost lib w u p) = some w'.db.posts)
    (htags : w'.db.tags = w.db.tags) (hprofiles : w'.db.profiles = w.db.profiles)
  | postSaved {r : PostRow} {p : PostParams} (hr : r ∈ w.db.posts.rows)
    (hv : validPost lib w.db (assignPost lib w.db.posts r p) = true)
    (ht : w.db.posts.modify r.id (writePost (assignPost lib w.db.posts r p)) = some w'.db.posts)
    (htags : w'.db.tags = w.db.tags) (hprofiles : w'.db.profiles = w.db.profiles)
  | tagAdded {name : Option (Option String)} (hv : validTag lib w.db none (assignTag lib w.db none name) = true)
    (ht : w.db.tags.insert (assignTag lib w.db none name) = some w'.db.tags)
    (hposts : w'.db.posts = w.db.posts) (hprofiles : w'.db.profiles = w.db.profiles)
  | tagSaved {r : TagRow} {name : Option (Option String)} (hr : r ∈ w.db.tags.rows)
    (hv : validTag lib w.db (some r.id) (assignTag lib w.db (some r) name) = true)
    (ht : w.db.tags.modify r.id (fun _ => assignTag lib w.db (some r) name) = some w'.db.tags)
    (hposts : w'.db.posts = w.db.posts) (hprofiles : w'.db.profiles = w.db.profiles)
  | profileAdded {u : Nat} {p : ProfileParams}
    (hv : validProfile lib w.db none (assignProfile lib w.db u none p) = true)
    (ht : w.db.profiles.insert (assignProfile lib w.db u none p) = some w'.db.profiles)
    (hposts : w'.db.posts = w.db.posts) (htags : w'.db.tags = w.db.tags)
  | profileSaved {u : Nat} {r : ProfileRow} {p : ProfileParams} (hr : r ∈ w.db.profiles.rows)
    (hv : validProfile lib w.db (some r.id) (assignProfile lib w.db u (some r) p) = true)
    (ht : w.db.profiles.modify r.id (fun _ => assignProfile lib w.db u (some r) p) = some w'.db.profiles)
    (hposts : w'.db.posts = w.db.posts) (htags : w'.db.tags = w.db.tags)

theorem ContentStep.same {lib : Lib} {w w' : World} (hposts : w'.db.posts = w.db.posts)
    (htags : w'.db.tags = w.db.tags) (hprofiles : w'.db.profiles = w.db.profiles) : ContentStep lib w w' :=
  .fewer (fun p hp => ⟨p, hposts ▸ hp, rfl⟩) (fun _ hg => htags ▸ hg) fun _ hp => hprofiles ▸ hp

def contents (lib : Lib) : Frame World where
  rel := Relation.ReflTransGen (ContentStep lib)
  refl _ := .refl
  trans := Relation.ReflTransGen.trans

/-- Of the tables only users change. -/
def usersOnly : Frame World where
  rel w w' := ∃ t, w'.db = { w.db with users := t }
  refl w := ⟨w.db.users, rfl⟩
  trans := by
    rintro a b c ⟨_, h₁⟩ ⟨t, h₂⟩
    exact ⟨t, by rw [h₂, h₁]⟩

section Handlers

variable {lib : Lib} {actor : Option Nat} {α : Type}

theorem ContentStep.holds {x : App α} {w : World} (h : ContentStep lib w (x.run w).2) : (contents lib).Holds x w :=
  .single h

theorem usersOnly.contents {x : App α} {w : World} (h : usersOnly.Holds x w) : (Web.contents lib).Holds x w := by
  obtain ⟨t, ht⟩ := h
  exact ContentStep.holds (.same (by rw [ht]) (by rw [ht]) (by rw [ht]))

theorem usersOnly_of_db {x : App α} {w : World} (h : (x.run w).2.db = w.db) : usersOnly.Holds x w :=
  ⟨w.db.users, h⟩

theorem stripeOnly.usersOnly {x : App α} {w : World} (h : stripeOnly.Holds x w) : usersOnly.Holds x w := by
  obtain ⟨st, sc, hw⟩ := h
  exact usersOnly_of_db (by rw [hw])

theorem stripeOnly.contents {x : App α} {w : World} (h : stripeOnly.Holds x w) : (Web.contents lib).Holds x w :=
  usersOnly.contents (stripeOnly.usersOnly h)

/-! ## Requests about users -/

theorem usersOnly_update (r : UserRow) (p : UserPatch) (a : PasswordAttrs) (w : World) :
    usersOnly.Holds (update lib r p a) w := by
  rcases update_cases lib r p a w with ⟨-, h⟩ | ⟨-, st, sc, ⟨e, h⟩ | ⟨t, -, -, h⟩⟩
  · exact usersOnly_of_db (by rw [h])
  · exact usersOnly_of_db (by rw [h])
  · exact ⟨t, by rw [h]; rfl⟩

theorem usersOnly_saveUpdate (r m : UserRow) (w : World) : usersOnly.Holds (Act.atomically (saveUpdate r m)) w := by
  obtain ⟨st, sc, ⟨e, t, h⟩ | ⟨t, -, h⟩⟩ := saveUpdate_cases r m w
  · exact usersOnly_of_db (by rw [Act.atomically_of_error h]; rfl)
  · exact ⟨t, by rw [Act.atomically_of_ok h]; rfl⟩

theorem usersOnly_insertUser (m : UserRow) (a : PasswordAttrs) (w : World) :
    usersOnly.Holds (Act.atomically (insertUser lib m a)) w := by
  rcases h : (insertUser lib m a).run w with ⟨e | r, w'⟩
  · exact usersOnly_of_db (by rw [Act.atomically_of_error h]; rfl)
  · obtain ⟨-, t, t', c, -, -, -, hdb, -⟩ := insertUser_spec h
    exact ⟨t', by rw [Act.atomically_of_ok h]; exact hdb⟩

theorem usersOnly_create (p : UserPatch) (a : PasswordAttrs) (w : World) : usersOnly.Holds (create lib p a) w := by
  refine .get_bind (.ite (fun _ => ?_) fun _ => .pure _ w)
  refine Frame.Holds.bind ?_ fun _ w' _ => .pure _ w'
  by_cases hp : p.role = some none
  · rw [if_pos hp]
    exact usersOnly_of_db rfl
  · rw [if_neg hp]
    exact usersOnly_insertUser _ a w

theorem usersOnly_resetFor (r : UserRow) (p : ResetParams) (w : World) : usersOnly.Holds (resetFor lib r p) w := by
  unfold resetFor
  dsimp only
  split
  · exact .raise _ w
  · refine (usersOnly_update r _ p.attrs w).bind fun ok w₁ _ => .ite (fun _ => ?_) fun _ => .pure _ w₁
    have hlog : usersOnly.Holds (logReset r) w₁ := by
      refine usersOnly_of_db ?_
      unfold logReset
      rw [Act.run_modify]
      split <;> rfl
    refine hlog.bind fun _ w₂ _ => ?_
    exact (holds_of_snd rfl).bind fun r' w₃ _ => holds_ignore (usersOnly_update r' _ p.attrs w₃)

theorem usersOnly_invite (r : UserRow) (token : Hex 10) (a : PasswordAttrs) (w : World) :
    usersOnly.Holds (invite lib r token a) w := by
  refine (holds_of_snd rfl).bind fun r' w₁ _ => Frame.Holds.bind ?_ fun _ w₂ _ => ?_
  · refine .get_bind ((usersOnly_update r' _ a w₁).bind fun ok w₂ _ => ?_)
    exact .ite (fun _ => usersOnly_of_db rfl) fun _ => .pure _ w₂
  · exact (stripeOnly.usersOnly (external_stripeOnly w₂)).bind fun _ w₃ _ => usersOnly_of_db rfl

theorem usersOnly_getCustomer (c : String) (w : World) : usersOnly.Holds (getCustomerFromStripe lib c) w := by
  refine (stripeOnly.usersOnly (customerRetrieve_stripeOnly c w)).bind fun k w₁ _ => .get_bind (.get_bind ?_)
  split
  · exact usersOnly_saveUpdate _ _ w₁
  · exact holds_ignore (usersOnly_insertUser _ _ w₁)

/-! ## Closing an account -/

theorem contents_destroyUser (r : UserRow) (w : World) : (contents lib).Holds (destroyUser lib r) w := by
  obtain ⟨-, hdb | ⟨-, hdb⟩⟩ := destroyUser_db lib r w
  · exact ContentStep.holds (.same (by rw [hdb]) (by rw [hdb]) (by rw [hdb]))
  · have hgone := destroyUserCascade_spec w.db r.id
    refine ContentStep.holds (.fewer (fun p' hp' => ?_) (fun g hg => ?_) fun p' hp' => ?_)
    · rw [hdb] at hp'
      obtain ⟨p, hp, rfl⟩ := List.mem_map.1 (hgone.posts ▸ hp')
      exact ⟨p, (List.mem_filter.1 hp).1, rfl⟩
    · rw [hdb] at hg
      exact hgone.tags ▸ hg
    · rw [hdb] at hp'
      rcases hgone.profiles with ⟨hsame, -⟩ | ⟨p, -, hless⟩
      · exact hsame ▸ hp'
      · exact (Table.mem_delete.1 (hless ▸ hp')).1

theorem contents_destroyWithProfile (r : UserRow) (w : World) :
    (contents lib).Holds (destroyWithProfile lib r) w := by
  refine Frame.Holds.bind (ContentStep.holds ?_) fun _ w₁ _ => contents_destroyUser r w₁
  rw [Act.run_modify]
  unfold dropProfile
  split
  · exact .same rfl rfl rfl
  · exact .fewer (fun p hp => ⟨p, hp, rfl⟩) (fun _ hg => hg) fun _ hp => (Table.mem_delete.1 hp).1

/-! ## Requests about content -/

theorem contents_saveProfile {u : Nat} {old : Option ProfileRow} {p : ProfileParams} {w : World}
    (hold : ∀ r, old = some r → r ∈ w.db.profiles.rows) : (contents lib).Holds (saveProfile lib u old p) w := by
  refine .get_bind (.ite (fun hv => ?_) fun _ => .pure _ w)
  cases old with
  | none =>
    split
    · exact .raise _ w
    · rename_i t ht
      exact ContentStep.holds (.profileAdded hv ht rfl rfl)
  | some r =>
    split
    · exact .raise _ w
    · rename_i t ht
      exact ContentStep.holds (.profileSaved (hold r rfl) hv ht rfl rfl)

theorem contents_profiles (w : World) : (∀ p, (contents lib).Holds (profilesCreate lib actor p) w) ∧
    (∀ p, (contents lib).Holds (profilesUpdate lib actor p) w) ∧ (contents lib).Holds (profilesDestroy actor) w := by
  refine ⟨fun p => ?_, fun p => ?_, ?_⟩ <;> refine holds_authenticate fun me _ _ => holds_authorize ?_
  · refine (contents_saveProfile fun r h => by cases h).bind fun ok w' _ => ?_
    exact .ite (fun _ => .raise _ w') fun _ => .pure _ w'
  · refine .get_bind ?_
    split
    · exact .raise _ w
    · rename_i r hr
      exact holds_ignore (contents_saveProfile fun x hx => by cases hx; exact (mem_of_profileOf hr).1)
  · refine .get_bind ?_
    split
    · exact .raise _ w
    · exact ContentStep.holds
        (.fewer (fun p hp => ⟨p, hp, rfl⟩) (fun _ hg => hg) fun _ hp => (Table.mem_delete.1 hp).1)

theorem contents_savePost (u : Nat) (p : PostParams) (w : World) : (contents lib).Holds (savePost lib u p) w := by
  refine .get_bind ?_
  dsimp only
  split
  · exact .raise _ w
  · split
    · exact .raise _ w
    · rename_i hv
      split
      · exact .raise _ w
      · rename_i t ht
        exact ContentStep.holds (.postAdded (by simpa using hv) ht rfl rfl)

theorem contents_updatePost {r : PostRow} (p : PostParams) {w : World} (hr : r ∈ w.db.posts.rows) :
    (contents lib).Holds (updatePost lib r p) w := by
  refine .get_bind ?_
  dsimp only
  split
  · exact .raise _ w
  · split
    · rename_i hv
      split
      · exact .raise _ w
      · rename_i t ht
        exact ContentStep.holds (.postSaved hr hv ht rfl rfl)
    · exact .pure _ w

theorem contents_posts (w : World) : (∀ p, (contents lib).Holds (postsCreate lib actor p) w) ∧
    (∀ id p, (contents lib).Holds (postsUpdate lib actor id p) w) ∧
    ∀ id, (contents lib).Holds (postsDestroy actor id) w := by
  refine ⟨fun p => ?_, fun id p => ?_, fun id => ?_⟩
  · exact (holds_of_snd (postsCreateFilters_snd actor w)).bind fun me w' _ => contents_savePost me.id p w'
  · exact holds_authenticate fun me _ _ => .get_bind <| holds_orNotFound fun r hr =>
      holds_authorize <| holds_ignore (contents_updatePost p (mem_of_friendlyFind hr))
  · refine (holds_of_snd (postsDestroyFilters_snd actor id w)).bind fun r w' _ => ContentStep.holds ?_
    exact .fewer (fun p hp => ⟨p, (Table.mem_delete.1 hp).1, rfl⟩) (fun _ hg => hg) fun _ hp => hp

theorem contents_saveTag {old : Option TagRow} {name : Option (Option String)} {w : World}
    (hold : ∀ r, old = some r → r ∈ w.db.tags.rows) : (contents lib).Holds (saveTag lib old name) w := by
  refine .get_bind (.ite (fun hv => ?_) fun _ => .pure _ w)
  cases old with
  | none =>
    split
    · exact .raise _ w
    · rename_i t ht
      exact ContentStep.holds (.tagAdded hv ht rfl rfl)
  | some r =>
    split
    · exact .raise _ w
    · rename_i t ht
      exact ContentStep.holds (.tagSaved (hold r rfl) hv ht rfl rfl)

theorem contents_tags (w : World) : (∀ n, (contents lib).Holds (tagsCreate lib actor n) w) ∧
    (∀ id n, (contents lib).Holds (tagsUpdate lib actor id n) w) ∧
    ∀ id, (contents lib).Holds (tagsDestroy actor id) w := by
  refine ⟨fun n => ?_, fun id n => ?_, fun id => ?_⟩ <;> refine holds_authenticate fun _ _ _ => ?_
  · exact holds_ignore (contents_saveTag fun r h => by cases h)
  · exact .get_bind <| holds_orNotFound fun r hr =>
      holds_ignore (contents_saveTag fun x hx => by cases hx; exact mem_of_friendlyFind hr)
  · exact .get_bind <| holds_orNotFound fun r _ =>
      ContentStep.holds (.fewer (fun p hp => ⟨p, hp, rfl⟩) (fun _ hg => (Table.mem_delete.1 hg).1) fun _ hp => hp)

/-- A counted like changes the counter and nothing else of the post. -/
theorem mem_countLikes {posts : Table PostRow} {i : Nat} {n : Int} {p' : PostRow}
    (h : p' ∈ (countLikes posts i n).rows) : ∃ p ∈ posts.rows, p' = { p with likesCount := p'.likesCount } := by
  rw [rows_countLikes] at h
  obtain ⟨p, hp, rfl⟩ := List.mem_map.1 h
  refine ⟨p, hp, ?_⟩
  split <;> rfl

theorem contents_likes (w : World) : (∀ p u, (contents lib).Holds (likesCreate actor p u) w) ∧
    ∀ id, (contents lib).Holds (likesDestroy actor id) w := by
  refine ⟨fun p u => ?_, fun id => ?_⟩ <;>
    refine holds_authenticate fun _ _ _ => .get_bind <| holds_orNotFound fun x _ => ContentStep.holds ?_
  · rw [Act.run_modify]
    rcases createLike_cases w.db x.id u with h | ⟨t, -, -, -, -, h⟩ <;> dsimp only <;> rw [h]
    · exact .same rfl rfl rfl
    · exact .fewer (fun p hp => mem_countLikes hp) (fun _ hg => hg) fun _ hp => hp
  · exact .fewer (fun p hp => mem_countLikes hp) (fun _ hg => hg) fun _ hp => hp

/-! ## Requests about subscriptions and products -/

theorem contents_subscriptions (w : World) : (∀ p, (contents lib).Holds (subscriptionsCreate actor p) w) ∧
    ∀ s, (contents lib).Holds (subscriptionsDestroy actor s) w := by
  refine ⟨fun p => ?_, fun s => ?_⟩ <;> refine holds_authenticate fun me _ _ => .get_bind ?_
  · split
    · exact .pure _ w
    · exact .rescue (stripeOnly.contents (external_stripeOnly w))
  · split
    · exact .pure _ w
    · refine (stripeOnly.contents (subscriptionCancel_stripeOnly s w)).bind fun _ w' _ => .get_bind ?_
      split
      · exact .raise _ w'
      · exact ContentStep.holds (.same rfl rfl rfl)

theorem contents_handleProduct (e : Event) (w : World) : (contents lib).Holds (handleProduct e) w := by
  have hsync : (contents lib).Holds (syncProductFromStripe e.object.id) w := by
    refine (stripeOnly.contents (productRetrieve_stripeOnly _ w)).bind fun p w₁ _ => ?_
    refine (stripeOnly.contents (priceList_stripeOnly p w₁)).bind fun prices w₂ _ => .get_bind ?_
    split
    · exact .raise _ w₂
    · refine Frame.Holds.bind (.ite (fun _ => .pure _ w₂) fun _ => ?_) fun _ w₃ _ => .get_bind ?_
      · exact (stripeOnly.contents (external_stripeOnly w₂))
      · split
        · exact .raise _ w₃
        · exact ContentStep.holds (.same rfl rfl rfl)
  unfold handleProduct
  split
  · exact hsync
  · exact hsync
  · refine ContentStep.holds ?_
    rw [Act.run_modify]
    unfold dropProduct
    split <;> exact .same rfl rfl rfl
  · exact .pure _ w

theorem contents_handleSubscription (e : Event) (w : World) : (contents lib).Holds (handleSubscription e) w := by
  have hsync : (contents lib).Holds (syncSubscriptionFromStripe e.object) w := by
    cases h : eventTarget w e.object with
    | none => exact holds_of_snd (syncSubscription_of_no_target h)
    | some target =>
      obtain ⟨t, -, hrun⟩ := @syncSubscription_of_target _ _ target.1 target.2 h
      refine ContentStep.holds ?_
      rw [hrun]
      exact .same rfl rfl rfl
  unfold handleSubscription
  split
  · exact hsync
  · exact hsync
  · exact hsync
  · exact .pure _ w
  · exact .pure _ w

theorem contents_handleCustomer (e : Event) (w : World) : (contents lib).Holds (handleCustomer lib e) w := by
  unfold handleCustomer
  split
  · exact usersOnly.contents (usersOnly_getCustomer _ w)
  · exact usersOnly.contents (usersOnly_getCustomer _ w)
  · refine .get_bind ?_
    split
    · exact .pure _ w
    · exact contents_destroyUser _ w
  · exact .pure _ w

/-! ## All requests -/

theorem handle_contents (lib : Lib) (actor : Option Nat) (q : Request) (w : World) :
    (contents lib).Holds (handle lib actor q) w := by
  cases q with
  | signUp p =>
    exact usersOnly.contents (holds_ifGuest <| holds_assignRole fun role _ => holds_ignore (usersOnly_create _ _ w))
  | accountUpdate pw p =>
    exact usersOnly.contents (holds_authenticate fun me _ _ => holds_assignRole fun role _ =>
      .ite (fun _ => holds_ignore (usersOnly_update me _ _ w)) fun _ => .pure _ w)
  | accountDestroy => exact holds_authenticate fun me _ _ => contents_destroyUser me w
  | forgotPassword e raw =>
    refine usersOnly.contents (holds_ifGuest <| .get_bind <| .ite (fun _ => ?_) fun _ => .pure _ w)
    split
    · exact .pure _ w
    · exact usersOnly_saveUpdate _ _ w
  | devisePasswordUpdate raw a =>
    refine usersOnly.contents (holds_ifGuest <| .get_bind ?_)
    split
    · exact .pure _ w
    · refine .ite (fun _ => .pure _ w) fun _ => ?_
      split
      · exact .pure _ w
      · exact .ite (fun _ => holds_ignore (usersOnly_update _ _ _ w)) fun _ => .pure _ w
  | passwordsUpdate params =>
    show (contents lib).Holds (passwordsUpdate lib params) w
    unfold passwordsUpdate
    split
    · exact .raise _ w
    · refine usersOnly.contents (.get_bind ?_)
      split
      · exact .pure _ w
      · exact usersOnly_resetFor _ _ w
  | usersCreate p token =>
    refine usersOnly.contents (holds_authenticate fun me _ _ => holds_assignRole fun role _ => ?_)
    refine (usersOnly_create _ _ w).bind fun created w₁ _ => ?_
    split
    · exact .raise _ w₁
    · exact .ite (fun _ => usersOnly_invite _ token _ w₁) fun _ => .pure _ w₁
  | usersUpdate id p =>
    exact usersOnly.contents (holds_authenticate fun _ _ _ => .get_bind <| holds_orNotFound fun r _ =>
      holds_assignRole fun role _ => holds_ignore (usersOnly_update r _ _ w))
  | usersDestroy id =>
    refine holds_authenticate fun me _ _ => holds_authorize (.ite (fun _ => .get_bind ?_) fun _ => ?_)
    · exact holds_orNotFound fun r _ => contents_destroyWithProfile r w
    · exact contents_destroyWithProfile me w
  | profilesCreate p => exact (contents_profiles w).1 p
  | profilesUpdate p => exact (contents_profiles w).2.1 p
  | profilesDestroy => exact (contents_profiles w).2.2
  | postsCreate p => exact (contents_posts w).1 p
  | postsUpdate id p => exact (contents_posts w).2.1 id p
  | postsDestroy id => exact (contents_posts w).2.2 id
  | tagsCreate n => exact (contents_tags w).1 n
  | tagsUpdate id n => exact (contents_tags w).2.1 id n
  | tagsDestroy id => exact (contents_tags w).2.2 id
  | likesCreate p u => exact (contents_likes w).1 p u
  | likesDestroy id => exact (contents_likes w).2 id
  | subscriptionsCreate p => exact (contents_subscriptions w).1 p
  | subscriptionsDestroy s => exact (contents_subscriptions w).2 s
  | webhooksStripe payload =>
    show (contents lib).Holds (webhooksStripe lib payload) w
    unfold webhooksStripe
    split
    · exact .pure _ w
    · rename_i e
      exact (contents_handleCustomer e w).bind fun _ w₁ _ =>
        (contents_handleProduct e w₁).bind fun _ w₂ _ => contents_handleSubscription e w₂

end Handlers

/-! ## What the validations leave -/

/-- A slug that is no reserved word. -/
def GoodSlug (slug : Option String) : Prop := ∃ s, slug = some s ∧ s ∉ reservedWords

structure PostOk (lib : Lib) (p : PostRow) : Prop where
  image : lib.present p.image = true
  title : lib.present p.title = true
  description : lib.present p.description = true
  slug : GoodSlug p.slug

structure TagOk (lib : Lib) (g : TagRow) : Prop where
  name : lib.present g.name = true
  hash : g.name.all (fun n => n.toList.head? == some '#') = true
  slug : GoodSlug g.slug

structure ProfileOk (lib : Lib) (p : ProfileRow) : Prop where
  firstName : lib.present p.firstName = true
  lastName : lib.present p.lastName = true
  phone : lib.present p.phone = true
  numeric : p.phone.all lib.numeric = true
  address : lib.present p.address = true
  slug : GoodSlug p.slug

structure ValidContent (lib : Lib) (db : Db) : Prop where
  posts : ∀ p ∈ db.posts.rows, PostOk lib p
  tags : ∀ g ∈ db.tags.rows, TagOk lib g
  profiles : ∀ p ∈ db.profiles.rows, ProfileOk lib p
  tagNames : ∀ a ∈ db.tags.rows, ∀ b ∈ db.tags.rows, a.name = b.name → a = b
  tagSlugs : ∀ a ∈ db.tags.rows, ∀ b ∈ db.tags.rows, a.slug = b.slug → a = b
  owners : ∀ a ∈ db.profiles.rows, ∀ b ∈ db.profiles.rows, a.userId = b.userId → a = b

section Validations

variable {lib : Lib} {w w' : World} {db : Db}

theorem isSome_of_present {o : Option String} (h : lib.present o = true) : o.isSome = true := by
  cases o with
  | none => cases h
  | some s => rfl

/-- With a base there is a slug; validation refuses the reserved words. -/
theorem goodSlug_setSlug {changed : Bool} {base slug : Option String} {taken : List String}
    (hbase : base.isSome = true) (hallowed : slugAllowed (setSlug lib changed base slug taken) = true) :
    GoodSlug (setSlug lib changed base slug taken) := by
  have hsome : (setSlug lib changed base slug taken).isSome = true := by
    unfold setSlug
    cases slug with
    | none => simp [hbase]
    | some s => split <;> rfl
  obtain ⟨s, hs⟩ := Option.isSome_iff_exists.1 hsome
  rw [hs] at hallowed ⊢
  exact ⟨s, rfl, by simpa [slugAllowed] using hallowed⟩

/-- A slug is the record's own or one that nobody has. -/
theorem setSlug_fresh {changed : Bool} {base slug : Option String} {taken : List String} {s : String}
    (h : setSlug lib changed base slug taken = some s) : slug = some s ∨ s ∉ taken := by
  unfold setSlug at h
  split at h
  · exact .inr (Option.some.inj h ▸ lib.slugFor_fresh base taken)
  · exact .inl h

theorem postOk_newPost {u : Nat} {p : PostParams} (hv : validPost lib w.db (newPost lib w u p) = true) :
    PostOk lib (newPost lib w u p) := by
  simp only [validPost, Bool.and_eq_true] at hv
  obtain ⟨⟨⟨⟨-, himage⟩, htitle⟩, hdescription⟩, hslug⟩ := hv
  exact ⟨himage, htitle, hdescription, goodSlug_setSlug (isSome_of_present htitle) hslug⟩

theorem postOk_writePost {posts : Table PostRow} {r : PostRow} {p : PostParams}
    (hv : validPost lib db (assignPost lib posts r p) = true) :
    PostOk lib (writePost (assignPost lib posts r p) r) := by
  simp only [validPost, Bool.and_eq_true] at hv
  obtain ⟨⟨⟨⟨-, himage⟩, htitle⟩, hdescription⟩, hslug⟩ := hv
  exact ⟨himage, htitle, hdescription, goodSlug_setSlug (isSome_of_present htitle) hslug⟩

theorem tagOk_assignTag {self : Option Nat} {old : Option TagRow} {name : Option (Option String)}
    (hv : validTag lib db self (assignTag lib db old name) = true) : TagOk lib (assignTag lib db old name) := by
  simp only [validTag, Bool.and_eq_true] at hv
  obtain ⟨⟨⟨hname, -⟩, hhash⟩, hslug⟩ := hv
  exact ⟨hname, hhash, goodSlug_setSlug (isSome_of_present hname) hslug⟩

theorem profileOk_assignProfile {self : Option Nat} {u : Nat} {old : Option ProfileRow} {p : ProfileParams}
    (hv : validProfile lib db self (assignProfile lib db u old p) = true) :
    ProfileOk lib (assignProfile lib db u old p) := by
  simp only [validProfile, Bool.and_eq_true] at hv
  obtain ⟨⟨⟨⟨⟨⟨⟨-, hfirst⟩, hlast⟩, hphone⟩, hnumeric⟩, haddress⟩, -⟩, hslug⟩ := hv
  exact ⟨hfirst, hlast, hphone, hnumeric, haddress, goodSlug_setSlug (isSome_of_present hfirst) hslug⟩

/-- `uniqueness: true` of the name. -/
theorem tag_name_free {self : Option Nat} {m : TagRow} (hv : validTag lib db self m = true) :
    ∀ b ∈ db.tags.rows, some b.id ≠ self → b.name ≠ m.name := by
  simp only [validTag, Bool.and_eq_true, Bool.not_eq_true', List.any_eq_false] at hv
  intro b hb hne hname
  exact hv.1.1.2 b hb (by simp [hne, hname])

/-- The slug is the tag's own or new. -/
theorem tag_slug_free {old : Option TagRow} {name : Option (Option String)}
    (hok : TagOk lib (assignTag lib db old name)) (hmem : ∀ r, old = some r → r ∈ db.tags.rows)
    (hslugs : ∀ a ∈ db.tags.rows, ∀ b ∈ db.tags.rows, a.slug = b.slug → a = b) :
    ∀ b ∈ db.tags.rows, some b.id ≠ old.map TagRow.id → b.slug ≠ (assignTag lib db old name).slug := by
  intro b hb hne hsame
  obtain ⟨s, hs, -⟩ := hok.slug
  rw [hs] at hsame
  rcases setSlug_fresh hs with hown | hfresh
  · obtain ⟨r, hr, hrs⟩ := Option.bind_eq_some_iff.1 hown
    rw [hslugs b hb r (hmem r hr) (hsame.trans hrs.symm), hr] at hne
    exact hne rfl
  · exact hfresh (List.mem_filterMap.2 ⟨b, List.mem_filter.2 ⟨hb, by simpa using hne⟩, hsame⟩)

/-- `validates :user_id, uniqueness: true`. -/
theorem profile_owner_free {self : Option Nat} {m : ProfileRow} (hv : validProfile lib db self m = true) :
    ∀ b ∈ db.profiles.rows, some b.id ≠ self → b.userId ≠ m.userId := by
  simp only [validProfile, Bool.and_eq_true, Bool.not_eq_true', List.any_eq_false] at hv
  intro b hb hne howner
  exact hv.1.2 b hb (by simp [hne, howner])

end Validations

/-! ## Every run -/

theorem ContentStep.valid {lib : Lib} {w w' : World} (h : ContentStep lib w w') (hI : ValidContent lib w.db) :
    ValidContent lib w'.db := by
  cases h with
  | fewer hposts htags hprofiles =>
    refine ⟨fun p' hp' => ?_, fun g hg => hI.tags g (htags g hg), fun p hp => hI.profiles p (hprofiles p hp),
      fun a ha b hb => hI.tagNames a (htags a ha) b (htags b hb),
      fun a ha b hb => hI.tagSlugs a (htags a ha) b (htags b hb),
      fun a ha b hb => hI.owners a (hprofiles a ha) b (hprofiles b hb)⟩
    obtain ⟨p, hp, he⟩ := hposts p' hp'
    obtain ⟨himage, htitle, hdescription, hslug⟩ := hI.posts p hp
    rw [he]
    exact ⟨himage, htitle, hdescription, hslug⟩
  | postAdded hv ht htags hprofiles =>
    refine ⟨fun x hx => ?_, htags ▸ hI.tags, hprofiles ▸ hI.profiles, htags ▸ hI.tagNames, htags ▸ hI.tagSlugs,
      hprofiles ▸ hI.owners⟩
    rcases Table.writes_insert ht x hx with rfl | ⟨hx, -⟩
    · exact postOk_newPost hv
    · exact hI.posts x hx
  | @postSaved r p hr hv ht htags hprofiles =>
    refine ⟨fun x hx => ?_, htags ▸ hI.tags, hprofiles ▸ hI.profiles, htags ▸ hI.tagNames, htags ▸ hI.tagSlugs,
      hprofiles ▸ hI.owners⟩
    rcases Table.writes_modify hr ht x hx with rfl | ⟨hx, -⟩
    · exact postOk_writePost hv
    · exact hI.posts x hx
  | @tagAdded name hv ht hposts hprofiles =>
    have hok := tagOk_assignTag hv
    have hwrites := Table.writes_insert ht
    have hnew : ∀ b : TagRow, some b.id ≠ none := fun _ => Option.some_ne_none _
    refine ⟨hposts ▸ hI.posts, fun x hx => ?_, hprofiles ▸ hI.profiles, ?_, ?_, hprofiles ▸ hI.owners⟩
    · rcases hwrites x hx with rfl | ⟨hx, -⟩
      · exact hok
      · exact hI.tags x hx
    · exact hwrites.unique Eq.symm hI.tagNames fun b hb _ => tag_name_free hv b hb (hnew b)
    · refine hwrites.unique Eq.symm hI.tagSlugs fun b hb _ => ?_
      exact tag_slug_free hok (fun r h => by cases h) hI.tagSlugs b hb (hnew b)
  | @tagSaved r name hr hv ht hposts hprofiles =>
    have hok := tagOk_assignTag hv
    have hwrites := Table.writes_modify hr ht
    have hother : ∀ b : TagRow, rowId b ≠ r.id → some b.id ≠ some r.id := fun _ h he => h (Option.some.inj he)
    refine ⟨hposts ▸ hI.posts, fun x hx => ?_, hprofiles ▸ hI.profiles, ?_, ?_, hprofiles ▸ hI.owners⟩
    · rcases hwrites x hx with rfl | ⟨hx, -⟩
      · exact hok
      · exact hI.tags x hx
    · exact hwrites.unique Eq.symm hI.tagNames fun b hb hne => tag_name_free hv b hb (hother b hne)
    · refine hwrites.unique Eq.symm hI.tagSlugs fun b hb hne => ?_
      exact tag_slug_free hok (fun x hx => by cases hx; exact hr) hI.tagSlugs b hb (hother b hne)
  | @profileAdded u p hv ht hposts htags =>
    have hwrites := Table.writes_insert ht
    refine ⟨hposts ▸ hI.posts, htags ▸ hI.tags, fun x hx => ?_, htags ▸ hI.tagNames, htags ▸ hI.tagSlugs, ?_⟩
    · rcases hwrites x hx with rfl | ⟨hx, -⟩
      · exact profileOk_assignProfile hv
      · exact hI.profiles x hx
    · exact hwrites.unique Eq.symm hI.owners fun b hb _ => profile_owner_free hv b hb (Option.some_ne_none _)
  | @profileSaved u r p hr hv ht hposts htags =>
    have hwrites := Table.writes_modify hr ht
    refine ⟨hposts ▸ hI.posts, htags ▸ hI.tags, fun x hx => ?_, htags ▸ hI.tagNames, htags ▸ hI.tagSlugs, ?_⟩
    · rcases hwrites x hx with rfl | ⟨hx, -⟩
      · exact profileOk_assignProfile hv
      · exact hI.profiles x hx
    · refine hwrites.unique Eq.symm hI.owners fun b hb hne => profile_owner_free hv b hb ?_
      exact fun he => hne (Option.some.inj he)

theorem serve_content {lib : Lib} {w : World} {c : Call} {I : World → Prop}
    (hstep : ∀ a b, ContentStep lib a b → I a → I b) (h : I { w with script := c.script }) : I (serve lib w c) := by
  have hrun := handle_contents lib c.actor c.req { w with script := c.script }
  have hkeep : ∀ w', Relation.ReflTransGen (ContentStep lib) { w with script := c.script } w' → I w' := by
    intro w' hw'
    induction hw' with
    | refl => exact h
    | tail _ hs ih => exact hstep _ _ hs ih
  exact hkeep _ hrun

theorem validContent_step {lib : Lib} {w w' : World} {l : Label} (h : (system lib).step w l w')
    (hI : ValidContent lib w.db) : ValidContent lib w'.db := by
  rcases step_cases h with ⟨c, rfl, rfl⟩ | hdb
  · exact serve_content (I := fun x => ValidContent lib x.db) (fun _ _ hs hx => hs.valid hx) hI
  · rw [hdb]
    exact hI

theorem stored_content_valid (lib : Lib) (w₀ w : World) (ls : List Label) (h₀ : ValidContent lib w₀.db)
    (h : (system lib).Run w₀ ls w) : ValidContent lib w.db :=
  h.keeps (fun _ _ _ hI hs => validContent_step hs hI) h₀

theorem neighbours_valid : ValidContent plainLib neighbours.db where
  posts p hp := by
    rw [List.mem_singleton.1 hp]
    exact ⟨by decide, by decide, by decide, "first", rfl, by decide⟩
  tags _ hg := (List.not_mem_nil hg).elim
  profiles _ hp := (List.not_mem_nil hp).elim
  tagNames _ ha := (List.not_mem_nil ha).elim
  tagSlugs _ ha := (List.not_mem_nil ha).elim
  owners _ ha := (List.not_mem_nil ha).elim

/-- A tag and a profile are added, a second profile is refused, and so is a
tag without `#`. -/
theorem neighbours_content : ∃ w,
    (system plainLib).Run neighbours
      [.call ⟨some 1, .tagsCreate (some (some "#sun")), []⟩, .call ⟨some 1, .tagsCreate (some (some "sun")), []⟩,
       .call ⟨some 1, .profilesCreate ⟨some (some "Al"), some (some "Ice"), some (some "1"), some (some "x")⟩, []⟩,
       .call ⟨some 1, .profilesCreate ⟨some (some "Al"), some (some "Ice"), some (some "1"), some (some "x")⟩, []⟩] w ∧
    w.db.tags.rows.map TagRow.name = [some "#sun"] ∧ w.db.profiles.rows.map ProfileRow.userId = [1] ∧
    ValidContent plainLib w.db := by
  refine ⟨_, .cons rfl (.cons rfl (.cons rfl (.cons rfl (.nil _)))), by decide, by decide, ?_⟩
  exact stored_content_valid plainLib neighbours _ _ neighbours_valid
    (.cons rfl (.cons rfl (.cons rfl (.cons rfl (.nil _)))))

end Insta.Web
