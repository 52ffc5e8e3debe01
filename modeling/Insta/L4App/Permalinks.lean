import Mathlib
import Insta.L4App.Routes
import Insta.L4App.StoredContent
import Insta.L4App.UserWrites

/-!
# Links lead to the record they are made for

The pages link to users, posts and tags by `to_param`, friendly_id's slug or,
without one, the primary key. Following a link is a lookup in the routes and
then `friendly.find`, by slug first and by key after that.

* `content_links`: in every state of every run from valid content whose slugs
  need no escaping, each link to a post or a tag (show, edit, update, destroy)
  leads to that action and finds that very record. The reserved words keep
  `new` out of the slugs; titles and names are never blank, so that there is a
  slug.
* `user_links_iff`: a link to a user whose slug needs no escaping leads to
  that user exactly when the slug is no word Devise has a route for and, for a
  user without a slug, no other user's slug is written like the key. From a
  start with such slugs this is so in every state of every run. A customer
  without a name is imported as a user without a slug; if someone is called
  `2`, the admin who deletes user 2 deletes them (`deletes_namesake`).
-/
namespace Insta.Web

open Insta.Core Insta.Core.Router Insta.Store Insta.Store.App Insta.Model Insta.Service

/-! ## Links -/

/-- `to_param` with `friendly_id`: `friendly_id.presence || id`. -/
def toParam (lib : Lib) (slug : Option String) (id : Nat) : String :=
  if lib.present slug then slug.getD "" else id.repr

/-- `params[:id]`, with the key it may be read as. -/
def idParam (s : String) : IdParam := ⟨s, s.toNat?⟩

/-- Following the link to `x` on the route `r`: the action, and what
`friendly.find` finds there. -/
def follow {R : Type} [Row R] (slug : R → Option String) (t : Table R) (r : RouteTo) (x : String) :
    Option (Action × Option R) :=
  (recognise routes r.verb (url (fill r.pattern [x]) none)).map fun hit =>
    (hit.endpoint, friendlyFind slug t (idParam (hit.args.headD "")))

def Action.ofPost : Action → Bool
  | .postsShow | .postsEdit | .postsUpdate | .postsDestroy => true
  | _ => false

def Action.ofTag : Action → Bool
  | .tagsShow | .tagsEdit | .tagsUpdate | .tagsDestroy => true
  | _ => false

def Action.ofUser : Action → Bool
  | .usersShow | .usersEdit | .usersUpdate | .usersDestroy => true
  | _ => false

/-- A slug that `presence` keeps and that is written as it is. -/
def Linkable (lib : Lib) (slug : Option String) : Prop := ∀ s, slug = some s → lib.blank s = false ∧ Plain s

/-- The slugs friendly_id generates are those of `parameterize`, or a UUID. -/
def SlugsLinkable (lib : Lib) : Prop := ∀ base taken, Linkable lib (some (lib.slugFor base taken))

theorem friendlyFind_of_slug {R : Type} [Row R] {slug : R → Option String} {t : Table R} {r : R} {s : String}
    (hr : r ∈ t.rows) (hs : slug r = some s) (huniq : ∀ x ∈ t.rows, slug x = some s → x = r) (key : Option Nat) :
    friendlyFind slug t ⟨s, key⟩ = some r := by
  have hfirst : t.first (fun x => slug x == some s) = some r := by
    refine Table.first_eq_some_iff.2 ⟨hr, by rw [hs, beq_self_eq_true], fun x hx hp => ?_⟩
    rw [huniq x hx (beq_iff_eq.1 hp)]
  simp only [friendlyFind, hfirst, Option.orElse_some]

theorem toParam_of_slug {lib : Lib} {slug : Option String} {s : String} (hs : slug = some s)
    (hlink : Linkable lib slug) (id : Nat) : toParam lib slug id = s := by
  have hpresent : lib.present slug = true := by
    rw [hs, Lib.present, (hlink s hs).1]
    rfl
  rw [toParam, if_pos hpresent, hs]
  rfl

section Links

variable {lib : Lib} {R : Type} [Row R] {slug : R → Option String} {t : Table R} {r : R} {route : RouteTo}

/-- Where a link leads, by its two lookups. -/
theorem follow_eq_iff {x : String} (hroute : route ∈ routes) (hone : arity route.pattern = 1) (hx : Plain x) :
    follow slug t route x = some (route.endpoint, some r) ↔
      x ∉ shadowedIds route.endpoint ∧ friendlyFind slug t (idParam x) = some r := by
  have hcases := @route_cases route [x] none hroute hone.symm (by simpa using hx) (by simp) (by simp)
  unfold follow
  rcases hcases with ⟨hfree, hhit⟩ | ⟨htaken, hit, hne, hhit⟩ <;> rw [hhit, Option.map_some]
  · have hword : x ∉ shadowedIds route.endpoint := hfree x (List.mem_singleton_self x)
    simp [hword]
  · have hword : x ∈ shadowedIds route.endpoint := by simpa using htaken
    simp [hword, hne]

/-- A record that alone has its slug. -/
theorem follow_of_slug {s : String} (hroute : route ∈ routes) (hone : arity route.pattern = 1) (hr : r ∈ t.rows)
    (hs : slug r = some s) (hlink : Linkable lib (slug r)) (huniq : ∀ x ∈ t.rows, slug x = some s → x = r)
    (id : Nat) :
    follow slug t route (toParam lib (slug r) id) = some (route.endpoint, some r) ↔
      s ∉ shadowedIds route.endpoint := by
  rw [toParam_of_slug hs hlink, follow_eq_iff hroute hone (hlink s hs).2]
  exact and_iff_left (friendlyFind_of_slug hr hs huniq _)

end Links

/-- The routes with a record's id have that parameter only. -/
theorem arity_of_record {r : RouteTo} (hr : r ∈ routes)
    (h : (r.endpoint.ofPost || r.endpoint.ofTag || r.endpoint.ofUser) = true) : arity r.pattern = 1 := by
  have htable : routes.all (fun r => !(r.endpoint.ofPost || r.endpoint.ofTag || r.endpoint.ofUser) ||
      arity r.pattern == 1) = true := by decide
  have hrow := List.all_eq_true.1 htable r hr
  rw [h] at hrow
  exact beq_iff_eq.1 hrow

/-! ## Posts and tags -/

structure LinkableContent (lib : Lib) (db : Db) : Prop where
  posts : ∀ p ∈ db.posts.rows, Linkable lib p.slug
  tags : ∀ g ∈ db.tags.rows, Linkable lib g.slug

theorem linkable_setSlug {lib : Lib} (hlib : SlugsLinkable lib) {changed : Bool} {base slug : Option String}
    {taken : List String} (hslug : Linkable lib slug) : Linkable lib (setSlug lib changed base slug taken) := by
  unfold setSlug
  split
  · exact hlib base taken
  · exact hslug

theorem linkable_none (lib : Lib) : Linkable lib none := fun _ h => by cases h

theorem ContentStep.linkable {lib : Lib} (hlib : SlugsLinkable lib) {w w' : World} (h : ContentStep lib w w')
    (hI : LinkableContent lib w.db) : LinkableContent lib w'.db := by
  cases h with
  | fewer hposts htags hprofiles =>
    refine ⟨fun p' hp' => ?_, fun g hg => hI.tags g (htags g hg)⟩
    obtain ⟨p, hp, he⟩ := hposts p' hp'
    rw [he]
    exact hI.posts p hp
  | postAdded hv ht htags hprofiles =>
    refine ⟨fun x hx => ?_, htags ▸ hI.tags⟩
    rcases Table.writes_insert ht x hx with rfl | ⟨hx, -⟩
    · exact linkable_setSlug hlib (linkable_none lib)
    · exact hI.posts x hx
  | @postSaved r p hr hv ht htags hprofiles =>
    refine ⟨fun x hx => ?_, htags ▸ hI.tags⟩
    rcases Table.writes_modify hr ht x hx with rfl | ⟨hx, -⟩
    · exact linkable_setSlug hlib (hI.posts r hr)
    · exact hI.posts x hx
  | tagAdded hv ht hposts hprofiles =>
    refine ⟨hposts ▸ hI.posts, fun x hx => ?_⟩
    rcases Table.writes_insert ht x hx with rfl | ⟨hx, -⟩
    · exact linkable_setSlug hlib (linkable_none lib)
    · exact hI.tags x hx
  | @tagSaved r name hr hv ht hposts hprofiles =>
    refine ⟨hposts ▸ hI.posts, fun x hx => ?_⟩
    rcases Table.writes_modify hr ht x hx with rfl | ⟨hx, -⟩
    · exact linkable_setSlug hlib (hI.tags r hr)
    · exact hI.tags x hx
  | profileAdded hv ht hposts htags => exact ⟨hposts ▸ hI.posts, htags ▸ hI.tags⟩
  | profileSaved hr hv ht hposts htags => exact ⟨hposts ▸ hI.posts, htags ▸ hI.tags⟩

/-- Content that is valid and linkable stays so. -/
theorem links_step {lib : Lib} (hlib : SlugsLinkable lib) {w w' : World} {l : Label} (h : (system lib).step w l w')
    (hI : ValidContent lib w.db ∧ LinkableContent lib w.db) : ValidContent lib w'.db ∧ LinkableContent lib w'.db := by
  rcases step_cases h with ⟨c, rfl, rfl⟩ | hdb
  · exact serve_content (I := fun x => ValidContent lib x.db ∧ LinkableContent lib x.db)
      (fun _ _ hs hx => ⟨hs.valid hx.1, hs.linkable hlib hx.2⟩) hI
  · rw [hdb]
    exact hI

/-- The words that are taken where a post or a tag stands are reserved. -/
theorem shadowed_reserved {e : Action} (h : (e.ofPost || e.ofTag) = true) :
    ∀ s ∈ shadowedIds e, s ∈ reservedWords := by
  cases e <;> first | exact absurd h (by decide) | decide

theorem post_slug_unique {db : Db} {p : PostRow} {s : String} (hp : p ∈ db.posts.rows) (hs : p.slug = some s) :
    ∀ x ∈ db.posts.rows, x.slug = some s → x = p := by
  intro x hx hxs
  by_contra hne
  have hclash := db.posts.clash_false hx hp fun hid => hne (db.posts.eq_of_rowId hx hp hid)
  have hsame : sameKey x.slug p.slug = true := sameKey_iff.2 ⟨s, hxs, hs⟩
  exact Bool.false_ne_true (hclash.symm.trans hsame)

theorem content_links (lib : Lib) (w₀ w : World) (ls : List Label) (hlib : SlugsLinkable lib)
    (h₀ : ValidContent lib w₀.db ∧ LinkableContent lib w₀.db) (h : (system lib).Run w₀ ls w) (r : RouteTo)
    (hr : r ∈ routes) :
    (r.endpoint.ofPost = true → ∀ p ∈ w.db.posts.rows,
      follow PostRow.slug w.db.posts r (toParam lib p.slug p.id) = some (r.endpoint, some p)) ∧
    (r.endpoint.ofTag = true → ∀ g ∈ w.db.tags.rows,
      follow TagRow.slug w.db.tags r (toParam lib g.slug g.id) = some (r.endpoint, some g)) := by
  obtain ⟨hvalid, hlink⟩ := h.keeps (fun _ _ _ hI hs => links_step hlib hs hI) h₀
  refine ⟨fun he p hp => ?_, fun he g hg => ?_⟩
  · obtain ⟨s, hs, hgood⟩ := (hvalid.posts p hp).slug
    have hone := arity_of_record hr (by rw [he]; rfl)
    refine (follow_of_slug hr hone hp hs (hlink.posts p hp) (post_slug_unique hp hs) p.id).2 fun hword => ?_
    exact hgood (shadowed_reserved (by rw [he]; rfl) s hword)
  · obtain ⟨s, hs, hgood⟩ := (hvalid.tags g hg).slug
    have hone := arity_of_record hr (by rw [he, Bool.or_true]; rfl)
    have huniq : ∀ x ∈ w.db.tags.rows, x.slug = some s → x = g := fun x hx hxs =>
      hvalid.tagSlugs x hx g hg (hxs.trans hs.symm)
    refine (follow_of_slug hr hone hg hs (hlink.tags g hg) huniq g.id).2 fun hword => ?_
    exact hgood (shadowed_reserved (by rw [he, Bool.or_true]) s hword)

/-- The letters and digits of the name; a longer one when that is taken, or
when there are none. -/
def plainSlug (base : Option String) (taken : List String) : String :=
  let s := String.ofList ((base.getD "").toList.filter Char.isAlphanum)
  if s ≠ "" ∧ s ∉ taken then s else s ++ freshName taken

theorem plainSlug_fresh (base : Option String) (taken : List String) : plainSlug base taken ∉ taken := by
  unfold plainSlug
  dsimp only
  split
  · rename_i h
    exact h.2
  · exact append_freshName_fresh _ taken

theorem plain_plainSlug (base : Option String) (taken : List String) : Plain (plainSlug base taken) := by
  have hkept : ∀ c ∈ (String.ofList ((base.getD "").toList.filter Char.isAlphanum)).toList, plain c = true := by
    intro c hc
    rw [String.toList_ofList] at hc
    simp [plain, (List.mem_filter.1 hc).2]
  have hfresh : (freshName taken).toList = List.replicate ((taken.map String.length).sum + 1) 'x' :=
    String.toList_ofList
  unfold plainSlug
  dsimp only
  split
  · rename_i h
    exact ⟨fun hnil => h.1 (String.toList_eq_nil_iff.1 hnil), hkept⟩
  · rw [Plain, String.toList_append, hfresh]
    refine ⟨fun hnil => ?_, fun c hc => ?_⟩
    · rw [List.replicate_succ] at hnil
      exact List.cons_ne_nil _ _ (List.append_eq_nil_iff.1 hnil).2
    · rcases List.mem_append.1 hc with hc | hc
      · exact hkept c hc
      · rw [(List.mem_replicate.1 hc).2]
        decide

def linkLib : Lib := { plainLib with slugFor := plainSlug, slugFor_fresh := plainSlug_fresh }

theorem linkLib_slugs : SlugsLinkable linkLib := by
  intro base taken s hs
  obtain rfl : plainSlug base taken = s := Option.some.inj hs
  have hplain := plain_plainSlug base taken
  exact ⟨beq_eq_false_iff_ne.2 fun hempty => hplain.1 (by rw [hempty]; rfl), hplain⟩

theorem neighbours_linkable : ValidContent linkLib neighbours.db ∧ LinkableContent linkLib neighbours.db := by
  refine ⟨⟨fun p hp => ?_, fun g hg => ?_, fun r hr => ?_, fun g hg => ?_, fun g hg => ?_, fun r hr => ?_⟩,
    fun p hp => ?_, fun g hg => ?_⟩
  case refine_1 =>
    rw [List.mem_singleton.1 hp]
    exact ⟨by decide, by decide, by decide, "first", rfl, by decide⟩
  case refine_7 =>
    rw [List.mem_singleton.1 hp]
    rintro s ⟨⟩
    decide
  all_goals exact absurd (by assumption) List.not_mem_nil

/-- The edit link of a new tag. -/
theorem new_tag_linked : ∃ w g,
    (system linkLib).Run neighbours [.call ⟨some 1, .tagsCreate (some (some "#sun")), []⟩] w ∧ g ∈ w.db.tags.rows ∧
    g.slug = some "sun" ∧
    follow TagRow.slug w.db.tags ⟨.get, [.lit "dashboard", .lit "tags", .param, .lit "edit"], .tagsEdit⟩
      (toParam linkLib g.slug g.id) = some (.tagsEdit, some g) := by
  have hrun : (system linkLib).Run neighbours [.call ⟨some 1, .tagsCreate (some (some "#sun")), []⟩] _ :=
    .cons rfl (.nil _)
  have hlinks := content_links linkLib neighbours _ _ linkLib_slugs neighbours_linkable hrun
    ⟨.get, [.lit "dashboard", .lit "tags", .param, .lit "edit"], .tagsEdit⟩ (by decide)
  exact ⟨_, _, hrun, List.mem_singleton_self _, rfl, hlinks.2 rfl _ (List.mem_singleton_self _)⟩

/-! ## Users -/

theorem plain_repr (n : Nat) : Plain n.repr := by
  have hdigits : ∀ c ∈ n.repr.toList, plain c = true := by
    intro c hc
    rw [Nat.toList_repr] at hc
    have hdigit := Nat.isDigit_of_mem_toDigits (by decide) (by decide) hc
    simp [plain, Char.isAlphanum, hdigit]
  refine ⟨fun hnil => ?_, hdigits⟩
  rw [Nat.toList_repr] at hnil
  exact Nat.toDigits_ne_nil hnil

theorem user_slug_unique {db : Db} {r : UserRow} {s : String} (hr : r ∈ db.users.rows) (hs : r.slug = some s) :
    ∀ x ∈ db.users.rows, x.slug = some s → x = r := by
  intro x hx hxs
  by_contra hne
  have hclash := db.users.clash_false hx hr fun hid => hne (db.users.eq_of_rowId hx hr hid)
  have hsame : sameKey x.slug r.slug = true := sameKey_iff.2 ⟨s, hxs, hs⟩
  have htrue : clash x r = true := by
    show (sameKey x.username r.username || sameKey x.slug r.slug || _) = true
    rw [hsame, Bool.or_true, Bool.true_or]
  exact Bool.false_ne_true (hclash.symm.trans htrue)

/-- Without a slug the key is looked up, after the slugs. -/
theorem friendlyFind_of_key {db : Db} {r : UserRow} (hr : r ∈ db.users.rows) (hs : r.slug = none) :
    friendlyFind UserRow.slug db.users (idParam r.id.repr) = some r ↔
      ∀ x ∈ db.users.rows, x.slug ≠ some r.id.repr := by
  unfold friendlyFind idParam
  cases hfirst : db.users.first (fun x => x.slug == some r.id.repr) with
  | none =>
    have hnone : ∀ x ∈ db.users.rows, x.slug ≠ some r.id.repr :=
      fun x hx he => by simpa [he] using Table.first_eq_none_iff.1 hfirst x hx
    have hkey : db.users.find r.id = some r := Table.find_of_mem hr
    simp only [Nat.toNat?_repr, Option.orElse_none, Option.bind_some, hkey, true_iff]
    exact hnone
  | some x =>
    obtain ⟨hx, hxs⟩ := Table.mem_of_first hfirst
    rw [beq_iff_eq] at hxs
    simp only [Option.orElse_some, Option.some.injEq]
    constructor
    · rintro rfl
      rw [hs] at hxs
      cases hxs
    · exact fun h => absurd hxs (h x hx)

/-- The link to `r` on the route leads to `r`. -/
def LeadsToUser (lib : Lib) (db : Db) (route : RouteTo) (r : UserRow) : Prop :=
  follow UserRow.slug db.users route (toParam lib r.slug r.id) = some (route.endpoint, some r)

/-- Nothing else is written like the link to `r`: no word of another route,
and where it is the key, no slug. -/
def Unmistakable (lib : Lib) (db : Db) (route : RouteTo) (r : UserRow) : Prop :=
  toParam lib r.slug r.id ∉ shadowedIds route.endpoint ∧
  (r.slug ≠ none ∨ ∀ x ∈ db.users.rows, x.slug ≠ some r.id.repr)

theorem leadsToUser_iff {lib : Lib} {db : Db} {r : UserRow} {route : RouteTo} (hroute : route ∈ routes)
    (hof : route.endpoint.ofUser = true) (hr : r ∈ db.users.rows) (hlink : Linkable lib r.slug) :
    LeadsToUser lib db route r ↔ Unmistakable lib db route r := by
  have hone := arity_of_record hroute (by rw [hof, Bool.or_true])
  unfold LeadsToUser Unmistakable
  cases hs : r.slug with
  | none =>
    have hparam : toParam lib none r.id = r.id.repr := if_neg (by simp [Lib.present])
    rw [hparam, follow_eq_iff hroute hone (plain_repr r.id), friendlyFind_of_key hr hs]
    simp
  | some s =>
    have hfollow := follow_of_slug hroute hone hr hs hlink (user_slug_unique hr hs) r.id
    have hparam := toParam_of_slug hs hlink r.id
    rw [hs] at hfollow hparam
    rw [hfollow, hparam]
    simp

/-! ### Slugs that need no escaping -/

def LinkableUsers (lib : Lib) (db : Db) : Prop := ∀ r ∈ db.users.rows, Linkable lib r.slug

section Slugs

variable {lib : Lib} {users : Table UserRow} {r : UserRow}

theorem linkable_withSlug (hlib : SlugsLinkable lib) {old : Option UserRow} {m : UserRow} (h : Linkable lib m.slug) :
    Linkable lib (withSlug lib users old m).slug := linkable_setSlug hlib h

theorem linkable_updated (hlib : SlugsLinkable lib) {p : UserPatch} (hp : p.slug = none) (h : Linkable lib r.slug) :
    Linkable lib (updated lib users r p).slug := by
  have hslug : (p.apply r).slug = r.slug := by rw [UserPatch.apply, hp, Option.getD_none]
  exact linkable_withSlug hlib (hslug.symm ▸ h)

theorem linkable_written {m : UserRow} (h : Linkable lib m.slug) : Linkable lib (written r m).slug := by
  rw [written_eq]
  split <;> exact h

theorem NewUser.linkable (hlib : SlugsLinkable lib) {w₀ : World} {m : UserRow} {a : PasswordAttrs} {q : Request}
    (h : NewUser lib w₀ m a q) : Linkable lib m.slug := by
  have hparams : ∀ {P : UserParams} {p : UserPatch}, FromParams lib P p →
      Linkable lib (beforeValidation lib w₀.db.users none (p.apply newUser)).slug := by
    intro P p hp
    have hslug : (p.apply newUser).slug = none := by rw [UserPatch.apply, hp.slug]; rfl
    exact linkable_withSlug hlib (hslug.symm ▸ linkable_none lib)
  cases h with
  | signedUp hp hm _ => exact hm ▸ hparams hp
  | added hp hm _ => exact hm ▸ hparams hp
  | imported _ _ _ _ hm _ => exact hm ▸ linkable_withSlug hlib (linkable_none lib)

theorem RowWrite.linkable (hlib : SlugsLinkable lib) {w₀ w : World} {actor : Option Nat} {q : Request} {y : UserRow}
    (h : RowWrite lib w₀ actor q w y) (hI : LinkableUsers lib w.db) : Linkable lib y.slug := by
  cases h with
  | unlinked hnew _ _ _ => exact hnew.linkable hlib
  | linked hnew _ _ _ _ => exact linkable_written (linkable_updated hlib rfl (hnew.linkable hlib))
  | updated hr hby _ _ => exact linkable_written (linkable_updated hlib hby.slug (hI _ hr))
  | @digested r _ hr =>
    have hold : Linkable lib r.slug := hI r hr
    exact linkable_written (linkable_withSlug hlib hold)
  | @overwritten e k r _ _ _ _ hr hw =>
    have hold : Linkable lib r.slug := hI r (hw ▸ (mem_of_userOf hr).1)
    exact linkable_written (linkable_withSlug hlib hold)
  | issued hr _ => exact linkable_written (linkable_updated hlib rfl (hI _ hr))

theorem linkableUsers_step (hlib : SlugsLinkable lib) {w w' : World} {l : Label} (h : (system lib).step w l w')
    (hI : LinkableUsers lib w.db) : LinkableUsers lib w'.db := by
  refine step_keeps (I := LinkableUsers lib) h (fun c _ x x' he hx => ?_) hI
  rcases he.rows with hrows | ⟨y, hy, hrows⟩
  · exact fun r hr => hx r (hrows r hr)
  · intro r hr
    rcases hrows r hr with rfl | ⟨hr, -⟩
    · exact hy.linkable hlib hx
    · exact hx r hr

end Slugs

theorem user_links_iff (lib : Lib) (route : RouteTo) (hroute : route ∈ routes)
    (hof : route.endpoint.ofUser = true) :
    (∀ (db : Db) (r : UserRow), r ∈ db.users.rows → Linkable lib r.slug →
      (LeadsToUser lib db route r ↔ Unmistakable lib db route r)) ∧
    (SlugsLinkable lib → ∀ (w₀ w : World) (ls : List Label), LinkableUsers lib w₀.db → (system lib).Run w₀ ls w →
      ∀ r ∈ w.db.users.rows, (LeadsToUser lib w.db route r ↔ Unmistakable lib w.db route r)) := by
  refine ⟨fun db r hr hlink => leadsToUser_iff hroute hof hr hlink, fun hlib w₀ w ls h₀ h r hr => ?_⟩
  have hlink := h.keeps (I := fun x => LinkableUsers lib x.db) (fun _ _ _ hI hs => linkableUsers_step hlib hs hI) h₀
  exact leadsToUser_iff hroute hof hr (hlink r hr)

/-- Imported without a name. -/
def namelessRow : UserRow :=
  { bobRow with username := none, slug := none, email := some "nameless@example.com" }

/-- An admin, and a user without a name. -/
def unnamed : World where
  db := { users := ⟨[{ aliceRow with role := .admin }, namelessRow], 3, by decide, by decide, by decide⟩ }

/-- Someone signs up as `2`. -/
def namesakeSignsUp : Call :=
  ⟨none, .signUp
    { username := some (some "2"), email := some (some "two@example.com"), password := some "password",
      passwordConfirmation := some "password" }, []⟩

def destroyLink : RouteTo := ⟨.delete, [.lit "users", .param], .usersDestroy⟩

/-- The link that deletes user 2 deletes the user called `2`, as the link that
is meant for that user does. -/
theorem deletes_namesake : ∃ w, (system linkLib).Run unnamed [.call namesakeSignsUp] w ∧
    (∃ r ∈ w.db.users.rows, r.id = 3 ∧ r.slug = some "2" ∧ LeadsToUser linkLib w.db destroyLink r ∧
      follow UserRow.slug w.db.users destroyLink (toParam linkLib none 2) = some (.usersDestroy, some r)) ∧
    ¬ LeadsToUser linkLib w.db destroyLink namelessRow := by
  have hrun : (system linkLib).Run unnamed [.call namesakeSignsUp] (next linkLib unnamed (.call namesakeSignsUp)) :=
    .cons rfl (.nil _)
  have hstart : LinkableUsers linkLib unnamed.db := by
    intro r hr
    rcases List.mem_cons.1 hr with rfl | hr
    · rintro s ⟨⟩
      decide
    · rw [List.mem_singleton.1 hr]
      exact linkable_none _
  have hiff := (user_links_iff linkLib destroyLink (by decide) rfl).2 linkLib_slugs unnamed _ _ hstart hrun
  obtain ⟨r, hr, hid, hslug, hfound⟩ : ∃ r ∈ (next linkLib unnamed (.call namesakeSignsUp)).db.users.rows,
      r.id = 3 ∧ r.slug = some "2" ∧ follow UserRow.slug (next linkLib unnamed (.call namesakeSignsUp)).db.users
        destroyLink (toParam linkLib none 2) = some (.usersDestroy, some r) :=
    ⟨_, List.mem_cons_of_mem _ (List.mem_cons_of_mem _ (List.mem_singleton_self _)), rfl, rfl, by decide +kernel⟩
  refine ⟨_, hrun, ⟨r, hr, hid, hslug, (hiff r hr).2 ⟨?_, .inl ?_⟩, hfound⟩, fun hleads => ?_⟩
  · rw [hslug, hid]
    decide
  · rw [hslug]
    exact Option.some_ne_none _
  · have hmem : namelessRow ∈ (next linkLib unnamed (.call namesakeSignsUp)).db.users.rows :=
      List.mem_cons_of_mem _ List.mem_cons_self
    rcases ((hiff namelessRow hmem).1 hleads).2 with hsome | hfree
    · exact hsome rfl
    · exact hfree r hr hslug

end Insta.Web
