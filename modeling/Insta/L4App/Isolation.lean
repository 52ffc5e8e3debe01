import Insta.L4App.Effects

/-!
# What a user's request leaves alone of the others

The records behind a request come from `current_user` in some actions and
from `params[:id]` in others; `users#update` is one of the latter, and its
name is missing from the list of actions that `authorize_user` guards.

* `isolated_iff`: a request of a non-admin leaves the other users' rows,
  profiles and subscriptions as they are, except exactly when it is a
  `users#update` that names another user and is accepted.
* `edits_neighbour`: such a request exists.
-/
namespace Insta.Web

open Insta.Core Insta.Store Insta.Store.App Insta.Model Insta.Service

/-- The request is on a route of the users, profiles, posts, tags, likes or
subscriptions controller. -/
def Request.onResource : Request → Bool
  | .usersCreate .. | .usersUpdate .. | .usersDestroy _ => true
  | .profilesCreate _ | .profilesUpdate _ | .profilesDestroy => true
  | .postsCreate _ | .postsUpdate .. | .postsDestroy _ => true
  | .tagsCreate _ | .tagsUpdate .. | .tagsDestroy _ => true
  | .likesCreate .. | .likesDestroy _ => true
  | .subscriptionsCreate _ | .subscriptionsDestroy _ => true
  | .signUp _ | .accountUpdate .. | .accountDestroy | .forgotPassword .. => false
  | .devisePasswordUpdate .. | .passwordsUpdate _ | .webhooksStripe _ => false

/-- Nothing of users other than `u` changed: their rows, their profiles and
their subscriptions are as they were. -/
structure Isolated (u : Nat) (db db' : Db) : Prop where
  users : ∀ x ∈ db.users.rows, x.id ≠ u → x ∈ db'.users.rows
  profiles : ∀ i, i ≠ u → db'.profiles.rows.filter (·.userId == i) = db.profiles.rows.filter (·.userId == i)
  subscriptions : ∀ i, i ≠ u →
    db'.subscriptions.rows.filter (·.userId == i) = db.subscriptions.rows.filter (·.userId == i)

theorem Isolated.refl (u : Nat) (db : Db) : Isolated u db db := ⟨fun _ hx _ => hx, fun _ _ => rfl, fun _ _ => rfl⟩

section Effects

variable {u : Nat} {db₀ db db' : Db}

theorem Isolated.setUsers (h : Isolated u db₀ db) {t : Table UserRow}
    (ht : ∀ x ∈ db₀.users.rows, x.id ≠ u → x ∈ db.users.rows → x ∈ t.rows) :
    Isolated u db₀ { db with users := t } :=
  { h with users := fun x hx hne => ht x hx hne (h.users x hx hne) }

theorem Isolated.setProfiles (h : Isolated u db₀ db) {t : Table ProfileRow}
    (ht : ∀ i, i ≠ u → t.rows.filter (·.userId == i) = db.profiles.rows.filter (·.userId == i)) :
    Isolated u db₀ { db with profiles := t } :=
  { h with profiles := fun i hi => (ht i hi).trans (h.profiles i hi) }

theorem Isolated.setSubscriptions (h : Isolated u db₀ db) {t : Table SubscriptionRow}
    (ht : ∀ i, i ≠ u → t.rows.filter (·.userId == i) = db.subscriptions.rows.filter (·.userId == i)) :
    Isolated u db₀ { db with subscriptions := t } :=
  { h with subscriptions := fun i hi => (ht i hi).trans (h.subscriptions i hi) }

theorem Isolated.same (h : Isolated u db₀ db) (hu : db'.users = db.users) (hp : db'.profiles = db.profiles)
    (hs : db'.subscriptions = db.subscriptions) : Isolated u db₀ db' :=
  ⟨fun x hx hne => hu ▸ h.users x hx hne, fun i hi => hp ▸ h.profiles i hi, fun i hi => hs ▸ h.subscriptions i hi⟩

/-- A row of `u` is not one of user `i`. -/
theorem not_of_user {i j : Nat} (hi : i ≠ u) (hj : j = u) : (j == i) = false := by
  rw [hj]
  exact beq_eq_false_iff_ne.2 hi.symm

theorem Isolated.dropProfile (h : Isolated u db₀ db) {r : ProfileRow} (hr : r ∈ db.profiles.rows)
    (hu : r.userId = u) : Isolated u db₀ (destroyProfile db r.id) :=
  h.setProfiles fun i hi => Table.filter_delete fun x hx hid => by
    rw [db.profiles.eq_of_rowId hx hr (beq_iff_eq.1 hid)]
    exact not_of_user hi hu

theorem Isolated.closed {r : UserRow} (h : Isolated r.id db₀ db) (hc : Cascaded db r.id db') :
    Isolated r.id db₀ { db' with users := db.users.delete fun x => x.id == r.id } := by
  refine ⟨fun x hx hne => Table.mem_delete.2 ⟨h.users x hx hne, by simpa using hne⟩, fun i hi => ?_, fun i hi => ?_⟩
  · refine Eq.trans ?_ (h.profiles i hi)
    rcases hc.profiles with ⟨he, -⟩ | ⟨p, hp, he⟩
    · rw [he]
    · obtain ⟨hm, hu⟩ := mem_of_profileOf hp
      rw [he]
      refine Table.filter_delete fun x hx hid => ?_
      rw [db.profiles.eq_of_rowId hx hm (beq_iff_eq.1 hid)]
      exact not_of_user hi hu
  · refine Eq.trans ?_ (h.subscriptions i hi)
    rw [hc.subscriptions]
    exact Table.filter_delete fun s _ hs => not_of_user hi (beq_iff_eq.1 hs)

theorem Isolated.content {w₀ : World} {actor : Option Nat} {q : Request} {me : UserRow}
    (h : Isolated me.id db₀ db) (hme : currentUser w₀ actor = some me) (hq : q.onResource = true)
    (hclose : ∀ r, Closes w₀ actor r q → r.id = me.id) (hw : ContentWrite w₀ actor q db db') :
    Isolated me.id db₀ db' := by
  cases hw with
  | profileAdded hm hu huser hfree ht =>
    cases hme.symm.trans hm
    exact h.setProfiles fun i hi => Table.filter_insert ht (not_of_user hi hu)
  | @profileSaved me' r m t hm hr hown hu ht =>
    cases hme.symm.trans hm
    refine h.setProfiles fun i hi => Table.filter_modify ht fun x hx hid => ?_
    rw [db.profiles.eq_of_rowId hx hr hid]
    exact ⟨not_of_user hi hown, not_of_user hi (hu.trans hown)⟩
  | profileDropped hr hby =>
    refine h.dropProfile hr ?_
    rcases hby with ⟨me', hm, hu⟩ | ⟨x, hx, hu⟩
    · cases hme.symm.trans hm
      exact hu
    · exact hu.trans (hclose x hx)
  | @cancelled me' r t hm hr hown ht =>
    cases hme.symm.trans hm
    refine h.setSubscriptions fun i hi => Table.filter_modify ht fun x hx hid => ?_
    rw [db.subscriptions.eq_of_rowId hx hr hid]
    exact ⟨not_of_user hi hown, not_of_user hi hown⟩
  | @liked me' post user hm hl =>
    rcases createLike_cases db post user with he | ⟨t, -, -, -, -, he⟩ <;> rw [he]
    · exact h
    · exact h.same rfl rfl rfl
  | subscribed he hs huser hproduct ht => rw [he] at hq; cases hq
  | productDropped he => rw [he] at hq; cases hq
  | _ => exact h.same rfl rfl rfl

/-- A non-admin closes no account but their own. -/
theorem closes_self {w₀ : World} {actor : Option Nat} {q : Request} {me r : UserRow}
    (hme : currentUser w₀ actor = some me) (hrole : me.role ≠ .admin) (hq : q.onResource = true)
    (h : Closes w₀ actor r q) : r.id = me.id := by
  cases h with
  | account _ => cases hq
  | own hr => cases hme.symm.trans hr; rfl
  | byAdmin hm hadmin _ => cases hme.symm.trans hm; exact absurd hadmin hrole
  | reported _ _ => cases hq

theorem Effect.isolated {lib : Lib} {w₀ w w' : World} {actor : Option Nat} {q : Request} {me : UserRow}
    (he : Effect lib w₀ actor q w w') (h : Isolated me.id w₀.db w.db) (hme : currentUser w₀ actor = some me)
    (hrole : me.role ≠ .admin) (hq : q.onResource = true)
    (hself : ∀ id P r, q = .usersUpdate id P → friendlyFind UserRow.slug w₀.db.users id = some r → r.id = me.id) :
    Isolated me.id w₀.db w'.db := by
  cases he with
  | outside hdb _ => rw [hdb]; exact h
  | consumed hdb _ _ => rw [hdb]; exact h
  | @created m a t t' c hnew hw ht hc hlink hdb hlog =>
    rw [hdb]
    refine h.setUsers fun x hx hne hx' => ?_
    have hin : x ∈ t.rows := (Table.mem_insert ht).2 (.inl hx')
    cases hlink with
    | refused _ => exact hin
    | linked _ ht' =>
      -- the linked row is the one just inserted
      refine (Table.mem_modify ht').2 (.inl ⟨hin, Nat.ne_of_lt ?_⟩)
      exact w.db.users.below x hx'
  | @updated r p a t hr hby hw hv ht hdb hlog =>
    rw [hdb]
    refine h.setUsers fun x hx hne hx' => (Table.mem_modify ht).2 (.inl ⟨hx', fun hid => hne ?_⟩)
    cases hby with
    | account _ _ => cases hq
    | byId hr' _ => exact (show x.id = r.id from hid).trans (hself _ _ _ rfl hr')
    | deviseReset _ => cases hq
    | reset _ => cases hq
  | digested he _ _ hdb _ => obtain ⟨e, raw, rfl⟩ := he; cases hq
  | overwritten he _ _ _ _ _ _ hdb _ => rw [he] at hq; cases hq
  | @issued r token a t he hnew hr hv ht hdb hlog =>
    rw [hdb]
    refine h.setUsers fun x hx hne hx' => (Table.mem_modify ht).2 (.inl ⟨hx', fun hid => ?_⟩)
    have hlt : x.id < w₀.db.users.nextId := w₀.db.users.below x hx
    have hid' : x.id = r.id := hid
    omega
  | @closed r hby hposts href hdb hlog =>
    have hr := closes_self hme hrole hq hby
    rw [hdb]
    rw [← hr] at h ⊢
    exact h.closed (destroyUserCascade_spec ..)
  | content hw _ => exact h.content hme hq (fun r hr => closes_self hme hrole hq hr) hw

end Effects

/-! ## `users#update` -/

/-- `users#update` rewrites the row `r`: the parameters are accepted, the
customer of the row can be updated, and something changes. -/
structure Rewrites (lib : Lib) (w : World) (id : IdParam) (P : UserParams) (r : UserRow) : Prop where
  found : friendlyFind UserRow.slug w.db.users id = some r
  role : P.role ≠ .invalid ∧ P.role ≠ .null
  valid : validUser lib w.db.users (some r.id) (updated lib w.db.users r (P.patch lib P.role.assigned))
    (P.attrs false) = true
  pushed : Pushes w (written r (updated lib w.db.users r (P.patch lib P.role.assigned)))
  changed : written r (updated lib w.db.users r (P.patch lib P.role.assigned)) ≠ r

section UsersUpdate

variable {lib : Lib} {w : World} {actor : Option Nat} {id : IdParam} {P : UserParams} {me r : UserRow}

theorem assignRole_run (p : RoleParam) (w : World) :
    (assignRole p).run w = if p = .invalid then (.error .argumentError, w) else (.ok p.assigned, w) := by
  cases p <;> rfl

/-- What `users#update` does to the database once the user is found. -/
theorem usersUpdate_db (hme : currentUser w actor = some me)
    (hr : friendlyFind UserRow.slug w.db.users id = some r) :
    ((usersUpdate lib actor id P).run w).2.db =
      if P.role = .invalid then w.db
      else ((update lib r (P.patch lib P.role.assigned) (P.attrs false)).run w).2.db := by
  unfold usersUpdate
  rw [Act.bind_of_ok (authenticate_of_user hme), Act.run_get_bind, hr]
  have hfound : (orNotFound (some r)).run w = (.ok r, w) := rfl
  rw [Act.bind_of_ok hfound]
  by_cases hp : P.role = .invalid
  · have hassign := assignRole_run P.role w
    rw [if_pos hp] at hassign
    rw [Act.bind_of_error hassign, if_pos hp]
  · have hassign := assignRole_run P.role w
    rw [if_neg hp] at hassign
    rw [Act.bind_of_ok hassign, if_neg hp]
    rcases hu : (update lib r (P.patch lib P.role.assigned) (P.attrs false)).run w with ⟨e | b, w'⟩
    · rw [Act.bind_of_error hu]
    · rw [Act.bind_of_ok hu]
      rfl

/-- An accepted `users#update` leaves another row in place of `r`. -/
theorem Rewrites.gone (h : Rewrites lib w id P r) (hme : currentUser w actor = some me) :
    r ∉ ((usersUpdate lib actor id P).run w).2.db.users.rows := by
  obtain ⟨digest, hpatch⟩ := patch_eq lib P P.role.assigned
  have hmem := mem_of_friendlyFind h.found
  obtain ⟨t, ht⟩ := modify_of_valid hmem (by rw [hpatch]) (by rw [hpatch]) h.valid
  have hnull : (P.patch lib P.role.assigned).role ≠ some none := by
    rw [hpatch]
    intro he
    cases hp : P.role <;> rw [hp] at he
    · cases he
    · exact h.role.2 hp
    · cases he
    · cases he
  obtain ⟨w', hok⟩ := update_ok_iff.2 ⟨h.valid, hnull, ⟨t, ht⟩, h.pushed⟩
  rw [usersUpdate_db hme h.found, if_neg h.role.1, hok]
  rcases update_cases lib r (P.patch lib P.role.assigned) (P.attrs false) w with
    ⟨-, hu⟩ | ⟨-, st, sc, ⟨e, hu⟩ | ⟨t', -, ht', hu⟩⟩ <;> rw [hu] at hok <;> cases hok
  intro hin
  rcases (mem_saved hmem ht').1 hin with ⟨-, hne⟩ | he
  · exact hne rfl
  · exact h.changed he.symm

/-- Any other `users#update` keeps every row but its own user's. -/
theorem usersUpdate_keeps (hme : currentUser w actor = some me)
    (hr : friendlyFind UserRow.slug w.db.users id = some r) (hn : ¬ Rewrites lib w id P r) :
    Isolated me.id w.db ((usersUpdate lib actor id P).run w).2.db := by
  rw [usersUpdate_db hme hr]
  split
  · exact .refl _ _
  · rename_i hinv
    have hmem := mem_of_friendlyFind hr
    rcases update_cases lib r (P.patch lib P.role.assigned) (P.attrs false) w with
      ⟨-, hu⟩ | ⟨hv, st, sc, ⟨e, hu⟩ | ⟨t, hnull, ht, hu⟩⟩
    · rw [hu]; exact .refl _ _
    · rw [hu]; exact .refl _ _
    · rw [hu]
      obtain ⟨-, -, -, hpush⟩ := update_ok_iff.1 ⟨_, hu⟩
      have hsame : written r (updated lib w.db.users r (P.patch lib P.role.assigned)) = r := by
        by_contra hne
        refine hn ⟨hr, ⟨hinv, fun hp => hnull ?_⟩, hv, hpush, hne⟩
        obtain ⟨digest, hpatch⟩ := patch_eq lib P P.role.assigned
        rw [hpatch, hp]
        rfl
      refine (Isolated.refl me.id w.db).setUsers fun x hx _ _ => (mem_saved hmem ht).2 ?_
      by_cases hid : x.id = r.id
      · exact .inr ((w.db.users.eq_of_rowId hx hmem hid).trans hsame.symm)
      · exact .inl ⟨hx, hid⟩

end UsersUpdate

/-- A non-admin's request leaves the other users alone, exactly unless it is
an accepted `users#update` of another user. -/
theorem isolated_iff (lib : Lib) (w : World) (c : Call) (me : UserRow) (hme : currentUser w c.actor = some me)
    (hrole : me.role ≠ .admin) (hq : c.req.onResource = true) :
    Isolated me.id w.db (serve lib w c).db ↔
      ∀ id P r, c.req = .usersUpdate id P → r.id ≠ me.id → ¬ Rewrites lib { w with script := c.script } id P r := by
  constructor
  · intro h id P r hreq hne hrw
    have hkept := h.users r (mem_of_friendlyFind hrw.found) hne
    unfold serve at hkept
    rw [hreq] at hkept
    exact hrw.gone hme hkept
  · intro hall
    by_cases hself : ∀ id P r, c.req = .usersUpdate id P →
        friendlyFind UserRow.slug w.db.users id = some r → r.id = me.id
    · refine serve_keeps (I := fun x => Isolated me.id w.db x.db) (fun a b he h => ?_) (.refl _ _)
      exact he.isolated h hme hrole hq hself
    · simp only [not_forall] at hself
      obtain ⟨id, P, r, hreq, hr, hne⟩ := hself
      unfold serve
      rw [hreq]
      exact usersUpdate_keeps (w := { w with script := c.script }) hme hr (hall id P r hreq hne)

/-- The second user of `neighbours` renames a user. -/
def rename (slug : String) : Call := ⟨some 2, .usersUpdate ⟨slug, none⟩ { username := some (some "renamed") }, []⟩

theorem renames_self :
    currentUser neighbours (rename "bob").actor = some bobRow ∧ bobRow.role ≠ .admin ∧
    (rename "bob").req.onResource = true ∧ Isolated 2 neighbours.db (serve plainLib neighbours (rename "bob")).db := by
  have hme : currentUser neighbours (rename "bob").actor = some bobRow := by decide
  refine ⟨hme, by decide, rfl, (isolated_iff plainLib neighbours (rename "bob") bobRow hme (by decide) rfl).2 ?_⟩
  intro id P r hreq hne hrw
  cases hreq
  have hfound : friendlyFind UserRow.slug neighbours.db.users ⟨"bob", none⟩ = some bobRow := by decide
  cases hfound.symm.trans hrw.found
  exact hne rfl

/-- Signed in as the second user, the request changes the first one's row. -/
theorem edits_neighbour :
    currentUser neighbours (rename "alice").actor = some bobRow ∧ bobRow.role ≠ .admin ∧
    (rename "alice").req.onResource = true ∧
    neighbours.db.users.find 1 = some aliceRow ∧
    ((serve plainLib neighbours (rename "alice")).db.users.find 1).map UserRow.username = some (some "renamed") ∧
    ¬ Isolated 2 neighbours.db (serve plainLib neighbours (rename "alice")).db := by
  have hafter : ((serve plainLib neighbours (rename "alice")).db.users.find 1).map UserRow.username =
      some (some "renamed") := by decide
  refine ⟨by decide, by decide, rfl, by decide, hafter, fun h => ?_⟩
  have hkept := Table.find_of_mem (h.users aliceRow (by decide) (by decide))
  rw [show (1 : Nat) = rowId aliceRow from rfl, hkept] at hafter
  exact absurd hafter (by decide)

end Insta.Web
