import Mathlib.Logic.Relation
import Insta.L2Model.Cascade
import Insta.L4App.System

/-!
# What a request can do to the state

`Effect` lists it once, for all requests: each operation on the database
that a request can lead to, with the record it is about, what was checked,
and by whom the request was made. `w₀` is the state the request came in.

`handle_effects`: every request is a sequence of such effects. What holds of
users, posts, likes and subscriptions is then proved of the effects, and
never of the handlers.
-/
namespace Insta.Web

open Insta.Core Insta.Store Insta.Store.App Insta.Model Insta.Service

/-! ## Who asks for what -/

/-- The attributes the parameters `P` assign; the role is one they name. -/
def FromParams (lib : Lib) (P : UserParams) (p : UserPatch) : Prop :=
  ∃ role, (role = some (some .admin) → P.role = .key .admin) ∧ p = P.patch lib role

/-- Where the new row `m` comes from. -/
inductive NewUser (lib : Lib) (w₀ : World) (m : UserRow) (a : PasswordAttrs) : Request → Prop
  | signedUp {P : UserParams} {p : UserPatch} (hp : FromParams lib P p)
    (hm : m = beforeValidation lib w₀.db.users none (p.apply newUser))
    (hv : validUser lib w₀.db.users none m a = true) : NewUser lib w₀ m a (.signUp P)
  | added {P : UserParams} {token : Hex 10} {p : UserPatch} (hp : FromParams lib P p)
    (hm : m = beforeValidation lib w₀.db.users none (p.apply newUser))
    (hv : validUser lib w₀.db.users none m a = true) : NewUser lib w₀ m a (.usersCreate P token)
  | imported {e : Event} {k : Customer} (he : EventType.imports e.type = true) (hk : Known w₀ k)
    (hid : k.id = e.object.id) (hnone : userOf w₀ k.id = none)
    (hm : m = importNew lib w₀.db.users k) (ha : a = {}) : NewUser lib w₀ m a (.webhooksStripe (some e))

/-- Attributes that are about the password and the reset token. -/
structure SecretsOnly (p : UserPatch) : Prop where
  email : p.email = none
  username : p.username = none
  role : p.role = none
  stripeCustomerId : p.stripeCustomerId = none
  slug : p.slug = none
  token : (p.resetPasswordToken = none ∧ p.resetPasswordSentAt = none) ∨
    (p.resetPasswordToken = some none ∧ p.resetPasswordSentAt = some none)

/-- Where the attributes `p` of an `update` of `r` come from. -/
inductive Assigned (lib : Lib) (w₀ : World) (actor : Option Nat) (r : UserRow) (p : UserPatch) :
    Request → Prop
  | account {pw : String} {P : UserParams} (hme : currentUser w₀ actor = some r)
    (hp : FromParams lib (dropBlankPassword lib P) p) : Assigned lib w₀ actor r p (.accountUpdate pw P)
  | byId {id : IdParam} {P : UserParams} (hr : friendlyFind UserRow.slug w₀.db.users id = some r)
    (hp : FromParams lib P p) : Assigned lib w₀ actor r p (.usersUpdate id P)
  | deviseReset {raw : Option String} {a : PasswordAttrs} (hp : SecretsOnly p) :
    Assigned lib w₀ actor r p (.devisePasswordUpdate raw a)
  | reset {params : Option ResetParams} (hp : SecretsOnly p) :
    Assigned lib w₀ actor r p (.passwordsUpdate params)

/-- Whose account a request closes. -/
inductive Closes (w₀ : World) (actor : Option Nat) (r : UserRow) : Request → Prop
  | account (hme : currentUser w₀ actor = some r) : Closes w₀ actor r .accountDestroy
  | own {id : IdParam} (hme : currentUser w₀ actor = some r) : Closes w₀ actor r (.usersDestroy id)
  | byAdmin {id : IdParam} {me : UserRow} (hme : currentUser w₀ actor = some me) (hadmin : me.role = .admin)
    (hr : friendlyFind UserRow.slug w₀.db.users id = some r) : Closes w₀ actor r (.usersDestroy id)
  | reported {e : Event} (he : e.type = .customerDeleted) (hr : userOf w₀ e.object.id = some r) :
    Closes w₀ actor r (.webhooksStripe (some e))

/-! ## Effects -/

/-- Writes to the tables other than users. -/
inductive ContentWrite (w₀ : World) (actor : Option Nat) (q : Request) (db : Db) : Db → Prop
  | profileAdded {me : UserRow} {m : ProfileRow} {t : Table ProfileRow} (hme : currentUser w₀ actor = some me)
    (hm : m.userId = me.id) (huser : (db.users.find m.userId).isSome)
    (hfree : ∀ x ∈ db.profiles.rows, x.userId ≠ m.userId) (ht : db.profiles.insert m = some t) :
    ContentWrite w₀ actor q db { db with profiles := t }
  | profileSaved {me : UserRow} {r m : ProfileRow} {t : Table ProfileRow}
    (hme : currentUser w₀ actor = some me) (hr : r ∈ db.profiles.rows) (hown : r.userId = me.id)
    (hm : m.userId = r.userId) (ht : db.profiles.modify r.id (fun _ => m) = some t) :
    ContentWrite w₀ actor q db { db with profiles := t }
  | profileDropped {r : ProfileRow} (hr : r ∈ db.profiles.rows)
    (hby : (∃ me, currentUser w₀ actor = some me ∧ r.userId = me.id) ∨
      ∃ u, Closes w₀ actor u q ∧ r.userId = u.id) :
    ContentWrite w₀ actor q db (destroyProfile db r.id)
  | postAdded {me : UserRow} {m : PostRow} {tags : List Nat} {t : Table PostRow} (hdb : db = w₀.db)
    (hme : currentUser w₀ actor = some me) (hm : m.userId = me.id) (hid : m.id = db.posts.nextId)
    (huser : (db.users.find m.userId).isSome) (htags : tagsExist db tags = true)
    (ht : db.posts.insert m = some t) :
    ContentWrite w₀ actor q db { db with
      posts := t, postsTags := db.postsTags ++ tags.map fun g => ⟨m.id, g⟩ }
  | postSaved {me : UserRow} {r m : PostRow} {t : Table PostRow} {tags : List PostTag} (hdb : db = w₀.db)
    (hme : currentUser w₀ actor = some me) (hr : r ∈ db.posts.rows) (hown : r.userId = me.id)
    (htags : tags = db.postsTags ∨ ∃ ids, tagsExist db ids = true ∧
      tags = db.postsTags.filter (fun g => g.postId != r.id) ++ ids.map fun g => ⟨r.id, g⟩)
    (ht : db.posts.modify r.id (fun c =>
      { c with image := m.image, title := m.title, description := m.description, slug := m.slug }) = some t) :
    ContentWrite w₀ actor q db { db with posts := t, postsTags := tags }
  | postDropped {me : UserRow} {r : PostRow} (hdb : db = w₀.db) (hme : currentUser w₀ actor = some me)
    (hr : ∃ id, q = .postsDestroy id ∧ friendlyFind PostRow.slug db.posts id = some r)
    (hby : r.userId = me.id ∨ me.role = .admin) : ContentWrite w₀ actor q db (destroyPost db r.id)
  | tagsSaved {t : Table TagRow} (hids : ∀ x ∈ db.tags.rows, ∃ y ∈ t.rows, y.id = x.id) :
    ContentWrite w₀ actor q db { db with tags := t }
  | tagDropped {i : Nat} : ContentWrite w₀ actor q db (destroyTag db i)
  | liked {me : UserRow} {post user : Nat} (hme : currentUser w₀ actor = some me)
    (hq : q = .likesCreate post user) : ContentWrite w₀ actor q db (createLike db post user)
  | unliked {me : UserRow} {l : LikeRow} (hme : currentUser w₀ actor = some me) (hl : l ∈ db.likes.rows)
    (hq : q = .likesDestroy l.id) : ContentWrite w₀ actor q db (destroyLike db l)
  | subscribed {e : Event} {user : UserRow} {product : ProductRow} {t : Table SubscriptionRow}
    (hq : q = .webhooksStripe (some e)) (hs : EventType.syncs e.type = true) (huser : user ∈ db.users.rows)
    (hproduct : product ∈ db.products.rows) (ht : upsertSubscription db.subscriptions user product e.object = some t) :
    ContentWrite w₀ actor q db { db with subscriptions := t }
  | cancelled {me : UserRow} {r : SubscriptionRow} {t : Table SubscriptionRow}
    (hme : currentUser w₀ actor = some me) (hr : r ∈ db.subscriptions.rows) (hown : r.userId = me.id)
    (ht : db.subscriptions.modify r.id (fun r =>
      { r with status := some "canceled", active := some false }) = some t) :
    ContentWrite w₀ actor q db { db with subscriptions := t }
  | productsSaved {e : Event} {t : Table ProductRow} (hq : q = .webhooksStripe (some e))
    (hkept : ∀ x ∈ db.products.rows, ∃ y ∈ t.rows, y.id = x.id ∧ y.stripeProductId = x.stripeProductId) :
    ContentWrite w₀ actor q db { db with products := t }
  | productDropped {e : Event} {i : Nat} (hq : q = .webhooksStripe (some e)) :
    ContentWrite w₀ actor q db (destroyProduct db i)

/-- One operation of the request `q`, made by `actor` in state `w₀`. -/
inductive Effect (lib : Lib) (w₀ : World) (actor : Option Nat) (q : Request) (w w' : World) : Prop
  | outside (hdb : w'.db = w.db) (hlog : w'.resets = w.resets)
  | created {m : UserRow} {a : PasswordAttrs} {t t' : Table UserRow} {c : String}
    (hnew : NewUser lib w₀ m a q) (hw : w.db = w₀.db ∧ w.stripe = w₀.stripe)
    (ht : w.db.users.insert (insertedRow w m) = some t) (hc : c = lib.freshId (knownIds (w.setUsers t)))
    (hlink : Linking lib t (insertedRow w m) a c t')
    (hdb : w'.db = { w.db with users := t' }) (hlog : w'.resets = w.resets)
  | updated {r : UserRow} {p : UserPatch} {a : PasswordAttrs} {t : Table UserRow} (hr : r ∈ w.db.users.rows)
    (hby : Assigned lib w₀ actor r p q) (hw : w.db = w₀.db ∨ SecretsOnly p)
    (hv : validUser lib w.db.users (some r.id) (updated lib w.db.users r p) a = true)
    (ht : w.db.users.modify r.id (writtenColumns r (updated lib w.db.users r p)).apply = some t)
    (hdb : w'.db = { w.db with users := t }) (hlog : w'.resets = w.resets)
  | digested {r : UserRow} {digest : Hex 32} {t : Table UserRow} (hq : ∃ e raw, q = .forgotPassword e raw)
    (hr : r ∈ w.db.users.rows)
    (ht : w.db.users.modify r.id (writtenColumns r (withDigest lib w r digest)).apply = some t)
    (hdb : w'.db = { w.db with users := t }) (hlog : w'.resets = w.resets)
  | overwritten {e : Event} {k : Customer} {r : UserRow} {t : Table UserRow}
    (hq : q = .webhooksStripe (some e)) (he : EventType.imports e.type = true) (hk : Known w₀ k)
    (hid : k.id = e.object.id) (hr : userOf w₀ k.id = some r) (hw : w.db = w₀.db)
    (ht : w.db.users.modify r.id (writtenColumns r (importOver lib w.db.users r k)).apply = some t)
    (hdb : w'.db = { w.db with users := t }) (hlog : w'.resets = w.resets)
  | issued {r : UserRow} {token : Hex 10} {a : PasswordAttrs} {t : Table UserRow}
    (hq : ∃ P tok, q = .usersCreate P tok) (hnew : w₀.db.users.nextId ≤ r.id) (hr : r ∈ w.db.users.rows)
    (hv : validUser lib w.db.users (some r.id) (Model.updated lib w.db.users r (issuePatch token w.now)) a = true)
    (ht : w.db.users.modify r.id
      (writtenColumns r (Model.updated lib w.db.users r (issuePatch token w.now))).apply = some t)
    (hdb : w'.db = { w.db with users := t }) (hlog : w'.resets = .issued r.id token.1 w.now :: w.resets)
  | consumed {i : Nat} (hdb : w'.db = w.db) (hlog : w'.resets = .reset i :: w.resets)
    (htok : ∀ x ∈ w.db.users.rows, x.id = i → x.resetPasswordToken = none)
  | closed {r : UserRow} (hby : Closes w₀ actor r q) (hposts : w.db.posts = w₀.db.posts)
    (href : referred (destroyUserCascade w.db r.id) r.id = false)
    (hdb : w'.db = { destroyUserCascade w.db r.id with users := w.db.users.delete fun x => x.id == r.id })
    (hlog : w'.resets = w.resets)
  | content (hdb : ContentWrite w₀ actor q w.db w'.db) (hlog : w'.resets = w.resets)

/-- Of the tables an effect changes users only, or closes an account, or
writes the others. -/
theorem Effect.db_cases {lib : Lib} {w₀ : World} {actor : Option Nat} {q : Request} {w w' : World}
    (h : Effect lib w₀ actor q w w') :
    (∃ t, w'.db = { w.db with users := t }) ∨
    (∃ r, Closes w₀ actor r q ∧ w.db.posts = w₀.db.posts ∧ referred (destroyUserCascade w.db r.id) r.id = false ∧
      w'.db = { destroyUserCascade w.db r.id with users := w.db.users.delete fun x => x.id == r.id }) ∨
    ContentWrite w₀ actor q w.db w'.db := by
  cases h with
  | outside hdb _ => exact .inl ⟨w.db.users, hdb⟩
  | created _ _ _ _ _ hdb _ => exact .inl ⟨_, hdb⟩
  | updated _ _ _ _ _ hdb _ => exact .inl ⟨_, hdb⟩
  | digested _ _ _ hdb _ => exact .inl ⟨_, hdb⟩
  | overwritten _ _ _ _ _ _ _ hdb _ => exact .inl ⟨_, hdb⟩
  | issued _ _ _ _ _ hdb _ => exact .inl ⟨_, hdb⟩
  | consumed hdb _ _ => exact .inl ⟨w.db.users, hdb⟩
  | closed hby hposts href hdb _ => exact .inr (.inl ⟨_, hby, hposts, href, hdb⟩)
  | content hdb _ => exact .inr (.inr hdb)

/-- What happens are effects of the request. -/
def effects (lib : Lib) (w₀ : World) (actor : Option Nat) (q : Request) : Frame World where
  rel := Relation.ReflTransGen (Effect lib w₀ actor q)
  refl _ := .refl
  trans := Relation.ReflTransGen.trans

section Handlers

variable {lib : Lib} {w₀ : World} {actor : Option Nat} {q : Request}

theorem Effect.holds {α : Type} {x : App α} {w : World} (h : Effect lib w₀ actor q w (x.run w).2) :
    (effects lib w₀ actor q).Holds x w := .single h

theorem stripeOnly.effects {α : Type} {x : App α} {w : World} (h : stripeOnly.Holds x w) :
    (Web.effects lib w₀ actor q).Holds x w := by
  obtain ⟨st, sc, hw⟩ := h
  exact Effect.holds (.outside (by rw [hw]) (by rw [hw]))

/-! ## Users -/

theorem update_effects {r : UserRow} {p : UserPatch} {a : PasswordAttrs} {w : World}
    (hr : r ∈ w.db.users.rows) (hby : Assigned lib w₀ actor r p q) (hw : w.db = w₀.db ∨ SecretsOnly p) :
    (effects lib w₀ actor q).Holds (update lib r p a) w := by
  refine Effect.holds ?_
  rcases update_cases lib r p a w with ⟨-, hu⟩ | ⟨hv, st, sc, ⟨e, hu⟩ | ⟨t, -, ht, hu⟩⟩
  · rw [hu]; exact .outside rfl rfl
  · rw [hu]; exact .outside rfl rfl
  · rw [hu]; exact .updated hr hby hw hv ht rfl rfl

/-- `insertUser` in its transaction. -/
theorem insertUser_effects {m : UserRow} {a : PasswordAttrs} {w : World} (hnew : NewUser lib w₀ m a q)
    (hw : w.db = w₀.db ∧ w.stripe = w₀.stripe) :
    (effects lib w₀ actor q).Holds (Act.atomically (insertUser lib m a)) w := by
  refine Effect.holds ?_
  rcases h : (insertUser lib m a).run w with ⟨e | r, w'⟩
  · rw [Act.atomically_of_error h]; exact .outside rfl rfl
  · rw [Act.atomically_of_ok h]
    obtain ⟨rfl, t, t', c, ht, hc, hlink, hdb, hlog, -⟩ := insertUser_spec h
    exact .created hnew hw ht hc hlink hdb hlog

theorem create_effects {p : UserPatch} {a : PasswordAttrs}
    (hnew : ∀ m, m = beforeValidation lib w₀.db.users none (p.apply newUser) →
      validUser lib w₀.db.users none m a = true → NewUser lib w₀ m a q) :
    (effects lib w₀ actor q).Holds (create lib p a) w₀ := by
  refine .get_bind (.ite (fun hv => ?_) fun _ => .pure _ w₀)
  refine Frame.Holds.bind ?_ fun _ w' _ => .pure _ w'
  by_cases hp : p.role = some none
  · rw [if_pos hp]
    exact Effect.holds (.outside rfl rfl)
  · rw [if_neg hp]
    exact insertUser_effects (hnew _ rfl hv) ⟨rfl, rfl⟩

theorem destroyUser_effects {r : UserRow} {w : World} (hby : Closes w₀ actor r q)
    (hposts : w.db.posts = w₀.db.posts) : (effects lib w₀ actor q).Holds (destroyUser lib r) w := by
  refine Effect.holds ?_
  obtain ⟨hlog, hdb | ⟨href, hdb⟩⟩ := destroyUser_db lib r w
  · exact .outside hdb hlog
  · exact .closed hby hposts href hdb hlog

theorem signUp_effects (lib : Lib) (w : World) (actor : Option Nat) (p : UserParams) :
    (effects lib w actor (.signUp p)).Holds (signUp lib actor p) w :=
  holds_ifGuest <| holds_assignRole fun role hrole => holds_ignore <|
    create_effects fun _ hm hv => .signedUp ⟨role, hrole, rfl⟩ hm hv

theorem accountUpdate_effects (lib : Lib) (w : World) (actor : Option Nat) (pw : String) (p : UserParams) :
    (effects lib w actor (.accountUpdate pw p)).Holds (accountUpdate lib actor pw p) w := by
  refine holds_authenticate fun me hme hmem => holds_assignRole fun role hrole => .ite (fun _ => ?_) fun _ => ?_
  · refine holds_ignore (update_effects hmem (.account hme ⟨role, fun h => ?_, rfl⟩) (.inl rfl))
    have hp : (dropBlankPassword lib p).role = p.role := by unfold dropBlankPassword; split <;> rfl
    rw [hp]
    exact hrole h
  · exact .pure _ w

theorem forgotPassword_effects (lib : Lib) (w : World) (actor : Option Nat) (e : Option String) (raw : String) :
    (effects lib w actor (.forgotPassword e raw)).Holds (forgotPassword lib actor e raw) w := by
  refine holds_ifGuest <| .get_bind <| .ite (fun _ => ?_) fun _ => .pure _ w
  split
  · exact .pure _ w
  · rename_i r hr
    refine Effect.holds ?_
    obtain ⟨st, sc, ⟨e, t, h⟩ | ⟨t, ht, h⟩⟩ := saveUpdate_cases r (withDigest lib w r (lib.tokenDigest raw)) w
    · rw [Act.atomically_of_error h]; exact .outside rfl rfl
    · rw [Act.atomically_of_ok h]
      exact .digested ⟨_, _, rfl⟩ (Table.mem_of_newest hr).1 ht rfl rfl

theorem withPassword_secrets (lib : Lib) (a : PasswordAttrs) : SecretsOnly (withPassword lib a {}) := by
  unfold withPassword
  split
  · exact ⟨rfl, rfl, rfl, rfl, rfl, .inl ⟨rfl, rfl⟩⟩
  · split <;> exact ⟨rfl, rfl, rfl, rfl, rfl, .inl ⟨rfl, rfl⟩⟩

theorem devisePasswordUpdate_effects (lib : Lib) (w : World) (actor : Option Nat) (raw : Option String)
    (a : PasswordAttrs) :
    (effects lib w actor (.devisePasswordUpdate raw a)).Holds (devisePasswordUpdate lib actor raw a) w := by
  refine holds_ifGuest <| .get_bind ?_
  split
  · exact .pure _ w
  · refine .ite (fun _ => .pure _ w) fun _ => ?_
    split
    · exact .pure _ w
    · rename_i r hr
      refine .ite (fun _ => ?_) fun _ => .pure _ w
      exact holds_ignore (update_effects (Table.mem_of_newest hr).1 (.deviseReset (withPassword_secrets lib a)) (.inl rfl))

theorem reload_ok {r x : UserRow} {w w' : World} (h : (reload r).run w = (.ok x, w')) :
    w' = w ∧ x = (w.db.users.find r.id).getD r := by
  cases h; exact ⟨rfl, rfl⟩

/-- A saved record is found again under its id. -/
theorem find_saved {t t' : Table UserRow} {r m : UserRow} (hr : r ∈ t.rows)
    (h : t.modify r.id (writtenColumns r m).apply = some t') : t'.find r.id = some (written r m) :=
  Table.find_eq_some_iff.2 ⟨(mem_saved hr h).2 (.inr rfl), rfl⟩

/-- A reset that stored a new password left the row without a token. -/
theorem logReset_effects {r m : UserRow} {w₁ w : World} (hr : r ∈ w₁.db.users.rows)
    (h : w₁.db.users.modify r.id (writtenColumns r m).apply = some w.db.users) :
    (effects lib w₀ actor q).Holds (logReset r) w := by
  refine Effect.holds ?_
  unfold logReset
  rw [Act.run_modify, find_saved hr h]
  simp only [Option.any_some, written_encryptedPassword, bne_iff_ne, ne_eq]
  split
  · rename_i hpw
    refine .consumed (i := r.id) rfl rfl fun x hx hid => ?_
    rcases (mem_saved hr h).1 hx with ⟨-, hne⟩ | rfl
    · exact absurd hid hne
    · exact written_token_of_password hpw
  · exact .outside rfl rfl

theorem resetFor_effects {r : UserRow} {p : ResetParams} {w : World} {params : Option ResetParams}
    (hr : r ∈ w.db.users.rows) :
    (effects lib w₀ actor (.passwordsUpdate params)).Holds (resetFor lib r p) w := by
  unfold resetFor
  dsimp only
  split
  · exact .raise _ w
  · have hsecrets := withPassword_secrets lib p.attrs
    refine Frame.Holds.bind (update_effects hr (.reset hsecrets) (.inr hsecrets)) fun ok w₁ hok => ?_
    rcases update_cases lib r (withPassword lib p.attrs {}) p.attrs w with
      ⟨-, hu⟩ | ⟨-, st, sc, ⟨e, hu⟩ | ⟨t, -, ht, hu⟩⟩
    · rw [hu] at hok; cases hok; exact .pure _ w
    · rw [hu] at hok; cases hok
    · rw [hu] at hok
      cases hok
      simp only [if_true]
      refine (logReset_effects hr ht).bind fun _ w₂ h₂ => ?_
      have hdb : w₂.db.users = t := by
        have : ((logReset r).run { w.setUsers t with stripe := st, script := sc }).2.db.users = t := by
          unfold logReset; rw [Act.run_modify]; dsimp only; split <;> rfl
        rw [← this, h₂]
      refine Frame.Holds.bind (holds_of_snd rfl) fun r' w₃ h₃ => ?_
      obtain ⟨rfl, rfl⟩ := reload_ok h₃
      have hclear : SecretsOnly { resetPasswordToken := some none, resetPasswordSentAt := some none } :=
        ⟨rfl, rfl, rfl, rfl, rfl, .inr ⟨rfl, rfl⟩⟩
      refine holds_ignore (update_effects ?_ (.reset hclear) (.inr hclear))
      rw [hdb, find_saved hr ht]
      exact (mem_saved hr ht).2 (.inr rfl)

theorem passwordsUpdate_effects (lib : Lib) (w : World) (actor : Option Nat) (params : Option ResetParams) :
    (effects lib w actor (.passwordsUpdate params)).Holds (passwordsUpdate lib params) w := by
  unfold passwordsUpdate
  split
  · exact .raise _ w
  · refine .get_bind ?_
    split
    · exact .pure _ w
    · rename_i r hr
      exact resetFor_effects (Table.mem_of_newest hr).1

theorem invite_effects {r x : UserRow} {token tok : Hex 10} {a : PasswordAttrs} {P : UserParams} {w : World}
    (hx : w.db.users.find r.id = some x) (hnew : w₀.db.users.nextId ≤ r.id) :
    (effects lib w₀ actor (.usersCreate P tok)).Holds (invite lib r token a) w := by
  refine Frame.Holds.bind (holds_of_snd rfl) fun r' w₁ h₁ => ?_
  obtain ⟨rfl, rfl⟩ := reload_ok h₁
  obtain ⟨hmem, hid⟩ := Table.mem_of_find hx
  rw [hx]
  refine Frame.Holds.bind ?_ fun _ w₂ _ => (stripeOnly.effects (external_stripeOnly w₂)).bind fun _ w₃ _ => ?_
  · refine Effect.holds ?_
    unfold generateResetPasswordToken
    rw [Act.run_get_bind]
    rcases update_cases lib x (issuePatch token w₁.now) a w₁ with
      ⟨-, hu⟩ | ⟨hv, st, sc, ⟨e, hu⟩ | ⟨t, -, ht, hu⟩⟩
    · rw [Option.getD_some, Act.bind_of_ok hu]; exact .outside rfl rfl
    · rw [Option.getD_some, Act.bind_of_error hu]; exact .outside rfl rfl
    · rw [Option.getD_some, Act.bind_of_ok hu]
      exact .issued ⟨_, _, rfl⟩ (le_of_le_of_eq hnew hid.symm) hmem hv ht rfl rfl
  · exact Effect.holds (.outside rfl rfl)

theorem usersCreate_effects (lib : Lib) (w : World) (actor : Option Nat) (p : UserParams) (token : Hex 10) :
    (effects lib w actor (.usersCreate p token)).Holds (usersCreate lib actor p token) w := by
  refine holds_authenticate fun me _ _ => holds_assignRole fun role hrole => ?_
  have hcreate : (effects lib w actor (.usersCreate p token)).Holds
      (create lib (p.patch lib role) (p.attrs (me.role == .admin))) w :=
    create_effects fun _ hm hv => .added ⟨role, hrole, rfl⟩ hm hv
  refine hcreate.bind fun created w₁ h₁ => ?_
  split
  · exact .raise _ w₁
  · rename_i r
    refine .ite (fun _ => ?_) fun _ => .pure _ w₁
    rcases create_cases lib (p.patch lib role) (p.attrs (me.role == .admin)) w with
      ⟨-, -, hnone⟩ | ⟨r', w', hrun, -, -, hins⟩
    · exact absurd (congrArg Prod.fst h₁) (hnone r)
    · rw [hrun] at h₁
      cases h₁
      obtain ⟨x, hx⟩ := find_created hins
      exact invite_effects hx (by rw [(insertUser_spec hins).1]; exact le_rfl)

theorem usersUpdate_effects (lib : Lib) (w : World) (actor : Option Nat) (id : IdParam) (p : UserParams) :
    (effects lib w actor (.usersUpdate id p)).Holds (usersUpdate lib actor id p) w :=
  holds_authenticate fun _ _ _ => .get_bind <| holds_orNotFound fun _ hr =>
    holds_assignRole fun role hrole =>
      holds_ignore (update_effects (mem_of_friendlyFind hr) (.byId hr ⟨role, hrole, rfl⟩) (.inl rfl))

theorem dropProfile_posts (db : Db) (u : Nat) : (dropProfile db u).posts = db.posts := by
  unfold dropProfile
  split <;> rfl

theorem destroyWithProfile_effects {r : UserRow} (hby : Closes w₀ actor r q) :
    (effects lib w₀ actor q).Holds (destroyWithProfile lib r) w₀ := by
  refine Frame.Holds.bind (Effect.holds ?_) fun _ w₁ h => ?_
  rotate_left
  · cases h
    exact destroyUser_effects hby (dropProfile_posts ..)
  rw [Act.run_modify]
  unfold dropProfile
  split
  · exact .outside rfl rfl
  · rename_i p hp
    obtain ⟨hmem, hu⟩ := Table.mem_of_first hp
    exact .content (.profileDropped hmem (.inr ⟨r, hby, beq_iff_eq.1 hu⟩)) rfl

theorem usersDestroy_effects (lib : Lib) (w : World) (actor : Option Nat) (id : IdParam) :
    (effects lib w actor (.usersDestroy id)).Holds (usersDestroy lib actor id) w := by
  refine holds_authenticate fun me hme _ => holds_authorize (.ite (fun hadmin => .get_bind ?_) fun _ => ?_)
  · exact holds_orNotFound fun r hr => destroyWithProfile_effects (.byAdmin hme hadmin hr)
  · exact destroyWithProfile_effects (.own hme)

/-! ## Profiles, posts, tags and likes -/

theorem ContentWrite.holds {α : Type} {x : App α} {w : World}
    (hdb : ContentWrite w₀ actor q w.db (x.run w).2.db) (hlog : (x.run w).2.resets = w.resets) :
    (effects lib w₀ actor q).Holds x w := Effect.holds (.content hdb hlog)

theorem saveProfile_effects {me : UserRow} {old : Option ProfileRow} {p : ProfileParams} {w : World}
    (hme : currentUser w₀ actor = some me)
    (hold : ∀ r, old = some r → r ∈ w.db.profiles.rows ∧ r.userId = me.id) :
    (effects lib w₀ actor q).Holds (saveProfile lib me.id old p) w := by
  refine .get_bind (.ite (fun hv => ?_) fun _ => .pure _ w)
  cases old with
  | none =>
    have hfree : ∀ x ∈ w.db.profiles.rows, x.userId ≠ me.id := by
      unfold validProfile at hv
      simp only [Bool.and_eq_true, Bool.not_eq_true', List.any_eq_false] at hv
      simpa [assignProfile] using hv.1.2
    have huser : (w.db.users.find me.id).isSome = true := by
      unfold validProfile at hv
      simp only [Bool.and_eq_true] at hv
      exact hv.1.1.1.1.1.1.1
    split
    · exact .raise _ w
    · rename_i t ht
      exact ContentWrite.holds (.profileAdded hme rfl huser hfree ht) rfl
  | some r =>
    obtain ⟨hr, hown⟩ := hold r rfl
    split
    · exact .raise _ w
    · rename_i t ht
      exact ContentWrite.holds
        (.profileSaved (m := assignProfile lib w.db me.id (some r) p) hme hr hown rfl ht) rfl

theorem mem_of_profileOf {db : Db} {u : Nat} {r : ProfileRow} (h : profileOf db u = some r) :
    r ∈ db.profiles.rows ∧ r.userId = u := by
  obtain ⟨hm, hu⟩ := Table.mem_of_first h
  exact ⟨hm, beq_iff_eq.1 hu⟩

theorem profiles_effects (lib : Lib) (w : World) (actor : Option Nat) :
    (∀ p, (effects lib w actor (.profilesCreate p)).Holds (profilesCreate lib actor p) w) ∧
    (∀ p, (effects lib w actor (.profilesUpdate p)).Holds (profilesUpdate lib actor p) w) ∧
    (effects lib w actor .profilesDestroy).Holds (profilesDestroy actor) w := by
  refine ⟨fun p => ?_, fun p => ?_, ?_⟩ <;>
    refine holds_authenticate fun me hme _ => holds_authorize ?_
  · refine Frame.Holds.bind (saveProfile_effects hme fun r h => by cases h) fun ok w' _ => ?_
    exact .ite (fun _ => .raise _ w') fun _ => .pure _ w'
  · refine .get_bind ?_
    split
    · exact .raise _ w
    · rename_i r hr
      exact holds_ignore (saveProfile_effects hme fun x hx => by cases hx; exact mem_of_profileOf hr)
  · refine .get_bind ?_
    split
    · exact .raise _ w
    · rename_i r hr
      obtain ⟨hm, hown⟩ := mem_of_profileOf hr
      exact ContentWrite.holds (.profileDropped hm (.inl ⟨me, hme, hown⟩)) rfl

theorem savePost_effects {me : UserRow} {p : PostParams} (hme : currentUser w₀ actor = some me) :
    (effects lib w₀ actor q).Holds (savePost lib me.id p) w₀ := by
  refine .get_bind ?_
  dsimp only
  split
  · exact .raise _ w₀
  · rename_i htags
    split
    · exact .raise _ w₀
    · rename_i hv
      have huser : (w₀.db.users.find me.id).isSome = true := by
        unfold validPost at hv
        simp only [Bool.not_eq_true', Bool.not_eq_false, Bool.and_eq_true] at hv
        exact hv.1.1.1.1
      split
      · exact .raise _ w₀
      · rename_i t ht
        exact ContentWrite.holds (.postAdded rfl hme rfl rfl huser (by simpa using htags) ht) rfl

theorem updatePost_effects {me : UserRow} {r : PostRow} {p : PostParams}
    (hme : currentUser w₀ actor = some me) (hr : r ∈ w₀.db.posts.rows) (hown : r.userId = me.id) :
    (effects lib w₀ actor q).Holds (updatePost lib r p) w₀ := by
  refine .get_bind ?_
  dsimp only
  split
  · exact .raise _ w₀
  · rename_i htags
    split
    · split
      · exact .raise _ w₀
      · rename_i t ht
        refine ContentWrite.holds (.postSaved rfl hme hr hown ?_ ht) rfl
        cases hids : p.tagIds with
        | none => exact .inl rfl
        | some ids =>
          rw [hids] at htags
          exact .inr ⟨ids, by simpa using htags, rfl⟩
    · exact .pure _ w₀

theorem postsCreateFilters_ok {actor : Option Nat} {w w' : World} {me : UserRow}
    (h : (postsCreateFilters actor).run w = (.ok me, w')) : w' = w ∧ currentUser w actor = some me := by
  have hw : w' = w := (congrArg Prod.snd h).symm.trans (postsCreateFilters_snd actor w)
  obtain ⟨x, w₁, hauth, h₁⟩ := Act.bind_ok h
  obtain ⟨-, hme, -⟩ := authenticate_ok hauth
  obtain ⟨_, w₂, -, h₂⟩ := Act.bind_ok h₁
  cases h₂
  exact ⟨hw, hme⟩

/-- What `set_post` and `authorize_user` have made sure of before a destroy. -/
theorem postsDestroyFilters_ok {actor : Option Nat} {id : IdParam} {w w' : World} {r : PostRow}
    (h : (postsDestroyFilters actor id).run w = (.ok r, w')) :
    w' = w ∧ friendlyFind PostRow.slug w.db.posts id = some r ∧
      ∃ me, currentUser w actor = some me ∧ (r.userId = me.id ∨ me.role = .admin) := by
  have hw : w' = w := (congrArg Prod.snd h).symm.trans (postsDestroyFilters_snd actor id w)
  obtain ⟨me, w₁, hauth, h₁⟩ := Act.bind_ok h
  obtain ⟨hw₁, hme, -⟩ := authenticate_ok hauth
  subst hw₁
  rw [Act.run_get_bind] at h₁
  obtain ⟨x, w₂, hfind, h₂⟩ := Act.bind_ok h₁
  obtain ⟨hw₂, hx⟩ := orNotFound_ok hfind
  subst hw₂
  obtain ⟨_, w₃, hcan, h₃⟩ := Act.bind_ok h₂
  have hw₃ : w₃ = w₂ := (congrArg Prod.snd hcan).symm.trans (authorize_snd ..)
  subst hw₃
  cases h₃
  exact ⟨hw, hx, me, hme, owner_or_admin_of_allowed_destroy (authorize_ok_iff.1 hcan)⟩

/-- What `authorize_user` has made sure of. -/
theorem holds_authorized {F : Frame World} {β : Type} {u : Option UserRow} {v : Verb} {s : Subject}
    {f : Unit → App β} {w : World} (h : allowed w.db u v s = .ok true → F.Holds (f ()) w) :
    F.Holds (authorize u v s >>= f) w :=
  (holds_of_snd (authorize_snd u v s w)).bind fun a w' ha => by
    have hw : w' = w := (congrArg Prod.snd ha).symm.trans (authorize_snd ..)
    subst hw
    exact h (authorize_ok_iff.1 ha)

theorem posts_effects (lib : Lib) (w : World) (actor : Option Nat) :
    (∀ p, (effects lib w actor (.postsCreate p)).Holds (postsCreate lib actor p) w) ∧
    (∀ id p, (effects lib w actor (.postsUpdate id p)).Holds (postsUpdate lib actor id p) w) ∧
    ∀ id, (effects lib w actor (.postsDestroy id)).Holds (postsDestroy actor id) w := by
  refine ⟨fun p => ?_, fun id p => ?_, fun id => ?_⟩
  · refine (holds_of_snd (postsCreateFilters_snd actor w)).bind fun me w' h => ?_
    obtain ⟨rfl, hme⟩ := postsCreateFilters_ok h
    exact savePost_effects hme
  · refine holds_authenticate fun me hme _ => .get_bind <| holds_orNotFound fun r hr => ?_
    exact holds_authorized fun hcan => holds_ignore
      (updatePost_effects hme (mem_of_friendlyFind hr) (owner_of_allowed_update hcan))
  · refine (holds_of_snd (postsDestroyFilters_snd actor id w)).bind fun r w' h => ?_
    obtain ⟨rfl, hr, me, hme, hby⟩ := postsDestroyFilters_ok h
    exact ContentWrite.holds (.postDropped rfl hme ⟨id, rfl, hr⟩ hby) rfl

theorem saveTag_effects {old : Option TagRow} {name : Option (Option String)} {w : World}
    (hold : ∀ r, old = some r → r ∈ w.db.tags.rows) :
    (effects lib w₀ actor q).Holds (saveTag lib old name) w := by
  refine .get_bind (.ite (fun _ => ?_) fun _ => .pure _ w)
  cases old with
  | none =>
    split
    · exact .raise _ w
    · rename_i t ht
      exact ContentWrite.holds (.tagsSaved fun x hx => ⟨x, (Table.mem_insert ht).2 (.inl hx), rfl⟩) rfl
  | some r =>
    split
    · exact .raise _ w
    · rename_i t ht
      refine ContentWrite.holds (.tagsSaved fun x hx => ?_) rfl
      by_cases hid : x.id = r.id
      · exact ⟨_, (Table.mem_modify ht).2 (.inr ⟨x, hx, hid, rfl⟩), hid.symm⟩
      · exact ⟨x, (Table.mem_modify ht).2 (.inl ⟨hx, hid⟩), rfl⟩

theorem tags_effects (lib : Lib) (w : World) (actor : Option Nat) :
    (∀ n, (effects lib w actor (.tagsCreate n)).Holds (tagsCreate lib actor n) w) ∧
    (∀ id n, (effects lib w actor (.tagsUpdate id n)).Holds (tagsUpdate lib actor id n) w) ∧
    ∀ id, (effects lib w actor (.tagsDestroy id)).Holds (tagsDestroy actor id) w := by
  refine ⟨fun n => ?_, fun id n => ?_, fun id => ?_⟩ <;> refine holds_authenticate fun _ _ _ => ?_
  · exact holds_ignore (saveTag_effects fun r h => by cases h)
  · exact .get_bind <| holds_orNotFound fun r hr =>
      holds_ignore (saveTag_effects fun x hx => by cases hx; exact mem_of_friendlyFind hr)
  · exact .get_bind <| holds_orNotFound fun r _ => ContentWrite.holds .tagDropped rfl

theorem likes_effects (lib : Lib) (w : World) (actor : Option Nat) :
    (∀ post user, (effects lib w actor (.likesCreate post user)).Holds (likesCreate actor post user) w) ∧
    ∀ id, (effects lib w actor (.likesDestroy id)).Holds (likesDestroy actor id) w := by
  refine ⟨fun post user => ?_, fun id => ?_⟩ <;>
    refine holds_authenticate fun me hme _ => .get_bind <| holds_orNotFound fun x hx => ?_
  · obtain ⟨-, hid⟩ := Table.mem_of_find hx
    exact ContentWrite.holds (.liked hme (by rw [show x.id = post from hid])) rfl
  · obtain ⟨hm, hid⟩ := Table.mem_of_find hx
    exact ContentWrite.holds (.unliked hme hm (by rw [show x.id = id from hid])) rfl

/-! ## Subscriptions, products and webhooks -/

theorem subscriptions_effects (lib : Lib) (w : World) (actor : Option Nat) :
    (∀ p, (effects lib w actor (.subscriptionsCreate p)).Holds (subscriptionsCreate actor p) w) ∧
    ∀ s, (effects lib w actor (.subscriptionsDestroy s)).Holds (subscriptionsDestroy actor s) w := by
  refine ⟨fun p => ?_, fun s => ?_⟩ <;> refine holds_authenticate fun me hme _ => .get_bind ?_
  · split
    · exact .pure _ w
    · exact .rescue (stripeOnly.effects (external_stripeOnly w))
  · split
    · exact .pure _ w
    · rename_i r hr
      obtain ⟨hm, hown⟩ := Table.mem_of_first hr
      have hown' : r.userId = me.id := beq_iff_eq.1 (Bool.and_eq_true_iff.1 hown).1
      refine (stripeOnly.effects (subscriptionCancel_stripeOnly s w)).bind fun _ w' hrun => .get_bind ?_
      obtain ⟨st, sc, hw'⟩ := subscriptionCancel_stripeOnly s w
      rw [hrun] at hw'
      dsimp only at hw'
      subst hw'
      split
      · exact .raise _ _
      · rename_i t ht
        exact ContentWrite.holds (.cancelled hme hm hown' ht) rfl

theorem saveProduct_effects {found : Option ProductRow} {p : StripeProduct} {price : Price} {e : Event} {w : World} :
    (effects lib w₀ actor (.webhooksStripe (some e))).Holds (saveProduct found p price) w := by
  cases found with
  | none =>
    obtain ⟨t, ht, hw⟩ := saveProduct_new p price w
    refine ContentWrite.holds ?_ (by rw [hw])
    rw [hw]
    exact .productsSaved rfl fun x hx => ⟨x, (Table.mem_insert ht).2 (.inl hx), rfl, rfl⟩
  | some r =>
    obtain ⟨t, ht, hw⟩ := saveProduct_found r p price w
    refine ContentWrite.holds ?_ (by rw [hw])
    rw [hw]
    refine .productsSaved rfl fun x hx => ?_
    by_cases hid : x.id = r.id
    · exact ⟨_, (Table.mem_modify ht).2 (.inr ⟨x, hx, hid, rfl⟩), hid.symm, rfl⟩
    · exact ⟨x, (Table.mem_modify ht).2 (.inl ⟨hx, hid⟩), rfl, rfl⟩

theorem handleProduct_effects (e : Event) (w : World) :
    (effects lib w₀ actor (.webhooksStripe (some e))).Holds (handleProduct e) w := by
  have hsync : (effects lib w₀ actor (.webhooksStripe (some e))).Holds (syncProductFromStripe e.object.id) w := by
    refine (stripeOnly.effects (productRetrieve_stripeOnly _ w)).bind fun p w₁ _ => ?_
    refine (stripeOnly.effects (priceList_stripeOnly p w₁)).bind fun prices w₂ _ => .get_bind ?_
    split
    · exact .raise _ w₂
    · refine Frame.Holds.bind ?_ fun _ w₃ _ => saveProduct_effects
      exact .ite (fun _ => .pure _ w₂) fun _ => stripeOnly.effects (external_stripeOnly w₂)
  unfold handleProduct
  split
  · exact hsync
  · exact hsync
  · refine Effect.holds ?_
    rw [Act.run_modify]
    unfold dropProduct
    split
    · exact .outside rfl rfl
    · exact .content (.productDropped rfl) rfl
  · exact .pure _ w

theorem handleSubscription_effects (e : Event) (w : World) :
    (effects lib w₀ actor (.webhooksStripe (some e))).Holds (handleSubscription e) w := by
  have hsync : EventType.syncs e.type = true →
      (effects lib w₀ actor (.webhooksStripe (some e))).Holds (syncSubscriptionFromStripe e.object) w := by
    intro hs
    cases h : eventTarget w e.object with
    | none => exact holds_of_snd (syncSubscription_of_no_target h)
    | some target =>
      obtain ⟨user, product⟩ := target
      obtain ⟨huser, hproduct⟩ := eventTarget_mem h
      obtain ⟨t, ht, hrun⟩ := syncSubscription_of_target h
      refine Effect.holds ?_
      rw [hrun]
      exact .content (.subscribed rfl hs huser hproduct ht) rfl
  unfold handleSubscription
  split
  · rename_i ht; exact hsync (by rw [ht]; rfl)
  · rename_i ht; exact hsync (by rw [ht]; rfl)
  · rename_i ht; exact hsync (by rw [ht]; rfl)
  · exact .pure _ w
  · exact .pure _ w

theorem getCustomer_effects {e : Event} (he : EventType.imports e.type = true) :
    (effects lib w₀ actor (.webhooksStripe (some e))).Holds (getCustomerFromStripe lib e.object.id) w₀ := by
  refine (stripeOnly.effects (customerRetrieve_stripeOnly _ w₀)).bind fun k w₁ hk => .get_bind (.get_bind ?_)
  obtain ⟨hknown, hid, sc, rfl⟩ := customerRetrieve_ok hk
  split
  · rename_i r hr
    refine Effect.holds ?_
    obtain ⟨st, sc', ⟨err, t, h⟩ | ⟨t, ht, h⟩⟩ := saveUpdate_cases r (importOver lib w₀.db.users r k)
      { w₀ with script := sc }
    · rw [Act.atomically_of_error h]; exact .outside rfl rfl
    · rw [Act.atomically_of_ok h]
      exact .overwritten rfl he hknown hid hr rfl ht rfl rfl
  · rename_i hnone
    exact holds_ignore (insertUser_effects (.imported he hknown hid hnone rfl rfl) ⟨rfl, rfl⟩)

theorem webhooksStripe_effects (lib : Lib) (w : World) (actor : Option Nat) (payload : Option Event) :
    (effects lib w actor (.webhooksStripe payload)).Holds (webhooksStripe lib payload) w := by
  unfold webhooksStripe
  split
  · exact .pure _ w
  · rename_i e
    have hcust : (effects lib w actor (.webhooksStripe (some e))).Holds (handleCustomer lib e) w := by
      unfold handleCustomer
      split
      · rename_i he; exact getCustomer_effects (by rw [he]; rfl)
      · rename_i he; exact getCustomer_effects (by rw [he]; rfl)
      · rename_i he
        refine .get_bind ?_
        split
        · exact .pure _ w
        · rename_i r hr
          exact destroyUser_effects (.reported he hr) rfl
      · exact .pure _ w
    exact hcust.bind fun _ w₁ _ => (handleProduct_effects e w₁).bind fun _ w₂ _ => handleSubscription_effects e w₂

end Handlers

/-! ## All requests -/

theorem handle_effects (lib : Lib) (actor : Option Nat) (q : Request) (w : World) :
    (effects lib w actor q).Holds (handle lib actor q) w := by
  cases q with
  | signUp p => exact signUp_effects lib w actor p
  | accountUpdate pw p => exact accountUpdate_effects lib w actor pw p
  | accountDestroy => exact holds_authenticate fun me hme _ => destroyUser_effects (.account hme) rfl
  | forgotPassword e raw => exact forgotPassword_effects lib w actor e raw
  | devisePasswordUpdate raw a => exact devisePasswordUpdate_effects lib w actor raw a
  | passwordsUpdate p => exact passwordsUpdate_effects lib w actor p
  | usersCreate p token => exact usersCreate_effects lib w actor p token
  | usersUpdate id p => exact usersUpdate_effects lib w actor id p
  | usersDestroy id => exact usersDestroy_effects lib w actor id
  | profilesCreate p => exact (profiles_effects lib w actor).1 p
  | profilesUpdate p => exact (profiles_effects lib w actor).2.1 p
  | profilesDestroy => exact (profiles_effects lib w actor).2.2
  | postsCreate p => exact (posts_effects lib w actor).1 p
  | postsUpdate id p => exact (posts_effects lib w actor).2.1 id p
  | postsDestroy id => exact (posts_effects lib w actor).2.2 id
  | tagsCreate n => exact (tags_effects lib w actor).1 n
  | tagsUpdate id n => exact (tags_effects lib w actor).2.1 id n
  | tagsDestroy id => exact (tags_effects lib w actor).2.2 id
  | likesCreate post user => exact (likes_effects lib w actor).1 post user
  | likesDestroy id => exact (likes_effects lib w actor).2 id
  | subscriptionsCreate p => exact (subscriptions_effects lib w actor).1 p
  | subscriptionsDestroy s => exact (subscriptions_effects lib w actor).2 s
  | webhooksStripe e => exact webhooksStripe_effects lib w actor e

/-- What every effect of a request keeps, the request keeps. -/
theorem serve_keeps {I : World → Prop} {lib : Lib} {w : World} {c : Call}
    (hstep : ∀ a b, Effect lib { w with script := c.script } c.actor c.req a b → I a → I b)
    (h : I { w with script := c.script }) : I (serve lib w c) := by
  have hrun := handle_effects lib c.actor c.req { w with script := c.script }
  have hkeep : ∀ w', Relation.ReflTransGen (Effect lib { w with script := c.script } c.actor c.req)
      { w with script := c.script } w' → I w' := by
    intro w' hw'
    induction hw' with
    | refl => exact h
    | tail _ hs ih => exact hstep _ _ hs ih
  exact hkeep _ hrun

/-- What every effect of a call keeps of the database, a step keeps. -/
theorem step_keeps {I : Db → Prop} {lib : Lib} {w w' : World} {l : Label} (h : (system lib).step w l w')
    (hcall : ∀ c, l = .call c → ∀ a b, Effect lib { w with script := c.script } c.actor c.req a b → I a.db → I b.db)
    (hI : I w.db) : I w'.db := by
  rcases step_cases h with ⟨c, rfl, rfl⟩ | hdb
  · exact serve_keeps (I := fun x => I x.db) (hcall c rfl) hI
  · rw [hdb]
    exact hI

end Insta.Web
