import Insta.L4App.Effects

/-!
# What a request can do to the users table

`UserWrite` lists it once: of the users table and the reset record, a step
of a request removes rows, inserts a row without a token, saves a loaded
record, issues a reset token, or records a reset. `grant` stands for "the
request names the admin role"; without it no step hands that role out.

`handle_userWrites`: every request is a sequence of such steps. The
invariants about users are then proved of the seven cases, not of the
handlers.

`RowWrite` is the same with what was checked: the row that an effect leaves
in the table and where it comes from. `Effect.rows`: an effect writes one
such row, or none.
-/
namespace Insta.Web

open Insta.Core Insta.Store Insta.Store.App Insta.Model Insta.Service

/-- What the in-memory row `m` of the record `r` has in its token columns: what
was loaded, or null, or a Devise digest. -/
def PlainToken (r m : UserRow) : Prop :=
  (m.resetPasswordToken = r.resetPasswordToken ∧ m.resetPasswordSentAt = r.resetPasswordSentAt) ∨
  ∀ t, m.resetPasswordToken = some t → t.length = 64

inductive UserWrite (grant : Prop) (w w' : World) : Prop
  | same (hu : w'.db.users = w.db.users) (hl : w'.resets = w.resets)
  | destroyed (p : UserRow → Bool) (hu : w'.db.users = w.db.users.delete p) (hl : w'.resets = w.resets)
  | added (m : UserRow) (hu : w.db.users.insert m = some w'.db.users) (hl : w'.resets = w.resets)
      (htok : m.resetPasswordToken = none) (hrole : m.role = .admin → grant)
  | saved (r m : UserRow) (hr : r ∈ w.db.users.rows)
      (hu : w.db.users.modify r.id (writtenColumns r m).apply = some w'.db.users)
      (hl : w'.resets = w.resets) (htok : PlainToken r m)
      (hrole : m.role = .admin → r.role = .admin ∨ grant)
  | issued (r m : UserRow) (t : Hex 10) (hr : r ∈ w.db.users.rows)
      (hu : w.db.users.modify r.id (writtenColumns r m).apply = some w'.db.users)
      (hl : w'.resets = .issued r.id t.1 w.now :: w.resets)
      (htok : m.resetPasswordToken = some t.1) (hsent : m.resetPasswordSentAt = some w.now)
      (hrole : m.role = r.role)
  | consumed (u : Nat) (hu : w'.db.users = w.db.users) (hl : w'.resets = .reset u :: w.resets)
      (hnone : ∀ r ∈ w.db.users.rows, r.id = u → r.resetPasswordToken = none)

/-- A sequence of such steps. -/
def userWrites (grant : Prop) : Frame World where
  rel := Relation.ReflTransGen (UserWrite grant)
  refl _ := .refl
  trans := Relation.ReflTransGen.trans

/-- The request names the admin role. -/
def Request.namesAdmin : Request → Prop
  | .signUp p | .accountUpdate _ p | .usersCreate p _ | .usersUpdate _ p => p.role = .key .admin
  | _ => False

instance (q : Request) : Decidable q.namesAdmin := by
  cases q <;> unfold Request.namesAdmin <;> infer_instance

/-! ## Attributes and rows -/

/-- A patch that names no role, or not the admin's, leaves the role of the
record or makes it a user. -/
theorem role_apply {grant : Prop} {p : UserPatch} {r : UserRow}
    (hp : p.role = some (some .admin) → grant) (h : (p.apply r).role = .admin) : r.role = .admin ∨ grant := by
  have h' : (p.role.getD none).getD r.role = .admin := h
  rcases hr : p.role with _ | _ | v
  · rw [hr] at h'; exact .inl h'
  · rw [hr] at h'; exact .inl h'
  · rw [hr] at h'
    simp only [Option.getD_some] at h'
    subst h'
    exact .inr (hp hr)

/-- Attributes that name no token leave the token columns of the in-memory
row as loaded. -/
theorem updated_plainToken {lib : Lib} {users : Table UserRow} {r : UserRow} {p : UserPatch}
    (ht : p.resetPasswordToken = none) (hs : p.resetPasswordSentAt = none) :
    PlainToken r (updated lib users r p) := by
  left
  simp [updated, beforeValidation, withSlug, UserPatch.apply, ht, hs]

section Assigned

variable {lib : Lib} {w₀ : World} {actor : Option Nat} {r : UserRow} {p : UserPatch} {q : Request}
  {users : Table UserRow}

theorem FromParams.plainToken {P : UserParams} (h : FromParams lib P p) :
    PlainToken r (updated lib users r p) := by
  obtain ⟨role, -, rfl⟩ := h
  obtain ⟨digest, hpatch⟩ := patch_eq lib P role
  rw [hpatch]
  exact updated_plainToken rfl rfl

theorem FromParams.role {P : UserParams} (h : FromParams lib P p) (ha : p.role = some (some .admin)) :
    P.role = .key .admin := by
  obtain ⟨role, hrole, rfl⟩ := h
  obtain ⟨digest, hpatch⟩ := patch_eq lib P role
  rw [hpatch] at ha
  exact hrole ha

theorem FromParams.slug {P : UserParams} (h : FromParams lib P p) : p.slug = none := by
  obtain ⟨role, -, rfl⟩ := h
  obtain ⟨digest, hpatch⟩ := patch_eq lib P role
  rw [hpatch]

theorem SecretsOnly.plainToken (h : SecretsOnly p) : PlainToken r (updated lib users r p) := by
  rcases h.token with ⟨ht, hs⟩ | ⟨ht, hs⟩
  · exact updated_plainToken ht hs
  · refine .inr fun t h => ?_
    simp [updated, beforeValidation, withSlug, UserPatch.apply, ht] at h

theorem Assigned.plainToken (h : Assigned lib w₀ actor r p q) : PlainToken r (updated lib users r p) := by
  cases h with
  | account _ hp => exact hp.plainToken
  | byId _ hp => exact hp.plainToken
  | deviseReset hp => exact hp.plainToken
  | reset hp => exact hp.plainToken

/-- No request names a slug. -/
theorem Assigned.slug (h : Assigned lib w₀ actor r p q) : p.slug = none := by
  cases h with
  | account _ hp => exact hp.slug
  | byId _ hp => exact hp.slug
  | deviseReset hp => exact hp.slug
  | reset hp => exact hp.slug

/-- A save hands out the admin role only when the request names it. -/
theorem Assigned.role (h : Assigned lib w₀ actor r p q) (hm : (updated lib users r p).role = .admin) :
    r.role = .admin ∨ q.namesAdmin := by
  refine role_apply (fun ha => ?_) hm
  cases h with
  | account _ hp =>
    have := hp.role ha
    unfold dropBlankPassword at this
    split at this <;> exact this
  | byId _ hp => exact hp.role ha
  | deviseReset hp => rw [hp.role] at ha; cases ha
  | reset hp => rw [hp.role] at ha; cases ha

/-- A new row has no token, and is an admin only when the request names that
role. -/
theorem NewUser.plain {m : UserRow} {a : PasswordAttrs} (h : NewUser lib w₀ m a q) :
    m.resetPasswordToken = none ∧ (m.role = .admin → q.namesAdmin) := by
  have hparams : ∀ {P : UserParams} {p : UserPatch}, FromParams lib P p →
      m = beforeValidation lib w₀.db.users none (p.apply newUser) →
      m.resetPasswordToken = none ∧ (m.role = .admin → P.role = .key .admin) := by
    rintro P p hp rfl
    refine ⟨?_, fun hm => ?_⟩
    · obtain ⟨role, -, rfl⟩ := hp
      obtain ⟨digest, hpatch⟩ := patch_eq lib P role
      rw [hpatch]
      rfl
    · have hr : newUser.role = .admin ∨ P.role = .key .admin := role_apply hp.role hm
      exact hr.resolve_left (by decide)
  cases h with
  | signedUp hp hm _ => exact hparams hp hm
  | added hp hm _ => exact hparams hp hm
  | imported _ _ _ _ hm _ => subst hm; exact ⟨rfl, fun h => by cases h⟩

end Assigned

/-! ## Effects -/

theorem ContentWrite.users {w₀ : World} {actor : Option Nat} {q : Request} {db db' : Db}
    (h : ContentWrite w₀ actor q db db') : db'.users = db.users := by
  cases h with
  | @liked me post user _ _ =>
    rcases createLike_cases db post user with he | ⟨t, -, -, -, -, he⟩ <;> rw [he]
  | _ => rfl

/-! ## All requests -/

/-- A creation inserts the row and then links it. -/
theorem created_writes {lib : Lib} {w₀ : World} {q : Request} {m : UserRow} {a : PasswordAttrs} {c : String}
    {t t' : Table UserRow} {w w' : World} (hnew : NewUser lib w₀ m a q)
    (ht : w.db.users.insert (insertedRow w m) = some t) (hlink : Linking lib t (insertedRow w m) a c t')
    (hdb : w'.db = { w.db with users := t' }) (hlog : w'.resets = w.resets) :
    (userWrites q.namesAdmin).rel w w' := by
  obtain ⟨htok, hrole⟩ := hnew.plain
  have hadd : UserWrite q.namesAdmin w (w.setUsers t) := .added _ ht rfl htok hrole
  refine (userWrites q.namesAdmin).trans (.single hadd) (.single ?_)
  have hmem : insertedRow w m ∈ t.rows := (Table.mem_insert ht).2 (.inr rfl)
  cases hlink with
  | refused _ => exact .same (by rw [hdb]; rfl) hlog
  | linked _ ht' =>
    have hu : t.modify (insertedRow w m).id (writtenColumns (insertedRow w m)
        (updated lib t (insertedRow w m) (linkPatch c))).apply = some w'.db.users := by rw [hdb]; exact ht'
    exact .saved _ _ hmem hu hlog (updated_plainToken rfl rfl) fun hm => .inl hm

/-- Every effect of a request is a sequence of user writes. -/
theorem Effect.writes {lib : Lib} {w₀ : World} {actor : Option Nat} {q : Request} {w w' : World}
    (h : Effect lib w₀ actor q w w') : (userWrites q.namesAdmin).rel w w' := by
  have hsave : ∀ {r m : UserRow} {t : Table UserRow},
      w.db.users.modify r.id (writtenColumns r m).apply = some t → w'.db = { w.db with users := t } →
      w.db.users.modify r.id (writtenColumns r m).apply = some w'.db.users := by
    intro r m t ht hdb
    rw [hdb]
    exact ht
  cases h with
  | outside hdb hlog => exact .single (.same (by rw [hdb]) hlog)
  | created hnew hw ht hc hlink hdb hlog => exact created_writes hnew ht hlink hdb hlog
  | updated hr hby hw hv ht hdb hlog =>
    exact .single (.saved _ _ hr (hsave ht hdb) hlog hby.plainToken hby.role)
  | @digested r digest t hq hr ht hdb hlog =>
    refine .single (.saved _ _ hr (hsave ht hdb) hlog (.inr fun s hs => ?_) fun hm => .inl hm)
    have hs' : some digest.1 = some s := hs
    cases hs'
    exact digest.2
  | overwritten hq he hk hid hr hw ht hdb hlog =>
    refine .single (.saved _ _ ?_ (hsave ht hdb) hlog (.inl ⟨rfl, rfl⟩) fun hm => .inl hm)
    rw [hw]
    exact (mem_of_userOf hr).1
  | issued hq hnew hr hv ht hdb hlog => exact .single (.issued _ _ _ hr (hsave ht hdb) hlog rfl rfl rfl)
  | consumed hdb hlog htok => exact .single (.consumed _ (by rw [hdb]) hlog htok)
  | closed hby hposts href hdb hlog => exact .single (.destroyed _ (by rw [hdb]) hlog)
  | content hdb hlog => exact .single (.same hdb.users hlog)

theorem handle_userWrites (lib : Lib) (actor : Option Nat) (q : Request) (w : World) :
    (userWrites q.namesAdmin).Holds (handle lib actor q) w := by
  have hall : ∀ w', (effects lib w actor q).rel w w' → (userWrites q.namesAdmin).rel w w' := by
    intro w' h
    induction h with
    | refl => exact .refl
    | tail _ hs ih => exact ih.trans hs.writes
  exact hall _ (handle_effects lib actor q w)

/-- An invariant of the users table and the reset record that every write
keeps is kept by every step of the system. -/
theorem next_keeps {I : Table UserRow → List ResetEvent → Prop}
    (hI : ∀ grant w w', UserWrite grant w w' → I w.db.users w.resets → I w'.db.users w'.resets)
    (lib : Lib) (w : World) (l : Label) (h : I w.db.users w.resets) :
    I (next lib w l).db.users (next lib w l).resets := by
  cases l with
  | tick n => exact h
  | account s => exact h
  | call c =>
    have hw := handle_userWrites lib c.actor c.req { w with script := c.script }
    have hrun : ∀ w', Relation.ReflTransGen (UserWrite c.req.namesAdmin) { w with script := c.script } w' →
        I w'.db.users w'.resets := by
      intro w' hw'
      induction hw' with
      | refl => exact h
      | tail _ hs ih => exact hI _ _ _ hs ih
    exact hrun _ hw

/-! ## The row that is written -/

/-- The row that an effect of the request inserts or overwrites. -/
inductive RowWrite (lib : Lib) (w₀ : World) (actor : Option Nat) (q : Request) (w : World) : UserRow → Prop
  | unlinked {m : UserRow} {a : PasswordAttrs} {t : Table UserRow} {c : String} (hnew : NewUser lib w₀ m a q)
    (hw : w.db = w₀.db) (ht : w.db.users.insert (insertedRow w m) = some t)
    (hv : validUser lib t (some (insertedRow w m).id) (updated lib t (insertedRow w m) (linkPatch c)) a = false) :
    RowWrite lib w₀ actor q w (insertedRow w m)
  | linked {m : UserRow} {a : PasswordAttrs} {t : Table UserRow} {c : String} (hnew : NewUser lib w₀ m a q)
    (hw : w.db = w₀.db ∧ w.stripe = w₀.stripe) (ht : w.db.users.insert (insertedRow w m) = some t)
    (hc : c = lib.freshId (knownIds (w.setUsers t)))
    (hv : validUser lib t (some (insertedRow w m).id) (updated lib t (insertedRow w m) (linkPatch c)) a = true) :
    RowWrite lib w₀ actor q w (written (insertedRow w m) (updated lib t (insertedRow w m) (linkPatch c)))
  | updated {r : UserRow} {p : UserPatch} {a : PasswordAttrs} (hr : r ∈ w.db.users.rows)
    (hby : Assigned lib w₀ actor r p q) (hw : w.db = w₀.db ∨ SecretsOnly p)
    (hv : validUser lib w.db.users (some r.id) (updated lib w.db.users r p) a = true) :
    RowWrite lib w₀ actor q w (written r (updated lib w.db.users r p))
  | digested {r : UserRow} {digest : Hex 32} (hr : r ∈ w.db.users.rows) :
    RowWrite lib w₀ actor q w (written r (withDigest lib w r digest))
  | overwritten {e : Event} {k : Customer} {r : UserRow} (hq : q = .webhooksStripe (some e))
    (he : EventType.imports e.type = true) (hk : Known w₀ k) (hid : k.id = e.object.id)
    (hr : userOf w₀ k.id = some r) (hw : w.db = w₀.db) :
    RowWrite lib w₀ actor q w (written r (importOver lib w.db.users r k))
  | issued {r : UserRow} {token : Hex 10} {a : PasswordAttrs} (hr : r ∈ w.db.users.rows)
    (hv : validUser lib w.db.users (some r.id) (Model.updated lib w.db.users r (issuePatch token w.now)) a = true) :
    RowWrite lib w₀ actor q w (written r (Model.updated lib w.db.users r (issuePatch token w.now)))

/-- An effect leaves the rows or deletes some, or writes one row. -/
theorem Effect.rows {lib : Lib} {w₀ : World} {actor : Option Nat} {q : Request} {w w' : World}
    (h : Effect lib w₀ actor q w w') :
    (∀ x ∈ w'.db.users.rows, x ∈ w.db.users.rows) ∨
    ∃ y, RowWrite lib w₀ actor q w y ∧ w.db.users.Writes w'.db.users y := by
  have hkept : w'.db.users = w.db.users → ∀ x ∈ w'.db.users.rows, x ∈ w.db.users.rows :=
    fun hu x hx => hu ▸ hx
  have hsaved : ∀ {r m : UserRow} {t : Table UserRow}, r ∈ w.db.users.rows →
      w.db.users.modify r.id (writtenColumns r m).apply = some t → w'.db = { w.db with users := t } →
      w.db.users.Writes w'.db.users (written r m) := by
    intro r m t hr ht hdb
    rw [hdb]
    exact Table.writes_modify hr ht
  cases h with
  | outside hdb _ => exact .inl (hkept (by rw [hdb]))
  | @created m a t t' c hnew hw ht hc hlink hdb _ =>
    right
    have hins : w.db.users.Writes t (insertedRow w m) := Table.writes_insert ht
    cases hlink with
    | refused hv =>
      refine ⟨_, .unlinked hnew hw.1 ht hv, ?_⟩
      rw [hdb]
      exact hins
    | linked hv ht' =>
      refine ⟨_, .linked hnew hw ht hc hv, fun x hx => ?_⟩
      rw [hdb] at hx
      have hmem : insertedRow w m ∈ t.rows := (Table.mem_insert ht).2 (.inr rfl)
      rcases (mem_saved hmem ht').1 hx with ⟨hx, hne⟩ | hx
      · exact .inr ⟨((hins x hx).resolve_left fun he => hne (by rw [he])).1, hne⟩
      · exact .inl hx
  | updated hr hby hw hv ht hdb _ => exact .inr ⟨_, .updated hr hby hw hv, hsaved hr ht hdb⟩
  | digested hq hr ht hdb _ => exact .inr ⟨_, .digested hr, hsaved hr ht hdb⟩
  | overwritten hq he hk hid hr hw ht hdb _ =>
    exact .inr ⟨_, .overwritten hq he hk hid hr hw, hsaved (hw ▸ (mem_of_userOf hr).1) ht hdb⟩
  | issued hq hnew hr hv ht hdb _ => exact .inr ⟨_, .issued hr hv, hsaved hr ht hdb⟩
  | consumed hdb _ _ => exact .inl (hkept (by rw [hdb]))
  | closed hby hposts href hdb _ =>
    left
    intro x hx
    rw [hdb] at hx
    exact (Table.mem_delete.1 hx).1
  | content hdb _ => exact .inl (hkept hdb.users)

end Insta.Web
