import Insta.Core.Threads
import Insta.L4App.System

/-!
# A local edit between webhook handlers

One `users#update` changes the username and email of a user who is linked to
a Stripe customer, while handlers of `customer.updated` for that customer
run. Each is a sequence of atomic steps: the edit reads the row, writes it
and pushes it to Stripe; a handler retrieves the customer, finds the user,
saves and pushes. An `UPDATE` writes the columns that differ from the record
as it was loaded, and a push sends what the record holds in memory, changed
or not (`edit_serial`, `handler_serial`: without overlap the steps are the
controller's action and the service).

* `edit_survives`: once the edit has finished, row and customer hold its
  values, in every run in which no handler writes another value into a
  column the edit does not still have to write, and none pushes other values
  after the edit's own push.
* `stale_handler_undoes_edit`: a handler that retrieved the customer before
  the edit and saves after it restores the old values in both stores.
-/
namespace Insta.Concurrency

open Insta.Core Insta.Store Insta.Store.App Insta.Model Insta.Service Insta.Web

/-! ## The threads -/

/-- The edit: the user it is about, the customer that user is linked to, the
`:id` of the route and the submitted values. -/
structure Edit where
  user : Nat
  customer : String
  param : IdParam
  username : String
  email : String

def Edit.params (e : Edit) : UserParams := { username := some (some e.username), email := some (some e.email) }

def Edit.patch (e : Edit) : UserPatch := { username := some (some e.username), email := some (some e.email) }

/-- Where a request is. `edited` says whether the edit was stored; a record
in memory is the row as loaded, or as saved. -/
inductive SyncThread
  | edit
  | editLoaded (r : UserRow)
  | editWritten (x : UserRow)
  | edited (stored : Bool)
  | handler
  | retrieved (k : Customer)
  | loaded (k : Customer) (r : UserRow)
  | saved (x : UserRow)
  | done
  deriving DecidableEq

/-- One atomic step. A lookup that misses the user is no edit of it. -/
def syncStep (lib : Lib) (e : Edit) (w : World) : SyncThread → Option (World × SyncThread)
  | .edit =>
    match friendlyFind UserRow.slug w.db.users e.param with
    | none => some (w, .edited false)
    | some r => if r.id = e.user then some (w, .editLoaded r) else some (w, .edited false)
  | .editLoaded r =>
    if validUser lib w.db.users (some r.id) (updated lib w.db.users r e.patch) {} then
      match w.db.users.modify r.id (writtenColumns r (updated lib w.db.users r e.patch)).apply with
      | none => some (w, .edited false)
      | some t => some (w.setUsers t, .editWritten (written r (updated lib w.db.users r e.patch)))
    else some (w, .edited false)
  | .editWritten x => some (((updateStripeCustomer x).run w).2, .edited true)
  | .edited _ => none
  | .handler =>
    match (customerRetrieve e.customer).run w with
    | (.ok k, w') => some (w', .retrieved k)
    | (.error _, w') => some (w', .done)
  | .retrieved k =>
    match userOf w k.id with
    | none => some (((saveImport lib none k).run w).2, .done)
    | some r => some (w, .loaded k r)
  | .loaded k r =>
    match w.db.users.modify r.id (writtenColumns r (importOver lib w.db.users r k)).apply with
    | none => some (w, .done)
    | some t => some (w.setUsers t, .saved (written r (importOver lib w.db.users r k)))
  | .saved x => some (((updateStripeCustomer x).run w).2, .done)
  | .done => none

/-! ## Values -/

inductive Column
  | username | email
  deriving DecidableEq

def rowValue (r : UserRow) : Column → Option String
  | .username => r.username
  | .email => r.email

def customerValue (k : Customer) : Column → Option String
  | .username => k.name
  | .email => k.email

/-- What the edit stores: the email as the callbacks spell it. -/
def Edit.value (lib : Lib) (e : Edit) : Column → Option String
  | .username => some e.username
  | .email => normalizeEmail lib (deviseEmail lib (some e.email))

/-- User and customer stand for each other, and no call fails. -/
structure LinkedPair (e : Edit) (w : World) : Prop where
  script : w.script = []
  row : ∃ r, w.db.users.find e.user = some r ∧ r.stripeCustomerId = some e.customer
  only : ∀ x ∈ w.db.users.rows, x.stripeCustomerId = some e.customer → x.id = e.user
  known : ∃ k, Known w k ∧ k.id = e.customer

def SyncStart (e : Edit) (s : Sys World SyncThread) : Prop :=
  LinkedPair e s.shared ∧ ∃ hs, s.threads = .edit :: hs ∧ ∀ t ∈ hs, t = .handler

def syncSystem (lib : Lib) (e : Edit) : LTS (Sys World SyncThread) Nat :=
  interleave (SyncStart e) (syncStep lib e)

/-- Row and customer hold the values of the edit. -/
def HoldsEdit (lib : Lib) (e : Edit) (w : World) : Prop :=
  (∃ r, w.db.users.find e.user = some r ∧ rowValue r = e.value lib) ∧
  ∃ k, Known w k ∧ k.id = e.customer ∧ customerValue k = e.value lib

/-- What a handler that loaded `h` may save of `k`, by where the edit is:
columns it does not change, the edit's own values, and before the edit's
write whatever that will overwrite. -/
def SafeSave (lib : Lib) (e : Edit) (k : Customer) (h : UserRow) : SyncThread → Prop
  | .editLoaded r => ∀ a, customerValue k a = rowValue h a ∨ customerValue k a = e.value lib a ∨
      rowValue r a ≠ e.value lib a
  | .editWritten _ | .edited true => ∀ a, customerValue k a = rowValue h a ∨ customerValue k a = e.value lib a
  | _ => True

structure SafeStep (lib : Lib) (e : Edit) (s : Sys World SyncThread) (i : Nat) : Prop where
  save : ∀ k h t, s.threads[i]? = some (.loaded k h) → s.threads[0]? = some t → SafeSave lib e k h t
  push : ∀ x, s.threads[i]? = some (.saved x) → s.threads[0]? = some (.edited true) → rowValue x = e.value lib

/-! ## What the steps do -/

theorem rowValue_written (r m : UserRow) (a : Column) : rowValue (written r m) a = rowValue m a := by
  rw [written_eq]; split <;> cases a <;> rfl

/-- A column after a save: the new value if it was changed in memory. -/
theorem rowValue_apply (r m x : UserRow) (a : Column) : rowValue ((writtenColumns r m).apply x) a =
    if rowValue m a = rowValue r a then rowValue x a else rowValue m a := by
  have hcol : ∀ old new cur : Option String, (changed old new).getD cur = if new = old then cur else new := by
    intro old new cur
    unfold changed
    split <;> rfl
  unfold writtenColumns clearOnChange
  cases a <;> split <;> exact hcol _ _ _

theorem stripeCustomerId_apply {r m : UserRow} (h : m.stripeCustomerId = r.stripeCustomerId) (x : UserRow) :
    ((writtenColumns r m).apply x).stripeCustomerId = x.stripeCustomerId := by
  unfold writtenColumns clearOnChange
  split <;> simp [UserPatch.apply, userDiff, changed, h]

theorem rowValue_updated (lib : Lib) (users : Table UserRow) (r : UserRow) (e : Edit) (a : Column) :
    rowValue (updated lib users r e.patch) a = e.value lib a := by
  cases a <;> rfl

theorem rowValue_importOver (lib : Lib) (users : Table UserRow) (r : UserRow) (k : Customer) (a : Column) :
    rowValue (importOver lib users r k) a = customerValue k a := by
  cases a <;> rfl

/-- A save of the user's record that does not touch the link. -/
theorem LinkedPair.save {e : Edit} {w : World} {r m : UserRow} {t : Table UserRow} (h : LinkedPair e w)
    (hid : r.id = e.user) (hm : m.stripeCustomerId = r.stripeCustomerId)
    (ht : w.db.users.modify r.id (writtenColumns r m).apply = some t) :
    LinkedPair e (w.setUsers t) ∧ ∀ x, w.db.users.find e.user = some x → ∃ x', t.find e.user = some x' ∧
      ∀ a, rowValue x' a = if rowValue m a = rowValue r a then rowValue x a else rowValue m a := by
  have hfind : ∀ x, w.db.users.find e.user = some x →
      t.find e.user = some (withId r.id ((writtenColumns r m).apply x)) := by
    intro x hx
    obtain ⟨hmem, hxid⟩ := Table.find_eq_some_iff.1 hx
    refine Table.find_eq_some_iff.2 ⟨(Table.mem_modify ht).2 (.inr ⟨x, hmem, hxid.trans hid.symm, rfl⟩), ?_⟩
    rw [Row.rowId_withId, hid]
  obtain ⟨x₀, hx₀, hlink₀⟩ := h.row
  refine ⟨⟨h.script, ⟨_, hfind x₀ hx₀, (stripeCustomerId_apply hm x₀).trans hlink₀⟩, ?_, ?_⟩, ?_⟩
  · intro x hx hlink
    rcases (Table.mem_modify ht).1 hx with ⟨hx, -⟩ | ⟨y, hy, -, rfl⟩
    · exact h.only x hx hlink
    · exact hid
  · obtain ⟨k, hk, hkid⟩ := h.known
    exact ⟨k, ⟨hk.found, hk.live⟩, hkid⟩
  · intro x hx
    refine ⟨_, hfind x hx, fun a => ?_⟩
    rw [← rowValue_apply]
    cases a <;> rfl

/-- A push of a record of the user: Stripe has its values, and nothing else
changes. -/
theorem LinkedPair.push {e : Edit} {w : World} {x : UserRow} (h : LinkedPair e w)
    (hlink : x.stripeCustomerId = some e.customer) :
    LinkedPair e ((updateStripeCustomer x).run w).2 ∧ ((updateStripeCustomer x).run w).2.db = w.db ∧
    ∃ k, Known ((updateStripeCustomer x).run w).2 k ∧ k.id = e.customer ∧ customerValue k = rowValue x := by
  obtain ⟨k, hk, hid⟩ := h.known
  have hpush := customerUpdate_of_nil h.script x.stripeCustomerId x.email x.username
  have hfound : x.stripeCustomerId.bind (customer? w) = some k := by
    rw [hlink, ← hid]
    exact hk.customer?
  rw [hfound] at hpush
  have hrun : ((updateStripeCustomer x).run w).2 =
      { w with stripe := w.stripe.setCustomer k x.email x.username } := congrArg Prod.snd hpush
  have hk' := known_setCustomer hk x.email x.username
  rw [hrun]
  refine ⟨⟨h.script, h.row, h.only, _, hk', hid⟩, rfl, _, hk', hid, ?_⟩
  funext a
  cases a <;> rfl

/-! ## The steps are the action and the service -/

/-- A save is its write and its push. -/
theorem saveUpdate_steps {e : Edit} {w : World} {r m : UserRow} {t : Table UserRow} (h : LinkedPair e w)
    (hlink : (written r m).stripeCustomerId = some e.customer)
    (ht : w.db.users.modify r.id (writtenColumns r m).apply = some t) :
    (saveUpdate r m).run w = (.ok (), ((updateStripeCustomer (written r m)).run (w.setUsers t)).2) := by
  obtain ⟨k, hk, hid⟩ := h.known
  have hfound : (written r m).stripeCustomerId.bind (customer? w) = some k := by
    rw [hlink, ← hid]
    exact hk.customer?
  have hsave := saveUpdate_of_some h.script ht hfound
  have hbind : (saveUpdate r m).run w = (updateStripeCustomer (written r m)).run (w.setUsers t) :=
    Act.bind_of_ok (writeUser_of_some ht)
  rw [hbind] at hsave ⊢
  rw [hsave]

theorem edit_serial {lib : Lib} {e : Edit} {w : World} {actor : Option Nat} {me r : UserRow} {t : Table UserRow}
    (h : LinkedPair e w) (hauth : (authenticate actor).run w = (.ok me, w))
    (hfind : friendlyFind UserRow.slug w.db.users e.param = some r) (hid : r.id = e.user)
    (hlink : r.stripeCustomerId = some e.customer)
    (hv : validUser lib w.db.users (some r.id) (updated lib w.db.users r e.patch) {} = true)
    (ht : w.db.users.modify r.id (writtenColumns r (updated lib w.db.users r e.patch)).apply = some t) :
    [0, 0, 0].foldlM (fire (syncStep lib e)) ⟨w, [.edit]⟩ =
      some ⟨((usersUpdate lib actor e.param e.params).run w).2, [.edited true]⟩ := by
  have hlink' : (written r (updated lib w.db.users r e.patch)).stripeCustomerId = some e.customer := by
    rw [written_eq]; split <;> exact hlink
  have hupdate : (update lib r e.patch {}).run w = (.ok true,
      ((updateStripeCustomer (written r (updated lib w.db.users r e.patch))).run (w.setUsers t)).2) := by
    rw [update_of_valid hv]
    exact Act.bind_of_ok (Act.atomically_of_ok (saveUpdate_steps h hlink' ht))
  have haction : ((usersUpdate lib actor e.param e.params).run w).2 =
      ((updateStripeCustomer (written r (updated lib w.db.users r e.patch))).run (w.setUsers t)).2 := by
    unfold usersUpdate
    rw [Act.bind_of_ok hauth, Act.run_get_bind, hfind]
    show ((update lib r e.patch {} >>= fun _ => pure ()).run w).2 = _
    rw [Act.bind_of_ok hupdate]
    rfl
  rw [haction]
  simp [fire, syncStep, hfind, hid, hid ▸ hv, hid ▸ ht]

theorem handler_serial {lib : Lib} {e : Edit} {w : World} {k : Customer} {r : UserRow} {t : Table UserRow}
    (h : LinkedPair e w) (hk : (customerRetrieve e.customer).run w = (.ok k, w))
    (hu : userOf w k.id = some r) (hlink : r.stripeCustomerId = some e.customer)
    (ht : w.db.users.modify r.id (writtenColumns r (importOver lib w.db.users r k)).apply = some t) :
    [0, 0, 0, 0].foldlM (fire (syncStep lib e)) ⟨w, [.handler]⟩ =
      some ⟨((getCustomerFromStripe lib e.customer).run w).2, [.done]⟩ := by
  have hlink' := (importOver_written lib w.db.users r k).2.2.trans hlink
  have hservice : ((getCustomerFromStripe lib e.customer).run w).2 =
      ((updateStripeCustomer (written r (importOver lib w.db.users r k))).run (w.setUsers t)).2 := by
    unfold getCustomerFromStripe
    rw [Act.bind_of_ok hk, Act.run_get_bind, hu]
    unfold saveImport
    rw [Act.run_get_bind]
    dsimp only
    rw [Act.atomically_of_ok (saveUpdate_steps h hlink' ht)]
  rw [hservice]
  simp [fire, syncStep, hk, hu, ht]

/-! ## The invariant -/

/-- The user's row has the edit's value in column `a`. -/
def RowHolds (lib : Lib) (e : Edit) (w : World) (a : Column) : Prop :=
  ∃ x, w.db.users.find e.user = some x ∧ rowValue x a = e.value lib a

/-- What holds by the phase of the edit. A column that the edit loaded with
its own value will not be written, so it has to keep it. -/
def EditorInv (lib : Lib) (e : Edit) (w : World) : SyncThread → Prop
  | .edit | .edited false => True
  | .editLoaded r => r.id = e.user ∧ r.stripeCustomerId = some e.customer ∧
      ∀ a, rowValue r a = e.value lib a → RowHolds lib e w a
  | .editWritten x => x.stripeCustomerId = some e.customer ∧ rowValue x = e.value lib ∧ ∀ a, RowHolds lib e w a
  | .edited true => HoldsEdit lib e w
  | _ => False

def HandlerInv (e : Edit) : SyncThread → Prop
  | .handler | .done => True
  | .retrieved k => k.id = e.customer
  | .loaded k r => k.id = e.customer ∧ r.id = e.user ∧ r.stripeCustomerId = some e.customer
  | .saved x => x.stripeCustomerId = some e.customer
  | _ => False

structure SyncInv (lib : Lib) (e : Edit) (s : Sys World SyncThread) : Prop where
  linked : LinkedPair e s.shared
  editor : ∃ t, s.threads[0]? = some t ∧ EditorInv lib e s.shared t
  handlers : ∀ i t, 0 < i → s.threads[i]? = some t → HandlerInv e t

/-- The user's row, as any lookup finds it. -/
theorem LinkedPair.link_of_find {e : Edit} {w : World} {r : UserRow} (h : LinkedPair e w)
    (hr : w.db.users.find e.user = some r) : r.stripeCustomerId = some e.customer := by
  obtain ⟨x, hx, hlink⟩ := h.row
  cases hr.symm.trans hx
  exact hlink

theorem rowHolds_all {lib : Lib} {e : Edit} {w : World} (h : ∀ a, RowHolds lib e w a) :
    ∃ r, w.db.users.find e.user = some r ∧ rowValue r = e.value lib := by
  obtain ⟨r, hr, -⟩ := h .username
  refine ⟨r, hr, funext fun a => ?_⟩
  obtain ⟨r', hr', ha⟩ := h a
  cases hr.symm.trans hr'
  exact ha

/-- The edit is saved: the row has its values in every column. -/
theorem LinkedPair.edit_saved {lib : Lib} {e : Edit} {w : World} {r : UserRow} {t : Table UserRow}
    (h : LinkedPair e w) (hi : EditorInv lib e w (.editLoaded r))
    (ht : w.db.users.modify r.id (writtenColumns r (updated lib w.db.users r e.patch)).apply = some t) :
    LinkedPair e (w.setUsers t) ∧
      EditorInv lib e (w.setUsers t) (.editWritten (written r (updated lib w.db.users r e.patch))) := by
  obtain ⟨hid, hlink, hkept⟩ := hi
  have hm : (updated lib w.db.users r e.patch).stripeCustomerId = r.stripeCustomerId := rfl
  obtain ⟨h', hrow⟩ := h.save hid hm ht
  have hvalue := rowValue_updated lib w.db.users r e
  refine ⟨h', ?_, ?_, fun a => ?_⟩
  · rw [written_eq]
    split <;> exact hlink
  · funext a
    rw [rowValue_written, hvalue]
  · obtain ⟨x, hx, -⟩ := h.row
    obtain ⟨x', hx', hval⟩ := hrow x hx
    refine ⟨x', hx', (hval a).trans ?_⟩
    rw [hvalue]
    -- an unchanged column was loaded with the edit's value
    split
    · rename_i heq
      obtain ⟨y, hy, hya⟩ := hkept a heq.symm
      cases hx.symm.trans hy
      exact hya
    · rfl

theorem editor_step {lib : Lib} {e : Edit} {w w' : World} {t t' : SyncThread} (h : LinkedPair e w)
    (hi : EditorInv lib e w t) (hs : syncStep lib e w t = some (w', t')) :
    LinkedPair e w' ∧ EditorInv lib e w' t' := by
  cases t with
  | edit =>
    simp only [syncStep] at hs
    split at hs
    · cases hs; exact ⟨h, trivial⟩
    · rename_i r hr
      split at hs
      · rename_i hid
        cases hs
        have hfind : w.db.users.find e.user = some r :=
          Table.find_eq_some_iff.2 ⟨mem_of_friendlyFind hr, hid⟩
        exact ⟨h, hid, h.link_of_find hfind, fun a ha => ⟨r, hfind, ha⟩⟩
      · cases hs; exact ⟨h, trivial⟩
  | editLoaded r =>
    simp only [syncStep] at hs
    split at hs
    · split at hs
      · cases hs; exact ⟨h, trivial⟩
      · rename_i t ht
        cases hs
        exact h.edit_saved hi ht
    · cases hs; exact ⟨h, trivial⟩
  | editWritten x =>
    obtain ⟨hlink, hval, hrow⟩ := hi
    cases hs
    obtain ⟨h', hdb, k, hk, hkid, hkval⟩ := h.push hlink
    obtain ⟨r, hr, hrval⟩ := rowHolds_all hrow
    exact ⟨h', ⟨r, by rw [hdb]; exact hr, hrval⟩, k, hk, hkid, hkval.trans hval⟩
  | edited b => cases hs
  | handler | retrieved | loaded | saved | done => exact absurd hi id

/-- The customer a handler works with. -/
theorem LinkedPair.retrieve {e : Edit} {w : World} (h : LinkedPair e w) :
    ∃ k, (customerRetrieve e.customer).run w = (.ok k, w) ∧ k.id = e.customer := by
  obtain ⟨k, hk, hid⟩ := h.known
  refine ⟨k, ?_, hid⟩
  rw [customerRetrieve_of_nil h.script, ← hid, hk.found]
  simp [hk.live]

/-- The row a handler works with. -/
theorem LinkedPair.userOf {e : Edit} {w : World} (h : LinkedPair e w) :
    ∃ r, userOf w e.customer = some r ∧ r.id = e.user ∧ r.stripeCustomerId = some e.customer := by
  obtain ⟨x, hx, hlink⟩ := h.row
  cases hu : Service.userOf w e.customer with
  | none => exact absurd hlink (userOf_eq_none_iff.1 hu x (Table.mem_of_find hx).1)
  | some r =>
    obtain ⟨hr, hrl⟩ := mem_of_userOf hu
    exact ⟨r, rfl, h.only r hr hrl, hrl⟩

/-- A safe save leaves the edit's values where the edit relies on them. -/
theorem editorInv_save {lib : Lib} {e : Edit} {w : World} {k : Customer} {r : UserRow} {t : Table UserRow}
    {ed : SyncThread} (h : LinkedPair e w) (hid : r.id = e.user)
    (ht : w.db.users.modify r.id (writtenColumns r (importOver lib w.db.users r k)).apply = some t)
    (hi : EditorInv lib e w ed) (hsafe : SafeSave lib e k r ed) : EditorInv lib e (w.setUsers t) ed := by
  have hm : (importOver lib w.db.users r k).stripeCustomerId = r.stripeCustomerId := rfl
  obtain ⟨-, hrow⟩ := h.save hid hm ht
  have hholds : ∀ a, RowHolds lib e w a →
      (customerValue k a = rowValue r a ∨ customerValue k a = e.value lib a) → RowHolds lib e (w.setUsers t) a := by
    rintro a ⟨x, hx, hxa⟩ hk
    obtain ⟨x', hx', hval⟩ := hrow x hx
    refine ⟨x', hx', (hval a).trans ?_⟩
    rw [rowValue_importOver]
    split
    · exact hxa
    · rename_i hne
      exact hk.resolve_left hne
  cases ed with
  | edit => trivial
  | editLoaded r₀ =>
    obtain ⟨hid₀, hlink₀, hkept⟩ := hi
    refine ⟨hid₀, hlink₀, fun a ha => hholds a (hkept a ha) ?_⟩
    rcases hsafe a with hk | hk | hk
    · exact .inl hk
    · exact .inr hk
    · exact absurd ha hk
  | editWritten x => exact ⟨hi.1, hi.2.1, fun a => hholds a (hi.2.2 a) (hsafe a)⟩
  | edited b =>
    cases b with
    | false => trivial
    | true =>
      obtain ⟨⟨x, hx, hxv⟩, k', hk', hid', hval'⟩ := hi
      refine ⟨rowHolds_all fun a => hholds a ⟨x, hx, congrFun hxv a⟩ (hsafe a), k', ?_, hid', hval'⟩
      exact ⟨hk'.found, hk'.live⟩
  | handler | retrieved | loaded | saved | done => exact hi

/-- A push concerns a finished edit only, and a safe one has its values. -/
theorem editorInv_push {lib : Lib} {e : Edit} {w : World} {x : UserRow} {ed : SyncThread} (h : LinkedPair e w)
    (hlink : x.stripeCustomerId = some e.customer) (hi : EditorInv lib e w ed)
    (hsafe : ed = .edited true → rowValue x = e.value lib) :
    EditorInv lib e ((updateStripeCustomer x).run w).2 ed := by
  obtain ⟨-, hdb, k, hk, hid, hval⟩ := h.push hlink
  have hholds : ∀ a, RowHolds lib e w a → RowHolds lib e ((updateStripeCustomer x).run w).2 a := by
    rintro a ⟨y, hy, hya⟩
    exact ⟨y, by rw [hdb]; exact hy, hya⟩
  cases ed with
  | edit => trivial
  | editLoaded r => exact ⟨hi.1, hi.2.1, fun a ha => hholds a (hi.2.2 a ha)⟩
  | editWritten y => exact ⟨hi.1, hi.2.1, fun a => hholds a (hi.2.2 a)⟩
  | edited b =>
    cases b with
    | false => trivial
    | true =>
      obtain ⟨⟨y, hy, hyv⟩, -⟩ := hi
      exact ⟨⟨y, by rw [hdb]; exact hy, hyv⟩, k, hk, hid, hval.trans (hsafe rfl)⟩
  | handler | retrieved | loaded | saved | done => exact hi

theorem handler_step {lib : Lib} {e : Edit} {w w' : World} {t t' ed : SyncThread} (h : LinkedPair e w)
    (ht : HandlerInv e t) (hi : EditorInv lib e w ed)
    (hsave : ∀ k r, t = .loaded k r → SafeSave lib e k r ed)
    (hpush : ∀ x, t = .saved x → ed = .edited true → rowValue x = e.value lib)
    (hs : syncStep lib e w t = some (w', t')) :
    LinkedPair e w' ∧ EditorInv lib e w' ed ∧ HandlerInv e t' := by
  cases t with
  | handler =>
    obtain ⟨k, hrun, hid⟩ := h.retrieve
    simp only [syncStep, hrun] at hs
    cases hs
    exact ⟨h, hi, hid⟩
  | retrieved k =>
    obtain ⟨r, hu, hrid, hlink⟩ := h.userOf
    have hkid : k.id = e.customer := ht
    simp only [syncStep, hkid, hu] at hs
    cases hs
    exact ⟨h, hi, hkid, hrid, hlink⟩
  | loaded k r =>
    obtain ⟨hkid, hrid, hlink⟩ := ht
    simp only [syncStep] at hs
    split at hs
    · cases hs; exact ⟨h, hi, trivial⟩
    · rename_i tb htb
      cases hs
      have hm : (importOver lib w.db.users r k).stripeCustomerId = r.stripeCustomerId := rfl
      refine ⟨(h.save hrid hm htb).1, editorInv_save h hrid htb hi (hsave k r rfl), ?_⟩
      exact (importOver_written lib w.db.users r k).2.2.trans hlink
  | saved x =>
    cases hs
    exact ⟨(h.push ht).1, editorInv_push h ht hi (hpush x rfl), trivial⟩
  | done => cases hs
  | edit | editLoaded | editWritten | edited => exact absurd ht id

theorem syncInv_step {lib : Lib} {e : Edit} {s s' : Sys World SyncThread} {i : Nat} (hi : SyncInv lib e s)
    (hg : SafeStep lib e s i) (h : fire (syncStep lib e) s i = some s') : SyncInv lib e s' := by
  obtain ⟨t, w', t', ht, hstep, rfl⟩ := fire_cases h
  obtain ⟨ed, hed, hedi⟩ := hi.editor
  rcases Nat.eq_zero_or_pos i with rfl | hpos
  · cases hed.symm.trans ht
    obtain ⟨hl, hei⟩ := editor_step hi.linked hedi hstep
    refine ⟨hl, ⟨t', ?_, hei⟩, fun j u hj hu => ?_⟩
    · rw [List.getElem?_set_self (List.getElem?_eq_some_iff.1 ht).1]
    · rw [List.getElem?_set_ne (Nat.ne_of_lt hj)] at hu
      exact hi.handlers j u hj hu
  · obtain ⟨hl, hei, hhi⟩ := handler_step hi.linked (hi.handlers i t hpos ht) hedi
      (fun k r he => hg.save k r ed (he ▸ ht) hed) (fun x he hd => hg.push x (he ▸ ht) (hd ▸ hed)) hstep
    refine ⟨hl, ⟨ed, ?_, hei⟩, fun j u hj hu => ?_⟩
    · rw [List.getElem?_set_ne (Nat.ne_of_gt hpos)]
      exact hed
    · by_cases hij : i = j
      · subst hij
        rw [List.getElem?_set_self (List.getElem?_eq_some_iff.1 ht).1] at hu
        cases hu
        exact hhi
      · rw [List.getElem?_set_ne hij] at hu
        exact hi.handlers j u hj hu

/-- Once the edit was stored and pushed, row and customer hold its values:
in every state that safe steps lead to, so in particular when all handlers
have finished. -/
theorem edit_survives (lib : Lib) (e : Edit) (s : Sys World SyncThread)
    (h : ((syncSystem lib e).guard (SafeStep lib e)).Reachable s)
    (hdone : s.threads[0]? = some (.edited true)) : HoldsEdit lib e s.shared := by
  have hind : ((syncSystem lib e).guard (SafeStep lib e)).Inductive (SyncInv lib e) := by
    refine ⟨fun s hs => ?_, fun s i s' hi hst => syncInv_step hi hst.2 hst.1⟩
    obtain ⟨hl, hs', hthreads, hall⟩ := hs
    refine ⟨hl, ⟨.edit, by rw [hthreads]; rfl, trivial⟩, fun i t hpos ht => ?_⟩
    rw [hthreads, List.getElem?_cons, if_neg (Nat.ne_of_gt hpos)] at ht
    rw [hall t (List.mem_of_getElem? ht)]
    trivial
  obtain ⟨ed, hed, hedi⟩ := (hind.reachable s h).editor
  cases hdone.symm.trans hed
  exact hedi

/-! ## One edit and one handler -/

/-- Alice takes another name. -/
def rename : Edit := ⟨1, "cus_1", ⟨"alice", none⟩, "alicia", "alice@example.com"⟩

def editAndHandler : Sys World SyncThread := ⟨shop, [.edit, .handler]⟩

theorem editAndHandler_start : SyncStart rename editAndHandler := by
  have hk : Known shop ⟨"cus_1", some "alice", some "alice@example.com", false⟩ := ⟨rfl, rfl⟩
  refine ⟨⟨rfl, ⟨aliceRow, rfl, rfl⟩, fun x hx _ => ?_, ⟨_, hk, rfl⟩⟩, [.handler], rfl, by simp⟩
  rw [List.mem_singleton.1 hx]
  rfl

def afterSteps (is : List Nat) : Sys World SyncThread :=
  (is.foldlM (fire (syncStep plainLib rename)) editAndHandler).getD editAndHandler

/-- Only a handler's save and push can be unsafe. -/
theorem safeStep_of_thread {lib : Lib} {e : Edit} {s : Sys World SyncThread} {i : Nat} {t : SyncThread}
    (ht : s.threads[i]? = some t) (hload : ∀ k h, t ≠ .loaded k h) (hsave : ∀ x, t ≠ .saved x) :
    SafeStep lib e s i :=
  ⟨fun k h _ hl _ => absurd (Option.some.inj (ht.symm.trans hl)) (hload k h),
    fun x hx _ => absurd (Option.some.inj (ht.symm.trans hx)) (hsave x)⟩

/-- The handler starts when the edit is through: it finds the new values in
Stripe, and saves and pushes these. -/
theorem handler_after_edit_agrees :
    ((syncSystem plainLib rename).guard (SafeStep plainLib rename)).Reachable (afterSteps [0, 0, 0, 1, 1, 1, 1]) ∧
    (afterSteps [0, 0, 0, 1, 1, 1, 1]).threads = [.edited true, .done] ∧
    HoldsEdit plainLib rename (afterSteps [0, 0, 0, 1, 1, 1, 1]).shared := by
  have hsave : SafeStep plainLib rename (afterSteps [0, 0, 0, 1, 1]) 1 := by
    refine ⟨fun k h t hl ht => ?_, fun x hx => ?_⟩
    · cases hl
      cases ht
      exact fun a => .inr (by cases a <;> rfl)
    · cases hx
  have hpush : SafeStep plainLib rename (afterSteps [0, 0, 0, 1, 1, 1]) 1 := by
    refine ⟨fun k h t hl => ?_, fun x hx _ => ?_⟩
    · cases hl
    · cases hx
      funext a
      cases a <;> rfl
  have hreach : ((syncSystem plainLib rename).guard (SafeStep plainLib rename)).Reachable
      (afterSteps [0, 0, 0, 1, 1, 1, 1]) :=
    ⟨editAndHandler, [0, 0, 0, 1, 1, 1, 1], editAndHandler_start,
      .cons ⟨rfl, safeStep_of_thread rfl (by simp) (by simp)⟩
      (.cons ⟨rfl, safeStep_of_thread rfl (by simp) (by simp)⟩
      (.cons ⟨rfl, safeStep_of_thread rfl (by simp) (by simp)⟩
      (.cons ⟨rfl, safeStep_of_thread rfl (by simp) (by simp)⟩
      (.cons ⟨rfl, safeStep_of_thread rfl (by simp) (by simp)⟩
      (.cons ⟨rfl, hsave⟩ (.cons ⟨rfl, hpush⟩ (.nil _)))))))⟩
  exact ⟨hreach, rfl, edit_survives plainLib rename _ hreach rfl⟩

/-- The handler retrieved the customer before the edit and saves after it:
both stores are back at the old name. -/
theorem stale_handler_undoes_edit :
    (syncSystem plainLib rename).Reachable (afterSteps [1, 0, 0, 0, 1, 1, 1]) ∧
    (afterSteps [1, 0, 0, 0, 1, 1, 1]).threads = [.edited true, .done] ∧
    ¬ HoldsEdit plainLib rename (afterSteps [1, 0, 0, 0, 1, 1, 1]).shared := by
  refine ⟨⟨editAndHandler, [1, 0, 0, 0, 1, 1, 1], editAndHandler_start, LTS.ofFn_run_iff.2 rfl⟩, rfl, ?_⟩
  rintro ⟨⟨r, hr, hval⟩, -⟩
  cases hr
  exact absurd (congrFun hval .username) (by decide)

end Insta.Concurrency
