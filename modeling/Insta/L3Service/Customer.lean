import Insta.L2Model.Ability

/-!
# `GetStripeCustomerService`

The import of a Stripe customer into the users table. The save skips the
validations but not the callbacks: a new user gets a second Stripe customer
from `create_stripe_customer`, whose nested `update` does validate and then
overwrites the id the user was looked up by; an existing user is pushed back
to Stripe.

`getCustomer_cases`: without faults, an event about a customer changes
nothing, or overwrites the row linked to it, or inserts one; the last also
creates a second customer (`Imported`).
-/
namespace Insta.Service

open Insta.Core Insta.Store Insta.Store.App Insta.Model

/-- `User.find_by(stripe_customer_id: c)`. -/
def userOf (w : World) (c : String) : Option UserRow := findUserBy w fun r => r.stripeCustomerId == some c

/-- The found record with the name and email of `k` assigned, and its slug
set by `before_save`. -/
def importOver (lib : Lib) (users : Table UserRow) (r : UserRow) (k : Customer) : UserRow :=
  withSlug lib users (some r) { r with username := k.name, email := k.email }

/-- The new record for `k`. -/
def importNew (lib : Lib) (users : Table UserRow) (k : Customer) : UserRow :=
  withSlug lib users none
    { newUser with stripeCustomerId := some k.id, username := k.name, email := k.email }

/-- `user.save(validate: false)` for the record found, or a new one. -/
def saveImport (lib : Lib) (found : Option UserRow) (k : Customer) : App Unit := do
  let w ← Act.get
  match found with
  | some r => Act.atomically (saveUpdate r (importOver lib w.db.users r k))
  | none => do
    let _ ← Act.atomically (insertUser lib (importNew lib w.db.users k) {})

/-- mirrors app/services/get_stripe_customer_service.rb:8-16 -/
def getCustomerFromStripe (lib : Lib) (c : String) : App Unit := do
  let k ← customerRetrieve c
  let w ← Act.get
  saveImport lib (userOf w k.id) k

theorem mem_of_userOf {w : World} {c : String} {r : UserRow} (h : userOf w c = some r) :
    r ∈ w.db.users.rows ∧ r.stripeCustomerId = some c := by
  obtain ⟨hm, hp⟩ := Table.mem_of_newest h
  exact ⟨hm, by simpa using hp⟩

theorem userOf_eq_none_iff {w : World} {c : String} :
    userOf w c = none ↔ ∀ r ∈ w.db.users.rows, r.stripeCustomerId ≠ some c := by
  unfold userOf findUserBy
  rw [Table.newest_eq_none_iff]
  exact forall₂_congr fun r _ => by rw [beq_eq_false_iff_ne]

/-! ## The service when no fault is scripted -/

/-- A customer the account still has, as it is. -/
structure Known (w : World) (k : Customer) : Prop where
  found : w.stripe.customers.find? (·.id == k.id) = some k
  live : k.deleted = false

/-- A returned `Stripe::Customer.retrieve` returned what the account has. -/
theorem customerRetrieve_ok {c : String} {k : Customer} {w w' : World}
    (h : (customerRetrieve c).run w = (.ok k, w')) :
    Known w k ∧ k.id = c ∧ ∃ sc, w' = { w with script := sc } := by
  unfold customerRetrieve at h
  obtain ⟨_, w₁, hx, h⟩ := Act.bind_ok h
  have hw := external_snd w
  rw [hx] at hw
  dsimp only at hw
  generalize w₁.script = sc at hw
  subst hw
  rw [Act.run_get_bind] at h
  dsimp only at h
  split at h
  · cases h
  · rename_i k' hk
    have hid : k'.id = c := by simpa using List.find?_some hk
    cases hd : k'.deleted with
    | true => rw [hd] at h; cases h
    | false =>
      rw [hd] at h
      cases h
      subst hid
      exact ⟨⟨hk, hd⟩, rfl, sc, rfl⟩

theorem Known.mem {w : World} {k : Customer} (h : Known w k) : k ∈ w.stripe.customers :=
  List.mem_of_find?_eq_some h.found

theorem Known.customer? {w : World} {k : Customer} (h : Known w k) : customer? w k.id = some k := by
  obtain ⟨hk, as, bs, hl, has⟩ := List.find?_eq_some_iff_append.1 h.found
  refine List.find?_eq_some_iff_append.2 ⟨by simp [h.live], as, bs, hl, fun a ha => ?_⟩
  have := has a ha
  simp_all

/-- Customers are determined by their ids. -/
theorem Known.eq {w : World} {a b : Customer} (ha : Known w a) (hb : Known w b) (h : a.id = b.id) : a = b := by
  have hf := ha.found
  rw [h, hb.found] at hf
  exact (Option.some.inj hf).symm

/-- A push is what Stripe has from then on. -/
theorem known_setCustomer {w : World} {k : Customer} (hk : Known w k) (email name : Option String) :
    Known { w with stripe := w.stripe.setCustomer k email name } { k with name := name, email := email } := by
  refine ⟨?_, hk.live⟩
  unfold Stripe.setCustomer
  split
  · rename_i h
    obtain ⟨rfl, rfl⟩ := h
    exact hk.found
  · dsimp only
    rw [List.find?_map]
    have hcomp : ((fun x : Customer => x.id == k.id) ∘ fun x => if x.id = k.id then
        { x with name := name, email := email } else x) = fun x => x.id == k.id := by
      funext x
      simp only [Function.comp]
      split <;> rfl
    rw [hcomp, hk.found]
    simp

theorem importOver_written (lib : Lib) (users : Table UserRow) (r : UserRow) (k : Customer) :
    (written r (importOver lib users r k)).username = k.name ∧
    (written r (importOver lib users r k)).email = k.email ∧
    (written r (importOver lib users r k)).stripeCustomerId = r.stripeCustomerId := by
  rw [written_eq]
  split <;> exact ⟨rfl, rfl, rfl⟩

/-- Importing over a linked row writes it, unless an index refuses; what is
pushed back is what Stripe has. -/
theorem saveImport_over {lib : Lib} {w : World} {r : UserRow} {k : Customer} (hs : w.script = [])
    (hk : Known w k) (hlink : r.stripeCustomerId = some k.id) :
    (saveImport lib (some r) k).run w =
      match w.db.users.modify r.id (writtenColumns r (importOver lib w.db.users r k)).apply with
      | none => (.error .recordNotUnique, w)
      | some t => (.ok (), w.setUsers t) := by
  unfold saveImport
  rw [Act.run_get_bind]
  dsimp only
  cases ht : w.db.users.modify r.id (writtenColumns r (importOver lib w.db.users r k)).apply with
  | none => rw [Act.atomically_of_error (saveUpdate_of_none ht)]; rfl
  | some t =>
    obtain ⟨hu, he, hl⟩ := importOver_written lib w.db.users r k
    have hc : (written r (importOver lib w.db.users r k)).stripeCustomerId.bind (customer? w) = some k := by
      rw [hl, hlink]; exact hk.customer?
    rw [Act.atomically_of_ok (saveUpdate_of_some hs ht hc), hu, he, setCustomer_self]
    rfl

theorem importNew_slug (lib : Lib) (users : Table UserRow) (k : Customer) :
    (importNew lib users k).slug = none → (importNew lib users k).username = none :=
  withSlug_slug lib users _

/-- The row the import of `k` inserts. -/
def importRow (lib : Lib) (w : World) (k : Customer) : UserRow :=
  insertedRow w (importNew lib w.db.users k)

/-- What an import of `k` that no index refuses has done: a new row, linked
to `k` or to a second customer of the same name that was created for it. -/
structure Imported (w : World) (k : Customer) (x : UserRow) (k' : Customer) (w' : World) : Prop where
  rows : w'.db.users.rows = w.db.users.rows ++ [x]
  username : x.username = k.name
  link : x.stripeCustomerId = some k'.id ∨ x.stripeCustomerId = some k.id
  unnamed : k.name = none → x.stripeCustomerId = some k.id
  customers : w'.stripe.customers = w.stripe.customers ++ [k']
  fresh : k'.id ∉ knownIds w
  other : k'.id ≠ k.id
  name : k'.name = k.name
  live : k'.deleted = false
  outbox : ∃ more, w'.stripe.outbox = w.stripe.outbox ++ ⟨.customerCreated, { id := k'.id }⟩ :: more ∧
    ∀ e ∈ more, e = ⟨.customerUpdated, { id := k'.id }⟩

section Imported

variable {w w' : World} {k k' k₁ : Customer} {x : UserRow}

theorem Imported.fresh_customer (h : Imported w k x k' w') : ∀ a ∈ w.stripe.customers, a.id ≠ k'.id :=
  fun a ha he => h.fresh (List.mem_append.2 (.inl (List.mem_map.2 ⟨a, ha, he⟩)))

theorem Imported.fresh_link (h : Imported w k x k' w') :
    ∀ r ∈ w.db.users.rows, r.stripeCustomerId ≠ some k'.id :=
  fun r hr he => h.fresh (List.mem_append.2 (.inr (List.mem_filterMap.2 ⟨r, hr, he⟩)))

/-- The customers there were stay as they were. -/
theorem Imported.known_iff (h : Imported w k x k' w') (hne : k₁.id ≠ k'.id) : Known w' k₁ ↔ Known w k₁ := by
  have hfind : w'.stripe.customers.find? (·.id == k₁.id) = w.stripe.customers.find? (·.id == k₁.id) := by
    rw [h.customers, List.find?_append]
    simp [hne.symm]
  exact ⟨fun hk => ⟨hfind ▸ hk.found, hk.live⟩, fun hk => ⟨hfind.trans hk.found, hk.live⟩⟩

theorem Imported.known_new (h : Imported w k x k' w') : Known w' k' := by
  refine ⟨?_, h.live⟩
  have hnone : w.stripe.customers.find? (·.id == k'.id) = none := by
    rw [List.find?_eq_none]
    intro a ha
    simpa using h.fresh_customer a ha
  rw [h.customers, List.find?_append, hnone]
  simp

/-- A row that stayed linked to `k` leaves the second customer without
one. -/
theorem Imported.userOf_new (h : Imported w k x k' w') (hx : x.stripeCustomerId = some k.id) :
    userOf w' k'.id = none := by
  rw [userOf_eq_none_iff, h.rows]
  intro r hr
  rcases List.mem_append.1 hr with hr | hr
  · exact h.fresh_link r hr
  · rw [List.mem_singleton.1 hr, hx]
    exact fun he => h.other (Option.some.inj he).symm

end Imported

/-- The account after the push that may follow the creation of `k`. -/
theorem setCustomer_addCustomer {a : Stripe} {k : Customer} (hk : ∀ x ∈ a.customers, x.id ≠ k.id)
    (email : Option String) {name : Option String} (hname : k.name = name) : ∃ more,
    ((a.addCustomer k).setCustomer k email name).customers = a.customers ++ [{ k with email := email }] ∧
    ((a.addCustomer k).setCustomer k email name).outbox =
      a.outbox ++ ⟨.customerCreated, { id := k.id }⟩ :: more ∧
    ∀ e ∈ more, e = ⟨.customerUpdated, { id := k.id }⟩ := by
  subst hname
  unfold Stripe.setCustomer
  split
  · rename_i h
    exact ⟨[], by simp [Stripe.addCustomer, ← h.2], rfl, by simp⟩
  · refine ⟨[⟨.customerUpdated, { id := k.id }⟩], ?_, by simp [Stripe.addCustomer], by simp⟩
    have hmap : a.customers.map (fun x => if x.id = k.id then { x with name := k.name, email := email } else x)
        = a.customers := by
      conv_rhs => rw [← List.map_id a.customers]
      exact List.map_congr_left fun x hx => if_neg (hk x hx)
    simp [Stripe.addCustomer, hmap]

/-- The state in which `create_stripe_customer` runs for an imported row. -/
def afterInsert (w : World) (t : Table UserRow) (r : UserRow) : World :=
  { w.setUsers t with jobs := w.jobs ++ [r.id] }

theorem saveImport_of_create {lib : Lib} {w w' : World} {k : Customer} {t : Table UserRow}
    (ht : w.db.users.insert (importRow lib w k) = some t)
    (h : (createStripeCustomer lib (importRow lib w k) {}).run (afterInsert w t (importRow lib w k)) =
      (.ok (), w')) : (saveImport lib none k).run w = (.ok (), w') := by
  have hrun : (insertUser lib (importNew lib w.db.users k) {}).run w = (.ok (importRow lib w k), w') := by
    unfold importRow at ht h
    unfold insertUser
    rw [Act.run_get_bind, ht]
    dsimp only
    have hmail : (sendWelcomeEmail (insertedRow w (importNew lib w.db.users k)) {}).run (w.setUsers t) =
        (.ok (), afterInsert w t (insertedRow w (importNew lib w.db.users k))) := rfl
    rw [Act.run_modify_bind, Act.bind_of_ok hmail, Act.bind_of_ok h]
    rfl
  unfold saveImport
  rw [Act.run_get_bind]
  dsimp only
  rw [Act.bind_of_ok (Act.atomically_of_ok hrun)]
  rfl

/-- Ids in use before the insert are in use after it. -/
theorem knownIds_afterInsert {w : World} {t : Table UserRow} {r : UserRow}
    (hrow : t.rows = w.db.users.rows ++ [r]) {c : String} (hc : c ∈ knownIds w) :
    c ∈ knownIds (afterInsert w t r) := by
  have hrow' : (afterInsert w t r).db.users.rows = w.db.users.rows ++ [r] := hrow
  unfold knownIds at hc ⊢
  rw [hrow', List.filterMap_append]
  rcases List.mem_append.1 hc with hc | hc
  · exact List.mem_append.2 (.inl hc)
  · exact List.mem_append.2 (.inr (List.mem_append.2 (.inl hc)))

/-- An unnamed row is not valid. -/
theorem named_of_valid {lib : Lib} {users : Table UserRow} {r : UserRow} {c : String} {a : PasswordAttrs}
    (hslug : r.slug = none → r.username = none)
    (hv : validUser lib users (some r.id) (updated lib users r (linkPatch c)) a = true) :
    r.username ≠ none := by
  intro hn
  have hpres : lib.present r.username = false := by rw [hn]; rfl
  unfold validUser at hv
  simp [updated_link lib users c hslug, hpres] at hv

theorem saveImport_new (lib : Lib) {w : World} {k : Customer} (hs : w.script = []) (hk : Known w k)
    {t : Table UserRow} (ht : w.db.users.insert (importRow lib w k) = some t) :
    ∃ x k' w', (saveImport lib none k).run w = (.ok (), w') ∧ Imported w k x k' w' := by
  have hrow : t.rows = w.db.users.rows ++ [importRow lib w k] := Table.rows_insert ht
  have hmem : importRow lib w k ∈ t.rows := by rw [hrow]; simp
  have hslug : (importRow lib w k).slug = none → (importRow lib w k).username = none :=
    importNew_slug lib w.db.users k
  obtain ⟨k', hk'⟩ : ∃ k', k' = newCustomer lib (afterInsert w t (importRow lib w k))
    (importRow lib w k).email (importRow lib w k).username := ⟨_, rfl⟩
  have hfresh : k'.id ∉ knownIds w := by
    intro h
    rw [hk'] at h
    exact lib.freshId_fresh _ (knownIds_afterInsert hrow h)
  have hcust : ∀ x ∈ w.stripe.customers, x.id ≠ k'.id := by
    intro x hx he
    exact hfresh (List.mem_append.2 (.inl (List.mem_map.2 ⟨x, hx, he⟩)))
  have hother : k'.id ≠ k.id := fun h => hcust k hk.mem h.symm
  have hname : k'.name = k.name := by rw [hk']; rfl
  have hlive : k'.deleted = false := by rw [hk']; rfl
  cases hv : validUser lib t (some (importRow lib w k).id)
      (updated lib t (importRow lib w k) (linkPatch k'.id)) {} with
  | false =>
    have hrun := createStripeCustomer_of_invalid (w := afterInsert w t (importRow lib w k)) hs hk' rfl hv
    exact ⟨_, k', _, saveImport_of_create ht hrun, hrow, rfl, .inr rfl, fun _ => rfl, rfl, hfresh, hother,
      hname, hlive, [], rfl, by simp⟩
  | true =>
    obtain ⟨t', ht', hrun⟩ := createStripeCustomer_of_valid (w := afterInsert w t (importRow lib w k))
      hs hmem hslug hk' rfl hv
    have hnamed : k.name ≠ none := named_of_valid hslug hv
    obtain ⟨hlink, husername⟩ := written_link lib t k'.id hslug
    obtain ⟨email, hemail⟩ : ∃ email,
      email = (written (importRow lib w k) (updated lib t (importRow lib w k) (linkPatch k'.id))).email :=
      ⟨_, rfl⟩
    obtain ⟨more, hmc, hmo, hmore⟩ := setCustomer_addCustomer hcust email hname
    rw [hemail] at hmo
    have hrows := rows_modify_last hrow ht' rfl
    exact ⟨_, { k' with email := email }, _, saveImport_of_create ht hrun, hrows, husername, .inl hlink,
      fun hn => absurd hn hnamed, hemail ▸ hmc, hfresh, hother, hname, hlive, more, hmo, hmore⟩

theorem saveImport_refused {lib : Lib} {w : World} {k : Customer}
    (ht : w.db.users.insert (importRow lib w k) = none) :
    (saveImport lib none k).run w = (.error .recordNotUnique, w) := by
  have hrun : (insertUser lib (importNew lib w.db.users k) {}).run w = (.error .recordNotUnique, w) := by
    unfold importRow at ht
    unfold insertUser
    rw [Act.run_get_bind, ht]
    rfl
  unfold saveImport
  rw [Act.run_get_bind]
  dsimp only
  rw [Act.bind_of_error (Act.atomically_of_error hrun)]
  rfl

theorem getCustomer_of_known (lib : Lib) {w : World} {k : Customer} (hs : w.script = []) (hk : Known w k) :
    (getCustomerFromStripe lib k.id).run w = (saveImport lib (userOf w k.id) k).run w := by
  have hget : (customerRetrieve k.id).run w = (.ok k, w) := by
    rw [customerRetrieve_of_nil hs, hk.found]
    simp [hk.live]
  unfold getCustomerFromStripe
  rw [Act.bind_of_ok hget, Act.run_get_bind]

/-- An id that stands for no customer, or for a deleted one, is an error. -/
theorem getCustomer_of_unknown (lib : Lib) {w : World} {c : String} (hs : w.script = [])
    (hc : ∀ k, k.id = c → ¬ Known w k) : ∃ e, (getCustomerFromStripe lib c).run w = (.error e, w) := by
  have herr : ∃ e, (customerRetrieve c).run w = (.error e, w) := by
    rw [customerRetrieve_of_nil hs]
    split
    · exact ⟨_, rfl⟩
    · rename_i k hk
      have hid : k.id = c := by simpa using List.find?_some hk
      subst hid
      cases hd : k.deleted with
      | false => exact absurd ⟨hk, hd⟩ (hc k rfl)
      | true => exact ⟨_, rfl⟩
  obtain ⟨e, he⟩ := herr
  unfold getCustomerFromStripe
  rw [Act.bind_of_error he]
  exact ⟨e, rfl⟩

/-- The delivery of an event about `c`: nothing, a linked row overwritten,
or an import. -/
theorem getCustomer_cases (lib : Lib) {w : World} (hs : w.script = []) (c : String) :
    ((getCustomerFromStripe lib c).run w).2 = w ∨
    (∃ k r t, Known w k ∧ k.id = c ∧ userOf w c = some r ∧
      w.db.users.modify r.id (writtenColumns r (importOver lib w.db.users r k)).apply = some t ∧
      ((getCustomerFromStripe lib c).run w).2 = w.setUsers t) ∨
    ∃ k t x k', Known w k ∧ k.id = c ∧ userOf w c = none ∧
      w.db.users.insert (importRow lib w k) = some t ∧
      Imported w k x k' ((getCustomerFromStripe lib c).run w).2 := by
  by_cases hc : ∃ k, k.id = c ∧ Known w k
  · obtain ⟨k, rfl, hk⟩ := hc
    rw [getCustomer_of_known lib hs hk]
    cases hu : userOf w k.id with
    | some r =>
      rw [saveImport_over hs hk (mem_of_userOf hu).2]
      cases ht : w.db.users.modify r.id (writtenColumns r (importOver lib w.db.users r k)).apply with
      | none => exact .inl rfl
      | some t => exact .inr (.inl ⟨k, r, t, hk, rfl, rfl, ht, rfl⟩)
    | none =>
      cases ht : w.db.users.insert (importRow lib w k) with
      | none => exact .inl (by rw [saveImport_refused ht])
      | some t =>
        obtain ⟨x, k', w', hrun, himp⟩ := saveImport_new lib hs hk ht
        refine .inr (.inr ⟨k, t, x, k', hk, rfl, rfl, ht, ?_⟩)
        rw [hrun]
        exact himp
  · obtain ⟨e, he⟩ := getCustomer_of_unknown lib hs fun k hid hk => hc ⟨k, hid, hk⟩
    exact .inl (by rw [he])

/-! ## When an index lets an import through -/

/-- Only the name can keep an import from being inserted. -/
theorem insert_importRow_iff {lib : Lib} {w : World} {k : Customer} :
    (∃ t, w.db.users.insert (importRow lib w k) = some t) ↔
      k.name = none ∨ ∀ r ∈ w.db.users.rows, r.username ≠ k.name := by
  constructor
  · rintro ⟨t, ht⟩
    refine or_iff_not_imp_left.2 fun hn r hr he => ?_
    have hfree := (Table.insert_eq_some_iff.1 ht).1 r hr
    obtain ⟨n, hn⟩ := Option.ne_none_iff_exists'.1 hn
    have hsame : sameKey r.username k.name = true := sameKey_iff.2 ⟨n, he.trans hn, hn⟩
    simp [clash, withId, importRow, insertedRow, importNew, withSlug, hsame] at hfree
  · intro h
    unfold Table.insert
    rw [dif_pos]
    · exact ⟨_, rfl⟩
    · intro x hx
      have hname : sameKey x.username k.name = false := by
        rcases h with h | h
        · rw [h, sameKey_comm]; rfl
        · exact sameKey_of_ne (h x hx)
      have hslug : sameKey x.slug (importNew lib w.db.users k).slug = false :=
        withSlug_free lib hx (by simp) (by rw [sameKey_comm]; rfl)
      have htoken : sameKey x.resetPasswordToken none = false := by rw [sameKey_comm]; rfl
      simp only [clash, withId, importRow, insertedRow, Bool.or_eq_false_iff]
      exact ⟨⟨hname, hslug⟩, htoken⟩

/-- Only the name can keep the linked row from being overwritten. -/
theorem modify_importOver_iff (lib : Lib) {users : Table UserRow} {r : UserRow} {k : Customer}
    (hr : r ∈ users.rows) :
    (∃ t, users.modify r.id (writtenColumns r (importOver lib users r k)).apply = some t) ↔
      k.name = none ∨ ∀ x ∈ users.rows, x.id ≠ r.id → x.username ≠ k.name := by
  have hw := importOver_written lib users r k
  constructor
  · rintro ⟨t, ht⟩
    refine or_iff_not_imp_left.2 fun hn x hx hid he => ?_
    obtain ⟨n, hn⟩ := Option.ne_none_iff_exists'.1 hn
    have hx' : x ∈ t.rows := (mem_saved hr ht).2 (.inl ⟨hx, hid⟩)
    have hr' : written r (importOver lib users r k) ∈ t.rows := (mem_saved hr ht).2 (.inr rfl)
    have hfree := t.clash_false hx' hr' hid
    have hsame : sameKey x.username (written r (importOver lib users r k)).username = true :=
      sameKey_iff.2 ⟨n, he.trans hn, hw.1.trans hn⟩
    simp [clash, hsame] at hfree
  · intro h
    refine modify_written hr (fun y hy hne => ?_) (slug_free hr rfl) rfl
    rcases h with h | h
    · rw [show (importOver lib users r k).username = none from h, sameKey_comm]
      rfl
    · exact sameKey_of_ne (h y hy hne)

/-! ## When an imported row is linked to its second customer -/

/-- The new record for `k` passes the validations, its password apart. -/
def importValid (lib : Lib) (users : Table UserRow) (k : Customer) : Bool :=
  validUser lib users none
    { importNew lib users k with email := normalizeEmail lib (deviseEmail lib k.email) }
    { skipPasswordValidation := true }

/-- The nested `update` of an import validates the record it inserted. -/
theorem validUser_link (lib : Lib) {w : World} {k : Customer} {t : Table UserRow} (c : String)
    (ht : w.db.users.insert (importRow lib w k) = some t) :
    validUser lib t (some (importRow lib w k).id) (updated lib t (importRow lib w k) (linkPatch c)) {} =
      importValid lib w.db.users k := by
  have hslug : (importRow lib w k).slug = none → (importRow lib w k).username = none :=
    importNew_slug lib w.db.users k
  have hrows : t.rows = w.db.users.rows ++ [importRow lib w k] := Table.rows_insert ht
  rw [updated_link lib t c hslug]
  unfold importValid validUser
  rw [taken_append hrows rfl, taken_append hrows rfl]
  rfl

end Insta.Service
