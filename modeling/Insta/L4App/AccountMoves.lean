import Insta.L4App.CustomerLinks

/-!
# What a request does to users and their customers

The name and the email of a user are stored twice: in the users table and at
Stripe. `after_update` pushes each save to Stripe inside the transaction of
the save, `after_create` creates the customer from the row, and the customer
webhooks copy Stripe's side over the row.

* `Move`: what a step of a request does to the rows and the customers they
  hold: rows and customers go, or one row is written that agrees with its
  customer.
* `handle_moves`: every request, whatever fails in it, is a sequence of such
  steps. A save whose push fails is rolled back, and a customer whose
  creation is followed by a failure is one that no row holds.
-/
namespace Insta.Web

open Insta.Core Insta.Store Insta.Store.App Insta.Model Insta.Service

/-! ## Customers -/

theorem customer?_id {w : World} {c : String} {k : Customer} (h : customer? w c = some k) : k.id = c := by
  have hk := List.find?_some h
  rw [Bool.and_eq_true] at hk
  exact beq_iff_eq.1 hk.1

/-- After a push the customer has the pushed name and email, and the others
are as they were. -/
theorem customer?_setCustomer {w : World} {c : String} {k : Customer} (hk : customer? w c = some k)
    (email name : Option String) (c' : String) :
    customer? { w with stripe := w.stripe.setCustomer k email name } c' =
      if c' = c then some { k with name := name, email := email } else customer? w c' := by
  obtain rfl := customer?_id hk
  unfold Stripe.setCustomer
  split
  · rename_i hsame
    obtain ⟨rfl, rfl⟩ := hsame
    split
    · rename_i hc
      rw [hc]
      exact hk
    · rfl
  · unfold customer?
    dsimp only
    rw [List.find?_map]
    have hcomp : ((fun x : Customer => x.id == c' && !x.deleted) ∘ fun x => if x.id = k.id then
        { x with name := name, email := email } else x) = fun x => x.id == c' && !x.deleted := by
      funext x
      simp only [Function.comp]
      split <;> rfl
    rw [hcomp]
    split
    · rename_i hc
      subst hc
      have hfind : w.stripe.customers.find? (fun x => x.id == k.id && !x.deleted) = some k := hk
      rw [hfind]
      simp
    · rename_i hc
      cases hx : w.stripe.customers.find? (fun x => x.id == c' && !x.deleted) with
      | none => rfl
      | some x =>
        have hid : x.id = c' := customer?_id (w := w) hx
        rw [Option.map_some, if_neg fun h => hc (hid.symm.trans h)]

theorem customer?_addCustomer {w : World} {k : Customer} {c : String} (hc : c ≠ k.id) :
    customer? (w.addCustomer k) c = customer? w c := by
  unfold customer?
  rw [addCustomer_stripe]
  simp only [Stripe.addCustomer, List.find?_append]
  have hnone : [k].find? (fun x => x.id == c && !x.deleted) = none := by simp [Ne.symm hc]
  rw [hnone, Option.or_none]

/-- A push raises and does nothing, or sets the customer. -/
theorem customerUpdate_cases (c e n : Option String) (w : World) : ∃ sc,
    (∃ err, (customerUpdate c e n).run w = (.error err, { w with script := sc })) ∨
    ∃ k, c.bind (customer? w) = some k ∧
      (customerUpdate c e n).run w = (.ok (), { w with stripe := w.stripe.setCustomer k e n, script := sc }) := by
  unfold customerUpdate
  have hw := external_snd w
  rcases hx : external.run w with ⟨err | ⟨⟩, w₁⟩ <;> rw [hx] at hw <;> dsimp only at hw
  · exact ⟨w₁.script, .inl ⟨err, by rw [Act.bind_of_error hx, ← hw]⟩⟩
  · refine ⟨w₁.script, ?_⟩
    generalize w₁.script = sc at hw
    subst hw
    rw [Act.bind_of_ok hx, Act.run_get_bind]
    rw [show c.bind (customer? { w with script := sc }) = c.bind (customer? w) from rfl]
    cases hk : c.bind (customer? w) with
    | none => exact .inl ⟨_, rfl⟩
    | some k => exact .inr ⟨k, rfl, rfl⟩

/-! ## Saves -/

/-- A save and its push: both, or neither is there after the rollback. -/
theorem saveUpdate_pushed (r m : UserRow) (w : World) : ∃ sc,
    (∃ e t, (saveUpdate r m).run w = (.error e, { w.setUsers t with script := sc })) ∨
    ∃ t k, w.db.users.modify r.id (writtenColumns r m).apply = some t ∧
      (written r m).stripeCustomerId.bind (customer? w) = some k ∧
      (saveUpdate r m).run w = (.ok (), { w.setUsers t with
        stripe := w.stripe.setCustomer k (written r m).email (written r m).username, script := sc }) := by
  unfold saveUpdate
  cases ht : w.db.users.modify r.id (writtenColumns r m).apply with
  | none => exact ⟨w.script, .inl ⟨_, w.db.users, Act.bind_of_error (writeUser_of_none ht)⟩⟩
  | some t =>
    rw [Act.bind_of_ok (writeUser_of_some ht)]
    obtain ⟨sc, ⟨e, h⟩ | ⟨k, hk, h⟩⟩ := customerUpdate_cases (written r m).stripeCustomerId (written r m).email
      (written r m).username (w.setUsers t)
    · exact ⟨sc, .inl ⟨e, t, h⟩⟩
    · exact ⟨sc, .inr ⟨t, k, rfl, hk, h⟩⟩

/-- `update` with what it pushes: nothing, or the row it wrote. -/
theorem update_pushed (lib : Lib) (r : UserRow) (p : UserPatch) (a : PasswordAttrs) (w : World) : ∃ sc,
    ((update lib r p a).run w).2 = { w with script := sc } ∨
    ∃ t k, w.db.users.modify r.id (writtenColumns r (updated lib w.db.users r p)).apply = some t ∧
      (written r (updated lib w.db.users r p)).stripeCustomerId.bind (customer? w) = some k ∧
      (update lib r p a).run w = (.ok true, { w.setUsers t with
        stripe := w.stripe.setCustomer k (written r (updated lib w.db.users r p)).email
          (written r (updated lib w.db.users r p)).username
        script := sc }) := by
  cases hv : validUser lib w.db.users (some r.id) (updated lib w.db.users r p) a with
  | false => exact ⟨w.script, .inl (by rw [update_of_invalid hv])⟩
  | true =>
    rw [update_of_valid hv]
    by_cases hp : p.role = some none
    · rw [if_pos hp, Act.bind_of_error (Act.atomically_of_error rfl)]
      exact ⟨w.script, .inl rfl⟩
    · rw [if_neg hp]
      obtain ⟨sc, ⟨e, t, h⟩ | ⟨t, k, ht, hk, h⟩⟩ := saveUpdate_pushed r (updated lib w.db.users r p) w
      · exact ⟨sc, .inl (by rw [Act.bind_of_error (Act.atomically_of_error h)]; rfl)⟩
      · exact ⟨sc, .inr ⟨t, k, ht, hk, Act.bind_of_ok (Act.atomically_of_ok h)⟩⟩

/-! ## Moves -/

/-- Some row holds `c`. -/
def InUse (w : World) (c : String) : Prop := ∃ x ∈ w.db.users.rows, x.stripeCustomerId = some c

/-- The row shows what Stripe has for its customer, if Stripe has one. -/
def Shows (w : World) (r : UserRow) : Prop :=
  ∀ c k, r.stripeCustomerId = some c → customer? w c = some k → k.email = r.email ∧ k.name = r.username

/-- What a step does to the rows and to the customers that rows hold. -/
inductive Move (w w' : World) : Prop
  | less (hrows : ∀ x ∈ w'.db.users.rows, x ∈ w.db.users.rows)
    (hcust : ∀ c k, InUse w' c → customer? w' c = some k → customer? w c = some k)
  | write {y : UserRow} (hmem : y ∈ w'.db.users.rows) (hrows : ∀ x ∈ w'.db.users.rows, x = y ∨ x ∈ w.db.users.rows)
    (hy : Shows w' y)
    (hcust : ∀ c k, InUse w' c → y.stripeCustomerId ≠ some c → customer? w' c = some k → customer? w c = some k)

theorem Move.still {w w' : World} (hu : w'.db.users = w.db.users) (hc : w'.stripe.customers = w.stripe.customers) :
    Move w w' := by
  refine .less (fun x hx => hu ▸ hx) fun c k _ hk => ?_
  unfold customer? at hk ⊢
  rw [← hc]
  exact hk

theorem Move.of_users {w w₁ w' : World} (h : Move w w') (hu : w₁.db.users = w.db.users)
    (hc : w₁.stripe = w.stripe) : Move w₁ w' := by
  have hcust : customer? w₁ = customer? w := by
    funext c
    unfold customer?
    rw [hc]
  cases h with
  | less hrows hless => exact .less (hu ▸ hrows) (hcust ▸ hless)
  | write hmem hrows hy hless => exact .write hmem (hu ▸ hrows) hy (hcust ▸ hless)

/-- A saved row that was pushed. `w` is the state before the save, `w₀` one
that has the same rows and, of those that rows hold now, the same customers. -/
theorem Move.pushed {w w₀ : World} {r m : UserRow} {t : Table UserRow} {k : Customer} {sc : List (Option Fault)}
    (hr : r ∈ w.db.users.rows) (ht : w.db.users.modify r.id (writtenColumns r m).apply = some t)
    (hk : (written r m).stripeCustomerId.bind (customer? w) = some k)
    (hrows : ∀ x ∈ w.db.users.rows, x.id ≠ r.id → x ∈ w₀.db.users.rows)
    (hcust : ∀ c, (written r m).stripeCustomerId ≠ some c → customer? w c = customer? w₀ c) :
    Move w₀ { w.setUsers t with
      stripe := w.stripe.setCustomer k (written r m).email (written r m).username, script := sc } := by
  obtain ⟨c, hc, hk⟩ := Option.bind_eq_some_iff.1 hk
  have hafter : ∀ c', customer? { w.setUsers t with
      stripe := w.stripe.setCustomer k (written r m).email (written r m).username, script := sc } c' =
      if c' = c then some { k with name := (written r m).username, email := (written r m).email }
      else customer? w c' := fun c' => customer?_setCustomer hk _ _ c'
  refine .write (y := written r m) ((mem_saved hr ht).2 (.inr rfl)) (fun x hx => ?_) ?_ fun c' k' _ hne hk' => ?_
  · rcases (mem_saved hr ht).1 hx with ⟨hx, hne⟩ | rfl
    · exact .inr (hrows x hx hne)
    · exact .inl rfl
  · intro c' k' hc' hk'
    rw [hafter, if_pos (Option.some.inj (hc'.symm.trans hc))] at hk'
    cases hk'
    exact ⟨rfl, rfl⟩
  · rw [hafter, if_neg (fun h : c' = c => hne (h ▸ hc))] at hk'
    rw [← hcust c' hne]
    exact hk'

theorem saveUpdate_move {r m : UserRow} {w : World} (hr : r ∈ w.db.users.rows) :
    Move w ((Act.atomically (saveUpdate r m)).run w).2 := by
  obtain ⟨sc, ⟨e, t, h⟩ | ⟨t, k, ht, hk, h⟩⟩ := saveUpdate_pushed r m w
  · rw [Act.atomically_of_error h]
    exact .still rfl rfl
  · rw [Act.atomically_of_ok h]
    exact .pushed hr ht hk (fun x hx _ => hx) fun _ _ => rfl

theorem update_move {lib : Lib} {r : UserRow} {p : UserPatch} {a : PasswordAttrs} {w : World}
    (hr : r ∈ w.db.users.rows) : Move w ((update lib r p a).run w).2 := by
  obtain ⟨sc, h | ⟨t, k, ht, hk, h⟩⟩ := update_pushed lib r p a w
  · rw [h]
    exact .still rfl rfl
  · rw [h]
    exact .pushed hr ht hk (fun x hx _ => hx) fun _ _ => rfl

/-! ## New rows -/

/-- `create_stripe_customer` with what it does at Stripe: nothing, a customer
that the row is not linked to, or one that it is linked to. -/
theorem createStripeCustomer_pushed (lib : Lib) (r : UserRow) (a : PasswordAttrs) (w : World) : ∃ sc,
    (∃ e, (createStripeCustomer lib r a).run w = (.error e, { w with script := sc })) ∨
    ∃ k, k = newCustomer lib w r.email r.username ∧
      (((createStripeCustomer lib r a).run w).2 = { w.addCustomer k with script := sc } ∨
      ∃ t k', w.db.users.modify r.id (writtenColumns r (updated lib w.db.users r (linkPatch k.id))).apply = some t ∧
        (written r (updated lib w.db.users r (linkPatch k.id))).stripeCustomerId.bind
          (customer? (w.addCustomer k)) = some k' ∧
        (createStripeCustomer lib r a).run w = (.ok (), { (w.addCustomer k).setUsers t with
          stripe := (w.addCustomer k).stripe.setCustomer k'
            (written r (updated lib w.db.users r (linkPatch k.id))).email
            (written r (updated lib w.db.users r (linkPatch k.id))).username
          script := sc })) := by
  unfold createStripeCustomer
  rcases hc : (customerCreate lib r.email r.username).run w with ⟨e | c, w₁⟩
  · have hw : w₁ = { w with script := w₁.script } := by
      unfold customerCreate at hc
      have hsnd := external_snd w
      rcases hx : external.run w with ⟨e' | ⟨⟩, w₂⟩
      · rw [Act.bind_of_error hx] at hc
        cases hc
        rw [hx] at hsnd
        exact hsnd
      · rw [Act.bind_of_ok hx] at hc
        cases hc
    exact ⟨w₁.script, .inl ⟨e, by rw [Act.bind_of_error hc, ← hw]⟩⟩
  · obtain ⟨rfl, sc₁, rfl⟩ := customerCreate_ok hc
    rw [Act.bind_of_ok hc]
    obtain ⟨sc, h | ⟨t, k', ht, hk', h⟩⟩ := update_pushed lib r
      (linkPatch (newCustomer lib w r.email r.username).id) a
      { w.addCustomer (newCustomer lib w r.email r.username) with script := sc₁ }
    · refine ⟨sc, .inr ⟨_, rfl, .inl ?_⟩⟩
      exact (Act.bind_pure_snd _ (fun _ => ()) _).trans h
    · exact ⟨sc, .inr ⟨_, rfl, .inr ⟨t, k', ht, hk', Act.bind_of_ok h⟩⟩⟩

/-- A customer that no row holds makes no difference. -/
theorem Move.unheld {w w' : World} {k : Customer} (hrows : ∀ x ∈ w'.db.users.rows, x ∈ w.db.users.rows)
    (hcust : ∀ c, c ≠ k.id → customer? w' c = customer? w c)
    (hfresh : ∀ x ∈ w'.db.users.rows, x.stripeCustomerId ≠ some k.id) : Move w w' := by
  refine .less hrows fun c k' ⟨x, hx, hc⟩ hk' => ?_
  have hne : c ≠ k.id := fun he => hfresh x hx (he ▸ hc)
  rw [← hcust c hne]
  exact hk'

/-- Nor does it when a row is inserted. -/
theorem Move.inserted {w w' : World} {y : UserRow} {k : Customer} (hmem : y ∈ w'.db.users.rows)
    (hrows : ∀ x ∈ w'.db.users.rows, x = y ∨ x ∈ w.db.users.rows) (hy : Shows w y)
    (hcust : ∀ c, c ≠ k.id → customer? w' c = customer? w c)
    (hfresh : ∀ x ∈ w'.db.users.rows, x.stripeCustomerId ≠ some k.id) : Move w w' := by
  have hkept : ∀ {x c}, x ∈ w'.db.users.rows → x.stripeCustomerId = some c → customer? w' c = customer? w c :=
    fun hx hc => hcust _ fun he => hfresh _ hx (he ▸ hc)
  refine .write hmem hrows (fun c k' hc hk' => ?_) fun c k' ⟨x, hx, hc⟩ _ hk' => ?_
  · rw [hkept hmem hc] at hk'
    exact hy c k' hc hk'
  · rw [← hkept hx hc]
    exact hk'

/-- Once the row is inserted, what is left is `create_stripe_customer`. -/
theorem insertUser_inserted {lib : Lib} {m : UserRow} {a : PasswordAttrs} {w : World} {t : Table UserRow}
    (ht : w.db.users.insert (insertedRow w m) = some t) : ∃ jobs, (insertUser lib m a).run w = (do
      createStripeCustomer lib (insertedRow w m) a
      pure (insertedRow w m) : App UserRow).run { w.setUsers t with jobs := jobs } := by
  unfold insertUser sendWelcomeEmail
  rw [Act.run_get_bind, ht]
  dsimp only
  rw [Act.run_modify_bind]
  split
  · exact ⟨w.jobs, rfl⟩
  · exact ⟨w.jobs ++ [(insertedRow w m).id], rfl⟩

/-- The row is inserted, and linked to a customer created for it or not. -/
theorem insertUser_move {lib : Lib} {m : UserRow} {a : PasswordAttrs} {w : World}
    (hm : Shows w m) : Move w ((Act.atomically (insertUser lib m a)).run w).2 := by
  cases ht : w.db.users.insert (insertedRow w m) with
  | none =>
    have hrun : (insertUser lib m a).run w = (.error .recordNotUnique, w) := by
      unfold insertUser
      rw [Act.run_get_bind, ht]
      rfl
    rw [Act.atomically_of_error hrun]
    exact .still rfl rfl
  | some t =>
    have hrow : ∀ x, x ∈ t.rows ↔ x ∈ w.db.users.rows ∨ x = insertedRow w m := fun x => Table.mem_insert ht
    obtain ⟨jobs, hrun⟩ := @insertUser_inserted lib _ a _ _ ht
    obtain ⟨w₁, hw₁⟩ : ∃ w₁ : World, w₁ = { w.setUsers t with jobs := jobs } := ⟨_, rfl⟩
    have husers : w₁.db.users = t := by rw [hw₁]; rfl
    rw [← hw₁] at hrun
    obtain ⟨sc, ⟨e, h⟩ | ⟨k, hk, h⟩⟩ := createStripeCustomer_pushed lib (insertedRow w m) a w₁
    · rw [Act.bind_of_error h] at hrun
      rw [Act.atomically_of_error hrun, hw₁]
      exact .still rfl rfl
    · -- nobody holds the id of the new customer
      have hfresh : ∀ x ∈ t.rows, x.stripeCustomerId ≠ some k.id := by
        intro x hx hc
        rw [hk] at hc
        exact lib.freshId_fresh (knownIds w₁) (mem_knownIds (w := w₁) (x := x) (husers ▸ hx) hc)
      have hcust : ∀ c, c ≠ k.id → customer? (w₁.addCustomer k) c = customer? w c := by
        intro c hc
        rw [customer?_addCustomer hc, hw₁]
        rfl
      rcases h with h | ⟨t', k', ht', hk', h⟩
      · rcases hx : (createStripeCustomer lib (insertedRow w m) a).run w₁ with ⟨e | u, w₂⟩ <;> rw [hx] at h <;>
          dsimp only at h <;> subst h
        · rw [Act.bind_of_error hx] at hrun
          rw [Act.atomically_of_error hrun]
          exact .unheld (fun x hx => hx) hcust fun x hx => hfresh x ((hrow x).2 (.inl hx))
        · rw [Act.bind_of_ok hx] at hrun
          rw [Act.atomically_of_ok hrun]
          rw [← husers] at hrow hfresh
          exact .inserted ((hrow _).2 (.inr rfl)) (fun x hx => ((hrow x).1 hx).symm) hm hcust hfresh
      · rw [Act.bind_of_ok h] at hrun
        rw [Act.atomically_of_ok hrun]
        rw [← husers] at hrow
        have hlink : (written (insertedRow w m)
            (updated lib w₁.db.users (insertedRow w m) (linkPatch k.id))).stripeCustomerId = some k.id := by
          rw [written_stripeCustomerId]
          rfl
        refine Move.pushed ((hrow _).2 (.inr rfl)) ht' hk' (fun x hx hne => ?_) fun c hc =>
          hcust c fun he => hc (he ▸ hlink)
        exact ((hrow x).1 hx).resolve_right fun he => hne (congrArg UserRow.id he)

/-- A new record names no customer, so it shows no other's. -/
theorem create_move {lib : Lib} {p : UserPatch} {a : PasswordAttrs} {w : World}
    (hp : ∀ c, p.stripeCustomerId ≠ some (some c)) : Move w ((create lib p a).run w).2 := by
  have hshows : Shows w (beforeValidation lib w.db.users none (p.apply newUser)) := by
    intro c k hc
    have hlink : p.stripeCustomerId.getD none = some c := hc
    cases hs : p.stripeCustomerId with
    | none => rw [hs] at hlink; cases hlink
    | some o => rw [hs] at hlink; exact absurd (hs.trans (congrArg some hlink)) (hp c)
  unfold create
  rw [Act.run_get_bind]
  dsimp only
  split
  · rw [Act.bind_pure_snd]
    by_cases hrole : p.role = some none
    · rw [if_pos hrole]
      exact .still rfl rfl
    · rw [if_neg hrole]
      exact insertUser_move hshows
  · exact .still rfl rfl

/-! ## Accounts that are closed -/

/-- No customer appears or changes; some may be gone. -/
def fewerCustomers : Frame World where
  rel w w' := ∀ c k, customer? w' c = some k → customer? w c = some k
  refl _ _ _ h := h
  trans h₁ h₂ c k h := h₁ c k (h₂ c k h)

/-- What has the same customers has no others. -/
theorem fewer_of_stripe {α : Type} {x : App α} {w : World} (h : (x.run w).2.stripe = w.stripe) :
    fewerCustomers.Holds x w := by
  intro c k hk
  unfold customer? at hk ⊢
  rw [← h]
  exact hk

theorem external_stripe (w : World) : (external.run w).2.stripe = w.stripe := by rw [external_snd]

theorem customerDelete_fewer (c : String) (w : World) : fewerCustomers.Holds (customerDelete c) w := by
  refine (fewer_of_stripe (external_stripe w)).bind fun _ w₁ _ => .get_bind ?_
  split
  · exact .raise _ w₁
  · intro c' k hk
    unfold customer? at hk ⊢
    rw [Act.run_modify] at hk
    dsimp only at hk
    rw [List.find?_map] at hk
    obtain ⟨x, hx, rfl⟩ := Option.map_eq_some_iff.1 hk
    obtain ⟨hpx, as, bs, hl, has⟩ := List.find?_eq_some_iff_append.1 hx
    by_cases hxc : x.id = c
    · simp [hxc] at hpx
    · simp only [Function.comp, if_neg hxc] at hpx ⊢
      refine List.find?_eq_some_iff_append.2 ⟨hpx, as, bs, hl, fun a ha => ?_⟩
      have hna := has a ha
      have hid : x.id = c' := by
        rw [Bool.and_eq_true] at hpx
        exact beq_iff_eq.1 hpx.1
      by_cases hac : a.id = c
      · have : a.id ≠ c' := fun h => hxc (hid.trans (h.symm.trans hac))
        simp [this]
      · simpa [Function.comp, hac] using hna

theorem destroyUser_move (lib : Lib) (r : UserRow) (w : World) : Move w ((destroyUser lib r).run w).2 := by
  have hcust : fewerCustomers.Holds (destroyUser lib r) w := by
    refine .atomically (fun _ h => h) ?_
    refine (fewer_of_stripe rfl).bind fun _ w₁ h₁ => .get_bind ?_
    cases h₁
    dsimp only
    split
    · exact .raise _ _
    · refine (fewer_of_stripe rfl).bind fun _ w₂ _ => ?_
      exact .ite (fun _ => .rescue (customerDelete_fewer _ w₂)) fun _ => .pure _ w₂
  refine .less (fun x hx => ?_) fun c k _ hk => hcust c k hk
  obtain ⟨-, hdb | ⟨-, hdb⟩⟩ := destroyUser_db lib r w
  · rw [hdb] at hx
    exact hx
  · rw [hdb] at hx
    exact (Table.mem_delete.1 hx).1

/-! ## Requests -/

/-- What happens are effects of the request, and moves. -/
def moves (lib : Lib) (w₀ : World) (actor : Option Nat) (q : Request) : Frame World where
  rel := Relation.ReflTransGen fun w w' => (effects lib w₀ actor q).rel w w' ∧ Move w w'
  refl _ := .refl
  trans := Relation.ReflTransGen.trans

/-- The users and the customers stay. -/
def quiet : Frame World := .same fun w => (w.db.users, w.stripe.customers)

theorem quiet_external (w : World) : quiet.Holds external w := by
  have hu : (external.run w).2.db.users = w.db.users := by rw [external_snd]
  have hc : (external.run w).2.stripe.customers = w.stripe.customers := by rw [external_stripe]
  exact Prod.ext hu hc

theorem Move.quiet {α : Type} {w w₁ : World} {x : App α} (h : Move w w₁) (hx : quiet.Holds x w₁) :
    Move w (x.run w₁).2 := by
  have hsame : ((x.run w₁).2.db.users, (x.run w₁).2.stripe.customers) = (w₁.db.users, w₁.stripe.customers) := hx
  obtain ⟨hu, hc⟩ := Prod.mk.inj hsame
  have hcust : customer? (x.run w₁).2 = customer? w₁ := by
    funext c
    unfold customer?
    rw [hc]
  have hinuse : ∀ c, InUse (x.run w₁).2 c → InUse w₁ c := by
    rintro c ⟨y, hy, hyc⟩
    exact ⟨y, hu ▸ hy, hyc⟩
  cases h with
  | less hrows hless => exact .less (hu ▸ hrows) fun c k hc => hcust ▸ hless c k (hinuse c hc)
  | write hmem hrows hy hless =>
    refine .write (hu ▸ hmem) (hu ▸ hrows) ?_ fun c k hc => hcust ▸ hless c k (hinuse c hc)
    unfold Shows
    rw [hcust]
    exact hy

section Handlers

variable {lib : Lib} {w₀ : World} {actor : Option Nat} {q : Request}

theorem Move.holds {α : Type} {x : App α} {w : World} (he : (effects lib w₀ actor q).Holds x w)
    (hm : Move w (x.run w).2) : (moves lib w₀ actor q).Holds x w := .single ⟨he, hm⟩

/-- A request that leaves the users and the customers is one move. -/
theorem quiet.moves {w : World} (h : quiet.Holds (handle lib actor q) w) :
    (moves lib w actor q).Holds (handle lib actor q) w := by
  have hsame : (_, _) = (_, _) := h
  exact Move.holds (handle_effects lib actor q w)
    (.still (congrArg Prod.fst hsame) (congrArg Prod.snd hsame))

theorem update_moves {r : UserRow} {p : UserPatch} {a : PasswordAttrs} {w : World} (hr : r ∈ w.db.users.rows)
    (hby : Assigned lib w₀ actor r p q) (hw : w.db = w₀.db ∨ SecretsOnly p) :
    (moves lib w₀ actor q).Holds (update lib r p a) w := Move.holds (update_effects hr hby hw) (update_move hr)

theorem patch_names_nothing {P : UserParams} {role : Option (Option Role)} (hq : q.userParams = some P)
    (hnames : ∀ c, ¬ q.names c) : ∀ c, (P.patch lib role).stripeCustomerId ≠ some (some c) := by
  intro c hc
  obtain ⟨digest, hpatch⟩ := patch_eq lib P role
  rw [hpatch] at hc
  exact hnames c ⟨P, hq, hc⟩

theorem signUp_moves {p : UserParams} {w : World} (hnames : ∀ c, ¬ (Request.signUp p).names c) :
    (moves lib w actor (.signUp p)).Holds (signUp lib actor p) w :=
  holds_ifGuest <| holds_assignRole fun role hrole => holds_ignore <| Move.holds
    (create_effects fun _ hm hv => .signedUp ⟨role, hrole, rfl⟩ hm hv)
    (create_move (patch_names_nothing (q := .signUp p) rfl hnames))

theorem accountUpdate_moves (pw : String) (p : UserParams) (w : World) :
    (moves lib w actor (.accountUpdate pw p)).Holds (accountUpdate lib actor pw p) w := by
  refine holds_authenticate fun me hme hmem => holds_assignRole fun role hrole => .ite (fun _ => ?_) fun _ => ?_
  · refine holds_ignore (update_moves hmem (.account hme ⟨role, fun h => ?_, rfl⟩) (.inl rfl))
    have hp : (dropBlankPassword lib p).role = p.role := by unfold dropBlankPassword; split <;> rfl
    rw [hp]
    exact hrole h
  · exact .pure _ w

theorem forgotPassword_move (e : Option String) (raw : String) (w : World) :
    Move w ((forgotPassword lib actor e raw).run w).2 := by
  unfold forgotPassword ifGuest
  rw [Act.run_get_bind]
  split
  · exact .still rfl rfl
  · rw [Act.run_get_bind]
    split
    · split
      · exact .still rfl rfl
      · rename_i r hr
        exact saveUpdate_move (Table.mem_of_newest hr).1
    · exact .still rfl rfl

theorem devisePasswordUpdate_moves (raw : Option String) (a : PasswordAttrs) (w : World) :
    (moves lib w actor (.devisePasswordUpdate raw a)).Holds (devisePasswordUpdate lib actor raw a) w := by
  refine holds_ifGuest <| .get_bind ?_
  split
  · exact .pure _ w
  · refine .ite (fun _ => .pure _ w) fun _ => ?_
    split
    · exact .pure _ w
    · rename_i r hr
      refine .ite (fun _ => ?_) fun _ => .pure _ w
      exact holds_ignore
        (update_moves (Table.mem_of_newest hr).1 (.deviseReset (withPassword_secrets lib a)) (.inl rfl))

/-- Two updates: the password, then the token. -/
theorem resetFor_moves {r : UserRow} {p : ResetParams} {w : World} {params : Option ResetParams}
    (hr : r ∈ w.db.users.rows) :
    (moves lib w₀ actor (.passwordsUpdate params)).Holds (resetFor lib r p) w := by
  unfold resetFor
  dsimp only
  split
  · exact .raise _ w
  · have hsecrets := withPassword_secrets lib p.attrs
    refine Frame.Holds.bind (update_moves hr (.reset hsecrets) (.inr hsecrets)) fun ok w₁ hok => ?_
    rcases update_cases lib r (withPassword lib p.attrs {}) p.attrs w with
      ⟨-, hu⟩ | ⟨-, st, sc, ⟨e, hu⟩ | ⟨t, -, ht, hu⟩⟩
    · rw [hu] at hok; cases hok; exact .pure _ w
    · rw [hu] at hok; cases hok
    · rw [hu] at hok
      cases hok
      have hlog : ∀ w : World, ((logReset r).run w).2.db = w.db ∧ ((logReset r).run w).2.stripe = w.stripe := by
        intro w
        unfold logReset
        rw [Act.run_modify]
        dsimp only
        split <;> exact ⟨rfl, rfl⟩
      simp only [if_true]
      refine (Move.holds (logReset_effects hr ht) (.still ?_ ?_)).bind fun _ w₂ h₂ => ?_
      · rw [(hlog _).1]
      · rw [(hlog _).2]
      have hdb : w₂.db.users = t := by
        have h := (hlog { w.setUsers t with stripe := st, script := sc }).1
        rw [h₂] at h
        exact congrArg Db.users h
      refine Frame.Holds.bind (holds_of_snd rfl) fun r' w₃ h₃ => ?_
      obtain ⟨rfl, rfl⟩ := reload_ok h₃
      have hclear : SecretsOnly { resetPasswordToken := some none, resetPasswordSentAt := some none } :=
        ⟨rfl, rfl, rfl, rfl, rfl, .inr ⟨rfl, rfl⟩⟩
      refine holds_ignore (update_moves ?_ (.reset hclear) (.inr hclear))
      rw [hdb, find_saved hr ht]
      exact (mem_saved hr ht).2 (.inr rfl)

theorem passwordsUpdate_moves (params : Option ResetParams) (w : World) :
    (moves lib w actor (.passwordsUpdate params)).Holds (passwordsUpdate lib params) w := by
  unfold passwordsUpdate
  split
  · exact .raise _ w
  · refine .get_bind ?_
    split
    · exact .pure _ w
    · rename_i r hr
      exact resetFor_moves (Table.mem_of_newest hr).1

/-- The invitation is the update that stores the token; what follows is
outside the users and the customers. -/
theorem invite_move {r x : UserRow} {token : Hex 10} {a : PasswordAttrs} {w : World}
    (hx : w.db.users.find r.id = some x) : Move w ((invite lib r token a).run w).2 := by
  have hmove := @update_move lib _ (issuePatch token w.now) a _ (Table.mem_of_find hx).1
  have hreload : (reload r).run w = (.ok x, w) := by
    unfold reload
    rw [Act.run_get_bind, hx]
    rfl
  unfold invite generateResetPasswordToken
  rw [Act.bind_of_ok hreload, Act.bind_assoc, Act.run_get_bind, Act.bind_assoc]
  rcases hu : (update lib x (issuePatch token w.now) a).run w with ⟨e | ok, w₁⟩
  · rw [Act.bind_of_error hu]
    rw [hu] at hmove
    exact hmove
  · rw [Act.bind_of_ok hu]
    rw [hu] at hmove
    refine hmove.quiet ?_
    refine Frame.Holds.bind (.ite (fun _ => rfl) fun _ => .pure _ w₁) fun _ w₂ _ => ?_
    exact (quiet_external w₂).bind fun _ w₃ _ => rfl

theorem usersCreate_moves {p : UserParams} {token : Hex 10} {w : World}
    (hnames : ∀ c, ¬ (Request.usersCreate p token).names c) :
    (moves lib w actor (.usersCreate p token)).Holds (usersCreate lib actor p token) w := by
  refine holds_authenticate fun me _ _ => holds_assignRole fun role hrole => ?_
  have hcreate : (moves lib w actor (.usersCreate p token)).Holds
      (create lib (p.patch lib role) (p.attrs (me.role == .admin))) w :=
    Move.holds (create_effects fun _ hm hv => .added ⟨role, hrole, rfl⟩ hm hv)
      (create_move (patch_names_nothing (q := .usersCreate p token) rfl hnames))
  refine hcreate.bind fun created w₁ h₁ => ?_
  split
  · exact .raise _ w₁
  · rename_i r
    refine .ite (fun _ => ?_) fun _ => .pure _ w₁
    rcases create_cases lib (p.patch lib role) (p.attrs (me.role == .admin)) w with
      ⟨-, -, hnone⟩ | ⟨r', w', hrun, -, -, hins⟩
    · exact absurd (congrArg Prod.fst h₁) (hnone r)
    · rw [hrun] at h₁
      cases h₁
      obtain ⟨x, hx⟩ := find_created hins
      exact Move.holds (invite_effects hx (by rw [(insertUser_spec hins).1]; exact le_rfl)) (invite_move hx)

theorem usersUpdate_moves (id : IdParam) (p : UserParams) (w : World) :
    (moves lib w actor (.usersUpdate id p)).Holds (usersUpdate lib actor id p) w :=
  holds_authenticate fun _ _ _ => .get_bind <| holds_orNotFound fun _ hr =>
    holds_assignRole fun role hrole =>
      holds_ignore (update_moves (mem_of_friendlyFind hr) (.byId hr ⟨role, hrole, rfl⟩) (.inl rfl))

theorem dropProfile_users (db : Db) (u : Nat) : (dropProfile db u).users = db.users := by
  unfold dropProfile
  split <;> rfl

theorem destroyWithProfile_moves {r : UserRow} (hby : Closes w₀ actor r q) :
    (moves lib w₀ actor q).Holds (destroyWithProfile lib r) w₀ := by
  refine Move.holds (destroyWithProfile_effects hby) ?_
  unfold destroyWithProfile
  rw [Act.run_modify_bind]
  have hmove := destroyUser_move lib r { w₀ with db := dropProfile w₀.db r.id }
  exact hmove.of_users (dropProfile_users w₀.db r.id).symm rfl

theorem usersDestroy_moves (id : IdParam) (w : World) :
    (moves lib w actor (.usersDestroy id)).Holds (usersDestroy lib actor id) w := by
  refine holds_authenticate fun me hme _ => holds_authorize (.ite (fun hadmin => .get_bind ?_) fun _ => ?_)
  · exact holds_orNotFound fun r hr => destroyWithProfile_moves (.byAdmin hme hadmin hr)
  · exact destroyWithProfile_moves (.own hme)

/-! ## Requests about other tables -/

theorem quiet_profiles (w : World) : (∀ p, quiet.Holds (profilesCreate lib actor p) w) ∧
    (∀ p, quiet.Holds (profilesUpdate lib actor p) w) ∧ quiet.Holds (profilesDestroy actor) w := by
  have hsave : ∀ u old p, quiet.Holds (saveProfile lib u old p) w := by
    intro u old p
    refine .get_bind (.ite (fun _ => ?_) fun _ => .pure _ w)
    split
    · exact .raise _ w
    · exact rfl
  refine ⟨fun p => ?_, fun p => ?_, ?_⟩ <;> refine holds_authenticate fun me _ _ => holds_authorize ?_
  · exact (hsave _ _ p).bind fun ok w' _ => .ite (fun _ => .raise _ w') fun _ => .pure _ w'
  · refine .get_bind ?_
    split
    · exact .raise _ w
    · exact holds_ignore (hsave _ _ p)
  · refine .get_bind ?_
    split
    · exact .raise _ w
    · exact rfl

theorem quiet_posts (w : World) : (∀ p, quiet.Holds (postsCreate lib actor p) w) ∧
    (∀ id p, quiet.Holds (postsUpdate lib actor id p) w) ∧ ∀ id, quiet.Holds (postsDestroy actor id) w := by
  refine ⟨fun p => ?_, fun id p => ?_, fun id => ?_⟩
  · refine (holds_of_snd (postsCreateFilters_snd actor w)).bind fun me w' h => ?_
    obtain ⟨rfl, -⟩ := postsCreateFilters_ok h
    refine .get_bind ?_
    dsimp only
    split
    · exact .raise _ w'
    · split
      · exact .raise _ w'
      · split
        · exact .raise _ w'
        · exact rfl
  · refine holds_authenticate fun me _ _ => .get_bind <| holds_orNotFound fun r _ => ?_
    refine holds_authorize <| holds_ignore ?_
    refine .get_bind ?_
    dsimp only
    split
    · exact .raise _ w
    · split
      · split
        · exact .raise _ w
        · exact rfl
      · exact .pure _ w
  · refine (holds_of_snd (postsDestroyFilters_snd actor id w)).bind fun r w' h => ?_
    obtain ⟨rfl, -⟩ := postsDestroyFilters_ok h
    exact rfl

theorem quiet_tags (w : World) : (∀ n, quiet.Holds (tagsCreate lib actor n) w) ∧
    (∀ id n, quiet.Holds (tagsUpdate lib actor id n) w) ∧ ∀ id, quiet.Holds (tagsDestroy actor id) w := by
  have hsave : ∀ old n, quiet.Holds (saveTag lib old n) w := by
    intro old n
    refine .get_bind (.ite (fun _ => ?_) fun _ => .pure _ w)
    split
    · exact .raise _ w
    · exact rfl
  refine ⟨fun n => ?_, fun id n => ?_, fun id => ?_⟩ <;> refine holds_authenticate fun _ _ _ => ?_
  · exact holds_ignore (hsave _ n)
  · exact .get_bind <| holds_orNotFound fun r _ => holds_ignore (hsave _ n)
  · exact .get_bind <| holds_orNotFound fun r _ => rfl

theorem createLike_users (db : Db) (post user : Nat) : (createLike db post user).users = db.users := by
  rcases createLike_cases db post user with h | ⟨t, -, -, -, -, h⟩ <;> rw [h]

theorem quiet_likes (w : World) : (∀ p u, quiet.Holds (likesCreate actor p u) w) ∧
    ∀ id, quiet.Holds (likesDestroy actor id) w := by
  refine ⟨fun p u => ?_, fun id => ?_⟩ <;>
    refine holds_authenticate fun _ _ _ => .get_bind <| holds_orNotFound fun x _ => ?_
  · exact Prod.ext (createLike_users w.db x.id u) rfl
  · exact rfl

theorem quiet_subscriptions (w : World) : (∀ p, quiet.Holds (subscriptionsCreate actor p) w) ∧
    ∀ s, quiet.Holds (subscriptionsDestroy actor s) w := by
  refine ⟨fun p => ?_, fun s => ?_⟩ <;> refine holds_authenticate fun me _ _ => .get_bind ?_
  · split
    · exact .pure _ w
    · exact .rescue (quiet_external w)
  · split
    · exact .pure _ w
    · have hcancel : quiet.Holds (subscriptionCancel s) w := by
        unfold Frame.Holds
        obtain ⟨sc, ⟨e, h⟩ | ⟨k, -, -, h⟩⟩ := subscriptionCancel_cases s w <;> rw [h] <;> rfl
      refine hcancel.bind fun _ w' _ => .get_bind ?_
      split
      · exact .raise _ w'
      · exact rfl

theorem dropProduct_users (db : Db) (p : String) : (dropProduct db p).users = db.users := by
  unfold dropProduct
  split <;> rfl

theorem quiet_handleProduct (e : Event) (w : World) : quiet.Holds (handleProduct e) w := by
  have hsync : quiet.Holds (syncProductFromStripe e.object.id) w := by
    refine Frame.Holds.bind ?_ fun p w₁ _ => Frame.Holds.bind ?_ fun prices w₂ _ => .get_bind ?_
    · refine (quiet_external w).bind fun _ w₁ _ => .get_bind ?_
      split
      · exact .raise _ w₁
      · exact .pure _ w₁
    · exact (quiet_external w₁).bind fun _ w₂ _ => .pure _ w₂
    · split
      · exact .raise _ w₂
      · refine Frame.Holds.bind (.ite (fun _ => .pure _ w₂) fun _ => quiet_external w₂) fun _ w₃ _ => .get_bind ?_
        split
        · exact .raise _ w₃
        · exact rfl
  unfold handleProduct
  split
  · exact hsync
  · exact hsync
  · exact Prod.ext (dropProduct_users w.db e.object.id) rfl
  · exact .pure _ w

theorem quiet_handleSubscription (e : Event) (w : World) : quiet.Holds (handleSubscription e) w := by
  have hsync : quiet.Holds (syncSubscriptionFromStripe e.object) w := by
    cases h : eventTarget w e.object with
    | none => exact holds_of_snd (syncSubscription_of_no_target h)
    | some target =>
      obtain ⟨t, -, hrun⟩ := @syncSubscription_of_target _ _ target.1 target.2 h
      unfold Frame.Holds
      rw [hrun]
      rfl
  unfold handleSubscription
  split
  · exact hsync
  · exact hsync
  · exact hsync
  · exact .pure _ w
  · exact .pure _ w

/-! ## Customer webhooks -/

theorem quiet_customerRetrieve (c : String) (w : World) : quiet.Holds (customerRetrieve c) w := by
  refine (quiet_external w).bind fun _ w₁ _ => .get_bind ?_
  split
  · exact .raise _ w₁
  · exact .ite (fun _ => .raise _ w₁) fun _ => .pure _ w₁

/-- The row imported for `k` shows `k`. -/
theorem shows_importNew {w : World} {k : Customer} (hk : Known w k) : Shows w (importNew lib w.db.users k) := by
  intro c k' hc hk'
  obtain rfl : k.id = c := Option.some.inj hc
  rw [hk.customer?] at hk'
  cases hk'
  exact ⟨rfl, rfl⟩

theorem getCustomer_move (c : String) (w : World) : Move w ((getCustomerFromStripe lib c).run w).2 := by
  unfold getCustomerFromStripe
  rcases hx : (customerRetrieve c).run w with ⟨e | k, w₁⟩
  · have hstill := (Move.still (w := w) rfl rfl).quiet (quiet_customerRetrieve c w)
    rw [Act.bind_of_error hx]
    rw [hx] at hstill
    exact hstill
  · obtain ⟨hk, -, sc, rfl⟩ := customerRetrieve_ok hx
    rw [Act.bind_of_ok hx, Act.run_get_bind]
    unfold saveImport
    rw [Act.run_get_bind]
    split
    · rename_i r hr
      exact (saveUpdate_move (w := { w with script := sc }) (mem_of_userOf hr).1).of_users rfl rfl
    · rw [Act.bind_pure_snd]
      exact (insertUser_move (w := { w with script := sc }) (shows_importNew ⟨hk.found, hk.live⟩)).of_users rfl rfl

theorem webhooksStripe_moves (payload : Option Event) (w : World) :
    (moves lib w actor (.webhooksStripe payload)).Holds (webhooksStripe lib payload) w := by
  unfold webhooksStripe
  split
  · exact .pure _ w
  · rename_i e
    have hcust : (moves lib w actor (.webhooksStripe (some e))).Holds (handleCustomer lib e) w := by
      unfold handleCustomer
      split
      · rename_i he
        exact Move.holds (getCustomer_effects (by rw [he]; rfl)) (getCustomer_move _ w)
      · rename_i he
        exact Move.holds (getCustomer_effects (by rw [he]; rfl)) (getCustomer_move _ w)
      · rename_i he
        refine .get_bind ?_
        split
        · exact .pure _ w
        · rename_i r hr
          exact Move.holds (destroyUser_effects (.reported he hr) rfl) (destroyUser_move lib r w)
      · exact .pure _ w
    refine hcust.bind fun _ w₁ _ => ?_
    have hstill : ∀ w₁ : World, Move w₁ w₁ := fun _ => .still rfl rfl
    refine (Move.holds (handleProduct_effects e w₁)
      ((hstill w₁).quiet (quiet_handleProduct e w₁))).bind fun _ w₂ _ => ?_
    exact Move.holds (handleSubscription_effects e w₂) ((hstill w₂).quiet (quiet_handleSubscription e w₂))

/-! ## All requests -/

theorem handle_moves (lib : Lib) (actor : Option Nat) (q : Request) (w : World)
    (hnames : ∀ c, q.names c → ∃ x, q.target w actor = some x) :
    (moves lib w actor q).Holds (handle lib actor q) w := by
  cases q with
  | signUp p => exact signUp_moves fun c hc => by obtain ⟨x, hx⟩ := hnames c hc; cases hx
  | accountUpdate pw p => exact accountUpdate_moves pw p w
  | accountDestroy =>
    exact holds_authenticate fun me hme _ =>
      Move.holds (destroyUser_effects (.account hme) rfl) (destroyUser_move lib me w)
  | forgotPassword e raw => exact Move.holds (forgotPassword_effects lib w actor e raw) (forgotPassword_move e raw w)
  | devisePasswordUpdate raw a => exact devisePasswordUpdate_moves raw a w
  | passwordsUpdate params => exact passwordsUpdate_moves params w
  | usersCreate p token => exact usersCreate_moves fun c hc => by obtain ⟨x, hx⟩ := hnames c hc; cases hx
  | usersUpdate id p => exact usersUpdate_moves id p w
  | usersDestroy id => exact usersDestroy_moves id w
  | profilesCreate p => exact quiet.moves ((quiet_profiles w).1 p)
  | profilesUpdate p => exact quiet.moves ((quiet_profiles w).2.1 p)
  | profilesDestroy => exact quiet.moves (@quiet_profiles lib _ w).2.2
  | postsCreate p => exact quiet.moves ((quiet_posts w).1 p)
  | postsUpdate id p => exact quiet.moves ((quiet_posts w).2.1 id p)
  | postsDestroy id => exact quiet.moves ((@quiet_posts lib _ w).2.2 id)
  | tagsCreate n => exact quiet.moves ((quiet_tags w).1 n)
  | tagsUpdate id n => exact quiet.moves ((quiet_tags w).2.1 id n)
  | tagsDestroy id => exact quiet.moves ((@quiet_tags lib _ w).2.2 id)
  | likesCreate p u => exact quiet.moves ((quiet_likes w).1 p u)
  | likesDestroy id => exact quiet.moves ((quiet_likes w).2 id)
  | subscriptionsCreate p => exact quiet.moves ((quiet_subscriptions w).1 p)
  | subscriptionsDestroy s => exact quiet.moves ((quiet_subscriptions w).2 s)
  | webhooksStripe payload => exact webhooksStripe_moves payload w

end Handlers

end Insta.Web
