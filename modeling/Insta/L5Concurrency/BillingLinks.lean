import Insta.Core.Threads
import Insta.L2Model.Cascade
import Insta.L4App.System

/-!
# Subscriptions whose product or user goes meanwhile

No foreign key leads from a subscription to its product. A delivery about a
subscription looks its user and its product up and saves the row later; in
between the product may be deleted at Stripe, or the account closed. And
`Ability` reads the current subscription first and its product in a second
query.

Threads are such requests, with every query and every save or destroy as a
step of its own (`event_alone`, `cancel_alone`: without overlap the steps
are those of the services and controllers).

`billing_linked`: in every state of every schedule,
* every subscription has its user and its product, so that whoever checks a
  permission from then on finds both;
* a permission check that finds no product (`NoMethodError`) had read a
  subscription that was deleted since, and that does not come back.

`check_fails`: the latter does happen.
-/
namespace Insta.Concurrency

open Insta.Core Insta.Store Insta.Store.App Insta.Model Insta.Service Insta.Web

/-- Where a request is; the arguments are the records it has loaded.
* `event`, `userKnown`, `targetKnown`, `looked`: a delivery about a
  subscription, before the lookup of its user, of its product, of its row,
  and before the save;
* `productEvent`, `productLooked`: a delivery about a product, as Stripe
  returned it, before the lookup and before the save;
* `productDeleted`, `dropping`: before the lookup and the destroy of a product;
* `customerDeleted`, `closing`: before the lookup and the destroy of a user,
  whichever request destroys it;
* `cancel`, `cancelling`, `cancelAtStripe`, `cancelled`: `subscriptions#destroy`
  before the sign-in filter, before the lookup, before the call to Stripe, and
  before the save;
* `check`, `checking`, `subscribed`: a permission check before the sign-in
  filter, before the query for the subscription, and before that for the
  product;
* `failed`: the product was not there. -/
inductive BillingThread
  | event (o : StripeObject)
  | userKnown (o : StripeObject) (user : UserRow)
  | targetKnown (o : StripeObject) (user : UserRow) (product : ProductRow)
  | looked (o : StripeObject) (user : UserRow) (product : ProductRow) (found : Option SubscriptionRow)
  | productEvent (p : StripeProduct) (price : Price)
  | productLooked (p : StripeProduct) (price : Price) (found : Option ProductRow)
  | productDeleted (p : String)
  | dropping (r : ProductRow)
  | customerDeleted (c : String)
  | closing (r : UserRow)
  | cancel (actor : Option Nat) (s : String)
  | cancelling (me : UserRow) (s : String)
  | cancelAtStripe (s : String) (r : SubscriptionRow)
  | cancelled (r : SubscriptionRow)
  | check (actor : Option Nat)
  | checking (me : UserRow)
  | subscribed (s : SubscriptionRow)
  | failed (s : SubscriptionRow)
  | done

/-- A request that has not begun. -/
def BillingThread.isStart : BillingThread → Bool
  | .event _ | .productEvent .. | .productDeleted _ | .customerDeleted _ | .closing _ | .cancel .. | .check _ => true
  | _ => false

/-- The next phase once a lookup has found something. -/
def goOn {α : Type} (o : Option α) (next : α → BillingThread) : BillingThread := o.elim .done next

/-- `update!(status: 'canceled', active: false)` of a loaded record. -/
def cancelLoaded (db : Db) (r : SubscriptionRow) : Db :=
  match db.subscriptions.modify r.id fun cur =>
      { cur with status := dirty r.status (some "canceled") cur.status,
                 active := dirty r.active (some false) cur.active } with
  | none => db
  | some t => { db with subscriptions := t }

/-- One atomic step of a request. -/
def billingStep (lib : Lib) (w : World) : BillingThread → Option (World × BillingThread)
  | .event o => some (w, goOn (userOf w o.customer) (.userKnown o))
  | .userKnown o user => some (w, goOn ((o.items.bind List.head?).bind (productOf w.db)) (.targetKnown o user))
  | .targetKnown o user product => some (w, .looked o user product (subscriptionOf w.db user product o))
  | .looked o user product found => some (((saveSubscription found user product o).run w).2, .done)
  | .productEvent p price => some (w, .productLooked p price (productOf w.db p.id))
  | .productLooked p price found => some (((saveProduct found p price).run w).2, .done)
  | .productDeleted p => some (w, goOn (productOf w.db p) .dropping)
  | .dropping r => some ({ w with db := destroyProduct w.db r.id }, .done)
  | .customerDeleted c => some (w, goOn (userOf w c) .closing)
  | .closing r => some (((destroyUser lib r).run w).2, .done)
  | .cancel actor s => some (w, goOn (currentUser w actor) (.cancelling · s))
  | .cancelling me s => some (w, goOn (ownSubscription w.db me.id s) (.cancelAtStripe s))
  | .cancelAtStripe s r =>
    some (((subscriptionCancel s).run w).2, goOn ((subscriptionCancel s).run w).1.toOption fun _ => .cancelled r)
  | .cancelled r => some ({ w with db := cancelLoaded w.db r }, .done)
  | .check actor => some (w, goOn (currentUser w actor) .checking)
  | .checking me =>
    some (w, if me.role = .admin then .done else goOn (currentSubscription w.db me.id) .subscribed)
  | .subscribed s => some (w, if (currentPlan w.db s).toOption.isSome then .done else .failed s)
  | .failed _ | .done => none

/-- Every subscription has its user and its product. -/
def Linked (db : Db) : Prop :=
  ∀ s ∈ db.subscriptions.rows, db.users.Has s.userId ∧ db.products.Has s.productId

structure BillingStart (s : Sys World BillingThread) : Prop where
  linked : Linked s.shared.db
  threads : ∀ t ∈ s.threads, t.isStart = true

def billingSystem (lib : Lib) : LTS (Sys World BillingThread) Nat := interleave BillingStart (billingStep lib)

/-! ## The steps are the services' and controllers' -/

section Serial

variable {lib : Lib} {w : World}

abbrev BillingAlone (lib : Lib) (w : World) (t : BillingThread) (w' : World) : Prop :=
  Alone (billingStep lib) .done w t w'

theorem event_alone (o : StripeObject) :
    BillingAlone lib w (.event o) ((syncSubscriptionFromStripe o).run w).2 := by
  unfold syncSubscriptionFromStripe
  rw [Act.run_get_bind]
  refine .step rfl ?_
  cases userOf w o.customer with
  | none => exact .done _
  | some user =>
    refine .step rfl ?_
    rcases o.items with _ | _ | ⟨p, ps⟩
    · exact .done _
    · exact .done _
    · show BillingAlone lib w (goOn (productOf w.db p) _) _
      dsimp only
      cases productOf w.db p with
      | none => exact .done _
      | some product => exact .step rfl (.step rfl (.done _))

theorem productDeleted_alone (p : String) :
    BillingAlone lib w (.productDeleted p) { w with db := dropProduct w.db p } := by
  refine .step rfl ?_
  unfold dropProduct
  cases productOf w.db p with
  | none => exact .done _
  | some x => exact .step rfl (.done _)

theorem customerDeleted_alone (c : String) : BillingAlone lib w (.customerDeleted c)
    ((handleCustomer lib ⟨.customerDeleted, { id := c }⟩).run w).2 := by
  unfold handleCustomer
  rw [Act.run_get_bind]
  refine .step rfl ?_
  dsimp only
  cases userOf w c with
  | none => exact .done _
  | some r => exact .step rfl (.done _)

/-- Nothing came between the lookup and the save. -/
theorem cancelLoaded_of_mem {r : SubscriptionRow} (hr : r ∈ w.db.subscriptions.rows) :
    { w with db := cancelLoaded w.db r } = ((cancelRow r.id).run w).2 := by
  obtain ⟨t, ht⟩ := modify_subscriptions w.db.subscriptions r.id fun cur =>
    { cur with status := dirty r.status (some "canceled") cur.status,
               active := dirty r.active (some false) cur.active }
  obtain ⟨t', ht'⟩ := modify_subscriptions w.db.subscriptions r.id fun cur =>
    { cur with status := some "canceled", active := some false }
  have hsame : t = t' := by
    refine Table.ext_rows ?_ ((Table.nextId_modify ht).trans (Table.nextId_modify ht').symm)
    rw [Table.rows_modify ht, Table.rows_modify ht']
    refine List.map_congr_left fun x hx => ?_
    by_cases hid : rowId x = r.id
    · rw [if_pos hid, if_pos hid, w.db.subscriptions.eq_of_rowId hx hr hid, dirty_loaded, dirty_loaded]
    · rw [if_neg hid, if_neg hid]
  unfold cancelLoaded cancelRow
  rw [Act.run_get_bind, ht, ht', hsame]
  rfl

theorem cancel_alone (actor : Option Nat) (s : String) :
    BillingAlone lib w (.cancel actor s) ((subscriptionsDestroy actor s).run w).2 := by
  unfold subscriptionsDestroy
  refine .step rfl ?_
  rcases hme : (authenticate actor).run w with ⟨e | me, w₁⟩
  · have hnone : currentUser w actor = none := by
      cases hu : currentUser w actor with
      | none => rfl
      | some r => rw [authenticate_of_user hu] at hme; cases hme
    rw [Act.bind_of_error hme, hnone, ← authenticate_snd actor w, hme]
    exact .done _
  · obtain ⟨hw, hcurrent, -⟩ := authenticate_ok hme
    rw [Act.bind_of_ok hme, hcurrent, hw, Act.run_get_bind]
    refine .step rfl ?_
    cases hown : ownSubscription w.db me.id s with
    | none => exact .done _
    | some r =>
      refine .step rfl ?_
      rcases hcall : (subscriptionCancel s).run w with ⟨e | ⟨⟩, w'⟩
      · dsimp only
        rw [Act.bind_of_error hcall]
        exact .done _
      · dsimp only
        rw [Act.bind_of_ok hcall]
        refine .step rfl ?_
        have hdb : w'.db = w.db := by
          obtain ⟨sc, ⟨e, hrun⟩ | ⟨k, -, -, hrun⟩⟩ := subscriptionCancel_cases s w <;> rw [hrun] at hcall <;>
            cases hcall
          rfl
        rw [cancelLoaded_of_mem (hdb ▸ (Table.mem_of_first hown).1)]
        exact .done _

/-- A check that is not interrupted fails where `Ability.new` raises. -/
theorem check_alone {me : UserRow} {rules : List Rule} (h : ability w.db (some me) = .ok rules) :
    BillingAlone lib w (.checking me) w := by
  refine .step rfl ?_
  unfold ability subscriptionRules at h
  dsimp only at h
  split
  · exact .done _
  · rename_i hrole
    rw [if_neg hrole] at h
    cases hs : currentSubscription w.db me.id with
    | none => exact .done _
    | some x =>
      rw [hs] at h
      cases hp : currentPlan w.db x with
      | error e => simp [hp] at h
      | ok plan =>
        have hstep : billingStep lib w (.subscribed x) = some (w, .done) := by
          simp [billingStep, hp, Except.toOption]
        exact .step hstep (.done _)

end Serial

/-! ## What a step does to the subscriptions -/

section Steps

variable {lib : Lib} {w : World}

/-- What a step makes of linked subscriptions: they are linked, and those that
are left have the product they had. -/
structure Keeps (db db' : Db) : Prop where
  linked : Linked db'
  succ : db.subscriptions.SuccOn SubscriptionRow.productId db'.subscriptions

theorem Keeps.refl {db : Db} (h : Linked db) : Keeps db db := ⟨h, (Table.Succ.refl _).on _⟩

/-- An update that leaves user and product alone. -/
theorem Keeps.modify {db : Db} (h : Linked db) {i : Nat} {g : SubscriptionRow → SubscriptionRow}
    {t : Table SubscriptionRow} (ht : db.subscriptions.modify i g = some t)
    (hg : ∀ x, (g x).userId = x.userId ∧ (g x).productId = x.productId) :
    Keeps db { db with subscriptions := t } := by
  refine ⟨fun s hs => ?_, Table.succOn_modify ht fun x _ => (hg x).2⟩
  rcases (Table.mem_modify ht).1 hs with ⟨hs, -⟩ | ⟨x, hx, -, rfl⟩
  · exact h s hs
  · exact (hg x).1 ▸ (hg x).2 ▸ h x hx

theorem keeps_saveSubscription (h : Linked w.db) (found : Option SubscriptionRow) (user : UserRow)
    (product : ProductRow) (o : StripeObject) (hf : ∀ f, found = some f → f.productId = product.id) :
    Keeps w.db ((saveSubscription found user product o).run w).2.db := by
  cases found with
  | some f =>
    obtain ⟨t, ht, hrun⟩ := saveSubscription_found f user product o w
    rw [hrun]
    refine Keeps.modify h ht fun x => ⟨rfl, ?_⟩
    show dirty f.productId product.id x.productId = x.productId
    unfold dirty
    rw [if_pos (hf f rfl).symm]
  | none =>
    unfold saveSubscription
    rw [Act.run_get_bind]
    dsimp only
    split
    · exact .refl h
    · rename_i hproduct
      split
      · exact .refl h
      · rename_i huser
        cases ht : w.db.subscriptions.insert
            (assignSubscription user product o (newSubscription user product o)) with
        | none => exact .refl h
        | some t =>
          refine ⟨fun s hs => ?_, (Table.succ_insert ht).on _⟩
          rcases (Table.mem_insert ht).1 hs with hs | rfl
          · exact h s hs
          · have hu : (w.db.users.find user.id).isSome = true := by simpa [Option.isSome_iff_ne_none] using huser
            have hp : (w.db.products.find product.id).isSome = true := by
              simpa [Option.isSome_iff_ne_none] using hproduct
            exact ⟨Table.has_iff_find.2 hu, Table.has_iff_find.2 hp⟩

theorem keeps_saveProduct (h : Linked w.db) (found : Option ProductRow) (p : StripeProduct) (price : Price) :
    Keeps w.db ((saveProduct found p price).run w).2.db := by
  cases found with
  | some r =>
    obtain ⟨t, ht, hrun⟩ := saveProduct_found r p price w
    rw [hrun]
    exact ⟨fun s hs => ⟨(h s hs).1, (h s hs).2.modify ht⟩, (Table.Succ.refl _).on _⟩
  | none =>
    obtain ⟨t, ht, hrun⟩ := saveProduct_new p price w
    rw [hrun]
    exact ⟨fun s hs => ⟨(h s hs).1, (h s hs).2.insert ht⟩, (Table.Succ.refl _).on _⟩

theorem keeps_destroyProduct (h : Linked w.db) (i : Nat) : Keeps w.db (destroyProduct w.db i) := by
  refine ⟨fun s hs => ?_, (Table.succ_delete _ _).on _⟩
  obtain ⟨hs, hne⟩ := Table.mem_delete.1 hs
  refine ⟨(h s hs).1, (h s hs).2.delete fun p _ hp => ?_⟩
  rw [show p.id = s.productId from hp]
  exact hne

theorem keeps_destroyUser (h : Linked w.db) (r : UserRow) : Keeps w.db ((destroyUser lib r).run w).2.db := by
  obtain ⟨-, hdb | ⟨-, hdb⟩⟩ := destroyUser_db lib r w
  · rw [hdb]
    exact .refl h
  · have hc := destroyUserCascade_spec w.db r.id
    rw [hdb]
    refine ⟨fun s hs => ?_, ?_⟩
    · change s ∈ (destroyUserCascade w.db r.id).subscriptions.rows at hs
      rw [hc.subscriptions] at hs
      obtain ⟨hs, hne⟩ := Table.mem_delete.1 hs
      refine ⟨(h s hs).1.delete fun x _ hx => ?_, hc.products ▸ (h s hs).2⟩
      rw [show x.id = s.userId from hx]
      exact hne
    · show Table.SuccOn _ _ (destroyUserCascade w.db r.id).subscriptions
      rw [hc.subscriptions]
      exact (Table.succ_delete _ _).on _

theorem keeps_cancelLoaded (h : Linked w.db) (r : SubscriptionRow) : Keeps w.db (cancelLoaded w.db r) := by
  unfold cancelLoaded
  split
  · exact .refl h
  · rename_i t ht
    exact Keeps.modify h ht fun x => ⟨rfl, rfl⟩

end Steps

/-- What a thread has loaded: the row a delivery will save has the product
that was looked up; the subscription a check has read has its product still,
as long as it is there; the one it failed for is gone. -/
def BillingThread.Sound (db : Db) : BillingThread → Prop
  | .looked _ _ product found => ∀ f, found = some f → f.productId = product.id
  | .subscribed s => db.subscriptions.LoadedOn SubscriptionRow.productId s
  | .failed s => s.id < db.subscriptions.nextId ∧ ¬ db.subscriptions.Has s.id
  | _ => True

theorem BillingThread.Sound.succ {db db' : Db} {t : BillingThread} (h : t.Sound db)
    (hs : db.subscriptions.SuccOn SubscriptionRow.productId db'.subscriptions) : t.Sound db' := by
  cases t with
  | looked o user product found => exact h
  | subscribed s => exact Table.LoadedOn.succ h hs
  | failed s => exact ⟨Nat.lt_of_lt_of_le h.1 hs.nextId, hs.not_has h.1 h.2⟩
  | _ => trivial

theorem sound_goOn {db : Db} {α : Type} {o : Option α} {next : α → BillingThread}
    (h : ∀ a, o = some a → (next a).Sound db) : (goOn o next).Sound db := by
  cases o with
  | none => trivial
  | some a => exact h a rfl

/-- The product of a subscription that is there is found. -/
theorem sound_failed {db : Db} {s : SubscriptionRow} (h : Linked db)
    (hs : db.subscriptions.LoadedOn SubscriptionRow.productId s) (hplan : ¬ (currentPlan db s).toOption.isSome) :
    (BillingThread.failed s).Sound db := by
  refine ⟨hs.old, fun ⟨x, hx, hid⟩ => hplan ?_⟩
  have hproduct := (h x hx).2
  rw [hs.same x hx hid, Table.has_iff_find] at hproduct
  obtain ⟨p, hp⟩ := Option.isSome_iff_exists.1 hproduct
  simp [currentPlan, hp, Except.toOption]

theorem billingStep_keeps {lib : Lib} {w w' : World} {t t' : BillingThread} (hl : Linked w.db) (ht : t.Sound w.db)
    (h : billingStep lib w t = some (w', t')) : Keeps w.db w'.db ∧ t'.Sound w'.db := by
  cases t with
  | event o => cases h; exact ⟨.refl hl, sound_goOn fun _ _ => trivial⟩
  | userKnown o user => cases h; exact ⟨.refl hl, sound_goOn fun _ _ => trivial⟩
  | targetKnown o user product =>
    cases h
    refine ⟨.refl hl, fun f hf => ?_⟩
    have hkey := (Table.mem_of_first hf).2
    simp only [subscriptionKey, Bool.and_eq_true, beq_iff_eq] at hkey
    exact hkey.2
  | looked o user product found => cases h; exact ⟨keeps_saveSubscription hl found user product o ht, trivial⟩
  | productEvent p price => cases h; exact ⟨.refl hl, trivial⟩
  | productLooked p price found => cases h; exact ⟨keeps_saveProduct hl found p price, trivial⟩
  | productDeleted p => cases h; exact ⟨.refl hl, sound_goOn fun _ _ => trivial⟩
  | dropping r => cases h; exact ⟨keeps_destroyProduct hl r.id, trivial⟩
  | customerDeleted c => cases h; exact ⟨.refl hl, sound_goOn fun _ _ => trivial⟩
  | closing r => cases h; exact ⟨keeps_destroyUser hl r, trivial⟩
  | cancel actor s => cases h; exact ⟨.refl hl, sound_goOn fun _ _ => trivial⟩
  | cancelling me s => cases h; exact ⟨.refl hl, sound_goOn fun _ _ => trivial⟩
  | cancelAtStripe s r =>
    cases h
    have hdb : ((subscriptionCancel s).run w).2.db = w.db := by
      obtain ⟨sc, ⟨e, hrun⟩ | ⟨k, -, -, hrun⟩⟩ := subscriptionCancel_cases s w <;> rw [hrun]
    rw [hdb]
    exact ⟨.refl hl, sound_goOn fun _ _ => trivial⟩
  | cancelled r => cases h; exact ⟨keeps_cancelLoaded hl r, trivial⟩
  | check actor => cases h; exact ⟨.refl hl, sound_goOn fun _ _ => trivial⟩
  | checking me =>
    cases h
    refine ⟨.refl hl, ?_⟩
    split
    · trivial
    · exact sound_goOn fun s hs => .of_mem (Table.mem_of_first hs).1
  | subscribed s =>
    cases h
    refine ⟨.refl hl, ?_⟩
    split
    · trivial
    · rename_i hplan
      exact sound_failed hl ht hplan
  | failed s => cases h
  | done => cases h

/-! ## Every schedule -/

structure BillingInv (s : Sys World BillingThread) : Prop where
  linked : Linked s.shared.db
  loaded : ∀ t ∈ s.threads, t.Sound s.shared.db

theorem billingInv_step {lib : Lib} {s s' : Sys World BillingThread} {i : Nat} (hi : BillingInv s)
    (h : fire (billingStep lib) s i = some s') : BillingInv s' := by
  obtain ⟨t, w', t', ht, hstep, rfl⟩ := fire_cases h
  obtain ⟨hkeeps, hsound⟩ := billingStep_keeps hi.linked (hi.loaded t (List.mem_of_getElem? ht)) hstep
  refine ⟨hkeeps.linked, fun x hx => ?_⟩
  rcases List.mem_or_eq_of_mem_set hx with hx | rfl
  · exact (hi.loaded x hx).succ hkeeps.succ
  · exact hsound

theorem billing_inv {lib : Lib} {s : Sys World BillingThread} (h : (billingSystem lib).Reachable s) :
    BillingInv s := by
  have hind : (billingSystem lib).Inductive BillingInv := by
    refine ⟨fun s hs => ⟨hs.linked, fun t ht => ?_⟩, fun s i s' hi hs => billingInv_step hi hs⟩
    have hstart := hs.threads t ht
    cases t <;> trivial
  exact hind.reachable s h

/-- `Ability.new` on a linked database. -/
theorem ability_of_linked {db : Db} (h : Linked db) (u : Option UserRow) : ∃ rules, ability db u = .ok rules := by
  cases hu : ability db u with
  | ok rules => exact ⟨rules, rfl⟩
  | error e =>
    exfalso
    cases u with
    | none => cases hu
    | some u =>
      unfold ability subscriptionRules at hu
      dsimp only at hu
      split at hu
      · cases hu
      · cases hs : currentSubscription db u.id with
        | none => simp [hs] at hu
        | some s =>
          obtain ⟨p, hp⟩ := Option.isSome_iff_exists.1 (Table.has_iff_find.1 (h s (Table.mem_of_first hs).1).2)
          simp [hs, currentPlan, hp] at hu

/-- In every schedule subscriptions have their user and their product, and a
check that found no product had read a subscription that is gone. -/
theorem billing_linked (lib : Lib) (s : Sys World BillingThread) (h : (billingSystem lib).Reachable s) :
    (∀ x ∈ s.shared.db.subscriptions.rows,
      s.shared.db.users.Has x.userId ∧ s.shared.db.products.Has x.productId) ∧
    (∀ u, ∃ rules, ability s.shared.db u = .ok rules) ∧
    ∀ x, .failed x ∈ s.threads → ¬ s.shared.db.subscriptions.Has x.id := by
  have hi := billing_inv h
  exact ⟨hi.linked, ability_of_linked hi.linked, fun x hx => (hi.loaded _ hx).2⟩

/-! ## A check between a product and its end -/

def activeRow : SubscriptionRow :=
  { assignSubscription aliceRow (planRow 1 "prod_2" "#2 Posts")
      { id := "sub_1", customer := "cus_1", items := some ["prod_2"], status := "active" }
      (newSubscription aliceRow (planRow 1 "prod_2" "#2 Posts") { id := "sub_1" }) with id := 1 }

/-- The user of `shop` with an active subscription; the plan is deleted while
the user's permission is checked. -/
def checkedShop : Sys World BillingThread :=
  ⟨{ shop with db := { shop.db with
      subscriptions := ⟨[activeRow], 2, List.pairwise_singleton _ _, List.pairwise_singleton _ _, by decide⟩ } },
    [.check (some 1), .productDeleted "prod_2"]⟩

theorem checkedShop_start : BillingStart checkedShop where
  linked := by
    intro s hs
    rw [List.mem_singleton.1 hs]
    exact ⟨Table.has_iff_find.2 rfl, Table.has_iff_find.2 rfl⟩
  threads := by decide

/-- The check reads the subscription, the product goes with it, and the check
looks for the product. -/
def failedCheck : Sys World BillingThread :=
  ([0, 0, 1, 1, 0].foldlM (fire (billingStep plainLib)) checkedShop).getD checkedShop

theorem check_fails : (billingSystem plainLib).Reachable failedCheck ∧ .failed activeRow ∈ failedCheck.threads ∧
    (∀ x ∈ failedCheck.shared.db.subscriptions.rows,
      failedCheck.shared.db.users.Has x.userId ∧ failedCheck.shared.db.products.Has x.productId) ∧
    ¬ failedCheck.shared.db.subscriptions.Has activeRow.id := by
  have hreach : (billingSystem plainLib).Reachable failedCheck :=
    ⟨checkedShop, [0, 0, 1, 1, 0], checkedShop_start, LTS.ofFn_run_iff.2 rfl⟩
  have hfailed : .failed activeRow ∈ failedCheck.threads := List.mem_cons_self
  have h := billing_linked plainLib failedCheck hreach
  exact ⟨hreach, hfailed, h.1, h.2.2 _ hfailed⟩

end Insta.Concurrency
