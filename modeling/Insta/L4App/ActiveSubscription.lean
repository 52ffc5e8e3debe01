import Insta.L4App.Effects

/-!
# One active subscription per user

`current_subscription`, the settings page and the cancel button each take
one active row for the user's subscription. Rows become active by events
only: a user opens a checkout (`subscriptions#create`), completes it at
Stripe, and Stripe's events about the new subscription are delivered in
order. Nothing in `subscriptions#create` looks at the subscription the user
has.

* `noNewActive`: no call but the delivery of a subscription event makes a row
  active.
* `one_active_iff`: along a run every user has at most one active row exactly
  when every event that reports a subscription as active finds no active row
  of its user but the one it overwrites.
* `second_checkout_activates`: a second checkout does find one.
-/
namespace Insta.Web

open Insta.Core Insta.Store Insta.Store.App Insta.Model Insta.Service

/-! ## The system -/

/-- A checkout that a user was sent to: the customer and the product. -/
structure Session where
  customer : Option String
  product : String
  deriving DecidableEq

/-- The world, and the checkouts that are open at Stripe. -/
structure Plans where
  world : World
  sessions : List Session

/-- The session `Stripe::Checkout::Session.create` opens, if the action gets
that far.
mirrors app/controllers/subscriptions_controller.rb:9-23 -/
def openedSession (w : World) (actor : Option Nat) (product : String) (script : List (Option Fault)) : List Session :=
  match currentUser w actor, productOf w.db product, script.head? with
  | _, _, some (some _) => []
  | some me, some _, _ => [⟨me.stripeCustomerId, product⟩]
  | _, _, _ => []

/-- The account after a completed checkout: a new active subscription and its
events. -/
def completeSession (a : Stripe) (k : StripeSubscription) : Stripe :=
  let a := putSubscription a k .subscriptionCreated
  { a with outbox := a.outbox ++ [invoicePaid ("in_" ++ k.id) k.customer] }

/-- `complete`: of the `i`-th open checkout; Stripe gives the subscription its
id and, where the session names no customer, makes one. `change`: of status
or product, at Stripe. `remove`: the end of a subscription, at Stripe. -/
inductive PlansLabel
  | checkout (actor : Option Nat) (product : String) (script : List (Option Fault))
  | complete (i : Nat) (id customer : String)
  | change (k : StripeSubscription)
  | remove (s : String)
  | cancel (actor : Option Nat) (s : String) (script : List (Option Fault))
  | deliver

def setStripe (p : Plans) (a : Stripe) : Plans := { p with world := { p.world with stripe := a } }

/-- The delivery of an event. -/
def delivery (e : Event) : Call := ⟨none, .webhooksStripe (some e), []⟩

def plansNext (lib : Lib) (p : Plans) : PlansLabel → Option Plans
  | .checkout actor product script =>
    some ⟨serve lib p.world ⟨actor, .subscriptionsCreate product, script⟩,
      openedSession p.world actor product script ++ p.sessions⟩
  | .complete i id customer =>
    match p.sessions[i]? with
    | none => none
    | some s =>
      if p.world.stripe.subscription? id = none then
        some ⟨{ p.world with
          stripe := completeSession p.world.stripe ⟨id, s.customer.getD customer, "active", s.product⟩ },
          p.sessions.eraseIdx i⟩
      else none
  | .change k =>
    if (p.world.stripe.subscription? k.id).isSome then
      some (setStripe p (putSubscription p.world.stripe k .subscriptionUpdated))
    else none
  | .remove s => (p.world.stripe.subscription? s).map fun k => setStripe p (p.world.stripe.cancel k)
  | .cancel actor s script => some { p with world := serve lib p.world ⟨actor, .subscriptionsDestroy s, script⟩ }
  | .deliver =>
    match p.world.stripe.outbox with
    | [] => none
    | e :: rest =>
      some { p with
        world := serve lib { p.world with stripe := { p.world.stripe with outbox := rest } } (delivery e) }

/-- At most one active row per user. -/
def OneActive (db : Db) : Prop :=
  ∀ a ∈ db.subscriptions.rows, ∀ b ∈ db.subscriptions.rows,
    a.active = some true → b.active = some true → a.userId = b.userId → a = b

def plans (lib : Lib) : LTS Plans PlansLabel := LTS.ofFn (fun p => OneActive p.world.db) (plansNext lib)

/-- An active row of the event's user, where the event reports an active
subscription, is the row that the event overwrites. -/
def FindsActive (w : World) (e : Event) : Prop :=
  EventType.syncs e.type = true → e.object.status = "active" →
    ∀ user product, eventTarget w e.object = some (user, product) →
      ∀ r ∈ w.db.subscriptions.rows, r.userId = user.id → r.active = some true →
        subscriptionOf w.db user product e.object = some r

def ActiveGuard (p : Plans) : PlansLabel → Prop
  | .deliver => ∀ e, p.world.stripe.outbox.head? = some e → FindsActive p.world e
  | _ => True

/-! ## Calls that activate nothing -/

/-- Every active row was there. -/
def NoNewActive (db db' : Db) : Prop :=
  ∀ r ∈ db'.subscriptions.rows, r.active = some true → r ∈ db.subscriptions.rows

theorem OneActive.of_noNew {db db' : Db} (h : OneActive db) (hn : NoNewActive db db') : OneActive db' :=
  fun a ha b hb haa hba => h a (hn a ha haa) b (hn b hb hba) haa hba

theorem NoNewActive.of_same {db db' : Db} (h : db'.subscriptions = db.subscriptions) : NoNewActive db db' :=
  fun _ hr _ => h ▸ hr

theorem NoNewActive.of_delete {db db' : Db} {p : SubscriptionRow → Bool}
    (h : db'.subscriptions = db.subscriptions.delete p) : NoNewActive db db' := by
  intro r hr _
  rw [h] at hr
  exact (Table.mem_delete.1 hr).1

theorem ContentWrite.noNewActive {w₀ : World} {actor : Option Nat} {q : Request} {db db' : Db}
    (h : ContentWrite w₀ actor q db db')
    (hq : ∀ e, q = .webhooksStripe (some e) → EventType.syncs e.type = false) : NoNewActive db db' := by
  cases h with
  | subscribed he hs _ _ _ => rw [hq _ he] at hs; cases hs
  | cancelled _ _ _ ht =>
    intro x hx hactive
    rcases (Table.mem_modify ht).1 hx with ⟨hx, -⟩ | ⟨y, -, -, rfl⟩
    · exact hx
    · cases hactive
  | productDropped _ => exact .of_delete rfl
  | @liked me post user _ _ =>
    rcases createLike_cases db post user with he | ⟨t, -, -, -, -, he⟩ <;> rw [he] <;> exact .of_same rfl
  | _ => exact .of_same rfl

theorem Effect.noNewActive {lib : Lib} {w₀ w w' : World} {actor : Option Nat} {q : Request}
    (h : Effect lib w₀ actor q w w')
    (hq : ∀ e, q = .webhooksStripe (some e) → EventType.syncs e.type = false) : NoNewActive w.db w'.db := by
  rcases h.db_cases with ⟨t, hdb⟩ | ⟨r, -, -, -, hdb⟩ | hw
  · exact .of_same (by rw [hdb])
  · refine .of_delete (p := fun s => s.userId == r.id) ?_
    rw [hdb]
    exact (destroyUserCascade_spec w.db r.id).subscriptions
  · exact hw.noNewActive hq

theorem noNewActive (lib : Lib) (w : World) (c : Call)
    (hq : ∀ e, c.req = .webhooksStripe (some e) → EventType.syncs e.type = false) :
    NoNewActive w.db (serve lib w c).db :=
  serve_keeps (I := fun x => NoNewActive w.db x.db)
    (fun _ _ he hI r hr hactive => hI r (he.noNewActive hq r hr hactive) hactive) fun _ hr _ => hr

/-! ## Subscription events -/

/-- The rows after an upsert: one of the user's with what the event reports,
and the others. -/
theorem mem_upserted {t t' : Table SubscriptionRow} {user : UserRow} {product : ProductRow} {o : StripeObject}
    (h : upsertSubscription t user product o = some t') :
    ∃ y, y.userId = user.id ∧ y.active = some (o.status == "active") ∧
      (∀ x ∈ t.rows, t.first (subscriptionKey user.id product.id o.id) ≠ some x → x ≠ y) ∧
      ∀ x, x ∈ t'.rows ↔ x = y ∨
        x ∈ t.rows ∧ t.first (subscriptionKey user.id product.id o.id) ≠ some x := by
  rcases rows_upsertSubscription h with ⟨r, hr, hrows⟩ | ⟨hn, hrows⟩
  · obtain ⟨hmem, hkey⟩ := Table.mem_of_first hr
    simp only [subscriptionKey, Bool.and_eq_true, beq_iff_eq] at hkey
    have hother : ∀ x ∈ t.rows, some r ≠ some x ↔ x.id ≠ r.id := fun x hx =>
      ⟨fun hne hid => hne (by rw [t.eq_of_rowId hx hmem hid]), fun hne he => hne (by rw [Option.some.inj he])⟩
    refine ⟨assignSubscription user product o r, hkey.1.1, rfl, fun x hx hne he => ?_, fun x => ?_⟩
    · rw [hr, hother x hx] at hne
      rw [he] at hne
      exact hne rfl
    · rw [hrows, List.mem_map, hr]
      constructor
      · rintro ⟨z, hz, rfl⟩
        by_cases hid : z.id = r.id
        · rw [if_pos hid, t.eq_of_rowId hz hmem hid]
          exact .inl rfl
        · rw [if_neg hid]
          exact .inr ⟨hz, (hother z hz).2 hid⟩
      · rintro (rfl | ⟨hx, hne⟩)
        · exact ⟨r, hmem, if_pos rfl⟩
        · exact ⟨x, hx, if_neg ((hother x hx).1 hne)⟩
  · refine ⟨{ assignSubscription user product o (newSubscription user product o) with id := t.nextId },
      rfl, rfl, fun x hx _ he => ?_, fun x => ?_⟩
    · have hlt := t.below x hx
      rw [he] at hlt
      exact absurd hlt (Nat.lt_irrefl _)
    · rw [hrows, hn, List.mem_append, List.mem_singleton, or_comm]
      exact or_congr_right (and_iff_left (by simp)).symm

/-- A stored event keeps one active row per user iff it finds none, or its
own. -/
theorem oneActive_upsert_iff {db : Db} {t : Table SubscriptionRow} {user : UserRow} {product : ProductRow}
    {o : StripeObject} (h₀ : OneActive db) (ht : upsertSubscription db.subscriptions user product o = some t) :
    OneActive { db with subscriptions := t } ↔
      (o.status = "active" → ∀ r ∈ db.subscriptions.rows, r.userId = user.id → r.active = some true →
        subscriptionOf db user product o = some r) := by
  obtain ⟨y, huser, hactive, hne, hmem⟩ := mem_upserted ht
  constructor
  · intro h hst r hr hru hra
    by_contra hn
    refine hne r hr hn (h r ((hmem r).2 (.inr ⟨hr, hn⟩)) y ((hmem y).2 (.inl rfl)) hra ?_ (hru.trans huser.symm))
    rw [hactive, hst]
    rfl
  · intro hfind
    -- beside the written row there is no other active one of its user
    have halone : ∀ x ∈ db.subscriptions.rows, x.active = some true → x.userId = y.userId →
        y.active = some true → db.subscriptions.first (subscriptionKey user.id product.id o.id) = some x := by
      intro x hx hxa hxu hya
      rw [hactive] at hya
      exact hfind (by simpa using hya) x hx (hxu.trans huser) hxa
    intro a ha b hb haa hba hab
    rcases (hmem a).1 ha with rfl | ⟨ha, hna⟩ <;> rcases (hmem b).1 hb with rfl | ⟨hb, hnb⟩
    · rfl
    · exact absurd (halone b hb hba hab.symm haa) hnb
    · exact absurd (halone a ha haa hab hba) hna
    · exact h₀ a ha b hb haa hba hab

/-- What a delivery does to the active rows. -/
theorem oneActive_delivery_iff (lib : Lib) {w : World} (e : Event) (h₀ : OneActive w.db) :
    OneActive (serve lib w (delivery e)).db ↔ FindsActive w e := by
  cases hs : EventType.syncs e.type with
  | false =>
    have hn := noNewActive lib w (delivery e) (fun e' he' => by cases he'; exact hs)
    exact ⟨fun _ hs' => absurd (hs.symm.trans hs') Bool.false_ne_true, fun _ => h₀.of_noNew hn⟩
  | true =>
    have hrun : serve lib w (delivery e) = ((syncSubscriptionFromStripe e.object).run { w with script := [] }).2 := by
      show ((webhooksStripe lib (some e)).run { w with script := [] }).2 = _
      rw [webhooksStripe_of_syncs lib hs]
    rw [hrun]
    cases ht : eventTarget w e.object with
    | none =>
      rw [syncSubscription_of_no_target (w := { w with script := [] }) ht]
      refine ⟨fun _ _ _ user product htarget => ?_, fun _ => h₀⟩
      cases ht.symm.trans htarget
    | some target =>
      obtain ⟨user, product⟩ := target
      obtain ⟨t, hup, hsync⟩ := syncSubscription_of_target (w := { w with script := [] }) ht
      rw [hsync]
      refine (oneActive_upsert_iff h₀ hup).trans ⟨fun h _ hst user' product' htarget => ?_, fun h hst => ?_⟩
      · cases ht.symm.trans htarget
        exact h hst
      · exact h hs hst user product ht

/-! ## Runs -/

theorem oneActive_step_iff (lib : Lib) {a b : Plans} {l : PlansLabel} (h₀ : OneActive a.world.db)
    (hs : (plans lib).step a l b) : OneActive b.world.db ↔ ActiveGuard a l := by
  have hkept : NoNewActive a.world.db b.world.db → (OneActive b.world.db ↔ True) :=
    fun hn => ⟨fun _ => trivial, fun _ => h₀.of_noNew hn⟩
  have hstep : plansNext lib a l = some b := hs
  cases l with
  | checkout actor product script =>
    cases hstep
    exact hkept (noNewActive lib _ _ fun e he => by cases he)
  | complete i id customer =>
    simp only [plansNext] at hstep
    split at hstep
    · cases hstep
    · split at hstep
      · cases hstep
        exact hkept (.of_same rfl)
      · cases hstep
  | change k =>
    simp only [plansNext, Option.ite_none_right_eq_some, Option.some.injEq] at hstep
    obtain ⟨-, rfl⟩ := hstep
    exact hkept (.of_same rfl)
  | remove s =>
    obtain ⟨k, -, rfl⟩ := Option.map_eq_some_iff.1 hstep
    exact hkept (.of_same rfl)
  | cancel actor s script =>
    cases hstep
    exact hkept (noNewActive lib _ _ fun e he => by cases he)
  | deliver =>
    simp only [plansNext] at hstep
    split at hstep
    · cases hstep
    · rename_i e rest hout
      cases hstep
      rw [oneActive_delivery_iff lib e (w := { a.world with stripe := { a.world.stripe with outbox := rest } }) h₀]
      unfold ActiveGuard
      rw [hout]
      exact ⟨fun h e' he' => by cases he'; exact h, fun h => h e rfl⟩

theorem one_active_iff (lib : Lib) (p₀ p : Plans) (ls : List PlansLabel) (h₀ : OneActive p₀.world.db) :
    (∀ a l b, (plans lib).StepOf p₀ ls p a l b → OneActive b.world.db) ↔
    (∀ a l b, (plans lib).StepOf p₀ ls p a l b → ActiveGuard a l) :=
  LTS.run_keeps_iff (P := fun a : Plans => OneActive a.world.db) (fun _ _ _ h hs => oneActive_step_iff lib h hs) h₀ p

/-! ## Checkouts -/

/-- The user of `shop` opens a checkout for `product` and completes it, and
the event about the new subscription `s` is delivered. -/
def subscribesTo (product s : String) : List PlansLabel :=
  [.checkout (some 1) product [], .complete 0 s "", .deliver]

def plansAfter (ls : List PlansLabel) : Plans := (ls.foldlM (plansNext plainLib) ⟨shop, []⟩).getD ⟨shop, []⟩

theorem shop_oneActive : OneActive shop.db := by
  intro a ha
  cases ha

/-- The user subscribes, and Stripe renews the subscription. -/
def renews : List PlansLabel :=
  subscribesTo "prod_2" "sub_1" ++ [.deliver, .change ⟨"sub_1", "cus_1", "active", "prod_2"⟩, .deliver]

/-- The event about the renewal finds the active row and overwrites it. -/
theorem renewal_alone :
    OneActive shop.db ∧ (plans plainLib).Run ⟨shop, []⟩ renews (plansAfter renews) ∧
    (plansAfter renews).world.db.subscriptions.rows.map SubscriptionRow.active = [some true] ∧
    ∀ a l b, (plans plainLib).StepOf ⟨shop, []⟩ renews (plansAfter renews) a l b → OneActive b.world.db := by
  refine ⟨shop_oneActive, LTS.ofFn_run_iff.2 rfl, by decide,
    (one_active_iff plainLib _ _ _ shop_oneActive).2 fun a l b h => ?_⟩
  rcases h.of_cons with ⟨-, rfl⟩ | ⟨p₁, h₁, h⟩
  · trivial
  cases h₁
  rcases h.of_cons with ⟨-, rfl⟩ | ⟨p₂, h₂, h⟩
  · trivial
  cases h₂
  rcases h.of_cons with ⟨rfl, rfl⟩ | ⟨p₃, h₃, h⟩
  · -- no subscription is stored before the delivery
    intro e _ _ _ user product _ r hr
    cases hr
  cases h₃
  rcases h.of_cons with ⟨rfl, rfl⟩ | ⟨p₄, h₄, h⟩
  · -- the invoice has no status
    intro e he _ hst
    cases he
    exact absurd hst (by decide)
  cases h₄
  rcases h.of_cons with ⟨-, rfl⟩ | ⟨p₅, h₅, h⟩
  · trivial
  cases h₅
  rcases h.of_cons with ⟨rfl, rfl⟩ | ⟨p₆, -, l₁, l₂, hls, -⟩
  · intro e he _ _ user product htarget r hr _ _
    cases he
    cases htarget
    rw [List.mem_singleton.1 hr]
    rfl
  · simp at hls

/-- The user subscribes to a second plan and keeps the first. -/
def subscribesTwice : List PlansLabel :=
  subscribesTo "prod_2" "sub_1" ++ .deliver :: subscribesTo "prod_5" "sub_2"

theorem second_checkout_activates :
    OneActive shop.db ∧ (plans plainLib).Run ⟨shop, []⟩ subscribesTwice (plansAfter subscribesTwice) ∧
    (plansAfter subscribesTwice).world.db.subscriptions.rows.map (fun r => (r.userId, r.active)) =
      [(1, some true), (1, some true)] ∧
    ¬ OneActive (plansAfter subscribesTwice).world.db := by
  refine ⟨shop_oneActive, LTS.ofFn_run_iff.2 rfl, by decide, ?_⟩
  have hdec : ¬ ∀ a ∈ (plansAfter subscribesTwice).world.db.subscriptions.rows,
      ∀ b ∈ (plansAfter subscribesTwice).world.db.subscriptions.rows,
      a.active = some true → b.active = some true → a.userId = b.userId → a = b := by decide
  exact hdec

end Insta.Web
