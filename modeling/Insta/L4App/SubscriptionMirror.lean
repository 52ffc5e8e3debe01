import Insta.L4App.System

/-!
# The local mirror of one Stripe subscription

A subscription `s` of the customer `c` lives at Stripe: it is created,
updated (status and product), cancelled by Stripe or by its owner through
`subscriptions#destroy`. Every change queues an event, and the webhook
handler consumes the queue in order. The local table is to show `s` as
active exactly while Stripe does.

`Lockstep`: each event is delivered before the next change of `s`, so that
the delivered snapshot is Stripe's current state. Overtaken snapshots are
not considered: a handler that stores what it is sent, as this one does,
stores an old state then.

* `mirror_agrees_iff`: along any lockstep run, all deliveries restore
  agreement exactly when no event that reports `s` as not active leaves an
  active row of `s` behind that it does not overwrite.
* `deleted_stays_active`: `customer.subscription.deleted` overwrites
  nothing. After it the row is active, and stays so.
-/
namespace Insta.Web

open Insta.Core Insta.Store Insta.Store.App Insta.Model Insta.Service

/-! ## The system -/

/-- A change of `s` at Stripe, a cancellation by the owner, or the delivery
of the oldest event. -/
inductive MirrorLabel
  | create (status product : String)
  | update (status product : String)
  | delete
  | ownerCancel (script : List (Option Fault))
  | deliver

section

variable (lib : Lib) (s c : String) (u : Nat)

def mirrorStep (w : World) : MirrorLabel → Option World
  | .create status product =>
    if w.stripe.subscription? s = none ∧ (productOf w.db product).isSome then
      some { w with stripe := putSubscription w.stripe ⟨s, c, status, product⟩ .subscriptionCreated }
    else none
  | .update status product =>
    if (w.stripe.subscription? s).isSome ∧ (productOf w.db product).isSome then
      some { w with stripe := putSubscription w.stripe ⟨s, c, status, product⟩ .subscriptionUpdated }
    else none
  | .delete => (w.stripe.subscription? s).map fun k => { w with stripe := w.stripe.cancel k }
  | .ownerCancel script => some (serve lib w ⟨some u, .subscriptionsDestroy s, script⟩)
  | .deliver =>
    match w.stripe.outbox with
    | [] => none
    | e :: rest =>
      some (serve lib { w with stripe := { w.stripe with outbox := rest } } ⟨none, .webhooksStripe (some e), []⟩)

/-- User `u` stands for customer `c`; Stripe does not have `s` yet. -/
def MirrorStart (w : World) : Prop :=
  (∃ x, userOf w c = some x ∧ x.id = u) ∧ w.stripe.subscription? s = none ∧ w.stripe.outbox = []

def mirrorSystem : LTS World MirrorLabel := LTS.ofFn (MirrorStart s c u) (mirrorStep lib s c u)

end

/-- A change of `s` waits for the delivery of the previous event. -/
def Lockstep (w : World) (l : MirrorLabel) : Prop := l = .deliver ∨ w.stripe.outbox = []

/-! ## Agreement -/

/-- A row of `u` that shows `s` as active. -/
def ActiveRow (u : Nat) (s : String) (r : SubscriptionRow) : Prop :=
  r.userId = u ∧ r.stripeSubscriptionId = some s ∧ r.active = some true

/-- The table shows `s` as active exactly when Stripe does; while Stripe
does not, `s` is not the subscription `Ability` looks at. -/
def Mirrors (s : String) (u : Nat) (w : World) : Prop :=
  ((∃ r ∈ w.db.subscriptions.rows, ActiveRow u s r) ↔
    (w.stripe.subscription? s).map StripeSubscription.status = some "active") ∧
  ((w.stripe.subscription? s).map StripeSubscription.status ≠ some "active" →
    ∀ r, currentSubscription w.db u = some r → r.stripeSubscriptionId ≠ some s)

/-- The row the delivery of `e` overwrites. -/
def overwritten (w : World) (e : Event) : Option SubscriptionRow :=
  if EventType.syncs e.type then
    (eventTarget w e.object).bind fun t => subscriptionOf w.db t.1 t.2 e.object
  else none

/-- An event that reports `s` as not active finds no active row of `s` but
the one it overwrites. -/
def CoversActive (s : String) (u : Nat) (w : World) : Prop :=
  ∀ e rest, w.stripe.outbox = e :: rest → e.object.status ≠ "active" →
    ∀ r ∈ w.db.subscriptions.rows, ActiveRow u s r → overwritten w e = some r

/-- The permission half of `Mirrors` follows from the other. -/
theorem mirrors_iff {s : String} {u : Nat} {w : World} : Mirrors s u w ↔
    ((∃ r ∈ w.db.subscriptions.rows, ActiveRow u s r) ↔
      (w.stripe.subscription? s).map StripeSubscription.status = some "active") := by
  refine ⟨fun h => h.1, fun h => ⟨h, fun hne r hr hs => hne (h.1 ?_)⟩⟩
  obtain ⟨hmem, hp⟩ := Table.mem_of_first hr
  simp only [Bool.and_eq_true, beq_iff_eq] at hp
  exact ⟨r, hmem, hp.1, hs, hp.2⟩

/-! ## What holds along a lockstep run -/

structure MirrorInv (s c : String) (u : Nat) (w : World) : Prop where
  user : ∃ x, userOf w c = some x ∧ x.id = u
  known : ∀ k, w.stripe.subscription? s = some k →
    k.id = s ∧ k.customer = c ∧ (productOf w.db k.product).isSome
  /-- the one event in the queue is Stripe's current state -/
  queue : w.stripe.outbox = [] ∨ ∃ e k, w.stripe.outbox = [e] ∧
    w.stripe.subscription? s = some k ∧ e.object = k.snapshot ∧
    (EventType.syncs e.type = true ∨ e.type = .subscriptionDeleted ∧ k.status = "canceled")

theorem subscription?_put (a : Stripe) (k : StripeSubscription) (type : EventType) :
    (putSubscription a k type).subscription? k.id = some k := by
  simp [putSubscription, Stripe.subscription?]

theorem subscription?_cancel {a : Stripe} {s : String} {k : StripeSubscription}
    (h : a.subscription? s = some k) :
    (a.cancel k).subscription? s = some { k with status := "canceled" } := by
  have hid : k.id = s := by simpa using List.find?_some h
  unfold Stripe.subscription? Stripe.cancel at *
  rw [List.find?_map]
  have hcomp : ((fun x : StripeSubscription => x.id == s) ∘ fun x =>
      if x.id = k.id then { k with status := "canceled" } else x) = fun x => x.id == s := by
    funext x
    by_cases hx : x.id = k.id
    · simp [hx]
    · simp [hx]
  rw [hcomp, h]
  simp

/-- Storing a state of `s` and queueing its event keeps the invariant. -/
theorem mirrorInv_put {s c : String} {u : Nat} {w : World} (hi : MirrorInv s c u w)
    (hq : w.stripe.outbox = []) {status product : String} (hp : (productOf w.db product).isSome = true)
    {type : EventType} (ht : EventType.syncs type = true) :
    MirrorInv s c u { w with stripe := putSubscription w.stripe ⟨s, c, status, product⟩ type } := by
  have hget := subscription?_put w.stripe ⟨s, c, status, product⟩ type
  refine ⟨hi.user, fun k hk => ?_, .inr ⟨⟨type, _⟩, ⟨s, c, status, product⟩, ?_, hget, rfl, .inl ht⟩⟩
  · cases hget.symm.trans hk
    exact ⟨rfl, rfl, hp⟩
  · show w.stripe.outbox ++ [_] = [_]
    rw [hq]; rfl

theorem mirrorInv_cancel {s c : String} {u : Nat} {w : World} (hi : MirrorInv s c u w)
    (hq : w.stripe.outbox = []) {k : StripeSubscription} (hk : w.stripe.subscription? s = some k) :
    MirrorInv s c u { w with stripe := w.stripe.cancel k } := by
  have hget := subscription?_cancel hk
  obtain ⟨hid, hc, hp⟩ := hi.known k hk
  refine ⟨hi.user, fun k' hk' => ?_,
    .inr ⟨⟨.subscriptionDeleted, _⟩, _, ?_, hget, rfl, .inr ⟨rfl, rfl⟩⟩⟩
  · cases hget.symm.trans hk'
    exact ⟨hid, hc, hp⟩
  · show w.stripe.outbox ++ [_] = [_]
    rw [hq]; rfl

/-- The invariant reads the users, the products and the account. -/
theorem MirrorInv.congr {s c : String} {u : Nat} {w w' : World} (hi : MirrorInv s c u w)
    (hu : w'.db.users = w.db.users) (hp : w'.db.products = w.db.products)
    (hs : w'.stripe = w.stripe) : MirrorInv s c u w' := by
  have huser : userOf w' c = userOf w c := by unfold userOf findUserBy; rw [hu]
  have hprod : ∀ p, productOf w'.db p = productOf w.db p := by intro p; unfold productOf; rw [hp]
  obtain ⟨h₁, h₂, h₃⟩ := hi
  refine ⟨by rw [huser]; exact h₁, fun k hk => ?_, by rw [hs]; exact h₃⟩
  rw [hprod]
  exact h₂ k (hs ▸ hk)

theorem cancelRow_snd (i : Nat) (w : World) :
    ∃ t, ((cancelRow i).run w).2 = setSubscriptions w t := by
  unfold cancelRow
  rw [Act.run_get_bind]
  split
  · exact ⟨w.db.subscriptions, rfl⟩
  · rename_i t _
    exact ⟨t, rfl⟩

/-- What `subscriptions#destroy` does to the account, whoever sends it. -/
theorem subscriptionsDestroy_stripe (actor : Option Nat) (s : String) (w : World) : ∃ t sc,
    ((subscriptionsDestroy actor s).run w).2 = { setSubscriptions w t with script := sc } ∨
    ∃ k, w.stripe.subscription? s = some k ∧ ((subscriptionsDestroy actor s).run w).2 =
      { setSubscriptions w t with stripe := w.stripe.cancel k, script := sc } := by
  unfold subscriptionsDestroy
  rcases ha : (authenticate actor).run w with ⟨e | me, w₁⟩
  · have hw : w₁ = w := (congrArg Prod.snd ha).symm.trans (authenticate_snd actor w)
    rw [Act.bind_of_error ha, hw]
    exact ⟨w.db.subscriptions, w.script, .inl rfl⟩
  · obtain ⟨rfl, -, -⟩ := authenticate_ok ha
    rw [Act.bind_of_ok ha, Act.run_get_bind]
    split
    · exact ⟨w₁.db.subscriptions, w₁.script, .inl rfl⟩
    · rename_i r _
      obtain ⟨sc, ⟨e, hc⟩ | ⟨k, hk, -, hc⟩⟩ := subscriptionCancel_cases s w₁
      · rw [Act.bind_of_error hc]
        exact ⟨w₁.db.subscriptions, sc, .inl rfl⟩
      · rw [Act.bind_of_ok hc]
        obtain ⟨t, ht⟩ := cancelRow_snd r.id { w₁ with stripe := w₁.stripe.cancel k, script := sc }
        exact ⟨t, sc, .inr ⟨k, hk, ht⟩⟩

/-- The delivery of a created or updated event saves its row; a deleted one
does nothing. -/
theorem serve_event (lib : Lib) {s c : String} {u : Nat} {w : World} {e : Event}
    (hi : MirrorInv s c u w) (hq : w.stripe.outbox = [e]) :
    ∃ k, w.stripe.subscription? s = some k ∧ e.object = k.snapshot ∧
      ((EventType.syncs e.type = true ∧ ∃ x p t, x.id = u ∧ eventTarget w e.object = some (x, p) ∧
        upsertSubscription w.db.subscriptions x p e.object = some t ∧
        mirrorStep lib s c u w .deliver =
          some { setSubscriptions w t with stripe := { w.stripe with outbox := [] }, script := [] }) ∨
      (e.type = .subscriptionDeleted ∧ k.status = "canceled" ∧
        mirrorStep lib s c u w .deliver =
          some { w with stripe := { w.stripe with outbox := [] }, script := [] })) := by
  rcases hi.queue with hnil | ⟨e', k, he', hk, hobj, htype⟩
  · rw [hnil] at hq; cases hq
  · rw [he'] at hq
    cases hq
    refine ⟨k, hk, hobj, ?_⟩
    have hstep : mirrorStep lib s c u w .deliver = some ((webhooksStripe lib (some e)).run
        { w with stripe := { w.stripe with outbox := [] }, script := [] }).2 := by
      unfold mirrorStep
      rw [he']
      rfl
    rcases htype with hsync | ⟨hdel, hcan⟩
    · left
      obtain ⟨x, hx, hid⟩ := hi.user
      obtain ⟨-, hc, hp⟩ := hi.known k hk
      obtain ⟨p, hp⟩ := Option.isSome_iff_exists.1 hp
      have htarget : ∀ w' : World, w'.db = w.db → eventTarget w' e.object = some (x, p) := by
        intro w' hdb
        have hx' : userOf w' k.customer = some x := by
          unfold userOf findUserBy at hx ⊢
          rw [hdb, hc, hx]
        rw [hobj]
        exact eventTarget_eq_some_iff.2 ⟨k.product, [], hx', rfl, hdb ▸ hp⟩
      obtain ⟨t, ht, hrun⟩ := syncSubscription_of_target
        (htarget { w with stripe := { w.stripe with outbox := [] }, script := [] } rfl)
      refine ⟨hsync, x, p, t, hid, htarget w rfl, ht, ?_⟩
      rw [hstep, webhooksStripe_of_syncs lib hsync, hrun]
      rfl
    · right
      refine ⟨hdel, hcan, ?_⟩
      rw [hstep, webhooksStripe_of_subscriptionDeleted lib hdel]

theorem mirrorInv_start {s c : String} {u : Nat} {w : World} (h : MirrorStart s c u w) :
    MirrorInv s c u w := by
  refine ⟨h.1, fun k hk => ?_, .inl h.2.2⟩
  cases h.2.1.symm.trans hk

theorem mirrorInv_step {lib : Lib} {s c : String} {u : Nat} {w w' : World} {l : MirrorLabel}
    (hi : MirrorInv s c u w) (hl : Lockstep w l) (h : mirrorStep lib s c u w l = some w') :
    MirrorInv s c u w' := by
  have hempty : ∀ {l'}, l = l' → l' ≠ .deliver → w.stripe.outbox = [] := by
    rintro l' rfl hne
    exact hl.resolve_left hne
  cases l with
  | create status product =>
    simp only [mirrorStep] at h
    split at h
    · rename_i hc
      cases h
      exact mirrorInv_put hi (hempty rfl (by simp)) hc.2 rfl
    · cases h
  | update status product =>
    simp only [mirrorStep] at h
    split at h
    · rename_i hc
      cases h
      exact mirrorInv_put hi (hempty rfl (by simp)) hc.2 rfl
    · cases h
  | delete =>
    obtain ⟨k, hk, rfl⟩ := Option.map_eq_some_iff.1 h
    exact mirrorInv_cancel hi (hempty rfl (by simp)) hk
  | ownerCancel script =>
    cases h
    have hq : w.stripe.outbox = [] := hempty rfl (by simp)
    have hi' : MirrorInv s c u { w with script := script } := hi.congr rfl rfl rfl
    obtain ⟨t, sc, heq | ⟨k, hk, heq⟩⟩ :=
      subscriptionsDestroy_stripe (some u) s { w with script := script }
    · show MirrorInv s c u ((subscriptionsDestroy (some u) s).run { w with script := script }).2
      rw [heq]
      exact hi'.congr rfl rfl rfl
    · show MirrorInv s c u ((subscriptionsDestroy (some u) s).run { w with script := script }).2
      rw [heq]
      exact (mirrorInv_cancel hi' hq hk).congr rfl rfl rfl
  | deliver =>
    have hdone : MirrorInv s c u { w with stripe := { w.stripe with outbox := [] } } :=
      ⟨hi.user, hi.known, .inl rfl⟩
    obtain hnil | ⟨e, k, hq, -⟩ := hi.queue
    · simp [mirrorStep, hnil] at h
    · obtain ⟨-, -, -, ⟨-, x, p, t, -, -, -, hrun⟩ | ⟨-, -, hrun⟩⟩ := serve_event lib hi hq
      · cases hrun.symm.trans h
        exact hdone.congr rfl rfl rfl
      · cases hrun.symm.trans h
        exact hdone.congr rfl rfl rfl

/-- The active rows of `s` after an upsert: the one just written, if the
event says so, and those it did not overwrite. -/
theorem active_upsert {t t' : Table SubscriptionRow} {x : UserRow} {p : ProductRow} {o : StripeObject}
    (h : upsertSubscription t x p o = some t') :
    (∃ r ∈ t'.rows, ActiveRow x.id o.id r) ↔ o.status = "active" ∨
      ∃ r ∈ t.rows, ActiveRow x.id o.id r ∧ t.first (subscriptionKey x.id p.id o.id) ≠ some r := by
  rcases rows_upsertSubscription h with ⟨r₀, hr₀, hrows⟩ | ⟨hn, hrows⟩
  · obtain ⟨hmem₀, hkey⟩ := Table.mem_of_first hr₀
    simp only [subscriptionKey, Bool.and_eq_true, beq_iff_eq] at hkey
    rw [hrows, hr₀]
    constructor
    · rintro ⟨r', hr', hact⟩
      obtain ⟨r, hr, rfl⟩ := List.mem_map.1 hr'
      by_cases hid : r.id = r₀.id
      · rw [if_pos hid] at hact
        exact .inl (by simpa [assignSubscription] using hact.2.2)
      · rw [if_neg hid] at hact
        exact .inr ⟨r, hr, hact, fun he => hid (by cases he; rfl)⟩
    · rintro (hst | ⟨r, hr, hact, hne⟩)
      · refine ⟨assignSubscription x p o r₀, List.mem_map.2 ⟨r₀, hmem₀, if_pos rfl⟩, hkey.1.1, hkey.1.2, ?_⟩
        simp [assignSubscription, hst]
      · have hid : r.id ≠ r₀.id := fun he => hne (by rw [t.eq_of_rowId hr hmem₀ he])
        exact ⟨r, List.mem_map.2 ⟨r, hr, if_neg hid⟩, hact⟩
  · rw [hrows, hn]
    constructor
    · rintro ⟨r, hr, hact⟩
      rcases List.mem_append.1 hr with hr | hr
      · exact .inr ⟨r, hr, hact, by simp⟩
      · rw [List.mem_singleton.1 hr] at hact
        exact .inl (by simpa [assignSubscription] using hact.2.2)
    · rintro (hst | ⟨r, hr, hact, -⟩)
      · refine ⟨_, List.mem_append.2 (.inr (List.mem_singleton.2 rfl)), rfl, rfl, ?_⟩
        simp [assignSubscription, hst]
      · exact ⟨r, List.mem_append.2 (.inl hr), hact⟩

/-- One delivery restores agreement exactly when it covers the active rows. -/
theorem delivery_mirrors_iff {lib : Lib} {s c : String} {u : Nat} {w w' : World}
    (hi : MirrorInv s c u w) (h : mirrorStep lib s c u w .deliver = some w') :
    Mirrors s u w' ↔ CoversActive s u w := by
  obtain hnil | ⟨e, k', hq, -⟩ := hi.queue
  · simp [mirrorStep, hnil] at h
  · obtain ⟨k, hk, hobj, hcase⟩ := serve_event lib hi hq
    have hid : e.object.id = s := by rw [hobj]; exact (hi.known k hk).1
    have hstatus : e.object.status = k.status := by rw [hobj]; rfl
    have hcovers : CoversActive s u w ↔ (k.status ≠ "active" →
        ∀ r ∈ w.db.subscriptions.rows, ActiveRow u s r → overwritten w e = some r) := by
      unfold CoversActive
      rw [hq, ← hstatus]
      constructor
      · exact fun hc => hc e [] rfl
      · intro hc e' rest he'
        cases he'
        exact hc
    rw [hcovers, mirrors_iff]
    rcases hcase with ⟨hsync, x, p, t, rfl, htarget, ht, hrun⟩ | ⟨hdel, hcan, hrun⟩
    · have hover : overwritten w e = w.db.subscriptions.first (subscriptionKey x.id p.id e.object.id) := by
        unfold overwritten
        rw [if_pos hsync, htarget]
        rfl
      have hact := active_upsert ht
      rw [← hover, hid, hstatus] at hact
      cases hrun.symm.trans h
      show ((∃ r ∈ t.rows, ActiveRow x.id s r) ↔
        (w.stripe.subscription? s).map StripeSubscription.status = some "active") ↔ _
      rw [hact, hk]
      simp only [Option.map_some, Option.some.injEq]
      grind
    · cases hrun.symm.trans h
      show ((∃ r ∈ w.db.subscriptions.rows, ActiveRow u s r) ↔
        (w.stripe.subscription? s).map StripeSubscription.status = some "active") ↔ _
      have hover : overwritten w e = none := by
        unfold overwritten
        rw [hdel]
        rfl
      rw [hk, hover]
      simp [hcan]

section Runs

variable (lib : Lib) (s c : String) (u : Nat)

/-- The runs in which every event is delivered before the next change. -/
def lockstep : LTS World MirrorLabel := (mirrorSystem lib s c u).guard Lockstep

/-- Agreement after every delivery of a run is coverage before it. -/
theorem mirror_agrees_iff {w₀ : World} (h₀ : MirrorStart s c u w₀) (ls : List MirrorLabel) (w : World) :
    (∀ a b, (lockstep lib s c u).StepOf w₀ ls w a .deliver b → Mirrors s u b) ↔
    (∀ a b, (lockstep lib s c u).StepOf w₀ ls w a .deliver b → CoversActive s u a) := by
  have hkeeps : ∀ a l b, MirrorInv s c u a → (lockstep lib s c u).step a l b → MirrorInv s c u b :=
    fun a l b hi hs => mirrorInv_step hi hs.2 hs.1
  refine forall₃_congr fun a b hab => ?_
  obtain ⟨l₁, l₂, -, hrun, ⟨hstep, -⟩, -⟩ := hab
  exact delivery_mirrors_iff (hrun.keeps hkeeps (mirrorInv_start h₀)) hstep

end Runs

/-! ## A subscription that is created and deleted -/

/-- The shop after the changes and deliveries `ls` of subscription `sub_1`. -/
def shopAfter (ls : List MirrorLabel) : World :=
  (ls.foldlM (mirrorStep plainLib "sub_1" "cus_1" 1) shop).getD shop

def created : List MirrorLabel := [.create "active" "prod_2"]
def subscribed : List MirrorLabel := created ++ [.deliver]
def deleted : List MirrorLabel := subscribed ++ [.delete]

theorem shop_start : MirrorStart "sub_1" "cus_1" 1 shop := ⟨⟨aliceRow, by decide, rfl⟩, rfl, rfl⟩

/-- Stripe reports the subscription as past due. -/
def lapsed : List MirrorLabel := subscribed ++ [.update "past_due" "prod_2", .deliver]

/-- The row goes active with the subscription; the second event finds it
active and overwrites it. -/
theorem lapse_mirrored :
    MirrorStart "sub_1" "cus_1" 1 shop ∧
    (lockstep plainLib "sub_1" "cus_1" 1).Run shop lapsed (shopAfter lapsed) ∧
    ((shopAfter subscribed).db.subscriptions.rows.map SubscriptionRow.active = [some true] ∧
      (shopAfter lapsed).db.subscriptions.rows.map SubscriptionRow.active = [some false]) ∧
    ∀ a b, (lockstep plainLib "sub_1" "cus_1" 1).StepOf shop lapsed (shopAfter lapsed) a .deliver b →
      Mirrors "sub_1" 1 b := by
  refine ⟨shop_start, .cons ⟨rfl, .inr rfl⟩ (.cons ⟨rfl, .inl rfl⟩ (.cons ⟨rfl, .inr rfl⟩ (.cons ⟨rfl, .inl rfl⟩
    (.nil _)))), ⟨by decide, by decide⟩, (mirror_agrees_iff plainLib "sub_1" "cus_1" 1 shop_start lapsed _).2 ?_⟩
  intro a b h e rest he hst r hr _
  rcases h.of_cons with ⟨-, hl⟩ | ⟨w₁, ⟨h₁, -⟩, h⟩
  · cases hl
  cases h₁
  rcases h.of_cons with ⟨rfl, -⟩ | ⟨w₂, ⟨h₂, -⟩, h⟩
  · -- the first event reports the subscription as active
    cases he
    exact absurd rfl hst
  cases h₂
  rcases h.of_cons with ⟨-, hl⟩ | ⟨w₃, ⟨h₃, -⟩, h⟩
  · cases hl
  cases h₃
  rcases h.of_cons with ⟨rfl, -⟩ | ⟨w₄, -, l₁, l₂, hls, -⟩
  · cases he
    rw [List.mem_singleton.1 hr]
    rfl
  · simp at hls

/-- Stripe deletes the subscription; its event is delivered, and the row is
still active. -/
theorem deleted_stays_active :
    MirrorStart "sub_1" "cus_1" 1 shop ∧
    (lockstep plainLib "sub_1" "cus_1" 1).Run shop (deleted ++ [.deliver]) (shopAfter (deleted ++ [.deliver])) ∧
    ¬ ∀ a b, (lockstep plainLib "sub_1" "cus_1" 1).StepOf shop (deleted ++ [.deliver])
      (shopAfter (deleted ++ [.deliver])) a .deliver b → Mirrors "sub_1" 1 b := by
  have hrun : (lockstep plainLib "sub_1" "cus_1" 1).Run shop deleted (shopAfter deleted) :=
    .cons ⟨rfl, .inr rfl⟩ (.cons ⟨rfl, .inl rfl⟩ (.cons ⟨rfl, .inr rfl⟩ (.nil _)))
  have hlast : (lockstep plainLib "sub_1" "cus_1" 1).step (shopAfter deleted) .deliver
      (shopAfter (deleted ++ [.deliver])) := ⟨rfl, .inl rfl⟩
  refine ⟨shop_start, hrun.append (.cons hlast (.nil _)), fun h => ?_⟩
  have hm := (h _ _ ⟨deleted, [], rfl, hrun, hlast, .nil _⟩).1
  have hact : ∃ r ∈ (shopAfter (deleted ++ [.deliver])).db.subscriptions.rows, ActiveRow 1 "sub_1" r :=
    ⟨_, List.mem_singleton.2 rfl, rfl, rfl, rfl⟩
  have hstatus : ((shopAfter (deleted ++ [.deliver])).stripe.subscription? "sub_1").map
      StripeSubscription.status = some "canceled" := by decide
  rw [hstatus] at hm
  exact absurd (hm.1 hact) (by decide)

end Insta.Web
